/-
The session as a transition system.  A thread is a stack of pending critical
sections; a step runs the first section of one thread, starts a thread for an
outside call, or moves one record between the engine and its carrier.  `World`
joins two sessions by one FIFO channel in each direction.
-/
import Yume.Session.Receive

namespace Yume.Session

/-- One critical section. -/
def exec (engine : Engine) (choice : Choice) : Call → Outcome
  | .enqueue request owner => engine.enqueueLock request owner
  | .rotateCheck request owner => engine.enqueueRotate request owner choice.now
  | .admitCheck request owner => engine.enqueueAdmit request owner choice.now
  | .deferReserve request owner => engine.deferReserve request owner
  | .deferPush request owner => engine.deferPush request owner
  | .takeToken request owner => engine.takeToken request owner choice.now
  | .sealFrame request owner token =>
    engine.sealFrame request owner token choice.accept choice.overhead
  | .publish request owner token wire size =>
    engine.publish request owner token wire size
  | .tokenLost request owner status => engine.tokenLost request owner status
  | .initiateRekey caller => engine.initiateRekey caller choice.now
  | .beginRekey caller nextEpoch => engine.beginRekey caller nextEpoch choice
  | .rotateAgedEpoch => engine.rotateAgedEpoch choice.now
  | .expireRekey => engine.expireRekey choice.now []
  | .drainControls => engine.drainControls
  | .selectControl => engine.selectControl choice.pick
  | .controlRefused => engine.controlRefused
  | .localAcceptance id => engine.localAcceptance id
  | .controlsFail status => engine.controlsFail status
  | .drainWrites => engine.drainWrites
  | .selectWrite => engine.selectWrite
  | .settleWrite id size operationId status =>
    engine.settleWrite id size operationId status
  | .flushDeferred => engine.flushDeferred
  | .flushNext rest => engine.flushNext rest
  | .flushCheck deferred rest => engine.flushCheck deferred rest choice.now
  | .flushClosed deferred rest => engine.flushClosed deferred rest choice.now
  | .flushAbandon deferred rest status =>
    engine.flushAbandon deferred rest status
  | .finishShutdown id => engine.finishShutdown id
  | .finishCheck id => engine.finishCheck id
  | .removeStream id reason => engine.removeStream id reason
  | .dropWrites id => engine.dropWrites id
  | .dropInbound id => engine.dropInbound id
  | .settleHandshake id => engine.settleHandshake id
  | .retire id => some (engine.retireStream id, [])
  | .abortStream id code reason => engine.abortStream id code reason
  | .eraseUnpublished id => some (engine.modify id Stream.erase, [])
  | .returnCredit id bytes discarded =>
    engine.returnCredit id bytes discarded choice.now
  | .asyncOpen request => engine.asyncOpen request
  | .openRegistered id => engine.openRegistered id
  | .cancelOpen id => engine.cancelOpen id
  | .streamRead id => engine.streamRead id
  | .cancelRead id operationId => engine.cancelRead id operationId
  | .streamWrite id payload => engine.streamWrite id payload
  | .cancelWrite id operationId => engine.cancelWrite id operationId
  | .streamShutdown id => engine.streamShutdown id
  | .streamClose id => engine.streamClose id
  | .completePeerOpen id status => engine.completePeerOpen id status
  | .stopSession reason failed => some (engine.stop reason failed, [])
  | .advertise => engine.advertise
  | .advertiseCredit => engine.advertiseCredit
  | .processReceived wire => engine.processReceived wire choice.now
  | .processCapabilities manifest => engine.processCapabilities manifest
  | .processOpen id request => engine.processOpen id request
  | .insertPeerStream id request service =>
    engine.insertPeerStream id request service choice.accept
  | .processData id kind payload => engine.processData id kind payload
  | .publishData id kind payload => engine.publishData id kind payload
  | .processClose id code => engine.processClose id code
  | .processConnectionCredit increment =>
    engine.processConnectionCredit increment
  | .processStreamCredit id increment => engine.processStreamCredit id increment
  | .processPing => engine.processPing
  | .processPong => engine.processPong
  | .processRekeyInit epoch secret size =>
    engine.processRekeyInit epoch secret size choice
  | .acceptRekeyInit epoch secret size ackSize =>
    engine.acceptRekeyInit epoch secret size ackSize
  | .processRekeyAck epoch confirmation size =>
    engine.processRekeyAck epoch confirmation size choice.now
  | .receiveDone => engine.receiveDone

/-- The engine and its running calls. -/
structure Endpoint where
  engine : Engine
  threads : List (List Call)

/-- A step of one endpoint.  `sent` is the carrier's completion of the active
send, and `release` destroys the application's `index`-th received record. -/
inductive Label where
  | call (operation : Call)
  | run (thread : Nat) (choice : Choice)
  | pump
  | sent (status : Status) (now : Time)
  | release (index : Nat)
  | deliver (wire : Wire)

namespace Engine

/-- The calls an application, a handler or a timer can start, in the states in
which it holds what the call needs. -/
def callable (engine : Engine) : Call → Bool
  | .asyncOpen _ | .initiateRekey .api | .rotateAgedEpoch | .expireRekey
  | .cancelRead _ _ | .cancelWrite _ _ | .stopSession _ false => true
  | .cancelOpen id =>
    (engine.object id).any fun stream => stream.openCancellation
  | .streamRead id | .streamWrite id _ | .streamShutdown id
  | .streamClose id =>
    (engine.object id).any fun stream => stream.responderHeld
  | .completePeerOpen id _ =>
    (engine.object id).any fun stream =>
      stream.responderHeld && stream.openedByPeer
  | _ => false

/-- The first queued record becomes the active send. -/
def activate (engine : Engine) (item : OutboundItem) (rest : List OutboundItem) : Engine :=
  { engine with queue := { engine.queue with
      items := rest
      active := some
        { wire := item.wire
          wireBytes := item.size
          isControl := item.isControl
          completion := item.completion
          control := item.control } } }

/-- `request_send_pump`: one record at a time goes to the carrier. -/
def sendPump (engine : Engine) : Option (Engine × Wire) :=
  match engine.queue.items with
  | [] => none
  | item :: rest =>
    if engine.terminal ∨ engine.queue.active.isSome then none
    else some (engine.activate item rest, item.wire)

/-- The active send leaves the budget and completes its control. -/
def settleSend (engine : Engine) (active : ActiveSend) (now : Time) : Engine :=
  ({ engine with queue := { engine.queue with active := none } }.release
    active.wireBytes active.isControl).completeControl active.control true now

/-- `on_send_complete`. -/
def sendComplete (engine : Engine) (status : Status) (now : Time) : Outcome :=
  match engine.queue.active with
  | none => none
  | some active =>
    some (engine.settleSend active now,
      if status.isOk ∨ engine.terminal then [.drainControls]
      else [failCall status])

/-- A released record's lease returns its credit. -/
def releaseLease (engine : Engine) (index : Nat) : Outcome :=
  match engine.leases[index]? with
  | none => none
  | some (id, bytes) =>
    some ({ engine with leases := engine.leases.eraseIdx index }, [.returnCredit id bytes false])

def beginReceive (engine : Engine) (wire : Wire) : Outcome :=
  if engine.terminal ∨ engine.receiveInProgress then none
  else
    some ({ engine with receiveInProgress := true }, [.processReceived wire])

end Engine

namespace Endpoint

/-- A new thread runs the calls of an outcome. -/
def spawn (endpoint : Endpoint) (outcome : Outcome) : Option (Endpoint × Option Wire) :=
  outcome.map fun result =>
    (⟨result.1, endpoint.threads ++ [result.2]⟩, none)

/-- Runs the first critical section of one thread. -/
def runThread (endpoint : Endpoint) (thread : Nat) (choice : Choice) : Option Endpoint :=
  match endpoint.threads[thread]? with
  | some (call :: rest) =>
    (exec endpoint.engine choice call).map fun result =>
      ⟨result.1, endpoint.threads.set thread (result.2 ++ rest)⟩
  | _ => none

/-- One step, with the record it hands to the carrier. -/
def step (endpoint : Endpoint) : Label → Option (Endpoint × Option Wire)
  | .call operation =>
    if endpoint.engine.callable operation then
      endpoint.spawn (some (endpoint.engine, [operation]))
    else none
  | .run thread choice =>
    (endpoint.runThread thread choice).map fun next => (next, none)
  | .pump =>
    endpoint.engine.sendPump.map fun result =>
      (⟨result.1, endpoint.threads⟩, some result.2)
  | .sent status now => endpoint.spawn (endpoint.engine.sendComplete status now)
  | .release index => endpoint.spawn (endpoint.engine.releaseLease index)
  | .deliver wire => endpoint.spawn (endpoint.engine.beginReceive wire)

/-- A session whose AUTH exchange has just established it. -/
def initial (config : Config) : Endpoint where
  engine :=
    { config := config
      nextLocalStreamId := match config.role with
        | .client => 1
        | .server => 2
      receiveInProgress := true }
  threads := [[.advertise]]

end Endpoint

def EndpointRole.peer : EndpointRole → EndpointRole
  | .client => .server
  | .server => .client

/-- Two joined sessions, with the records on their way to each side. -/
structure World where
  endpoint : EndpointRole → Endpoint
  incoming : EndpointRole → List Wire

/-- A step of one side, or the delivery of the first record on its way to it. -/
inductive WorldLabel where
  | step (side : EndpointRole) (label : Label)
  | deliver (side : EndpointRole)

/-- The carrier alone decides which record is delivered. -/
def Label.isDelivery : Label → Bool
  | .deliver _ => true
  | _ => false

namespace World

/-- One side takes a step, and the record it sends joins the peer's channel. -/
def advance (world : World) (side : EndpointRole) (next : Endpoint)
    (emitted : Option Wire) : World where
  endpoint := fun role => if role = side then next else world.endpoint role
  incoming := fun role => if role = side then world.incoming role
    else world.incoming role ++ emitted.toList

def dropIncoming (world : World) (side : EndpointRole) : World where
  endpoint := world.endpoint
  incoming := fun role => if role = side then (world.incoming role).tail
    else world.incoming role

def step (world : World) : WorldLabel → Option World
  | .step side label =>
    if label.isDelivery then none
    else
      ((world.endpoint side).step label).map fun result =>
        world.advance side result.1 result.2
  | .deliver side =>
    match world.incoming side with
    | [] => none
    | wire :: _ =>
      ((world.endpoint side).step (.deliver wire)).map fun result =>
        (world.dropIncoming side).advance side result.1 result.2

/-- Two sessions established with each other.  Each holds the other's
authenticated manifest. -/
def initial (config : EndpointRole → Config) : World where
  endpoint := fun role => Endpoint.initial (config role)
  incoming := fun _ => []

end World

end Yume.Session
