/-
The engine's functions release their locks between critical sections, so one
call is a stack of pending critical sections.  Each constructor of `Call` is
the next critical section of one source function together with the locals it
still needs; `Owner` is the caller that `enqueue_record` returns to.
-/
import Yume.Session.Credit

namespace Yume.Session

/-- Who called `initiate_rekey`: the public API, the age timer, or a send. -/
inductive RekeyCaller where
  | api
  | aged
  | send
deriving Repr, DecidableEq

/-- The caller of one `enqueue_record`, with the locals it keeps meanwhile. -/
inductive Owner where
  | controls
  | writes (streamId : Nat) (size : Nat) (operationId : Nat)
  | flush (rest : List DeferredRecord)
  | open (streamId : Nat)
  | rekeyInit (caller : RekeyCaller)
  | rekeyAck
  | pong
  | capabilities
deriving Repr, DecidableEq

inductive Call where
  -- enqueue_record and defer_record
  | enqueue (request : Request) (owner : Owner)
  | rotateCheck (request : Request) (owner : Owner)
  | admitCheck (request : Request) (owner : Owner)
  | deferReserve (request : Request) (owner : Owner)
  | deferPush (request : Request) (owner : Owner)
  | takeToken (request : Request) (owner : Owner)
  | sealFrame (request : Request) (owner : Owner) (token : RecordKeyToken)
  | publish (request : Request) (owner : Owner) (token : RecordKeyToken) (wire : Wire) (size : Nat)
  | tokenLost (request : Request) (owner : Owner) (status : Status)
  -- initiate_rekey, rotate_aged_epoch and expire_rekey
  | initiateRekey (caller : RekeyCaller)
  | beginRekey (caller : RekeyCaller) (nextEpoch : Nat)
  | rotateAgedEpoch
  | expireRekey
  -- drain_owed_controls and complete_local_acceptance
  | drainControls
  | selectControl
  | controlRefused
  | localAcceptance (streamId : Nat)
  | controlsFail (status : Status)
  -- drain_pending_writes
  | drainWrites
  | selectWrite
  | settleWrite (streamId : Nat) (size : Nat) (operationId : Nat) (status : Status)
  -- flush_deferred_records
  | flushDeferred
  | flushNext (rest : List DeferredRecord)
  | flushCheck (deferred : DeferredRecord) (rest : List DeferredRecord)
  | flushClosed (deferred : DeferredRecord) (rest : List DeferredRecord)
  | flushAbandon (deferred : DeferredRecord) (rest : List DeferredRecord) (status : Status)
  -- closing a stream
  | finishShutdown (streamId : Nat)
  | finishCheck (streamId : Nat)
  | removeStream (streamId : Nat) (reason : Status)
  | dropWrites (streamId : Nat)
  | dropInbound (streamId : Nat)
  | settleHandshake (streamId : Nat)
  | retire (streamId : Nat)
  | abortStream (streamId : Nat) (code : CloseCode) (reason : Status)
  | eraseUnpublished (streamId : Nat)
  | returnCredit (streamId : Nat) (bytes : Nat) (discarded : Bool)
  -- application calls
  | asyncOpen (request : OpenRequest)
  | openRegistered (streamId : Nat)
  | cancelOpen (streamId : Nat)
  | streamRead (streamId : Nat)
  | cancelRead (streamId : Nat) (operationId : Nat)
  | streamWrite (streamId : Nat) (payload : Buffer)
  | cancelWrite (streamId : Nat) (operationId : Nat)
  | streamShutdown (streamId : Nat)
  | streamClose (streamId : Nat)
  | completePeerOpen (streamId : Nat) (status : Status)
  | stopSession (reason : Status) (failed : Bool)
  -- the receive path
  | advertise
  | advertiseCredit
  | processReceived (wire : Wire)
  | processCapabilities (manifest : CapabilityManifest)
  | processOpen (streamId : Nat) (request : OpenRequest)
  | insertPeerStream (streamId : Nat) (request : OpenRequest) (service : Option ServiceRequirement)
  | processData (streamId : Nat) (kind : ServiceKind) (payload : Buffer)
  | publishData (streamId : Nat) (kind : ServiceKind) (payload : Buffer)
  | processClose (streamId : Nat) (code : CloseCode)
  | processConnectionCredit (increment : Nat)
  | processStreamCredit (streamId : Nat) (increment : Nat)
  | processPing
  | processPong
  | processRekeyInit (epoch : Nat) (secret : Nat) (messageSize : Nat)
  | acceptRekeyInit (epoch : Nat) (secret : Nat) (messageSize : Nat) (ackSize : Nat)
  | processRekeyAck (epoch : Nat) (confirmation : Root) (messageSize : Nat)
  | receiveDone

/-- What the environment decides in one critical section: the clock, the order
of an `unordered_map` scan, provider and handler outcomes and sizes. -/
structure Choice where
  now : Time := 0
  pick : Nat := 0
  accept : Bool := true
  overhead : Nat := 0
  secret : Nat := 0
  messageSize : Nat := rekeyInitMessageBytes
deriving Repr, DecidableEq

def failCall (status : Status) : Call := .stopSession status true

/-- `on_receive` after a failed record: the receive ends, then the session
fails. -/
def receiveFailed (status : Status) : List Call :=
  [.receiveDone, failCall status]

/-- Continues the caller of `enqueue_record` with its result. -/
def Owner.resume (owner : Owner) (request : Request) (status : Status)
    (admission : QueueAdmission) : List Call :=
  match owner with
  | .controls =>
    if admission = .refused then [.controlRefused]
    else if status.isOk then
      if request.control.kind = .credit ∧ request.control.streamId ≠ 0 then
        [.localAcceptance request.control.streamId]
      else [.selectControl]
    else if status.code = .closed then [.selectControl]
    else [.controlsFail status]
  | .writes id size operation => [.settleWrite id size operation status]
  | .flush rest =>
    if status.isOk then [.flushNext rest]
    else if status.code = .closed then [.flushClosed request.deferred rest]
    else [.flushAbandon request.deferred rest status]
  | .open id =>
    if status.isOk then [.openRegistered id]
    else if admission = .refused then [.abortStream id .aborted status]
    else [failCall status]
  | .rekeyInit _ => if status.isOk then [] else [failCall status]
  | .rekeyAck =>
    if status.isOk then [.rotateAgedEpoch, .receiveDone]
    else receiveFailed status
  | .pong => if status.isOk then [.receiveDone] else receiveFailed status
  | .capabilities =>
    if status.isOk then [.advertiseCredit] else receiveFailed status

/-- One critical section either blocks on the record-order lock or yields the
new engine state and the calls that replace it on its stack. -/
abbrev Outcome := Option (Engine × List Call)

end Yume.Session
