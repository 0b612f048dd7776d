/-
The windows of the streams of a circuit, at the client and at the exit, and the
messages between them.  Each stream is a lane: its two ends and what is on its
way.  A lane keeps its messages in order; those of different lanes may pass each
other, which is more than the one channel of a circuit allows.
-/
import Yume.CircuitNode.ExitBounds
import Yume.Lib.Runs

namespace Yume.CircuitClient.Windows

open Yume.Lib
open Yume.Circuit (maxCreditIncrement)
open Yume.CircuitNode (Exit ExitLimits ExitMessage ExitStream maxDataPayload)
open Yume.CircuitNode.StreamReason (done)

/-- The part of `ClientLimits` that the windows read. -/
structure ClientLimits where
  streamWindow : Nat
  maxStreamWindow : Nat
  circuitWindow : Nat
  streamsPerCircuit : Nat
deriving Repr, DecidableEq

/-- The limits of both ends. -/
structure Limits where
  client : ClientLimits
  exit : ExitLimits
deriving Repr, DecidableEq

/-- `StreamReason::Closed`. -/
def closedReason : UInt8 := 8

/-- The messages a client sends on a stream. -/
inductive ClientMessage where
  | begin
  | data (payload : Bytes)
  | «end» (reason : UInt8)
  | credit (increment : Nat)
deriving Repr, DecidableEq

/-- The windows of a `ClientStream` that the circuit still lists. -/
structure ClientStream where
  window : Nat
  receiveAllowed : Nat
  consumed : Nat
  sendWindow : Nat
  /-- The cells that `pump` has sent and not yet taken from the window. -/
  sending : List Nat
  connected : Bool
  remoteDone : Bool
  endSent : Bool
  received : List Bytes
  /-- The records handed to the application and not yet released. -/
  lent : List Bytes
deriving Repr, DecidableEq

structure Lane where
  id : Nat
  client : Option ClientStream
  exit : Exit
  up : List ClientMessage
  /-- What the exit's outstanding read asked for. -/
  asked : Nat
  /-- The client failed the circuit. -/
  failed : Bool
deriving Repr, DecidableEq

inductive LaneMove where
  /-- `pump` hands one cell on. -/
  | send (payload : Bytes)
  /-- `pump` goes on after the call that took the cell. -/
  | sent
  /-- The END of a stream that was shut down and has drained. -/
  | finish
  /-- The application closes the stream. -/
  | close
  /-- The application reads a record. -/
  | take
  /-- The application releases a record. -/
  | release (index : Nat)
  /-- The client receives the next message. -/
  | receive
  /-- The exit receives the next message. -/
  | deliver (serves : Bool)
  | exitOpen (failure : Option UInt8)
  | pumpWrite
  | written (ok : Bool)
  | pumpRead
  | read (result : Exit.ReadResult)
  | settle
deriving Repr, DecidableEq

namespace Lane

/-- `open_stream`, once the circuit has room. -/
def «open» (limits : ClientLimits) (id : Nat) : Lane where
  id := id
  client := some
    { window := limits.streamWindow
      receiveAllowed := limits.streamWindow
      consumed := 0
      sendWindow := limits.streamWindow
      sending := []
      connected := false
      remoteDone := false
      endSent := false
      received := []
      lent := [] }
  exit := .create
  up := [.begin]
  asked := 0
  failed := false

/-- The message handlers of the client, for a stream it still lists. -/
def handle (lane : Lane) (stream : ClientStream) : ExitMessage → Lane
  | .connected _ =>
    if stream.connected then { lane with failed := true }
    else { lane with client := some { stream with connected := true } }
  | .data _ payload =>
    if ¬ stream.connected ∨ stream.remoteDone ∨ payload.length > stream.receiveAllowed then
      { lane with failed := true }
    else
      { lane with
        client := some { stream with
            receiveAllowed := stream.receiveAllowed - payload.length
            received := stream.received ++ [payload] } }
  | .end _ reason =>
    if ¬ stream.connected ∨ reason ≠ done then { lane with client := none }
    else if stream.endSent then { lane with client := none }
    else { lane with client := some { stream with remoteDone := true } }
  | .credit _ increment =>
    let sendWindow := (stream.sendWindow + increment) % 2 ^ 64
    if sendWindow > maxCreditIncrement then { lane with failed := true }
    else { lane with client := some { stream with sendWindow } }

/-- The client takes the first message of the exit's queue. -/
def receive (lane : Lane) : Option Lane :=
  match lane.exit.queue with
  | [] => none
  | message :: rest =>
    let lane := { lane with exit := { lane.exit with queue := rest } }
    match lane.client with
    | none => some lane
    | some stream => some (lane.handle stream message)

/-- The exit takes the first message of the client. -/
def deliver (limits : ExitLimits) (lane : Lane) (serves : Bool) : Option Lane :=
  match lane.up with
  | [] => none
  | message :: rest =>
    let exit :=
      match message with
      | .begin => lane.exit.begin limits lane.id true serves true
      | .data payload => lane.exit.data lane.id payload
      | .end reason => lane.exit.end lane.id reason
      | .credit increment => lane.exit.credit lane.id increment
    some { lane with up := rest, exit }

/-- `consumed`, with the growth that the circuit has room for. -/
def consume (grow : Nat → Nat) (lane : Lane) (stream : ClientStream) (released : Nat) : Lane :=
  let consumed := stream.consumed + released
  if consumed < stream.window / 2 ∨ stream.remoteDone then
    { lane with client := some { stream with consumed } }
  else
    let growth := grow stream.window
    -- `send_message` throws on an increment that no message carries.
    if consumed + growth = 0 ∨ consumed + growth > maxCreditIncrement then
      { lane with failed := true }
    else
      { lane with
        client := some { stream with
            consumed := 0
            window := stream.window + growth
            receiveAllowed := stream.receiveAllowed + (consumed + growth) }
        up := lane.up ++ [.credit (consumed + growth)] }

/-- The exit's stream of a lane. -/
def far (lane : Lane) : Option ExitStream := lane.exit.findKey 0

/-- A `pump` of the stream is inside the call that takes its cell. -/
def busy (lane : Lane) : Bool := lane.client.any fun stream => !stream.sending.isEmpty

/-- A read returns at most what it asked for. -/
def fits (lane : Lane) : Exit.ReadResult → Bool
  | .data payload => decide (payload.length ≤ lane.asked)
  | _ => true

/-- A step of a lane.  The channel of the destination opens once, writes whole
buffers and reads at most what it was asked for.  An entry that completes a
write inside the call may let another `pump` send before the first goes on; no
message is received in between. -/
def step (limits : Limits) (grow : Nat → Nat) (lane : Lane) : LaneMove → Option Lane
  | .send payload =>
    lane.client.bind fun stream =>
      if stream.endSent ∨ payload = [] ∨ payload.length > stream.sendWindow ∨
          payload.length > maxDataPayload .forward then none
      else some { lane with
          client := some { stream with sending := payload.length :: stream.sending }
          up := lane.up ++ [.data payload] }
  | .sent =>
    lane.client.bind fun stream =>
      match stream.sending with
      | [] => none
      | chunk :: rest => some { lane with
          client := some { stream with
              sendWindow := (stream.sendWindow + (2 ^ 64 - chunk)) % 2 ^ 64, sending := rest } }
  | .finish =>
    lane.client.bind fun stream =>
      if stream.endSent then none
      else some { lane with
          client := if stream.remoteDone then none else some { stream with endSent := true }
          up := lane.up ++ [.end done] }
  | .close =>
    lane.client.map fun stream =>
      { lane with
        client := none
        up := if stream.endSent ∧ stream.remoteDone then lane.up
          else lane.up ++ [.end closedReason] }
  | .take =>
    lane.client.bind fun stream =>
      match stream.received with
      | [] => none
      | record :: rest => some { lane with
          client := some { stream with received := rest, lent := stream.lent ++ [record] } }
  | .release index =>
    lane.client.bind fun stream =>
      stream.lent[index]?.map fun record =>
        lane.consume grow { stream with lent := stream.lent.eraseIdx index } record.length
  | .receive => if lane.busy then none else lane.receive
  | .deliver serves => lane.deliver limits.exit serves
  | .exitOpen failure =>
    lane.far.bind fun stream =>
      if stream.channel then none
      else some { lane with exit := lane.exit.onExitOpen 0 failure }
  | .pumpWrite => some { lane with exit := lane.exit.pumpWrite 0 }
  | .written ok =>
    lane.far.bind fun stream =>
      stream.writing.map fun buffer =>
        { lane with exit := lane.exit.onWritten limits.exit 0 ok buffer.length }
  | .pumpRead =>
    lane.far.map fun stream =>
      { lane with
        exit := lane.exit.pumpRead limits.exit 0
        asked := if stream.reading then lane.asked
          else min stream.sendWindow (maxDataPayload .backward) }
  | .read result =>
    lane.far.bind fun stream =>
      if ¬ stream.reading ∨ ¬ lane.fits result then none
      else some { lane with exit := lane.exit.onRead 0 result }
  | .settle => some { lane with exit := lane.exit.settle 0 }

end Lane

/-! ### The streams of a circuit -/

structure Streams where
  lanes : List Lane
deriving Repr, DecidableEq

inductive StreamsMove where
  | «open»
  | lane (index : Nat) (move : LaneMove)
deriving Repr, DecidableEq

namespace Streams

/-- The window of a stream that the client lists. -/
def width (lane : Lane) : Nat := (lane.client.map ClientStream.window).getD 0

def listed (lane : Lane) : Nat := if lane.client.isSome then 1 else 0

def total (streams : Streams) : Nat := weigh width streams.lanes

/-- `window_available`. -/
def windowAvailable (limits : ClientLimits) (streams : Streams) (grant : Nat) : Bool :=
  decide (grant + streams.total ≤ limits.circuitWindow)

/-- `window_growth`. -/
def windowGrowth (limits : ClientLimits) (streams : Streams) (window : Nat) : Nat :=
  if window ≥ limits.maxStreamWindow then 0
  else
    let growth := min window (limits.maxStreamWindow - window)
    if streams.windowAvailable limits growth then growth else 0

def step (limits : Limits) (streams : Streams) : StreamsMove → Option Streams
  | .open =>
    -- `has_stream_capacity`
    if weigh listed streams.lanes < limits.client.streamsPerCircuit ∧
        streams.windowAvailable limits.client limits.client.streamWindow then
      some { lanes := streams.lanes ++ [.open limits.client (streams.lanes.length + 1)] }
    else none
  | .lane index move =>
    streams.lanes[index]?.bind fun lane =>
      (lane.step limits (streams.windowGrowth limits.client) move).map fun lane =>
        { lanes := streams.lanes.set index lane }

def start : Streams := { lanes := [] }

/-- The entry completes the write of a cell only after the call that started it
has returned: no `pump` sends inside another of its stream. -/
def deferred (streams : Streams) : StreamsMove → Bool
  | .lane index (.send _) => streams.lanes[index]?.all fun lane => !lane.busy
  | _ => true

end Streams

end Yume.CircuitClient.Windows
