/-
Receive-credit accounting and the engine's owed controls: when consumed credit
is collected, how windows grow, and how a control is reserved, admitted and
completed.
-/
import Yume.Session.Engine

namespace Yume.Session

/-- `return_threshold`: how much consumed credit makes a return due.  A packet
channel can use only the whole packets that fit the window. -/
def returnThreshold (limits : SessionLimits) (window packet maximum : Nat) :
    Nat :=
  let updates := if window ≥ maximum then limits.creditReturnsPerWindow else 2
  let usable := if packet ≠ 0 ∧ packet ≤ window then window - window % packet
    else window
  if usable ≤ limits.maxFramePayload then 1
  else min (usable / updates) (usable - limits.maxFramePayload)

/-- `grow_window_locked`: two returns less than two round trips apart double
the window.  The second component is the growth. -/
def growWindow (roundTrip : Option Time) (window : ReceiveWindow)
    (maximum : Nat) (now : Time) : ReceiveWindow × Nat :=
  let stamped := { window with lastReturn := some now }
  match window.lastReturn, roundTrip with
  | some previous, some trip =>
    if window.size ≥ maximum ∨ now - previous ≥ 2 * trip then (stamped, 0)
    else
      let grown := min (window.size * 2) maximum
      ({ stamped with size := grown }, grown - window.size)
  | _, _ => (stamped, 0)

namespace Engine

/-- `take_connection_credit_locked`.  Below one frame of peer credit the usual
batch is not waited for. -/
def takenWindow (engine : Engine) (window : ReceiveWindow) (due : Bool)
    (growth : Nat) : ReceiveWindow :=
  let window := { window with owed := window.owed + growth }
  if ¬ engine.grantSlotFree window ∨
      (¬ due ∧ growth = 0 ∧ engine.inboundConnectionCredit ≥ engine.limits.maxFramePayload) then
    window
  else { window with owed := window.owed + window.unreturned, unreturned := 0 }

/-- Is the connection's consumed credit at its return point? -/
def connectionDue (engine : Engine) : Bool :=
  decide (returnThreshold engine.limits engine.connectionWindow.size 0
    engine.limits.maxConnectionCredit ≤ engine.connectionWindow.unreturned)

/-- Grows the connection window when a return is due, then collects. -/
def collectConnectionCredit (engine : Engine) (mayGrow : Bool) (now : Time) :
    Engine :=
  let grown := growWindow engine.roundTrip engine.connectionWindow
    engine.limits.maxConnectionCredit now
  { engine with connectionWindow :=
      if engine.connectionDue && mayGrow then
        engine.takenWindow grown.1 true grown.2
      else engine.takenWindow engine.connectionWindow engine.connectionDue 0 }

/-- The connection window stays at one and a half times any stream window. -/
def raisedFloor (engine : Engine) (streamWindow : Nat) : ReceiveWindow :=
  let floor := min (streamWindow + streamWindow / 2) engine.limits.maxConnectionCredit
  let window := engine.connectionWindow
  if floor > window.size then
    { window with owed := window.owed + (floor - window.size), size := floor }
  else window

/-- The guard of `collect_stream_credit_locked`. -/
def streamCollectible (engine : Engine) (stream : Stream) : Bool :=
  let window := stream.receiveWindow
  !stream.closed && engine.grantSlotFree window && decide (window.unreturned ≠ 0) &&
    decide (returnThreshold engine.limits window.size stream.largestPacket
      stream.maxReceiveCredit ≤ window.unreturned)

/-- Moves a stream's consumed credit and its window's growth to `owed`. -/
def collected (engine : Engine) (now : Time) (stream : Stream) : Stream :=
  let grown := growWindow engine.roundTrip stream.receiveWindow stream.maxReceiveCredit now
  { stream with receiveWindow :=
      { grown.1 with
        owed := grown.1.owed + (grown.1.unreturned + grown.2)
        unreturned := 0 } }

/-- `collect_stream_credit_locked`. -/
def collectStreamCredit (engine : Engine) (id : Nat) (now : Time) : Engine :=
  match (engine.find id).filter engine.streamCollectible with
  | none => engine
  | some stream =>
    { engine.modify id (engine.collected now) with
      streamControlsOwed := true
      connectionWindow := engine.raisedFloor (engine.collected now stream).receiveWindow.size }

/-- `retire_stream_locked`. -/
def retireStream (engine : Engine) (id : Nat) : Engine :=
  engine.modify id fun stream =>
    if stream.present && stream.retirable then { stream with present := false }
    else stream

def streamIsClosed : Status := ⟨.closed, "stream is closed"⟩
def sessionIsClosed : Status := ⟨.closed, "session is closed"⟩

/-- `reserve_control_locked`. -/
def reserveControl (engine : Engine) (control : EngineControl) :
    Except Status (Engine × EngineControl) :=
  if control.kind = .none ∨ control.reserved then .ok (engine, control)
  else
    let reserved := { control with reserved := true }
    if control.streamId = 0 then
      -- The only connection-scope engine control is credit.
      if control.kind = .credit then
        let window := engine.connectionWindow
        if control.increment > window.owed then
          .error ⟨.internal, "local credit exceeds what is owed"⟩
        else
          .ok ({ engine with connectionWindow :=
            { window with
              owed := window.owed - control.increment
              granting := window.granting + control.increment
              grantsQueued := window.grantsQueued + 1 } }, reserved)
      else .ok (engine, reserved)
    else
      match engine.find control.streamId with
      | none => .error streamIsClosed
      | some stream =>
        -- A stream that closed after its credit was chosen dropped it.
        if control.kind = .credit ∧ stream.closed then .error streamIsClosed
        else if control.kind = .credit ∧ control.increment > stream.receiveWindow.owed then
          .error ⟨.internal, "local credit exceeds what is owed"⟩
        else
          .ok (engine.modify control.streamId (Stream.reserveControl control), reserved)

/-- `admit_control_locked`. -/
def admitControl (engine : Engine) (control : EngineControl) : Except Status Engine :=
  if control.kind = .none then .ok engine
  else if control.streamId = 0 then
    if control.kind = .credit then
      let window := engine.connectionWindow
      if control.increment > window.granting ∨
          engine.inboundConnectionCredit > window.size ∨
          control.increment > window.size - engine.inboundConnectionCredit then
        .error ⟨.internal, "local credit exceeds its receive window"⟩
      else
        .ok { engine with
          connectionWindow :=
            { window with granting := window.granting - control.increment }
          inboundConnectionCredit :=
            engine.inboundConnectionCredit + control.increment }
    else .ok engine
  else
    match engine.find control.streamId with
    | none => .error ⟨.internal, "engine control lost its stream"⟩
    | some stream =>
      if control.kind = .credit ∧
          (control.increment > stream.receiveWindow.granting ∨
            stream.inboundCredit > stream.receiveWindow.size ∨
            control.increment > stream.receiveWindow.size - stream.inboundCredit) then
        .error ⟨.internal, "local credit exceeds its receive window"⟩
      else
        .ok { engine.modify control.streamId (Stream.admitControl control) with
          streamControlsOwed :=
            engine.streamControlsOwed || control.kind != .credit }

/-- The stream's flags and counters after its control completed. -/
def completed (engine : Engine) (control : EngineControl) (admitted : Bool) :
    Engine :=
  { engine.modify control.streamId (Stream.completeControl control admitted) with
    streamControlsOwed := true }

/-- `complete_control_locked`. -/
def completeControl (engine : Engine) (control : EngineControl)
    (admitted : Bool) (now : Time) : Engine :=
  if engine.terminal ∨ control.kind = .none then engine
  else if control.streamId = 0 then
    let window := engine.connectionWindow
    { engine with connectionWindow :=
        { window with
          grantsQueued := window.grantsQueued - 1
          granting := if admitted then window.granting
            else window.granting - control.increment } }.collectConnectionCredit true now
  else
    match engine.find control.streamId with
    | none => engine
    | some _ =>
      let completed := engine.completed control admitted
      let collected := if control.kind = .credit then
        completed.collectStreamCredit control.streamId now else completed
      collected.retireStream control.streamId

/-- The control a stream owes next, in the order the scan tries them. -/
def streamOwes (engine : Engine) (stream : Stream) : Option (EngineControl × CloseCode) :=
  if stream.terminalOwed.isSome ∧ ¬ stream.terminalQueued then
    some ({ kind := .terminal, streamId := stream.id }, stream.terminalOwed.getD .aborted)
  else if ¬ stream.closed ∧ stream.receiveWindow.owed ≠ 0 ∧
      engine.grantSlotFree stream.receiveWindow then
    some ({ kind := .credit, streamId := stream.id,
            increment := stream.receiveWindow.owed % 2 ^ 32 }, .normal)
  else if stream.finOwed ∧ ¬ stream.finQueued then
    some ({ kind := .fin, streamId := stream.id }, .normal)
  else if stream.settlementOwed ∧ ¬ stream.settlementQueued ∧
      stream.terminalOwed.isNone ∧ ¬ stream.finOwed then
    some ({ kind := .settlement, streamId := stream.id }, .settled)
  else none

/-- The first stream that owes a control.  `unordered_map` fixes no iteration
order, so `pick` names the stream the scan meets first. -/
def firstOwed (engine : Engine) (pick : Nat) : Option (EngineControl × CloseCode) :=
  ((engine.find pick).bind engine.streamOwes).or (engine.streams.findSome? fun stream =>
      if stream.present then engine.streamOwes stream else none)

/-- `select_owed_control_locked`.  The increment is cast to 32 bits. -/
def selectOwedControl (engine : Engine) (pick : Nat) :
    Engine × Option (EngineControl × CloseCode) :=
  if engine.connectionWindow.owed ≠ 0 ∧ engine.grantSlotFree engine.connectionWindow then
    (engine, some ({ kind := .credit,
                     increment := engine.connectionWindow.owed % 2 ^ 32 },
                   .normal))
  else if ¬ engine.streamControlsOwed then (engine, none)
  else
    match engine.firstOwed pick with
    | some owed => (engine, some owed)
    | none => ({ engine with streamControlsOwed := false }, none)

/-- The record that discharges an owed control. -/
def controlRecord (control : EngineControl) (close : CloseCode) : Record :=
  if control.kind = .credit then
    if control.streamId = 0 then .connectionCredit control.increment
    else .streamCredit control.streamId control.increment
  else .close control.streamId close

end Engine

end Yume.Session
