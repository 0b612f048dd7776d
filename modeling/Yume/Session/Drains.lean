/-
The three loops that publish waiting work: `drain_owed_controls`,
`drain_pending_writes` and `flush_deferred_records`.  The first two admit one
drainer each; the flush runs inside the one call that processes a REKEY_ACK.
-/
import Yume.Session.Publish

namespace Yume.Session

namespace Stream

/-- The opener receives its responder. -/
def deliverAcceptance (stream : Stream) : Stream :=
  { stream with
    acceptanceReady := false
    openCancellation := false
    responderHeld := true }

/-- The first waiting write leaves its queue with its stream credit. -/
def takeWrite (write : PendingWrite) (stream : Stream) : Stream :=
  { stream with
    pendingWrites := stream.pendingWrites.tail
    outboundQueuedBytes :=
      stream.outboundQueuedBytes - write.payload.retainedCapacity
    outboundCredit := stream.outboundCredit - write.payload.size
    outboundPublications := stream.outboundPublications + 1 }

def endPublication (stream : Stream) : Stream :=
  { stream with outboundPublications := stream.outboundPublications - 1 }

/-- A write that was not published gives its stream credit back. -/
def refundWrite (size operationId : Nat) (stream : Stream) : Stream :=
  { (stream.forget (some operationId)).endPublication with
    outboundCredit := stream.outboundCredit + size }

end Stream

namespace Engine

/-- The stream object itself, which a call may still own after its entry in
`streams_` was erased. -/
def object (engine : Engine) (id : Nat) : Option Stream :=
  engine.streams.find? fun stream => stream.id == id

/-- A write whose record failed leaves its stream's kept writes. -/
def forgetWrite (engine : Engine) (deferred : DeferredRecord) : Engine :=
  engine.modify deferred.record.streamId (Stream.forget deferred.completion)

def drainControls (engine : Engine) : Outcome :=
  if engine.terminal then some (engine, [])
  else if engine.controlsDraining then
    some ({ engine with controlsDrainAgain := true }, [])
  else
    some ({ engine with controlsDraining := true, controlsDrainAgain := false }, [.selectControl])

/-- The drain ends: nothing is owed that it could send. -/
def endDrain (engine : Engine) : Engine :=
  { engine with controlsDraining := false }

def controlRequest (control : EngineControl) (close : CloseCode) : Request where
  record := controlRecord control close
  control := control

/-- One iteration of the drain, up to its `enqueue_record`. -/
def selectControl (engine : Engine) (pick : Nat) : Outcome :=
  if engine.terminal then some (engine.endDrain, [])
  else
    match engine.selectOwedControl pick with
    | (scanned, none) => some (scanned.endDrain, [])
    | (scanned, some (control, close)) =>
      if control.kind = .credit ∧ (control.increment = 0 ∨
          control.increment > maxCreditIncrement) then
        some (scanned, [.controlsFail ⟨.internal, "owed credit could not be encoded"⟩])
      else
        some ({ scanned with controlsDrainAgain := false },
          [.enqueue (controlRequest control close) .controls])

/-- A full queue ends the drain unless another caller asked for more. -/
def controlRefused (engine : Engine) : Outcome :=
  if engine.controlsDrainAgain then some (engine, [.selectControl])
  else some (engine.endDrain, [])

/-- `complete_local_acceptance`: the opener receives its responder. -/
def localAcceptance (engine : Engine) (id : Nat) : Outcome :=
  match engine.findOpen id with
  | none => some (engine, [.selectControl])
  | some stream =>
    if stream.acceptanceReady then
      some (engine.modify id Stream.deliverAcceptance, [.selectControl])
    else some (engine, [.selectControl])

def controlsFail (engine : Engine) (status : Status) : Outcome :=
  some ((engine.fail status).endDrain, [])

def drainWrites (engine : Engine) : Outcome :=
  if engine.pendingWritesDraining then some (engine, [])
  else some ({ engine with pendingWritesDraining := true }, [.selectWrite])

/-- A stream whose next write fits its own credit. -/
def writable (stream : Stream) : Bool :=
  stream.present && !stream.closed &&
    match stream.pendingWrites with
    | [] => false
    | write :: _ => decide (write.payload.size ≤ stream.outboundCredit)

def lowestId : List Stream → Option Stream
  | [] => none
  | stream :: rest =>
    match lowestId rest with
    | none => some stream
    | some other => if stream.id < other.id then some stream else some other

/-- The round-robin scan: the next stream after the last scheduled one, or the
lowest one. -/
def scheduledStream (engine : Engine) : Option Stream :=
  let candidates := engine.streams.filter writable
  (lowestId (candidates.filter fun stream =>
    decide (engine.lastScheduledStreamId < stream.id))).or (lowestId candidates)

/-- Takes a write off its queue and its bytes off both flow credits. -/
def takeWrite (engine : Engine) (stream : Stream) (write : PendingWrite) :
    Engine :=
  { engine.modify stream.id (Stream.takeWrite write) with
    lastScheduledStreamId := stream.id
    outboundConnectionCredit :=
      engine.outboundConnectionCredit - write.payload.size
    queue := { engine.queue with pendingWriteBytes :=
      engine.queue.pendingWriteBytes - write.payload.retainedCapacity } }

def writeRequest (stream : Stream) (write : PendingWrite) : Request where
  record := .data stream.id stream.kind write.payload
  completion := some write.operationId

def idleWrites (engine : Engine) : Outcome :=
  some ({ engine with pendingWritesDraining := false }, [])

/-- One iteration of `drain_pending_writes`.  A pending rotation holds it only
once records wait for the new epoch. -/
def selectWrite (engine : Engine) : Outcome :=
  if engine.terminal ∨ (engine.outbound.rekeyPending ∧ engine.queue.deferred ≠ []) then
    engine.idleWrites
  else
    match engine.scheduledStream with
    | none => engine.idleWrites
    | some stream =>
      match stream.pendingWrites with
      | [] => engine.idleWrites
      | write :: _ =>
        if write.payload.size > engine.outboundConnectionCredit then
          engine.idleWrites
        else
          some (engine.takeWrite stream write, [.enqueue (writeRequest stream write)
              (.writes stream.id write.payload.size write.operationId)])

/-- A write that was not published gives both credits back. -/
def settleWrite (engine : Engine) (id size operationId : Nat) (status : Status) : Outcome :=
  if status.isOk then
    some (engine.modify id Stream.endPublication, [.finishShutdown id, .selectWrite])
  else
    some ({ engine.modify id (Stream.refundWrite size operationId) with
      outboundConnectionCredit := engine.outboundConnectionCredit + size },
      [.finishShutdown id, .selectWrite])

/-- `flush_deferred_records`: the whole deferred queue is taken at once. -/
def flushDeferred (engine : Engine) : Outcome :=
  if engine.terminal then some (engine, [.receiveDone])
  else if engine.outbound.rekeyPending then
    some (engine, receiveFailed ⟨.failedPrecondition, "outbound rekey barrier is still active"⟩)
  else
    some ({ engine with queue := { engine.queue with deferred := [] } },
      [.flushNext engine.queue.deferred])

/-- The flush gives a record's reservation back before it publishes it. -/
def flushRelease (engine : Engine) (deferred : DeferredRecord) : Engine :=
  { engine with queue := if engine.terminal then engine.queue
      else (engine.release (engine.deferredReservation deferred) deferred.isControl).queue }

/-- After the last record `process_rekey_ack` drains what the barrier held. -/
def flushNext (engine : Engine) : List DeferredRecord → Outcome
  | [] => some (engine, [.drainControls, .drainWrites, .receiveDone])
  | deferred :: rest =>
    some (engine.flushRelease deferred, [.flushCheck deferred rest])

/-- The record is dropped: its control is completed without admission, and its
write fails. -/
def failDeferred (engine : Engine) (deferred : DeferredRecord) (now : Time) :
    Engine :=
  (engine.completeControl deferred.control false now).forgetWrite deferred

/-- A record of a closed stream is dropped, and its connection credit comes
back. -/
def flushCheck (engine : Engine) (deferred : DeferredRecord)
    (rest : List DeferredRecord) (now : Time) : Outcome :=
  if engine.targetClosed deferred.record then
    some ({ engine.failDeferred deferred now with
      outboundConnectionCredit :=
        engine.outboundConnectionCredit + deferred.record.dataBytes },
      [.flushNext rest])
  else some (engine, [.enqueue deferred.request (.flush rest)])

/-- The stream closed after the check of `flushCheck`, before its record took a
token. -/
def flushClosed (engine : Engine) (deferred : DeferredRecord)
    (rest : List DeferredRecord) (now : Time) : Outcome :=
  some (engine.failDeferred deferred now, [.flushNext rest])

/-- The budget the remaining records of an abandoned flush still hold. -/
def releaseAll (engine : Engine) (rest : List DeferredRecord) : OutboundQueue :=
  if engine.terminal then engine.queue
  else
    { engine.queue with
      wireBytes := engine.queue.wireBytes - (rest.map engine.deferredReservation).sum
      controlMessages := engine.queue.controlMessages -
        rest.countP fun deferred => deferred.isControl }

/-- Any other refusal abandons the flush and fails the session. -/
def flushAbandon (engine : Engine) (deferred : DeferredRecord)
    (rest : List DeferredRecord) (status : Status) : Outcome :=
  some ({ engine with
    queue := engine.releaseAll rest
    streams := ((deferred :: rest).foldl forgetWrite engine).streams },
    receiveFailed status)

end Engine

end Yume.Session
