/-
`enqueue_record` and `defer_record`, one definition for each critical section,
and the rotation that a send or a timer starts.  A protected sender holds the
record-order lock from `enqueueLock` until its record is queued, deferred or
refused, and gives it up while it starts a rotation.
-/
import Yume.Session.Calls

namespace Yume.Session

namespace Engine

/-- Leaves `enqueue_record`: releases the record-order lock and continues the
caller. -/
def returnFrom (engine : Engine) (request : Request) (owner : Owner)
    (status : Status) (admission : QueueAdmission) : Outcome :=
  some (engine.unlock request, owner.resume request status admission)

def enqueueLock (engine : Engine) (request : Request) (owner : Owner) :
    Outcome :=
  if request.protect ∧ engine.orderingLocked then none
  else if request.record.payloadSize > engine.limits.maxFramePayload then
    some (engine, owner.resume request
      ⟨.resourceExhausted, "record payload exceeds the frame bound"⟩
      .unattempted)
  else
    some ({ engine with
      orderingLocked := engine.orderingLocked || request.protect },
      [.rotateCheck request owner])

/-- Has the outbound epoch used half of one of its limits? -/
def rotationDue (engine : Engine) (size : Nat) (now : Time) : Bool :=
  engine.state == .active && !engine.outbound.rekeyPending &&
    decide (engine.outbound.records ≠ 0) &&
    (decide (size + engine.outbound.bytes > engine.config.epochPayloadBytes / 2) ||
      decide (engine.outbound.records ≥ engine.config.epochRecordLimit / 2) ||
      decide (now - engine.outbound.firstSend ≥ rotationStartAge))

def enqueueRotate (engine : Engine) (request : Request) (owner : Owner) (now : Time) : Outcome :=
  if request.protect ∧ ¬ request.record.isRekeyInit ∧
      engine.rotationDue request.record.payloadSize now then
    some (engine.unlock request, [.initiateRekey .send, .enqueue request owner])
  else some (engine, [.admitCheck request owner])

/-- May a record of this size still leave in the epoch being replaced? -/
def fitsOldEpoch (engine : Engine) (size : Nat) (now : Time) : Bool :=
  engine.queue.deferred.isEmpty &&
    decide (size ≤ engine.config.epochPayloadBytes - engine.outbound.bytes) &&
    decide (engine.outbound.records < engine.config.epochRecordLimit) &&
    (engine.outbound.records == 0 ||
      decide (now - engine.outbound.firstSend < epochSendLifetime))

/-- The target of an application record must be an open stream.  CLOSE records
are exempt. -/
def targetClosed (engine : Engine) (record : Record) : Bool :=
  record.streamId != 0 && !record.isClose && (engine.findOpen record.streamId).isNone

def enqueueAdmit (engine : Engine) (request : Request) (owner : Owner) (now : Time) : Outcome :=
  if engine.terminal then
    engine.returnFrom request owner sessionIsClosed .unattempted
  else if engine.targetClosed request.record then
    engine.returnFrom request owner streamIsClosed .unattempted
  else if request.protect ∧ engine.outbound.rekeyPending ∧
      ¬ request.bypassRekeyBarrier ∧
      ¬ engine.fitsOldEpoch request.record.payloadSize now then
    some (engine, [.deferReserve request owner])
  else some (engine, [.takeToken request owner])

/-- Application records leave room for one engine control. -/
def queueLimit (engine : Engine) (control : EngineControl) : Nat :=
  if control.kind = .none then applicationQueueLimit engine.limits
  else outboundQueueLimit engine.limits

def refuse (engine : Engine) (request : Request) (owner : Owner) (message : String) : Outcome :=
  engine.returnFrom request owner ⟨.resourceExhausted, message⟩ .refused

def deferReserve (engine : Engine) (request : Request) (owner : Owner) :
    Outcome :=
  let limit := engine.queueLimit request.control
  let size := request.record.payloadSize
  if size > engine.limits.maxFramePayload ∨ size > limit ∨
      engine.fixedOverhead true > limit - size then
    engine.refuse request owner "deferred record exceeds the queue bound"
  else if engine.terminal then
    engine.returnFrom request owner sessionIsClosed .unattempted
  else if request.isControl ∧
      engine.queue.controlMessages ≥ engine.limits.maxControlMessages - 2 then
    engine.refuse request owner "control-message queue is full"
  else if engine.queue.retained > limit ∨
      engine.fixedOverhead true + size > limit - engine.queue.retained then
    engine.refuse request owner "session outbound queue is full"
  else
    some (engine.charge (engine.fixedOverhead true + size) request.isControl,
      [.deferPush request owner])

def pushDeferred (engine : Engine) (request : Request) : Engine :=
  { engine with queue := { engine.queue with
      deferred := engine.queue.deferred ++ [request.deferred] } }

def deferPush (engine : Engine) (request : Request) (owner : Owner) :
    Outcome :=
  let released := engine.release
    (engine.fixedOverhead true + request.record.payloadSize) request.isControl
  if engine.terminal then
    released.returnFrom request owner sessionIsClosed .unattempted
  else
    match engine.reserveControl request.control with
    | .error status => released.returnFrom request owner status .unattempted
    | .ok (reserved, control) =>
      (reserved.pushDeferred { request with control := control }).returnFrom
        request owner Status.success .accepted

/-- Rekey records may use the whole budget. -/
def tokenLimit (engine : Engine) (request : Request) : Nat :=
  if request.record.isRekeyControl then engine.limits.maxQueuedBytes
  else engine.queueLimit request.control

def tokenControlLimit (engine : Engine) (request : Request) : Nat :=
  engine.limits.maxControlMessages -
    if request.record.isRekeyControl then 0 else 2

/-- Marks OPEN as published and records the stream's history. -/
def commitToStream (engine : Engine) (request : Request) : Engine :=
  engine.modify request.record.streamId (Stream.commit request)

/-- Consumes the next one-use token and counts the record against its epoch.
REKEY_INIT is not counted. -/
def allocateToken (engine : Engine) (record : Record) (now : Time) : Engine :=
  let out := engine.outbound
  let counted := if record.isRekeyInit then out else
    { out with
      firstSend := if out.records = 0 then now else out.firstSend
      bytes := out.bytes + record.payloadSize
      records := out.records + 1 }
  { engine with
    outbound := if out.nextSequence = maxSequence then
        { counted with sequenceExhausted := true }
      else { counted with nextSequence := out.nextSequence + 1 }
    history := { engine.history with committed := engine.history.committed ++
      [(⟨out.epoch, out.nextSequence⟩, record)] } }

/-- May this record be sent in the session's state? -/
def sendable (engine : Engine) (request : Request) : Bool :=
  if request.protect then
    engine.state == .awaitingCapabilities || engine.state == .active
  else
    engine.state == .active &&
      match request.record with
      | .rekeyAck _ _ _ => true
      | _ => false

/-- The record joins its stream's history, takes the next token and is charged
to the outbound budget. -/
def committed (engine : Engine) (request : Request) (bytes : Nat) (now : Time) : Engine :=
  { engine with
    streams := (engine.commitToStream request).streams
    outbound := (engine.allocateToken request.record now).outbound
    history := (engine.allocateToken request.record now).history
    queue := (engine.charge bytes request.isControl).queue }

def takeToken (engine : Engine) (request : Request) (owner : Owner) (now : Time) : Outcome :=
  let size := request.record.payloadSize
  let fixed := engine.fixedOverhead request.protect
  let bytes := engine.reservation request
  let limit := engine.tokenLimit request
  if size > engine.limits.maxQueuedBytes ∨ fixed > engine.limits.maxQueuedBytes - size then
    engine.returnFrom request owner ⟨.resourceExhausted, "record exceeds the outbound queue bound"⟩
      .unattempted
  else if engine.terminal then
    engine.returnFrom request owner sessionIsClosed .unattempted
  else if engine.targetClosed request.record then
    engine.returnFrom request owner streamIsClosed .unattempted
  else if ¬ engine.sendable request then
    engine.returnFrom request owner ⟨.failedPrecondition, if request.protect then
        "protected record sent before AUTH completion"
        else "unprotected record is invalid in the session state"⟩ .unattempted
  else if request.isControl ∧ engine.queue.controlMessages ≥ engine.tokenControlLimit request then
    engine.refuse request owner "control-message queue is full"
  else if engine.queue.retained > limit ∨ bytes > limit - engine.queue.retained then
    engine.refuse request owner "session outbound queue is full"
  else
    match engine.reserveControl request.control with
    | .error status => engine.returnFrom request owner status .unattempted
    | .ok (reserved, control) =>
      match reserved.admitControl control with
      | .error status =>
        reserved.returnFrom request owner status .unattempted
      | .ok admitted =>
        let request := { request with control := control }
        if ¬ request.protect then
          some (admitted.charge bytes request.isControl, [.sealFrame request owner ⟨0, 0⟩])
        else if admitted.outbound.sequenceExhausted then
          admitted.returnFrom request owner
            ⟨.resourceExhausted, "outbound record sequence is exhausted"⟩
            .accepted
        else
          some (admitted.committed request bytes now, [.sealFrame request owner
              ⟨admitted.outbound.epoch, admitted.outbound.nextSequence⟩])

def noteSealed (engine : Engine) (request : Request) (token : RecordKeyToken) : Engine :=
  { engine with history := { engine.history with
      sealed := engine.history.sealed ++
        if request.protect then [token] else [] } }

/-- The record as it leaves: sealed under the outbound root, or bare. -/
def sealedWire (engine : Engine) (request : Request) (token : RecordKeyToken) :
    Wire :=
  if request.protect then
    .sealed token ⟨engine.security.outboundRoot, token, request.record⟩
  else .bare request.record

/-- The record could not be sealed: its reservation and the record-order lock
are released. -/
def sealFailed (engine : Engine) (request : Request) (token : RecordKeyToken) :
    Engine :=
  { engine.noteSealed request token with
    queue := (engine.release (engine.reservation request) request.isControl).queue
    orderingLocked := engine.orderingLocked && !request.protect }

/-- `encode_frame` and `protect_frame`.  The provider may fail, and refuses an
overhead above its own bound. -/
def sealFrame (engine : Engine) (request : Request) (owner : Owner)
    (token : RecordKeyToken) (accept : Bool) (overhead : Nat) : Outcome :=
  if ¬ accept then
    some (engine.sealFailed request token, [.tokenLost request owner
      ⟨.internal, "security provider threw while sealing a record"⟩])
  else if request.protect ∧ overhead > engine.config.maxSealedOverhead then
    some (engine.sealFailed request token, [.tokenLost request owner ⟨.providerMismatch,
        "security provider returned an invalid sealed-record size"⟩])
  else
    some (engine.noteSealed request token, [.publish request owner token
      (engine.sealedWire request token)
      (frameHeaderSize + request.record.payloadSize +
        if request.protect then protectedEnvelopeBytes + overhead else 0)])

/-- Queue insertion.  The unused part of the reservation is returned. -/
def pushItem (engine : Engine) (request : Request) (token : RecordKeyToken)
    (wire : Wire) (size : Nat) : Engine :=
  let item : OutboundItem :=
    { wire := wire
      size := size
      isControl := request.isControl
      completion := request.completion
      control := request.control }
  { engine with
    streams := (engine.modify request.record.streamId (Stream.enqueued request)).streams
    queue :=
      { engine.queue with
        items := engine.queue.items ++ [item]
        wireBytes :=
          engine.queue.wireBytes - (engine.reservation request - size) }
    history := { engine.history with
      queued := engine.history.queued ++
        if request.protect then [(token, request.record)] else [] } }

def publish (engine : Engine) (request : Request) (owner : Owner)
    (token : RecordKeyToken) (wire : Wire) (size : Nat) : Outcome :=
  if engine.terminal then
    (engine.release (engine.reservation request)
      request.isControl).returnFrom request owner sessionIsClosed .accepted
  else
    (engine.pushItem request token wire size).returnFrom request owner Status.success .accepted

/-- A one-use token was consumed without a queued record: the session cannot
continue.  The record-order lock is already released here. -/
def tokenLost (engine : Engine) (request : Request) (owner : Owner) (status : Status) : Outcome :=
  some (if request.protect then engine.fail status else engine,
    owner.resume request status .accepted)

/-- A refused `initiate_rekey` fails the session for a send or the age timer,
unless a rotation was already pending. -/
def rekeyRefused (engine : Engine) (caller : RekeyCaller) (status : Status) :
    Outcome :=
  if caller = .api ∨ status.code = .alreadyExists then some (engine, [])
  else some (engine, [failCall status])

/-- The barrier goes up before the provider starts the rekey. -/
def startRekey (engine : Engine) (now : Time) : Engine :=
  { engine with
    outbound := { engine.outbound with
      rekeyPending := true
      rekeyExpired := false
      rekeyStarted := now
      rekeyDeadline := now + engine.limits.rekeyAckTimeout
      rekeyEpoch := engine.outbound.epoch + 1 }
    rekeyWork := engine.rekeyWork + 1 }

def initiateRekey (engine : Engine) (caller : RekeyCaller) (now : Time) :
    Outcome :=
  if engine.state ≠ .active then
    engine.rekeyRefused caller ⟨.failedPrecondition, "session is not active"⟩
  else if engine.outbound.rekeyPending then
    engine.rekeyRefused caller ⟨.alreadyExists, "outbound rekey is already pending"⟩
  else if engine.rekeyWork ≥ engine.limits.maxConcurrentRekeys ∨
      engine.outbound.epoch = maxEpoch then
    engine.rekeyRefused caller ⟨.resourceExhausted, "directional rekey capacity is exhausted"⟩
  else
    some (engine.startRekey now, [.beginRekey caller (engine.outbound.epoch + 1)])

def rekeyDeadlineExpired : Status :=
  ⟨.failedPrecondition, "rekey acknowledgement deadline expired"⟩

/-- The condition under which `expire_rekey` acts. -/
def rekeyExpiredAt (engine : Engine) (now : Time) : Bool :=
  !engine.terminal && engine.outbound.rekeyPending && decide (engine.outbound.rekeyDeadline ≤ now)

def markExpired (engine : Engine) : Engine :=
  { engine with outbound := { engine.outbound with rekeyExpired := true } }

/-- `expire_rekey`: only an expiry takes the record-order lock. -/
def expireRekey (engine : Engine) (now : Time) (calls : List Call) : Outcome :=
  if ¬ engine.rekeyExpiredAt now then some (engine, calls)
  else if engine.orderingLocked then none
  else some (engine.markExpired, [failCall rekeyDeadlineExpired])

/-- The provider's candidate for the next outbound root. -/
def beginOutboundRekey (engine : Engine) (secret : Nat) : Engine :=
  { engine with security := { engine.security with
      candidate := some (secret :: engine.security.outboundRoot) } }

def rekeyInitRequest (nextEpoch : Nat) (choice : Choice) : Request where
  record := .rekeyInit nextEpoch choice.secret choice.messageSize
  isControl := true
  bypassRekeyBarrier := true

/-- A rekey message must fit the protocol's and the session's bounds. -/
def rekeySizeOk (engine : Engine) (size bound : Nat) : Bool :=
  decide (size ≠ 0) && decide (size ≤ bound) && decide (size ≤ engine.limits.maxRekeyPayload)

/-- A message of the provider must also fit one frame. -/
def rekeyMessageOk (engine : Engine) (size bound : Nat) : Bool :=
  engine.rekeySizeOk size bound && decide (size ≤ engine.limits.maxFramePayload - rekeyEpochBytes)

/-- `begin_outbound_rekey` and the publication of REKEY_INIT. -/
def beginRekey (engine : Engine) (caller : RekeyCaller) (nextEpoch : Nat)
    (choice : Choice) : Outcome :=
  if ¬ choice.accept then
    some (engine, [failCall ⟨.internal, "security provider threw while beginning rekey"⟩])
  else if ¬ engine.rekeyMessageOk choice.messageSize rekeyInitMessageBytes then
    some (engine, [failCall ⟨.providerMismatch,
      "security provider returned an invalid rekey initiation"⟩])
  else
    (engine.beginOutboundRekey choice.secret).expireRekey choice.now
      [.enqueue (rekeyInitRequest nextEpoch choice) (.rekeyInit caller)]

/-- `rotate_aged_epoch`. -/
def rotateAgedEpoch (engine : Engine) (now : Time) : Outcome :=
  if engine.state ≠ .active ∨ engine.outbound.rekeyPending ∨
      engine.outbound.records = 0 ∨
      now - engine.outbound.firstSend < rotationStartAge then
    some (engine, [])
  else some (engine, [.initiateRekey .aged])

end Engine

end Yume.Session
