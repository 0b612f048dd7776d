/-
What one critical section can do, said once: every branch of every section with
the guards it ran under, the engine it leaves and the sections that replace it.
All invariants are derived from these cases.
-/
import Yume.Session.Machine

namespace Yume.Session

open List Option

/-- Sections that may find nothing to do. -/
def Call.passive : Call → Bool
  | .initiateRekey _ | .rotateAgedEpoch | .expireRekey | .drainWrites
  | .cancelOpen _ | .streamShutdown _ | .completePeerOpen _ _ => true
  | _ => false

/-- Sections that work on the received record. -/
def Call.receiving : Call → Bool
  | .processReceived _ | .processOpen _ _ | .insertPeerStream _ _ _
  | .processData _ _ _ | .processConnectionCredit _ | .processStreamCredit _ _
  | .processRekeyInit _ _ _ | .processRekeyAck _ _ _ | .flushDeferred => true
  | _ => false

namespace Engine

/-- `control`, with its close code, is one the drain may select. -/
def Owes (e : Engine) (control : EngineControl) (close : CloseCode) : Prop :=
  (e.connectionWindow.owed ≠ 0 ∧ e.grantSlotFree e.connectionWindow = true ∧
    control = { kind := .credit,
                increment := e.connectionWindow.owed % 2 ^ 32 } ∧
    close = .normal) ∨
  ∃ stream ∈ e.streams, stream.present = true ∧ e.streamOwes stream = some (control, close)

/-- A read of this stream waits for its data. -/
def readParks (e : Engine) (id : Nat) : Bool :=
  !e.terminal && !e.operationIdsExhausted &&
    (e.object id).any (fun held => !held.terminated && !held.endOfStream) &&
    (e.findOpen id).any fun stream => stream.pendingRead.isNone &&
      stream.inbound.isEmpty && !stream.peerWriteClosed

/-- The outbound budget has no place for a record that would take a token. -/
def TokenFull (e : Engine) (r : Request) : Prop :=
  (r.isControl = true ∧ e.tokenControlLimit r ≤ e.queue.controlMessages) ∨
  e.tokenLimit r < e.queue.retained + e.reservation r

/-- The outbound budget has no place for a record that would be deferred. -/
def DeferFull (e : Engine) (r : Request) : Prop :=
  e.limits.maxFramePayload < r.record.payloadSize ∨
  (r.isControl = true ∧ e.limits.maxControlMessages - 2 ≤ e.queue.controlMessages) ∨
  e.queueLimit r.control < e.queue.retained + (e.fixedOverhead true + r.record.payloadSize)

/-- The credit of a record cannot be returned. -/
def CreditInvalid (e : Engine) (id bytes : Nat) : Prop :=
  (bytes = 0 ∨ bytes > maxCreditIncrement) ∨ (e.terminal = false ∧ e.returnable id bytes = false)

/-- Why the token section of `enqueue_record` leaves without a token. -/
def TokenRefused (e : Engine) (r : Request) (status : Status) (admission : QueueAdmission) : Prop :=
  (status.code = .resourceExhausted ∧
    ((e.limits.maxQueuedBytes < e.reservation r ∧ admission = .unattempted) ∨
      (e.TokenFull r ∧ admission = .refused))) ∨
  (e.terminal = true ∧ status = sessionIsClosed ∧ admission = .unattempted) ∨
  (e.targetClosed r.record = true ∧ status = streamIsClosed ∧ admission = .unattempted) ∨
  (e.sendable r = false ∧ status.code = .failedPrecondition ∧ admission = .unattempted) ∨
  (e.terminal = false ∧ e.reserveControl r.control = .error status ∧ admission = .unattempted)

/-- A record may take a token here. -/
structure TokenOpen (e : Engine) (r : Request) : Prop where
  live : e.terminal = false
  target : e.targetClosed r.record = false
  sendable : e.sendable r = true
  control : r.isControl = true → e.queue.controlMessages < e.tokenControlLimit r
  room : e.queue.retained + e.reservation r ≤ e.tokenLimit r

/-- An engine with the windows, the credit and the owed controls of another one.
Controls and their credit change nothing else. -/
abbrev withCredit (e last : Engine) : Engine :=
  { e with
    streams := last.streams
    streamControlsOwed := last.streamControlsOwed
    connectionWindow := last.connectionWindow
    inboundConnectionCredit := last.inboundConnectionCredit }

/-- An engine that ends as another one ended. -/
abbrev withStop (e last : Engine) : Engine :=
  { e with
    state := last.state
    terminalStatus := last.terminalStatus
    streams := last.streams
    pendingOpens := last.pendingOpens
    inboundQueuedBytes := last.inboundQueuedBytes
    queue := last.queue }

end Engine

open Engine

/-- The branches of the critical sections. -/
inductive Effect (e : Engine) (choice : Choice) :
    Call → Engine → List Call → Prop where
  | idle {c} : c.passive = true → Effect e choice c e []
  | receiveFailing {c status} : c.receiving = true → Effect e choice c e (receiveFailed status)
  -- enqueue_record and defer_record
  | enqueueRefused {r o} : r.record.payloadSize > e.limits.maxFramePayload →
    Effect e choice (.enqueue r o) e (o.resume r
      ⟨.resourceExhausted, "record payload exceeds the frame bound"⟩
      .unattempted)
  | enqueueLocked {r o} : (r.protect = true → e.orderingLocked = false) →
    r.record.payloadSize ≤ e.limits.maxFramePayload →
    Effect e choice (.enqueue r o) { e with orderingLocked := e.orderingLocked || r.protect }
      [.rotateCheck r o]
  | rotates {r o now} : r.protect = true → r.record.isRekeyInit = false →
    e.rotationDue r.record.payloadSize now = true →
    Effect e choice (.rotateCheck r o) (e.unlock r) [.initiateRekey .send, .enqueue r o]
  | rotatePasses {r o now} :
    (r.protect = true → r.record.isRekeyInit = false →
      e.rotationDue r.record.payloadSize now = false) →
    Effect e choice (.rotateCheck r o) e [.admitCheck r o]
  | admitLeaves {r o status} :
    (e.terminal = true ∧ status = sessionIsClosed) ∨
      (e.targetClosed r.record = true ∧ status = streamIsClosed) →
    Effect e choice (.admitCheck r o) (e.unlock r) (o.resume r status .unattempted)
  | admitDefers {r o now} : e.terminal = false →
    e.targetClosed r.record = false → r.protect = true →
    e.outbound.rekeyPending = true → r.bypassRekeyBarrier = false →
    e.fitsOldEpoch r.record.payloadSize now = false →
    Effect e choice (.admitCheck r o) e [.deferReserve r o]
  | admitTakes {r o now} : e.terminal = false →
    e.targetClosed r.record = false →
    (r.protect = true → e.outbound.rekeyPending = true →
      r.bypassRekeyBarrier = false →
      e.fitsOldEpoch r.record.payloadSize now = true) →
    Effect e choice (.admitCheck r o) e [.takeToken r o]
  | deferLeaves {r o status admission} :
    (e.terminal = true ∧ status = sessionIsClosed ∧ admission = .unattempted) ∨
      (status.code = .resourceExhausted ∧ admission = .refused ∧ e.DeferFull r) →
    Effect e choice (.deferReserve r o) (e.unlock r) (o.resume r status admission)
  | deferReserves {r o} : e.terminal = false →
    (r.isControl = true → e.queue.controlMessages < e.limits.maxControlMessages - 2) →
    e.queue.retained + (e.fixedOverhead true + r.record.payloadSize) ≤ e.queueLimit r.control →
    Effect e choice (.deferReserve r o)
      (e.charge (e.fixedOverhead true + r.record.payloadSize) r.isControl)
      [.deferPush r o]
  | deferPushLeaves {r o status} :
    (e.terminal = true ∧ status = sessionIsClosed) ∨
      (e.terminal = false ∧ e.reserveControl r.control = .error status) →
    Effect e choice (.deferPush r o) ((e.release (e.fixedOverhead true + r.record.payloadSize)
        r.isControl).unlock r) (o.resume r status .unattempted)
  | deferPushes {r o reserved control} : e.terminal = false →
    e.reserveControl r.control = .ok (reserved, control) →
    Effect e choice (.deferPush r o)
      (((e.withCredit reserved).pushDeferred { r with control := control }).unlock r)
      (o.resume r Status.success .accepted)
  | tokenLeaves {r o status admission} : e.TokenRefused r status admission →
    Effect e choice (.takeToken r o) (e.unlock r) (o.resume r status admission)
  | tokenUnadmitted {r o reserved control status} : e.TokenOpen r →
    e.reserveControl r.control = .ok (reserved, control) →
    reserved.admitControl control = .error status →
    Effect e choice (.takeToken r o) ((e.withCredit reserved).unlock r)
      (o.resume r status .unattempted)
  | tokenExhausted {r o reserved control admitted} : e.TokenOpen r →
    e.reserveControl r.control = .ok (reserved, control) →
    reserved.admitControl control = .ok admitted →
    r.protect = true → e.outbound.sequenceExhausted = true →
    Effect e choice (.takeToken r o) ((e.withCredit admitted).unlock r)
      (o.resume { r with control := control }
      ⟨.resourceExhausted, "outbound record sequence is exhausted"⟩ .accepted)
  | tokenBare {r o reserved control admitted} : e.TokenOpen r →
    e.reserveControl r.control = .ok (reserved, control) →
    reserved.admitControl control = .ok admitted → r.protect = false →
    Effect e choice (.takeToken r o)
      ((e.withCredit admitted).charge (e.reservation r) r.isControl)
      [.sealFrame { r with control := control } o ⟨0, 0⟩]
  | tokenTaken {r o reserved control admitted now} : e.TokenOpen r →
    e.reserveControl r.control = .ok (reserved, control) →
    reserved.admitControl control = .ok admitted →
    r.protect = true → e.outbound.sequenceExhausted = false →
    Effect e choice (.takeToken r o)
      ((e.withCredit admitted).committed { r with control := control } (e.reservation r) now)
      [.sealFrame { r with control := control } o ⟨e.outbound.epoch, e.outbound.nextSequence⟩]
  | sealLost {r o token status} :
    choice.accept = false ∨ e.config.maxSealedOverhead < choice.overhead →
    status.isOk = false → status.code ≠ .closed →
    Effect e choice (.sealFrame r o token) (e.sealFailed r token) [.tokenLost r o status]
  | sealDone {r o token size} : size ≤ e.reservation r →
    Effect e choice (.sealFrame r o token) (e.noteSealed r token)
      [.publish r o token (e.sealedWire r token) size]
  | publishStopped {r o token wire size} : e.terminal = true →
    Effect e choice (.publish r o token wire size)
      ((e.release (e.reservation r) r.isControl).unlock r)
      (o.resume r sessionIsClosed .accepted)
  | publishes {r o token wire size} : e.terminal = false →
    Effect e choice (.publish r o token wire size) ((e.pushItem r token wire size).unlock r)
      (o.resume r Status.success .accepted)
  | tokenFails {r o status} : r.protect = true →
    Effect e choice (.tokenLost r o status) (e.withStop (e.fail status))
      (o.resume r status .accepted)
  | bareLost {r o status} : r.protect = false →
    Effect e choice (.tokenLost r o status) e (o.resume r status .accepted)
  -- initiate_rekey, rotate_aged_epoch and expire_rekey
  | rekeyFails {caller status} : Effect e choice (.initiateRekey caller) e [failCall status]
  | rekeyStarts {caller now} : e.state = .active →
    e.outbound.rekeyPending = false →
    e.rekeyWork < e.limits.maxConcurrentRekeys →
    e.outbound.epoch ≠ maxEpoch →
    Effect e choice (.initiateRekey caller) (e.startRekey now)
      [.beginRekey caller (e.outbound.epoch + 1)]
  | rekeyBeginFails {caller n status} : Effect e choice (.beginRekey caller n) e [failCall status]
  | rekeyBeginExpires {caller n secret} :
    Effect e choice (.beginRekey caller n) (e.beginOutboundRekey secret).markExpired
      [failCall rekeyDeadlineExpired]
  | rekeyBegins {caller n} :
    e.rekeyMessageOk choice.messageSize rekeyInitMessageBytes = true →
    Effect e choice (.beginRekey caller n) (e.beginOutboundRekey choice.secret)
      [.enqueue (rekeyInitRequest n choice) (.rekeyInit caller)]
  | rotatesAged : Effect e choice .rotateAgedEpoch e [.initiateRekey .aged]
  | expires : Effect e choice .expireRekey e.markExpired [failCall rekeyDeadlineExpired]
  -- drain_owed_controls
  | drainSkips : e.terminal = true → Effect e choice .drainControls e []
  | drainAgain : e.terminal = false → e.controlsDraining = true →
    Effect e choice .drainControls { e with controlsDrainAgain := true } []
  | drainStarts : e.terminal = false → e.controlsDraining = false →
    Effect e choice .drainControls { e with controlsDraining := true, controlsDrainAgain := false }
      [.selectControl]
  | drainStops : e.terminal = true →
    Effect e choice .selectControl { e with controlsDraining := false } []
  | drainEnds : e.terminal = false →
    (e.connectionWindow.owed ≠ 0 → e.grantSlotFree e.connectionWindow = false) →
    (e.streamControlsOwed = true → ∀ stream ∈ e.streams,
      stream.present = true → e.streamOwes stream = none) →
    Effect e choice .selectControl
      { e with controlsDraining := false, streamControlsOwed := false } []
  | drainUnencodable {control close status} : e.Owes control close →
    control.kind = .credit ∧ (control.increment = 0 ∨ control.increment > maxCreditIncrement) →
    Effect e choice .selectControl e [.controlsFail status]
  | drainSelects {control close} : e.terminal = false → e.Owes control close →
    (control.kind = .credit → control.increment ≠ 0 ∧ control.increment ≤ maxCreditIncrement) →
    Effect e choice .selectControl { e with controlsDrainAgain := false }
      [.enqueue (controlRequest control close) .controls]
  | drainContinues : e.controlsDrainAgain = true →
    Effect e choice .controlRefused e [.selectControl]
  | drainRefused : e.controlsDrainAgain = false → Effect e choice .controlRefused e.endDrain []
  | acceptanceSkipped {id} : (∀ stream, e.findOpen id = some stream →
        stream.acceptanceReady = false) →
      Effect e choice (.localAcceptance id) e [.selectControl]
  | acceptanceDelivered {id stream} : e.findOpen id = some stream →
    stream.acceptanceReady = true →
    Effect e choice (.localAcceptance id) (e.modify id Stream.deliverAcceptance) [.selectControl]
  | controlsFailed {status} :
    Effect e choice (.controlsFail status) (e.withStop (e.fail status)).endDrain []
  -- drain_pending_writes
  | writesStart : e.pendingWritesDraining = false →
    Effect e choice .drainWrites { e with pendingWritesDraining := true } [.selectWrite]
  | writesIdle : Effect e choice .selectWrite { e with pendingWritesDraining := false } []
  | writeTaken {stream write rest} : e.terminal = false →
    (e.outbound.rekeyPending = true → e.queue.deferred = []) →
    stream ∈ e.streams → stream.present = true → stream.closed = false →
    stream.pendingWrites = write :: rest →
    write.payload.size ≤ stream.outboundCredit →
    write.payload.size ≤ e.outboundConnectionCredit →
    Effect e choice .selectWrite (e.takeWrite stream write) [.enqueue (writeRequest stream write)
        (.writes stream.id write.payload.size write.operationId)]
  | writeSettled {id size op status} : status.isOk = true →
    Effect e choice (.settleWrite id size op status)
      (e.modify id Stream.endPublication) [.finishShutdown id, .selectWrite]
  | writeRefunded {id size op status} : status.isOk = false →
    Effect e choice (.settleWrite id size op status) { e.modify id (Stream.refundWrite size op) with
        outboundConnectionCredit := e.outboundConnectionCredit + size }
      [.finishShutdown id, .selectWrite]
  -- flush_deferred_records
  | flushStopped : e.terminal = true → Effect e choice .flushDeferred e [.receiveDone]
  | flushTakes : e.terminal = false → e.outbound.rekeyPending = false →
    Effect e choice .flushDeferred { e with queue := { e.queue with deferred := [] } }
      [.flushNext e.queue.deferred]
  | flushEnds : Effect e choice (.flushNext []) e [.drainControls, .drainWrites, .receiveDone]
  | flushReleases {deferred rest} :
    Effect e choice (.flushNext (deferred :: rest)) (e.flushRelease deferred)
      [.flushCheck deferred rest]
  | flushDrops {deferred rest now} : e.targetClosed deferred.record = true →
    Effect e choice (.flushCheck deferred rest) { e.withCredit (e.failDeferred deferred now) with
        outboundConnectionCredit :=
          e.outboundConnectionCredit + deferred.record.dataBytes }
      [.flushNext rest]
  | flushEnqueues {deferred rest} : e.targetClosed deferred.record = false →
    Effect e choice (.flushCheck deferred rest) e [.enqueue deferred.request (.flush rest)]
  | flushFindsClosed {deferred rest now} :
    Effect e choice (.flushClosed deferred rest) (e.withCredit (e.failDeferred deferred now))
      [.flushNext rest]
  | flushAbandons {deferred rest status} :
    Effect e choice (.flushAbandon deferred rest status) { e with
        queue := e.releaseAll rest
        streams := ((deferred :: rest).foldl forgetWrite e).streams }
      (receiveFailed status)
  -- closing a stream
  | finishSkips {id} : (∀ stream, e.findOpen id = some stream → stream.readyToFinish = false) →
      Effect e choice (.finishShutdown id) e []
  | checkSkips {id} : (∀ stream, e.findOpen id = some stream →
        stream.peerWriteClosed = true → stream.inbound ≠ []) →
      Effect e choice (.finishCheck id) e []
  | removeSkips {id reason} : e.findOpen id = none → Effect e choice (.removeStream id reason) e []
  | dropWritesEnds {id} : (∀ stream, e.object id = some stream → stream.pendingWrites = []) →
      Effect e choice (.dropWrites id) e []
  | settleMisses {id} : e.find id = none → Effect e choice (.settleHandshake id) e []
  | abortSkips {id code reason} : (∀ stream, e.find id = some stream →
        stream.terminalSent = true ∨ stream.settlementSent = true) →
      Effect e choice (.abortStream id code reason) e []
  | finishes {id stream} : e.findOpen id = some stream →
    stream.readyToFinish = true →
    Effect e choice (.finishShutdown id)
      { e.modify id Stream.finishWrites with streamControlsOwed := true }
      [.drainControls, .finishCheck id]
  | finishCloses {id stream} : e.findOpen id = some stream →
    stream.peerWriteClosed = true → stream.inbound = [] →
    Effect e choice (.finishCheck id) e [.removeStream id streamFullyClosed, .settleHandshake id]
  | removes {id stream reason} : e.findOpen id = some stream →
    Effect e choice (.removeStream id reason) (e.closeStream stream reason)
      [.dropWrites id, .dropInbound id]
  | dropsWrite {id stream} : e.object id = some stream →
    stream.pendingWrites ≠ [] →
    Effect e choice (.dropWrites id) (e.modify id Stream.dropWrite) [.dropWrites id]
  | dropInboundEnds {id} :
    (∀ stream, e.object id = some stream → stream.inbound = []) →
    Effect e choice (.dropInbound id) e [.drainWrites]
  | dropsInbound {id stream payload rest} : e.object id = some stream →
    stream.inbound = payload :: rest →
    Effect e choice (.dropInbound id) (e.modify id Stream.dropInbound)
      [.returnCredit id payload.size false, .dropInbound id]
  | settles {id stream} : e.find id = some stream →
    stream.owesSettlement = true →
    Effect e choice (.settleHandshake id)
      { e.modify id Stream.raiseSettlement with streamControlsOwed := true }
      [.drainControls, .retire id]
  | settleSkips {id stream} : e.find id = some stream →
    stream.owesSettlement = false →
    Effect e choice (.settleHandshake id) e [.retire id]
  | retires {id} : Effect e choice (.retire id) (e.retireStream id) []
  | abortsUnpublished {id code reason stream} : e.find id = some stream →
    stream.terminalSent = false → stream.settlementSent = false →
    stream.unpublished = true →
    Effect e choice (.abortStream id code reason) e [.removeStream id reason, .eraseUnpublished id]
  | aborts {id code reason stream} : e.find id = some stream →
    stream.terminalSent = false → stream.settlementSent = false →
    stream.unpublished = false →
    Effect e choice (.abortStream id code reason) { e.modify id (Stream.raiseTerminal code) with
        streamControlsOwed := true }
      [.removeStream id reason, .drainControls]
  | erases {id} : Effect e choice (.eraseUnpublished id) (e.modify id Stream.erase) []
  | creditInvalid {id bytes status} : e.CreditInvalid id bytes →
    Effect e choice (.returnCredit id bytes false) e [failCall status]
  | creditStopped {id bytes} : e.terminal = true →
    Effect e choice (.returnCredit id bytes false) e []
  | creditReturns {id bytes now} : bytes ≠ 0 → e.terminal = false →
    e.returnable id bytes = true →
    Effect e choice (.returnCredit id bytes false)
      (e.withCredit ((e.returnToStream id bytes now).returnToConnection bytes now))
      [.drainControls]
  | discardInvalid {id bytes status} : e.CreditInvalid id bytes →
    Effect e choice (.returnCredit id bytes true) e [failCall status, .receiveDone]
  | discardStopped {id bytes} : e.terminal = true →
    Effect e choice (.returnCredit id bytes true) e [.receiveDone]
  | discardReturns {id bytes now} : bytes ≠ 0 → e.terminal = false →
    e.returnable id bytes = true →
    Effect e choice (.returnCredit id bytes true)
      (e.withCredit ((e.returnToStream id bytes now).returnToConnection bytes now))
      [.drainControls, .receiveDone]
  -- application calls
  | openRefused {request} : e.openRefusal request ≠ none → Effect e choice (.asyncOpen request) e []
  | readSkips {id} : e.readParks id = false → Effect e choice (.streamRead id) e []
  | cancelReadSkips {id op} : (∀ stream, e.find id = some stream → stream.pendingRead ≠ some op) →
      Effect e choice (.cancelRead id op) e []
  | writeRefused {id payload} : e.writeRefusal id payload ≠ none →
    Effect e choice (.streamWrite id payload) e []
  | cancelWriteSkips {id op} : (∀ stream, e.find id = some stream →
        ∀ write ∈ stream.pendingWrites, write.operationId ≠ op) →
      Effect e choice (.cancelWrite id op) e []
  | opens {request} : e.openRefusal request = none →
    Effect e choice (.asyncOpen request) (e.insertStream (e.localStream request)).takeStreamId
      [.enqueue { record := .open e.nextLocalStreamId request } (.open e.nextLocalStreamId)]
  | registers {id} : Effect e choice (.openRegistered id) (e.modify id Stream.registerOpen) []
  | cancelsOpen {id stream} : e.findOpen id = some stream →
    (stream.opening || stream.acceptanceReady) = true →
    stream.openedByPeer = false →
    Effect e choice (.cancelOpen id) e [.abortStream id .aborted openCancelled]
  | reportsEnd {id stream} : e.object id = some stream →
    stream.endOfStream = true →
    Effect e choice (.streamRead id) (e.modify id Stream.reportEnd) []
  | reads {id stream payload rest} : e.findOpen id = some stream →
    stream.pendingRead = none → stream.inbound = payload :: rest →
    Effect e choice (.streamRead id) (e.readRecord id payload) []
  | readsLast {id stream payload rest} : e.findOpen id = some stream →
    stream.pendingRead = none → stream.inbound = payload :: rest →
    Effect e choice (.streamRead id) (e.readRecord id payload)
      [.removeStream id ⟨.closed, ""⟩, .settleHandshake id]
  | readsEnd {id stream} : e.findOpen id = some stream →
    stream.pendingRead = none → stream.inbound = [] →
    stream.peerWriteClosed = true →
    Effect e choice (.streamRead id) (e.modify id Stream.readEnd) []
  | readsLastEnd {id stream} : e.findOpen id = some stream →
    stream.pendingRead = none → stream.inbound = [] →
    stream.peerWriteClosed = true →
    Effect e choice (.streamRead id) (e.modify id Stream.readEnd)
      [.removeStream id ⟨.closed, ""⟩, .settleHandshake id]
  | parksRead {id stream} : e.findOpen id = some stream →
    stream.pendingRead = none → stream.inbound = [] →
    stream.peerWriteClosed = false → e.readParks id = true →
    Effect e choice (.streamRead id)
      (e.modify id (Stream.parkRead e.nextOperationId)).takeOperationId []
  | cancelsRead {id stream op} : e.find id = some stream →
    stream.pendingRead = some op →
    Effect e choice (.cancelRead id op) (e.modify id Stream.cancelRead) []
  | writes {id stream payload} : e.findOpen id = some stream →
    e.writeRefusal id payload = none →
    Effect e choice (.streamWrite id payload) (e.queueWrite id payload) [.drainWrites]
  | cancelsWrite {id stream write op} : e.find id = some stream →
    write ∈ stream.pendingWrites → write.operationId = op →
    Effect e choice (.cancelWrite id op) (e.dropPendingWrite stream write)
      [.finishShutdown id, .drainWrites]
  | shutsDown {id stream} : e.findOpen id = some stream →
    stream.localWriteShutdownRequested = false →
    Effect e choice (.streamShutdown id) (e.modify id Stream.requestShutdown) [.finishShutdown id]
  | closes {id} :
    Effect e choice (.streamClose id) (e.modify id Stream.terminate)
      [.abortStream id .aborted streamClosedLocally]
  | acceptsPeer {id stream status} : e.findOpen id = some stream →
    e.terminal = false → stream.openedByPeer = true →
    stream.opening = true → status.isOk = true →
    Effect e choice (.completePeerOpen id status) (e.acceptStream stream)
      [.drainControls, .finishShutdown id]
  | refusesPeer {id stream status code} : e.findOpen id = some stream →
    stream.openedByPeer = true → stream.opening = true →
    code.isTerminal = true →
    Effect e choice (.completePeerOpen id status) e [.abortStream id code status]
  | stops {reason failed} :
    Effect e choice (.stopSession reason failed) (e.withStop (e.stop reason failed)) []
  -- the receive path
  | advertises : Effect e choice .advertise e [.enqueue
    { record := .capabilities e.config.localManifest, isControl := true }
    .capabilities]
  | advertisesCredit {window} :
    window = { e.connectionWindow with
      size := e.limits.initialConnectionCredit
      owed := e.limits.initialConnectionCredit } →
    Effect e choice .advertiseCredit { e with connectionWindow := window }
      [.drainControls, .receiveDone]
  | receiveExpires {wire} : Effect e choice (.processReceived wire) e.markExpired
    [failCall rekeyDeadlineExpired, .receiveDone]
  | receivesAck {epoch confirmation size} : e.state = .active →
    Effect e choice (.processReceived (.bare (.rekeyAck epoch confirmation size))) e
      [.processRekeyAck epoch confirmation size]
  | openFails {token body status} : e.terminal = false →
    e.acceptsToken token = true →
    Effect e choice (.processReceived (.sealed token body)) (e.consumeToken token)
      (receiveFailed status)
  | openSucceeds {token body} : e.terminal = false →
    e.acceptsToken token = true → e.opens token body = true →
    e.decodes body.plaintext = true →
    (body.plaintext.isRekeyInit = true → e.previousEpoch token = false) →
    e.withinEpoch token body.plaintext = true →
    Effect e choice (.processReceived (.sealed token body))
      (e.openedRecord token body.plaintext) (dispatch e.state body.plaintext)
  | capabilitiesFail {manifest status} :
    e.state ≠ .awaitingCapabilities ∨ manifest ≠ e.config.peerManifest →
    Effect e choice (.processCapabilities manifest) e (receiveFailed status)
  | publishFails {id kind payload status} :
    (∀ stream, e.crossedFailure id payload.size = none →
      e.find id = some stream → stream.closed = false →
      e.inboundFull stream payload.size = true) →
    Effect e choice (.publishData id kind payload) e (receiveFailed status)
  | closeFails {id code status} : e.closeFailure id code = some status →
    Effect e choice (.processClose id code) e (receiveFailed status)
  | activates {manifest} : e.state = .awaitingCapabilities →
    manifest = e.config.peerManifest →
    Effect e choice (.processCapabilities manifest)
      { e.accepted (.capabilities manifest) with state := .active }
      [.receiveDone]
  | openBoundFails {id request status} : e.openIdFailure id = none →
    Effect e choice (.processOpen id request) { e with lastPeerStreamId := id }
      (receiveFailed status)
  | opensPeer {id request} : e.openIdFailure id = none →
    Effect e choice (.processOpen id request) { e with lastPeerStreamId := id }
      [.insertPeerStream id request (e.config.localService request.serviceName request.serviceKind)]
  | insertStopped {id request service} : e.terminal = true →
    Effect e choice (.insertPeerStream id request service) e [.receiveDone]
  | inserts {id request service} : e.terminal = false → e.find id = none →
    Effect e choice (.insertPeerStream id request service)
      (e.insertPeer id request service true) [.receiveDone]
  | insertsRefused {id request service code reason} : e.terminal = false → e.find id = none →
    code.isTerminal = true →
    Effect e choice (.insertPeerStream id request service)
      (e.insertPeer id request service false) [.abortStream id code reason, .receiveDone]
  | discardsData {id kind payload stream} :
    e.dataFailure id kind payload.size = none → e.find id = some stream →
    stream.closed = true →
    Effect e choice (.processData id kind payload) (e.debitData id kind payload)
      [.returnCredit id payload.size true]
  | stagesData {id kind payload stream} :
    e.dataFailure id kind payload.size = none → e.find id = some stream →
    stream.closed = false →
    Effect e choice (.processData id kind payload) e [.publishData id kind payload]
  | discardsCrossed {id kind payload stream} :
    e.crossedFailure id payload.size = none → e.find id = some stream →
    stream.closed = true →
    Effect e choice (.publishData id kind payload) (e.debitData id kind payload)
      [.returnCredit id payload.size true]
  | deliversData {id kind payload stream} :
    e.crossedFailure id payload.size = none → e.find id = some stream →
    stream.closed = false → e.inboundFull stream payload.size = false →
    Effect e choice (.publishData id kind payload)
      (e.deliverData id kind stream payload) [.drainControls, .receiveDone]
  | closesByPeer {id code stream reason} : e.closeFailure id code = none →
    e.find id = some stream →
    Effect e choice (.processClose id code) (e.accepted (.close id code) (receiveClose code))
      [.removeStream id reason, .settleHandshake id, .receiveDone]
  | shutsDownByPeer {id code stream} : e.closeFailure id code = none →
    e.find id = some stream → code.isTerminal = false →
    Effect e choice (.processClose id code) (e.accepted (.close id code) (receiveClose code))
      [.settleHandshake id, .receiveDone]
  | creditsConnection {increment} : increment ≠ 0 →
    increment ≤ maxCreditIncrement →
    increment ≤ creditRoom e.outboundConnectionCredit →
    Effect e choice (.processConnectionCredit increment)
      { e.accepted (.connectionCredit increment) with
        outboundConnectionCredit := e.outboundConnectionCredit + increment }
      [.drainWrites, .receiveDone]
  | creditsClosed {id increment stream} : e.creditFailure id increment = none →
    e.find id = some stream → stream.closed = true →
    Effect e choice (.processStreamCredit id increment) (e.creditStream id increment)
      [.receiveDone]
  | creditsStream {id increment stream} : e.creditFailure id increment = none →
    e.find id = some stream → stream.closed = false → stream.opening = false →
    Effect e choice (.processStreamCredit id increment) (e.creditStream id increment)
      [.drainWrites, .receiveDone]
  | acceptsOpen {id increment stream} : e.creditFailure id increment = none →
    e.find id = some stream → stream.closed = false →
    stream.opening = true →
    Effect e choice (.processStreamCredit id increment) (e.acceptOpen id increment stream)
      [.drainControls, .drainWrites, .receiveDone]
  | pings : Effect e choice .processPing (e.accepted .ping)
    [.enqueue { record := .pong, isControl := true } .pong]
  | pongs : Effect e choice .processPong (e.accepted .pong) [.receiveDone]
  | acceptsInit {epoch secret size ackSize} :
    e.inbound.epoch ≠ maxEpoch → epoch = e.inbound.epoch + 1 →
    e.rekeyMessageOk ackSize rekeyAckMessageBytes = true →
    Effect e choice (.processRekeyInit epoch secret size) (e.acceptInboundRekey secret)
      [.acceptRekeyInit epoch secret size ackSize]
  | switchesInbound {epoch secret size ackSize} :
    Effect e choice (.acceptRekeyInit epoch secret size ackSize)
      ((e.switchInbound epoch).accepted (.rekeyInit epoch secret size))
      [.enqueue (e.rekeyAckRequest epoch ackSize) .rekeyAck]
  | commitsRekey {epoch confirmation size now} : e.orderingLocked = false →
    e.outbound.rekeyPending = true → epoch = e.outbound.rekeyEpoch →
    e.security.candidate = some confirmation →
    Effect e choice (.processRekeyAck epoch confirmation size)
      (e.commitRekey epoch now) [.flushDeferred]
  | receiveEnds : Effect e choice .receiveDone { e with receiveInProgress := false } []

/-- The ways to reserve a control: it is reserved already, or there is nothing to
count, or it counts against the connection's window or its stream's. -/
inductive Reserves (e : Engine) (control : EngineControl) : Engine → EngineControl → Prop where
  | again : control.kind = .none ∨ control.reserved = true → Reserves e control e control
  | uncounted : control.kind ≠ .none → Reserves e control e { control with reserved := true }
  | connection : control.kind ≠ .none →
    Reserves e control { e with connectionWindow :=
      { e.connectionWindow with
        owed := e.connectionWindow.owed - control.increment
        granting := e.connectionWindow.granting + control.increment
        grantsQueued := e.connectionWindow.grantsQueued + 1 } } { control with reserved := true }
  | stream {stream} : control.kind ≠ .none → control.reserved = false →
    e.find control.streamId = some stream →
    (control.kind = .credit →
      stream.closed = false ∧ control.increment ≤ stream.receiveWindow.owed) →
    Reserves e control (e.modify control.streamId (Stream.reserveControl control))
      { control with reserved := true }

theorem reserveControl_reserves {e reserved : Engine} {control next : EngineControl}
    (h : e.reserveControl control = .ok (reserved, next)) : Reserves e control reserved next := by
  unfold reserveControl at h
  dsimp only at h
  split at h
  · rename_i hdone
    cases h
    exact .again hdone
  rename_i hfresh
  simp only [not_or, Bool.not_eq_true] at hfresh
  split at h
  · split at h
    · split at h <;> cases h
      exact .connection hfresh.1
    cases h
    exact .uncounted hfresh.1
  split at h
  · cases h
  rename_i hfind
  split at h
  · cases h
  rename_i hopen
  split at h <;> cases h
  rename_i howed
  refine .stream hfresh.1 hfresh.2 hfind fun hkind => ?_
  simp only [hkind, true_and, Bool.not_eq_true, gt_iff_lt, Nat.not_lt] at hopen howed
  exact ⟨hopen, howed⟩

/-- The ways to admit a control, on the connection or on its stream. -/
inductive Admits (e : Engine) (control : EngineControl) : Engine → Prop where
  | uncounted : Admits e control e
  | connection : Admits e control { e with
      connectionWindow := { e.connectionWindow with
        granting := e.connectionWindow.granting - control.increment }
      inboundConnectionCredit := e.inboundConnectionCredit + control.increment }
  | stream {stream} : control.kind ≠ .none → e.find control.streamId = some stream →
    (control.kind = .credit → control.increment ≤ stream.receiveWindow.granting ∧
      stream.inboundCredit ≤ stream.receiveWindow.size ∧
      control.increment ≤ stream.receiveWindow.size - stream.inboundCredit) →
    Admits e control { e.modify control.streamId (Stream.admitControl control) with
      streamControlsOwed := e.streamControlsOwed || control.kind != .credit }

theorem admitControl_admits {e admitted : Engine} {control : EngineControl}
    (h : e.admitControl control = .ok admitted) : Admits e control admitted := by
  unfold admitControl at h
  dsimp only at h
  split at h
  · cases h
    exact .uncounted
  rename_i hreal
  split at h
  · split at h
    · split at h <;> cases h
      exact .connection
    cases h
    exact .uncounted
  split at h
  · cases h
  rename_i hfind
  split at h <;> cases h
  rename_i hcredit
  refine .stream hreal hfind fun hkind => ?_
  simpa only [hkind, true_and, not_or, gt_iff_lt, Nat.not_lt] using hcredit

theorem reserveControl_frame {e reserved : Engine} {control next : EngineControl}
    (h : e.reserveControl control = .ok (reserved, next)) : reserved = e.withCredit reserved := by
  cases reserveControl_reserves h <;> rfl

theorem admitControl_frame {e admitted : Engine} {control : EngineControl}
    (h : e.admitControl control = .ok admitted) : admitted = e.withCredit admitted := by
  cases admitControl_admits h <;> rfl

theorem admitted_frame {e reserved admitted : Engine} {control next : EngineControl}
    (hreserve : e.reserveControl control = .ok (reserved, next))
    (hadmitted : reserved.admitControl next = .ok admitted) :
    admitted = e.withCredit admitted := by
  have hframe := admitControl_frame hadmitted
  rw [reserveControl_frame hreserve] at hframe
  exact hframe

/-- Collecting a stream's credit changes its window, and may raise the
connection's. -/
theorem collectStreamCredit_frame (e : Engine) (id : Nat) (now : Time) :
    e.collectStreamCredit id now = e.withCredit (e.collectStreamCredit id now) := by
  unfold collectStreamCredit
  split <;> rfl

theorem completeControl_frame (e : Engine) (control : EngineControl)
    (admitted : Bool) (now : Time) :
    e.completeControl control admitted now =
      e.withCredit (e.completeControl control admitted now) := by
  unfold completeControl
  split
  · rfl
  split
  · rfl
  split
  · rfl
  dsimp only
  split
  · rw [collectStreamCredit_frame]
    rfl
  · rfl

theorem failDeferred_frame (e : Engine) (deferred : DeferredRecord) (now : Time) :
    e.failDeferred deferred now = e.withCredit (e.failDeferred deferred now) := by
  unfold failDeferred
  rw [completeControl_frame]
  rfl

theorem returnCredit_frame (e : Engine) (id bytes : Nat) (now : Time) :
    (e.returnToStream id bytes now).returnToConnection bytes now =
      e.withCredit ((e.returnToStream id bytes now).returnToConnection bytes now) := by
  unfold returnToStream
  split
  · rfl
  · rw [collectStreamCredit_frame]
    rfl

theorem stop_frame (e : Engine) (reason : Status) (failed : Bool) :
    e.stop reason failed = e.withStop (e.stop reason failed) := by
  unfold stop
  split <;> rfl

theorem fail_frame (e : Engine) (status : Status) : e.fail status = e.withStop (e.fail status) :=
  stop_frame ..

/-- What holds of the stream that was found holds of every one found there. -/
theorem forall_found {found : Option Stream} {stream : Stream} {P : Stream → Prop}
    (hfound : found = some stream) (h : P stream) : ∀ other, found = some other → P other := by
  intro other hother
  obtain rfl : stream = other := some.inj (hfound ▸ hother)
  exact h

section Branches

variable {e e' : Engine} {made : List Call} {r : Request} {o : Owner}
  {choice : Choice} {id : Nat} {now : Time} {token : RecordKeyToken} {size : Nat}
  {status : Status} {caller : RekeyCaller} {pick : Nat} {code : CloseCode}
  {request : OpenRequest} {payload : Buffer} {kind : ServiceKind} {increment : Nat}

theorem enqueueLock_effect (h : e.enqueueLock r o = some (e', made)) :
    Effect e choice (.enqueue r o) e' made := by
  unfold enqueueLock at h
  split at h
  · cases h
  rename_i hlock
  split at h <;> cases h
  · exact .enqueueRefused ‹_›
  refine .enqueueLocked (fun hp => ?_) (by omega)
  simpa [hp] using hlock

theorem enqueueRotate_effect (h : e.enqueueRotate r o now = some (e', made)) :
    Effect e choice (.rotateCheck r o) e' made := by
  unfold enqueueRotate at h
  split at h <;> cases h
  · rename_i hdue
    exact .rotates hdue.1 (by simpa using hdue.2.1) hdue.2.2
  rename_i hdue
  exact .rotatePasses (fun hp hi => by simpa [hp, hi] using hdue)

theorem enqueueAdmit_effect (h : e.enqueueAdmit r o now = some (e', made)) :
    Effect e choice (.admitCheck r o) e' made := by
  unfold enqueueAdmit at h
  split at h
  · rename_i hterminal
    cases h
    exact .admitLeaves (.inl ⟨hterminal, rfl⟩)
  rename_i hterminal
  split at h
  · rename_i hclosed
    cases h
    exact .admitLeaves (.inr ⟨hclosed, rfl⟩)
  rename_i hclosed
  have hlive : e.terminal = false := by simpa using hterminal
  have hopen : e.targetClosed r.record = false := by simpa using hclosed
  split at h <;> cases h
  · rename_i hdefer
    exact .admitDefers hlive hopen hdefer.1 hdefer.2.1
      (by simpa using hdefer.2.2.1) (by simpa using hdefer.2.2.2)
  rename_i hdefer
  exact .admitTakes hlive hopen (fun hp hr hb => by simpa [hp, hr, hb] using hdefer)

theorem deferReserve_effect (h : e.deferReserve r o = some (e', made)) :
    Effect e choice (.deferReserve r o) e' made := by
  unfold deferReserve at h
  dsimp only at h
  split at h
  · rename_i hsize
    cases h
    refine .deferLeaves (.inr ⟨rfl, rfl, ?_⟩)
    rcases hsize with hsize | hsize
    · exact .inl hsize
    · exact .inr (.inr (by omega))
  split at h
  · rename_i hterminal
    cases h
    exact .deferLeaves (.inl ⟨hterminal, rfl, rfl⟩)
  rename_i hterminal
  split at h
  · rename_i hcontrol
    cases h
    exact .deferLeaves (.inr ⟨rfl, rfl, .inr (.inl hcontrol)⟩)
  rename_i hcontrol
  split at h <;> cases h
  · rename_i hroom
    exact .deferLeaves (.inr ⟨rfl, rfl, .inr (.inr (by omega))⟩)
  exact .deferReserves (by simpa using hterminal)
    (fun hc => by simp only [hc, true_and] at hcontrol; omega) (by omega)

theorem deferPush_effect (h : e.deferPush r o = some (e', made)) :
    Effect e choice (.deferPush r o) e' made := by
  unfold deferPush at h
  dsimp only at h
  split at h
  · rename_i hterminal
    cases h
    exact .deferPushLeaves (.inl ⟨hterminal, rfl⟩)
  rename_i hterminal
  have hlive : e.terminal = false := by simpa using hterminal
  split at h <;> cases h
  · exact .deferPushLeaves (.inr ⟨hlive, ‹_›⟩)
  rename_i hreserve
  rw [reserveControl_frame hreserve]
  exact .deferPushes hlive hreserve

theorem takeToken_effect (h : e.takeToken r o now = some (e', made)) :
    Effect e choice (.takeToken r o) e' made := by
  unfold takeToken at h
  dsimp only at h
  split at h
  · rename_i hsize
    cases h
    refine .tokenLeaves (.inl ⟨rfl, .inl ⟨?_, rfl⟩⟩)
    unfold reservation
    omega
  split at h
  · rename_i hterminal
    cases h
    exact .tokenLeaves (.inr (.inl ⟨hterminal, rfl, rfl⟩))
  rename_i hterminal
  have hlive : e.terminal = false := by simpa using hterminal
  split at h
  · rename_i hclosed
    cases h
    exact .tokenLeaves (.inr (.inr (.inl ⟨hclosed, rfl, rfl⟩)))
  rename_i hclosed
  split at h
  · rename_i hsend
    cases h
    exact .tokenLeaves (.inr (.inr (.inr (.inl ⟨by simpa using hsend, rfl, rfl⟩))))
  rename_i hsend
  split at h
  · rename_i hcontrol
    cases h
    exact .tokenLeaves (.inl ⟨rfl, .inr ⟨.inl hcontrol, rfl⟩⟩)
  rename_i hcontrol
  split at h
  · rename_i hroom
    cases h
    exact .tokenLeaves (.inl ⟨rfl, .inr ⟨.inr (by omega), rfl⟩⟩)
  rename_i hroom
  have hopen : e.TokenOpen r :=
    { live := hlive
      target := by simpa using hclosed
      sendable := by simpa using hsend
      control := fun hc => by simp only [hc, true_and] at hcontrol; omega
      room := by omega }
  split at h
  · rename_i hreserve
    cases h
    exact .tokenLeaves (.inr (.inr (.inr (.inr ⟨hlive, hreserve, rfl⟩))))
  rename_i reserved control hreserve
  split at h
  · rename_i hadmitted
    cases h
    rw [reserveControl_frame hreserve]
    exact .tokenUnadmitted hopen hreserve hadmitted
  rename_i admitted hadmitted
  rw [admitted_frame hreserve hadmitted] at h
  split at h
  · rename_i hprotect
    cases h
    exact .tokenBare hopen hreserve hadmitted (by simpa using hprotect)
  rename_i hprotect
  have hprotect : r.protect = true := by simpa using hprotect
  split at h
  · rename_i hexhausted
    cases h
    exact .tokenExhausted hopen hreserve hadmitted hprotect hexhausted
  rename_i hexhausted
  cases h
  exact .tokenTaken hopen hreserve hadmitted hprotect (by simpa using hexhausted)

theorem sealFrame_effect
    (h : e.sealFrame r o token choice.accept choice.overhead = some (e', made)) :
    Effect e choice (.sealFrame r o token) e' made := by
  unfold sealFrame at h
  split at h
  · rename_i haccept
    cases h
    exact .sealLost (.inl (by simpa using haccept)) rfl (by decide)
  split at h
  · rename_i hoverhead
    cases h
    exact .sealLost (.inr hoverhead.2) rfl (by decide)
  rename_i hoverhead
  cases h
  refine .sealDone ?_
  unfold reservation fixedOverhead
  split <;> rename_i hprotect
  · simp only [hprotect, true_and] at hoverhead
    omega
  · omega

theorem publish_effect {wire : Wire} (h : e.publish r o token wire size = some (e', made)) :
    Effect e choice (.publish r o token wire size) e' made := by
  unfold publish at h
  split at h <;> cases h
  · exact .publishStopped ‹_›
  · exact .publishes (eq_false_of_ne_true ‹_›)

theorem tokenLost_effect (h : e.tokenLost r o status = some (e', made)) :
    Effect e choice (.tokenLost r o status) e' made := by
  unfold tokenLost at h
  split at h <;> cases h
  · rw [fail_frame]
    exact .tokenFails ‹_›
  · exact .bareLost (eq_false_of_ne_true ‹_›)

theorem rekeyRefused_effect (h : e.rekeyRefused caller status = some (e', made)) :
    Effect e choice (.initiateRekey caller) e' made := by
  unfold rekeyRefused at h
  split at h <;> cases h
  · exact .idle rfl
  · exact .rekeyFails

theorem initiateRekey_effect (h : e.initiateRekey caller now = some (e', made)) :
    Effect e choice (.initiateRekey caller) e' made := by
  unfold initiateRekey at h
  split at h
  · exact rekeyRefused_effect h
  split at h
  · exact rekeyRefused_effect h
  split at h
  · exact rekeyRefused_effect h
  rename_i hstate hpending hwork
  cases h
  exact .rekeyStarts (by simpa using hstate) (by simpa using hpending)
    (by omega) (fun heq => hwork (.inr heq))

theorem beginRekey_effect {n : Nat} (h : e.beginRekey caller n choice = some (e', made)) :
    Effect e choice (.beginRekey caller n) e' made := by
  unfold beginRekey at h
  split at h
  · cases h
    exact .rekeyBeginFails
  split at h
  · cases h
    exact .rekeyBeginFails
  rename_i hsize
  unfold expireRekey at h
  split at h
  · cases h
    exact .rekeyBegins (by simpa using hsize)
  split at h <;> cases h
  exact .rekeyBeginExpires

theorem rotateAgedEpoch_effect (h : e.rotateAgedEpoch now = some (e', made)) :
    Effect e choice .rotateAgedEpoch e' made := by
  unfold rotateAgedEpoch at h
  split at h <;> cases h
  · exact .idle rfl
  · exact .rotatesAged

theorem expireRekey_effect (h : e.expireRekey now [] = some (e', made)) :
    Effect e choice .expireRekey e' made := by
  unfold expireRekey at h
  split at h
  · cases h
    exact .idle rfl
  split at h <;> cases h
  exact .expires

theorem drainControls_effect (h : e.drainControls = some (e', made)) :
    Effect e choice .drainControls e' made := by
  unfold drainControls at h
  split at h
  · cases h
    exact .drainSkips ‹_›
  split at h <;> cases h
  · exact .drainAgain (eq_false_of_ne_true ‹_›) ‹_›
  · exact .drainStarts (eq_false_of_ne_true ‹_›) (eq_false_of_ne_true ‹_›)

/-- The scan selects only what is owed, and leaves the engine as it was. -/
theorem selectOwedControl_some {scanned : Engine} {control : EngineControl} {close : CloseCode}
    (h : e.selectOwedControl pick = (scanned, some (control, close))) :
    scanned = e ∧ e.Owes control close := by
  unfold selectOwedControl at h
  split at h
  · rename_i howed
    cases h
    exact ⟨rfl, .inl ⟨howed.1, howed.2, rfl, rfl⟩⟩
  split at h
  · cases h
  split at h <;> cases h
  rename_i howed
  refine ⟨rfl, .inr ?_⟩
  unfold firstOwed at howed
  rw [or_eq_some_iff] at howed
  rcases howed with howed | ⟨_, howed⟩
  · rw [bind_eq_some_iff] at howed
    obtain ⟨stream, hfind, howes⟩ := howed
    have hmem := mem_of_find?_eq_some hfind
    have hpresent := find?_some hfind
    simp only [Bool.and_eq_true] at hpresent
    exact ⟨stream, hmem, hpresent.2, howes⟩
  obtain ⟨stream, hmem, howes⟩ := exists_of_findSome?_eq_some howed
  split at howes
  · exact ⟨stream, hmem, ‹_›, howes⟩
  · cases howes

theorem selectOwedControl_none {scanned : Engine} (h : e.selectOwedControl pick = (scanned, none)) :
    scanned = { e with streamControlsOwed := false } ∧
    (e.connectionWindow.owed ≠ 0 → e.grantSlotFree e.connectionWindow = false) ∧
    (e.streamControlsOwed = true → ∀ stream ∈ e.streams,
      stream.present = true → e.streamOwes stream = none) := by
  unfold selectOwedControl at h
  split at h
  · cases h
  rename_i hconnection
  have hidle : e.connectionWindow.owed ≠ 0 →
      e.grantSlotFree e.connectionWindow = false := fun howed =>
    eq_false_of_ne_true fun hslot => hconnection ⟨howed, hslot⟩
  split at h
  · rename_i howed
    cases h
    rw [Bool.not_eq_true] at howed
    exact ⟨by rw [← howed], hidle, fun h => by simp [howed] at h⟩
  split at h <;> cases h
  rename_i hnone
  rw [firstOwed, or_eq_none_iff, findSome?_eq_none_iff] at hnone
  exact ⟨rfl, hidle, fun _ stream hmem hpresent => by
    simpa [hpresent] using hnone.2 stream hmem⟩

theorem selectControl_effect (h : e.selectControl pick = some (e', made)) :
    Effect e choice .selectControl e' made := by
  unfold selectControl at h
  split at h
  · cases h
    exact .drainStops ‹_›
  rename_i hterminal
  split at h
  · rename_i hscan
    cases h
    obtain ⟨rfl, hidle, hnone⟩ := selectOwedControl_none hscan
    exact .drainEnds (by simpa using hterminal) hidle hnone
  rename_i scanned control close hscan
  obtain ⟨rfl, howes⟩ := selectOwedControl_some hscan
  split at h <;> cases h
  · exact .drainUnencodable howes ‹_›
  rename_i hencode
  refine .drainSelects (by simpa using hterminal) howes (fun hkind => ?_)
  simp only [hkind, true_and, not_or] at hencode
  exact ⟨hencode.1, Nat.not_lt.mp hencode.2⟩

theorem controlRefused_effect (h : e.controlRefused = some (e', made)) :
    Effect e choice .controlRefused e' made := by
  unfold controlRefused at h
  split at h <;> cases h
  · exact .drainContinues ‹_›
  · exact .drainRefused (eq_false_of_ne_true ‹_›)

theorem localAcceptance_effect (h : e.localAcceptance id = some (e', made)) :
    Effect e choice (.localAcceptance id) e' made := by
  unfold localAcceptance at h
  split at h
  · rename_i hfind
    cases h
    exact .acceptanceSkipped (by simp [hfind])
  rename_i stream hfind
  split at h <;> cases h
  · exact .acceptanceDelivered hfind ‹_›
  · exact .acceptanceSkipped (forall_found hfind (eq_false_of_ne_true ‹_›))

theorem drainWrites_effect (h : e.drainWrites = some (e', made)) :
    Effect e choice .drainWrites e' made := by
  unfold drainWrites at h
  split at h <;> cases h
  · exact .idle rfl
  · exact .writesStart (eq_false_of_ne_true ‹_›)

theorem lowestId_none {streams : List Stream} (h : lowestId streams = none) : streams = [] := by
  cases streams with
  | nil => rfl
  | cons => grind [lowestId]

theorem lowestId_some {streams : List Stream} {stream : Stream}
    (h : lowestId streams = some stream) :
    stream ∈ streams ∧ ∀ other ∈ streams, stream.id ≤ other.id := by
  induction streams generalizing stream with
  | nil => cases h
  | cons head tail ih =>
    unfold lowestId at h
    split at h
    · rename_i hnone
      cases h
      simp [lowestId_none hnone]
    rename_i other hother
    obtain ⟨hmem, hle⟩ := ih hother
    split at h <;> cases h
    · exact ⟨mem_cons_self, by grind⟩
    · exact ⟨mem_cons_of_mem _ hmem, by grind⟩

/-- The schedule picks a stream whose next write its credit covers. -/
theorem scheduledStream_some {stream : Stream} (h : e.scheduledStream = some stream) :
    stream ∈ e.streams ∧ writable stream = true := by
  unfold scheduledStream at h
  rw [or_eq_some_iff] at h
  have hmem : stream ∈ e.streams.filter writable := by
    rcases h with h | ⟨_, h⟩
    · exact (mem_filter.mp (lowestId_some h).1).1
    · exact (lowestId_some h).1
  exact mem_filter.mp hmem

/-- An iteration ends the drain, or takes a write of the scheduled stream. -/
theorem selectWrite_cases (h : e.selectWrite = some (e', made)) :
    (e' = { e with pendingWritesDraining := false } ∧ made = []) ∨
    ∃ stream write rest, e.scheduledStream = some stream ∧
      stream.pendingWrites = write :: rest ∧
      e.terminal = false ∧
      (e.outbound.rekeyPending = true → e.queue.deferred = []) ∧
      write.payload.size ≤ e.outboundConnectionCredit ∧
      e' = e.takeWrite stream write ∧
      made = [.enqueue (writeRequest stream write)
        (.writes stream.id write.payload.size write.operationId)] := by
  unfold selectWrite at h
  split at h
  · cases h
    exact .inl ⟨rfl, rfl⟩
  rename_i hheld
  split at h
  · cases h
    exact .inl ⟨rfl, rfl⟩
  rename_i stream hstream
  split at h
  · cases h
    exact .inl ⟨rfl, rfl⟩
  rename_i write rest hwrites
  split at h <;> cases h
  · exact .inl ⟨rfl, rfl⟩
  rw [not_or, Bool.not_eq_true] at hheld
  refine .inr ⟨stream, write, rest, hstream, hwrites, hheld.1, fun hpending => ?_,
    by omega, rfl, rfl⟩
  simpa [hpending] using hheld.2

theorem selectWrite_effect (h : e.selectWrite = some (e', made)) :
    Effect e choice .selectWrite e' made := by
  rcases selectWrite_cases h with
    ⟨rfl, rfl⟩ | ⟨stream, write, rest, hstream, hwrites, hlive, hheld, hcredit, rfl, rfl⟩
  · exact .writesIdle
  obtain ⟨hmem, hwritable⟩ := scheduledStream_some hstream
  simp only [writable, hwrites, Bool.and_eq_true, Bool.not_eq_true', decide_eq_true_eq] at hwritable
  exact .writeTaken hlive hheld hmem hwritable.1.1 hwritable.1.2 hwrites hwritable.2 hcredit

theorem settleWrite_effect {size op : Nat} (h : e.settleWrite id size op status = some (e', made)) :
    Effect e choice (.settleWrite id size op status) e' made := by
  unfold settleWrite at h
  split at h <;> cases h
  · exact .writeSettled ‹_›
  · exact .writeRefunded (eq_false_of_ne_true ‹_›)

theorem flushDeferred_effect (h : e.flushDeferred = some (e', made)) :
    Effect e choice .flushDeferred e' made := by
  unfold flushDeferred at h
  split at h
  · cases h
    exact .flushStopped ‹_›
  split at h <;> cases h
  · exact .receiveFailing rfl
  · exact .flushTakes (eq_false_of_ne_true ‹_›) (eq_false_of_ne_true ‹_›)

theorem flushNext_effect {rest : List DeferredRecord} (h : e.flushNext rest = some (e', made)) :
    Effect e choice (.flushNext rest) e' made := by
  cases rest <;> cases h
  · exact .flushEnds
  · exact .flushReleases

theorem flushCheck_effect {deferred : DeferredRecord} {rest : List DeferredRecord}
    (h : e.flushCheck deferred rest now = some (e', made)) :
    Effect e choice (.flushCheck deferred rest) e' made := by
  unfold flushCheck at h
  split at h <;> cases h
  · rw [failDeferred_frame]
    exact .flushDrops ‹_›
  · exact .flushEnqueues (eq_false_of_ne_true ‹_›)

theorem finishShutdown_effect (h : e.finishShutdown id = some (e', made)) :
    Effect e choice (.finishShutdown id) e' made := by
  unfold finishShutdown at h
  split at h
  · rename_i hfind
    cases h
    exact .finishSkips (by simp [hfind])
  rename_i stream hfind
  split at h <;> cases h
  · exact .finishes hfind ‹_›
  · exact .finishSkips (forall_found hfind (eq_false_of_ne_true ‹_›))

theorem finishCheck_effect (h : e.finishCheck id = some (e', made)) :
    Effect e choice (.finishCheck id) e' made := by
  unfold finishCheck at h
  split at h
  · rename_i hfind
    cases h
    exact .checkSkips (by simp [hfind])
  rename_i stream hfind
  split at h <;> cases h <;> rename_i hdone <;>
    simp only [Bool.and_eq_true, List.isEmpty_iff] at hdone
  · exact .finishCloses hfind hdone.1 hdone.2
  · exact .checkSkips (forall_found hfind fun hpeer hinbound => hdone ⟨hpeer, hinbound⟩)

theorem removeStream_effect {reason : Status} (h : e.removeStream id reason = some (e', made)) :
    Effect e choice (.removeStream id reason) e' made := by
  unfold removeStream at h
  split at h <;> cases h
  · exact .removeSkips ‹_›
  · exact .removes ‹_›

theorem dropWrites_effect (h : e.dropWrites id = some (e', made)) :
    Effect e choice (.dropWrites id) e' made := by
  unfold dropWrites at h
  split at h
  · rename_i hobject
    cases h
    exact .dropWritesEnds (by simp [hobject])
  rename_i stream hobject
  split at h <;> cases h <;> rename_i hwrites
  · exact .dropWritesEnds (forall_found hobject (by simpa using hwrites))
  · exact .dropsWrite hobject (by simpa using hwrites)

theorem dropInbound_effect (h : e.dropInbound id = some (e', made)) :
    Effect e choice (.dropInbound id) e' made := by
  unfold dropInbound at h
  split at h
  · rename_i hobject
    cases h
    exact .dropInboundEnds (by simp [hobject])
  rename_i stream hobject
  split at h <;> cases h
  · rename_i hinbound
    exact .dropInboundEnds (by simp [hobject, hinbound])
  · exact .dropsInbound hobject ‹_›

theorem settleHandshake_effect (h : e.settleHandshake id = some (e', made)) :
    Effect e choice (.settleHandshake id) e' made := by
  unfold settleHandshake at h
  split at h
  · cases h
    exact .settleMisses ‹_›
  split at h <;> cases h
  · exact .settles ‹_› ‹_›
  · exact .settleSkips ‹_› (eq_false_of_ne_true ‹_›)

theorem abortStream_effect {reason : Status} (h : e.abortStream id code reason = some (e', made)) :
    Effect e choice (.abortStream id code reason) e' made := by
  unfold abortStream at h
  split at h
  · rename_i hfind
    cases h
    exact .abortSkips (by simp [hfind])
  rename_i stream hfind
  split at h
  · rename_i hsent
    cases h
    exact .abortSkips (forall_found hfind hsent)
  rename_i hsent
  simp only [not_or, Bool.not_eq_true] at hsent
  split at h <;> cases h
  · exact .abortsUnpublished hfind hsent.1 hsent.2 ‹_›
  · exact .aborts hfind hsent.1 hsent.2 (eq_false_of_ne_true ‹_›)

theorem returnCredit_effect {bytes : Nat} {discarded : Bool}
    (h : e.returnCredit id bytes discarded now = some (e', made)) :
    Effect e choice (.returnCredit id bytes discarded) e' made := by
  have hinvalid {status} (hwhy : e.CreditInvalid id bytes) :
      Effect e choice (.returnCredit id bytes discarded) e
        (failCall status :: endDiscard discarded) := by
    cases discarded
    · exact .creditInvalid hwhy
    · exact .discardInvalid hwhy
  unfold returnCredit at h
  split at h
  · cases h
    exact hinvalid (.inl ‹_›)
  rename_i hbytes
  split at h
  · rename_i hterminal
    cases h
    cases discarded
    · exact .creditStopped hterminal
    · exact .discardStopped hterminal
  rename_i hterminal
  have hlive : e.terminal = false := eq_false_of_ne_true hterminal
  split at h <;> cases h <;> rename_i hvalid
  · exact hinvalid (.inr ⟨hlive, eq_false_of_ne_true hvalid⟩)
  rw [returnCredit_frame]
  have hsome : bytes ≠ 0 := fun heq => hbytes (.inl heq)
  cases discarded
  · exact .creditReturns hsome hlive (by simpa using hvalid)
  · exact .discardReturns hsome hlive (by simpa using hvalid)

theorem asyncOpen_effect (h : e.asyncOpen request = some (e', made)) :
    Effect e choice (.asyncOpen request) e' made := by
  unfold asyncOpen at h
  split at h <;> cases h
  · rename_i hrefusal
    exact .openRefused (by simp [hrefusal])
  · exact .opens ‹_›

theorem cancelOpen_effect (h : e.cancelOpen id = some (e', made)) :
    Effect e choice (.cancelOpen id) e' made := by
  unfold cancelOpen at h
  split at h
  · cases h
    exact .idle rfl
  rename_i stream hfind
  split at h <;> cases h
  · rename_i hopening
    rw [Bool.and_eq_true, Bool.not_eq_true'] at hopening
    exact .cancelsOpen hfind hopening.1 hopening.2
  · exact .idle rfl

theorem streamRead_effect (h : e.streamRead id = some (e', made)) :
    Effect e choice (.streamRead id) e' made := by
  unfold streamRead at h
  split at h
  · rename_i hobject
    cases h
    exact .readSkips (by simp [readParks, hobject])
  rename_i held hobject
  split at h
  · rename_i hstop
    cases h
    refine .readSkips ?_
    rcases hstop with hstop | hstop <;> simp [readParks, hobject, hstop]
  rename_i hstop
  simp only [not_or, Bool.not_eq_true] at hstop
  split at h
  · cases h
    exact .reportsEnd hobject ‹_›
  rename_i hend
  rw [Bool.not_eq_true] at hend
  split at h
  · rename_i hfind
    cases h
    exact .readSkips (by simp [readParks, hfind])
  rename_i stream hfind
  split at h
  · rename_i hread
    cases h
    exact .readSkips (by simp [readParks, hfind, ← not_isSome, hread])
  rename_i hread
  have hread : stream.pendingRead = none := by simpa using hread
  split at h
  · cases h
    unfold afterLastRead
    split
    · exact .readsLast hfind hread ‹_›
    · exact .reads hfind hread ‹_›
  rename_i hinbound
  split at h
  · rename_i hpeer
    cases h
    unfold afterLastRead
    split
    · exact .readsLastEnd hfind hread hinbound hpeer
    · exact .readsEnd hfind hread hinbound hpeer
  rename_i hpeer
  rw [Bool.not_eq_true] at hpeer
  split at h <;> rename_i hids <;> cases h
  · exact .readSkips (by simp [readParks, hids])
  rw [Bool.not_eq_true] at hids
  exact .parksRead hfind hread hinbound hpeer (by
    simp [readParks, hobject, hfind, hstop, hend, hread, hinbound, hpeer, hids])

theorem cancelRead_effect {op : Nat} (h : e.cancelRead id op = some (e', made)) :
    Effect e choice (.cancelRead id op) e' made := by
  unfold cancelRead at h
  split at h
  · rename_i hfind
    cases h
    exact .cancelReadSkips (by simp [hfind])
  rename_i stream hfind
  split at h <;> cases h
  · exact .cancelsRead hfind ‹_›
  · exact .cancelReadSkips (forall_found hfind ‹_›)

theorem streamWrite_effect (h : e.streamWrite id payload = some (e', made)) :
    Effect e choice (.streamWrite id payload) e' made := by
  unfold streamWrite at h
  split at h <;> cases h
  · rename_i hrefusal
    exact .writeRefused (by simp [hrefusal])
  rename_i hrefusal
  cases hfind : e.findOpen id with
  | none => simp [writeRefusal, hfind] at hrefusal
  | some => exact .writes hfind hrefusal

theorem cancelWrite_effect {op : Nat} (h : e.cancelWrite id op = some (e', made)) :
    Effect e choice (.cancelWrite id op) e' made := by
  unfold cancelWrite at h
  split at h
  · rename_i hfind
    cases h
    exact .cancelWriteSkips (by simp [hfind])
  rename_i stream hfind
  split at h <;> cases h
  · rename_i hnone
    refine .cancelWriteSkips (forall_found hfind fun write hwrite => ?_)
    simpa using find?_eq_none.mp hnone write hwrite
  rename_i hwrite
  exact .cancelsWrite hfind (mem_of_find?_eq_some hwrite)
    (by simpa using find?_some hwrite)

theorem streamShutdown_effect (h : e.streamShutdown id = some (e', made)) :
    Effect e choice (.streamShutdown id) e' made := by
  unfold streamShutdown at h
  split at h
  · cases h
    exact .idle rfl
  split at h <;> cases h
  · exact .idle rfl
  · exact .shutsDown ‹_› (eq_false_of_ne_true ‹_›)

theorem completePeerOpen_effect (h : e.completePeerOpen id status = some (e', made)) :
    Effect e choice (.completePeerOpen id status) e' made := by
  unfold completePeerOpen at h
  split at h
  · cases h
    exact .idle rfl
  rename_i stream hfind
  split at h
  · cases h
    exact .idle rfl
  rename_i hstate
  simp only [not_or, Bool.not_eq_true, Bool.not_eq_false] at hstate
  split at h <;> cases h
  · exact .acceptsPeer hfind hstate.1 hstate.2.1 hstate.2.2 ‹_›
  · exact .refusesPeer hfind hstate.2.1 hstate.2.2 (by split <;> rfl)

theorem processProtected_effect {body : SealedRecord} (hlive : e.terminal = false)
    (h : e.processProtected token body = some (e', made)) :
    Effect e choice (.processReceived (.sealed token body)) e' made := by
  unfold processProtected at h
  split at h
  · cases h
    exact .receiveFailing rfl
  rename_i htoken
  have htoken : e.acceptsToken token = true := by simpa using htoken
  dsimp only at h
  split at h
  · cases h
    exact .openFails hlive htoken
  rename_i hopens
  split at h
  · cases h
    exact .openFails hlive htoken
  rename_i hdecodes
  split at h
  · cases h
    exact .openFails hlive htoken
  rename_i hinit
  split at h <;> cases h
  · exact .openFails hlive htoken
  rename_i hepoch
  refine .openSucceeds hlive htoken (by simpa using hopens)
    (by simpa using hdecodes) (fun hrekey => ?_) (by simpa using hepoch)
  simpa [hrekey] using hinit

theorem processReceived_effect {wire : Wire} (h : e.processReceived wire now = some (e', made)) :
    Effect e choice (.processReceived wire) e' made := by
  unfold processReceived at h
  split at h
  · rename_i hexpired
    unfold expireRekey at h
    simp only [hexpired, not_true_eq_false, if_false] at h
    split at h <;> cases h
    exact .receiveExpires
  split at h
  · cases h
    exact .receiveFailing rfl
  rename_i hterminal
  split at h
  · exact processProtected_effect (eq_false_of_ne_true hterminal) h
  · split at h <;> cases h
    · exact .receivesAck ‹_›
    · exact .receiveFailing rfl
  cases h
  exact .receiveFailing rfl

theorem processCapabilities_effect {manifest : CapabilityManifest}
    (h : e.processCapabilities manifest = some (e', made)) :
    Effect e choice (.processCapabilities manifest) e' made := by
  unfold processCapabilities at h
  split at h
  · cases h
    exact .capabilitiesFail (.inl ‹_›)
  rename_i hstate
  split at h <;> cases h
  · exact .capabilitiesFail (.inr ‹_›)
  rename_i hmanifest
  exact .activates (by simpa using hstate) (by simpa using hmanifest)

theorem processOpen_effect (h : e.processOpen id request = some (e', made)) :
    Effect e choice (.processOpen id request) e' made := by
  unfold processOpen at h
  split at h
  · cases h
    exact .receiveFailing rfl
  split at h <;> cases h
  · exact .openBoundFails ‹_›
  · exact .opensPeer ‹_›

theorem insertPeerStream_effect {service : Option ServiceRequirement} {authorized : Bool}
    (h : e.insertPeerStream id request service authorized = some (e', made)) :
    Effect e choice (.insertPeerStream id request service) e' made := by
  unfold insertPeerStream at h
  split at h
  · cases h
    exact .insertStopped ‹_›
  rename_i hterminal
  have hlive : e.terminal = false := eq_false_of_ne_true hterminal
  split at h
  · cases h
    exact .receiveFailing rfl
  split at h
  · cases h
    exact .receiveFailing rfl
  rename_i hfind
  have hfind : e.find id = none := by simpa using hfind
  split at h
  · cases h
    exact .insertsRefused hlive hfind rfl
  split at h
  · cases h
    exact .insertsRefused hlive hfind rfl
  split at h <;> cases h
  · exact .insertsRefused hlive hfind rfl
  · exact .inserts hlive hfind

theorem dataFailure_find (h : e.dataFailure id kind size = none) : e.find id ≠ none := by
  intro hfind
  unfold dataFailure at h
  simp only [hfind] at h
  split at h
  · cases h
  · split at h <;> cases h

theorem crossedFailure_find (h : e.crossedFailure id size = none) : e.find id ≠ none := by
  intro hfind
  simp [crossedFailure, hfind] at h

theorem closeFailure_find (h : e.closeFailure id code = none) : e.find id ≠ none := by
  intro hfind
  unfold closeFailure at h
  simp only [hfind] at h
  split at h <;> cases h

theorem creditFailure_find (h : e.creditFailure id increment = none) : e.find id ≠ none := by
  intro hfind
  unfold creditFailure at h
  simp only [hfind] at h
  split at h <;> cases h

theorem processData_effect (h : e.processData id kind payload = some (e', made)) :
    Effect e choice (.processData id kind payload) e' made := by
  unfold processData at h
  split at h
  · cases h
    exact .receiveFailing rfl
  · rename_i hok hfind
    exact absurd hfind (dataFailure_find hok)
  rename_i stream hok hfind
  split at h
  · cases h
    exact .discardsData hok hfind ‹_›
  split at h <;> cases h
  · exact .receiveFailing rfl
  · exact .stagesData hok hfind (eq_false_of_ne_true ‹_›)

theorem publishData_effect (h : e.publishData id kind payload = some (e', made)) :
    Effect e choice (.publishData id kind payload) e' made := by
  unfold publishData at h
  split at h
  · rename_i hfailure
    cases h
    exact .publishFails (by simp [hfailure])
  · rename_i hok hfind
    exact absurd hfind (crossedFailure_find hok)
  rename_i stream hok hfind
  split at h
  · cases h
    exact .discardsCrossed hok hfind ‹_›
  rename_i hopen
  split at h <;> cases h
  · rename_i hfull
    refine .publishFails fun other _ hother _ => ?_
    rw [hfind, some.injEq] at hother
    exact hother ▸ hfull
  exact .deliversData hok hfind (eq_false_of_ne_true hopen) (eq_false_of_ne_true ‹_›)

theorem processClose_effect (h : e.processClose id code = some (e', made)) :
    Effect e choice (.processClose id code) e' made := by
  unfold processClose at h
  split at h
  · cases h
    exact .closeFails ‹_›
  · rename_i hok hfind
    exact absurd hfind (closeFailure_find hok)
  rename_i stream hok hfind
  cases h
  unfold closeCalls
  split
  · exact .closesByPeer hok hfind
  rename_i hcode
  split
  · exact .closesByPeer hok hfind
  · exact .shutsDownByPeer hok hfind (eq_false_of_ne_true hcode)

theorem processConnectionCredit_effect (h : e.processConnectionCredit increment = some (e', made)) :
    Effect e choice (.processConnectionCredit increment) e' made := by
  unfold processConnectionCredit at h
  split at h
  · cases h
    exact .receiveFailing rfl
  rename_i hsize
  split at h <;> cases h
  · exact .receiveFailing rfl
  · exact .creditsConnection (fun heq => hsize (.inl heq)) (by omega) (by omega)

theorem processStreamCredit_effect (h : e.processStreamCredit id increment = some (e', made)) :
    Effect e choice (.processStreamCredit id increment) e' made := by
  unfold processStreamCredit at h
  split at h
  · cases h
    exact .receiveFailing rfl
  · rename_i hok hfind
    exact absurd hfind (creditFailure_find hok)
  rename_i stream hok hfind
  split at h
  · cases h
    exact .creditsClosed hok hfind ‹_›
  rename_i hclosed
  have hopen : stream.closed = false := eq_false_of_ne_true hclosed
  split at h <;> cases h
  · exact .acceptsOpen hok hfind hopen ‹_›
  · exact .creditsStream hok hfind hopen (eq_false_of_ne_true ‹_›)

theorem processRekeyInit_effect {epoch secret size : Nat}
    (h : e.processRekeyInit epoch secret size choice = some (e', made)) :
    Effect e choice (.processRekeyInit epoch secret size) e' made := by
  unfold processRekeyInit at h
  split at h
  · cases h
    exact .receiveFailing rfl
  split at h
  · cases h
    exact .receiveFailing rfl
  rename_i hepoch
  split at h
  · cases h
    exact .receiveFailing rfl
  split at h <;> cases h
  · exact .receiveFailing rfl
  rename_i hack
  simp only [not_or] at hepoch
  exact .acceptsInit hepoch.1 (by simpa using hepoch.2.1) (by simpa using hack)

theorem processRekeyAck_effect {epoch size : Nat} {confirmation : Root}
    (h : e.processRekeyAck epoch confirmation size now = some (e', made)) :
    Effect e choice (.processRekeyAck epoch confirmation size) e' made := by
  unfold processRekeyAck at h
  split at h
  · cases h
    exact .receiveFailing rfl
  split at h
  · cases h
  rename_i hlock
  split at h
  · cases h
    exact .receiveFailing rfl
  rename_i hepoch
  split at h
  · cases h
    exact .receiveFailing rfl
  split at h <;> cases h
  · exact .receiveFailing rfl
  rename_i hcandidate
  simp only [not_or, Bool.not_eq_true, Bool.not_eq_false, ne_eq,
    Decidable.not_not] at hepoch hcandidate
  exact .commitsRekey (eq_false_of_ne_true hlock) hepoch.1 hepoch.2 hcandidate

end Branches

/-- Every critical section takes one of the branches. -/
theorem exec_effect {e e' : Engine} {choice : Choice} {call : Call}
    {made : List Call} (h : exec e choice call = some (e', made)) :
    Effect e choice call e' made := by
  cases call with
  | enqueue => exact enqueueLock_effect h
  | rotateCheck => exact enqueueRotate_effect h
  | admitCheck => exact enqueueAdmit_effect h
  | deferReserve => exact deferReserve_effect h
  | deferPush => exact deferPush_effect h
  | takeToken => exact takeToken_effect h
  | sealFrame => exact sealFrame_effect h
  | publish => exact publish_effect h
  | tokenLost => exact tokenLost_effect h
  | initiateRekey => exact initiateRekey_effect h
  | beginRekey => exact beginRekey_effect h
  | rotateAgedEpoch => exact rotateAgedEpoch_effect h
  | expireRekey => exact expireRekey_effect h
  | drainControls => exact drainControls_effect h
  | selectControl => exact selectControl_effect h
  | controlRefused => exact controlRefused_effect h
  | localAcceptance => exact localAcceptance_effect h
  | controlsFail status => cases h; exact fail_frame e status ▸ .controlsFailed
  | drainWrites => exact drainWrites_effect h
  | selectWrite => exact selectWrite_effect h
  | settleWrite => exact settleWrite_effect h
  | flushDeferred => exact flushDeferred_effect h
  | flushNext => exact flushNext_effect h
  | flushCheck => exact flushCheck_effect h
  | flushClosed deferred => cases h; exact failDeferred_frame e deferred _ ▸ .flushFindsClosed
  | flushAbandon => cases h; exact .flushAbandons
  | finishShutdown => exact finishShutdown_effect h
  | finishCheck => exact finishCheck_effect h
  | removeStream => exact removeStream_effect h
  | dropWrites => exact dropWrites_effect h
  | dropInbound => exact dropInbound_effect h
  | settleHandshake => exact settleHandshake_effect h
  | retire => cases h; exact .retires
  | abortStream => exact abortStream_effect h
  | eraseUnpublished => cases h; exact .erases
  | returnCredit => exact returnCredit_effect h
  | asyncOpen => exact asyncOpen_effect h
  | openRegistered => cases h; exact .registers
  | cancelOpen => exact cancelOpen_effect h
  | streamRead => exact streamRead_effect h
  | cancelRead => exact cancelRead_effect h
  | streamWrite => exact streamWrite_effect h
  | cancelWrite => exact cancelWrite_effect h
  | streamShutdown => exact streamShutdown_effect h
  | streamClose => cases h; exact .closes
  | completePeerOpen => exact completePeerOpen_effect h
  | stopSession reason failed => cases h; exact stop_frame e reason failed ▸ .stops
  | advertise => cases h; exact .advertises
  | advertiseCredit => cases h; exact .advertisesCredit rfl
  | processReceived => exact processReceived_effect h
  | processCapabilities => exact processCapabilities_effect h
  | processOpen => exact processOpen_effect h
  | insertPeerStream => exact insertPeerStream_effect h
  | processData => exact processData_effect h
  | publishData => exact publishData_effect h
  | processClose => exact processClose_effect h
  | processConnectionCredit => exact processConnectionCredit_effect h
  | processStreamCredit => exact processStreamCredit_effect h
  | processPing => cases h; exact .pings
  | processPong => cases h; exact .pongs
  | processRekeyInit => exact processRekeyInit_effect h
  | acceptRekeyInit =>
    cases h; exact .switchesInbound
  | processRekeyAck => exact processRekeyAck_effect h
  | receiveDone => cases h; exact .receiveEnds

end Yume.Session
