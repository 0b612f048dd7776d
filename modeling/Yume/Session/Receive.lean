/-
The receive path: `process_received` and one definition for each record type,
up to the rekey handshake.  At most one received record is processed at a time.
A failure status is the session's failure.
-/
import Yume.Session.Application

namespace Yume.Session

namespace Stream

/-- Data that crossed a local close is debited and its credit returned. -/
def debit (bytes : Nat) (stream : Stream) : Stream :=
  { stream with
    largestPacket := (stream.notePacket bytes).largestPacket
    inboundCredit := stream.inboundCredit - bytes }

/-- Received data joins the queue, or goes to the waiting read. -/
def receiveData (payload : Buffer) (stream : Stream) : Stream :=
  let waiting := stream.pendingRead.isSome
  { stream with
    pendingRead := none
    delivered := stream.delivered ++ if waiting then [payload] else []
    inbound := stream.inbound ++ if waiting then [] else [payload]
    inboundQueuedBytes :=
      stream.inboundQueuedBytes + if waiting then 0 else payload.size }

def noteReceived (record : Record) (stream : Stream) : Stream :=
  { stream with received := stream.received ++ [record] }

/-- The peer's FIN.  A waiting read ends when nothing is queued. -/
def receiveFin (stream : Stream) : Stream :=
  { stream with
    peerWriteClosed := true
    endOfStream :=
      stream.endOfStream || (stream.inbound.isEmpty && !stream.closed)
    endReported := stream.endReported ||
      (stream.inbound.isEmpty && stream.pendingRead.isSome)
    pendingRead := if stream.inbound.isEmpty then none else stream.pendingRead }

def receiveTerminal (stream : Stream) : Stream :=
  { stream with terminalReceived := true, terminated := true }

def receiveSettlement (stream : Stream) : Stream :=
  { stream with settlementReceived := true }

def receiveCredit (increment : Nat) (stream : Stream) : Stream :=
  { stream with outboundCredit := stream.outboundCredit + increment }

/-- The acceptor's first credit completes a local OPEN. -/
def acceptLocally (initial : Nat) (stream : Stream) : Stream :=
  { stream.openWindow initial with acceptanceReady := true }

end Stream

/-- `kMaxCreditIncrement - held` in 64-bit unsigned arithmetic. -/
def creditRoom (held : Nat) : Nat :=
  if held ≤ maxCreditIncrement then maxCreditIncrement - held
  else 2 ^ 64 - (held - maxCreditIncrement)

def EndpointRole.owns : EndpointRole → Nat → Bool
  | .client, id => id % 2 == 1
  | .server, id => id % 2 == 0

def isApplicationId (id : Nat) : Bool :=
  decide (id ≠ 0) && decide (id ≤ maxApplicationStreamId)

namespace Engine

def reject (engine : Engine) (message : String) : Outcome :=
  some (engine, receiveFailed (protocolFailure message))

/-- The record was processed: it updates its stream and joins the history. -/
def accepted (engine : Engine) (record : Record) (update : Stream → Stream := id) : Engine :=
  { engine with
    streams := (engine.modify record.streamId fun stream =>
      (update stream).noteReceived record).streams
    history := { engine.history with
      processed := engine.history.processed ++ [record] } }

/-- `process_protected_record`, first section: is the token the next one of the
current epoch, or of the previous epoch while it is open? -/
def previousEpoch (engine : Engine) (token : RecordKeyToken) : Bool :=
  engine.inbound.previousOpen && engine.inbound.epoch != 0 &&
    token.epoch == engine.inbound.epoch - 1

def acceptsToken (engine : Engine) (token : RecordKeyToken) : Bool :=
  !engine.inbound.sequenceExhausted &&
    (token.epoch == engine.inbound.epoch || engine.previousEpoch token) &&
    token.sequence == engine.inbound.nextSequence

/-- Consumes the sequence number.  The first record of the new epoch closes the
previous one, and the provider wipes its root. -/
def consumeToken (engine : Engine) (token : RecordKeyToken) : Engine :=
  let previous := engine.previousEpoch token
  let inbound := { engine.inbound with
    previousOpen := engine.inbound.previousOpen && previous }
  { engine with
    inbound := if inbound.nextSequence = maxSequence then
        { inbound with sequenceExhausted := true }
      else { inbound with nextSequence := inbound.nextSequence + 1 }
    security := if previous then engine.security
      else { engine.security with previousRoot := none } }

/-- `open_record`: an ideal AEAD opens only what its own root and token
sealed. -/
def opens (engine : Engine) (token : RecordKeyToken) (body : SealedRecord) :
    Bool :=
  body.token == token && (if engine.previousEpoch token then
      engine.security.previousRoot == some body.root
    else engine.security.inboundRoot == body.root)

/-- Do the receiver's own counters admit this record in its epoch? -/
def withinEpoch (engine : Engine) (token : RecordKeyToken) (record : Record) :
    Bool :=
  let bytes := if engine.previousEpoch token then engine.inbound.previousBytes
    else engine.inbound.bytes
  let records := if engine.previousEpoch token then
    engine.inbound.previousRecords else engine.inbound.records
  record.isRekeyInit ||
    (decide (record.payloadSize ≤ engine.config.epochPayloadBytes - bytes) &&
      records != engine.config.epochRecordLimit)

/-- Counts a record against the epoch that sealed it. -/
def countInbound (engine : Engine) (previous : Bool) (record : Record) :
    Engine :=
  let inbound := engine.inbound
  { engine with inbound :=
      if record.isRekeyInit then inbound
      else if previous then
        { inbound with
          previousBytes := inbound.previousBytes + record.payloadSize
          previousRecords := inbound.previousRecords + 1 }
      else
        { inbound with
          bytes := inbound.bytes + record.payloadSize
          records := inbound.records + 1 } }

def noteOpened (engine : Engine) (token : RecordKeyToken) (record : Record) :
    Engine :=
  { engine with history := { engine.history with
      opened := engine.history.opened ++ [(token, record)] } }

/-- The engine after a protected record was opened and counted. -/
def openedRecord (engine : Engine) (token : RecordKeyToken) (record : Record) :
    Engine :=
  { engine with
    inbound := ((engine.consumeToken token).countInbound
      (engine.previousEpoch token) record).inbound
    security := (engine.consumeToken token).security
    history := (engine.noteOpened token record).history }

/-- `process_decoded_record`. -/
def dispatch (state : SessionState) : Record → List Call
  | .capabilities manifest =>
    if state = .active then
      receiveFailed (protocolFailure "peer repeated its capability manifest")
    else [.processCapabilities manifest]
  | record =>
    if state = .awaitingCapabilities then
      receiveFailed (protocolFailure "peer sent protected traffic before capabilities")
    else
      match record with
      | .open id request => [.processOpen id request]
      | .data id kind payload => [.processData id kind payload]
      | .close id code => [.processClose id code]
      | .connectionCredit increment => [.processConnectionCredit increment]
      | .streamCredit id increment => [.processStreamCredit id increment]
      | .rekeyInit epoch secret size => [.processRekeyInit epoch secret size]
      | .ping => [.processPing]
      | .pong => [.processPong]
      | .rekeyAck _ _ _ => receiveFailed (protocolFailure
        "REKEY_ACK must use its authenticated unprotected form")
      | _ => receiveFailed (protocolFailure "unknown YTP/1 record type")

/-- Is the plaintext a frame the decoder accepts? -/
def decodes (engine : Engine) : Record → Bool
  | .invalid _ => false
  | record => decide (record.payloadSize ≤ engine.limits.maxFramePayload)

/-- `process_protected_record`. -/
def processProtected (engine : Engine) (token : RecordKeyToken) (body : SealedRecord) : Outcome :=
  if ¬ engine.acceptsToken token then
    engine.reject "protected record is replayed, out of order, or in the wrong epoch"
  else
    let previous := engine.previousEpoch token
    let record := body.plaintext
    let taken := engine.consumeToken token
    if ¬ engine.opens token body then
      some (taken, receiveFailed ⟨.internal, "record authentication failed"⟩)
    else if ¬ engine.decodes record then
      taken.reject "protected YTP/1 record is malformed"
    else if record.isRekeyInit ∧ previous then
      taken.reject "REKEY_INIT arrived in the epoch it replaces"
    else if ¬ engine.withinEpoch token record then
      taken.reject "peer exceeded the directional epoch limit"
    else
      some (engine.openedRecord token record, dispatch engine.state record)

/-- `process_received`. -/
def processReceived (engine : Engine) (wire : Wire) (now : Time) : Outcome :=
  if engine.rekeyExpiredAt now then
    (engine.expireRekey now []).map fun result =>
      (result.1, result.2 ++ [.receiveDone])
  else if engine.terminal then
    engine.reject "record arrived outside a live session"
  else
    match wire with
    | .sealed token body => engine.processProtected token body
    | .bare (.rekeyAck epoch confirmation size) =>
      if engine.state = .active then
        some (engine, [.processRekeyAck epoch confirmation size])
      else engine.reject "unexpected unprotected post-AUTH record"
    | .bare _ => engine.reject "unexpected unprotected post-AUTH record"

def processCapabilities (engine : Engine) (manifest : CapabilityManifest) :
    Outcome :=
  if engine.state ≠ .awaitingCapabilities then
    engine.reject "capabilities arrived in the wrong state"
  else if manifest ≠ engine.config.peerManifest then
    engine.reject "peer capabilities differ from authenticated AUTH bytes"
  else
    some ({ engine.accepted (.capabilities manifest) with state := .active }, [.receiveDone])

/-- Why `process_open` refuses the stream ID. -/
def openIdFailure (engine : Engine) (id : Nat) : Option Status :=
  if ¬ isApplicationId id ∨ engine.config.role.owns id then
    some (protocolFailure "OPEN stream ownership is invalid")
  else if engine.state ≠ .active then
    some (protocolFailure "OPEN arrived before session activation")
  else if id ≤ engine.lastPeerStreamId then
    some (protocolFailure "peer OPEN stream ID was reused or regressed")
  else none

/-- Why `process_open` refuses another stream. -/
def openBoundFailure (engine : Engine) (request : OpenRequest) : Option Status :=
  if engine.streamCount ≥ engine.limits.maxStreams ∨
      engine.pendingOpens ≥ engine.limits.maxPendingOpens then
    some ⟨.resourceExhausted, "peer OPEN exceeds the session stream bound"⟩
  else
    match engine.config.localService request.serviceName
        request.serviceKind with
    | none => none
    | some service =>
      if engine.serviceStreamCount request.serviceName request.serviceKind ≥
          min service.maxConcurrentStreams engine.limits.maxStreams then
        some ⟨.resourceExhausted, "peer OPEN exceeds the service bound"⟩
      else none

def processOpen (engine : Engine) (id : Nat) (request : OpenRequest) :
    Outcome :=
  match engine.openIdFailure id with
  | some status => some (engine, receiveFailed status)
  | none =>
    match engine.openBoundFailure request with
    | some status =>
      some ({ engine with lastPeerStreamId := id }, receiveFailed status)
    | none =>
      some ({ engine with lastPeerStreamId := id },
        [.insertPeerStream id request (engine.config.localService
          request.serviceName request.serviceKind)])

/-- A service may bound its streams' receive windows. -/
def receiveMaximum (limits : SessionLimits) : Option ServiceRequirement → Nat
  | none => limits.maxStreamCredit
  | some service =>
    if service.maxReceiveCredit = 0 then limits.maxStreamCredit
    else min limits.maxStreamCredit (max service.maxReceiveCredit limits.maxFramePayload)

/-- The peer's stream.  Its handler holds a responder unless it is refused. -/
def peerStream (engine : Engine) (id : Nat) (request : OpenRequest)
    (service : Option ServiceRequirement) (held : Bool) : Stream where
  id := id
  serviceName := request.serviceName
  kind := request.serviceKind
  openedByPeer := true
  maxReceiveCredit := receiveMaximum engine.limits service
  responderHeld := held

def insertPeer (engine : Engine) (id : Nat) (request : OpenRequest)
    (service : Option ServiceRequirement) (held : Bool) : Engine :=
  (engine.insertStream (engine.peerStream id request service held)).accepted (.open id request)

/-- Does the handler's descriptor grant the route's transport? -/
def routeAllowed (service : ServiceRequirement) : Option Destination → Bool
  | none => true
  | some destination =>
    match destination.transport with
    | .tcp => service.directTcp
    | .udp => service.directUdp

/-- The second half of `process_open`: the entry is inserted, then an
unsupported or unauthorized stream is refused and any other one goes to its
handler. -/
def insertPeerStream (engine : Engine) (id : Nat) (request : OpenRequest)
    (service : Option ServiceRequirement) (authorized : Bool) : Outcome :=
  if engine.terminal then some (engine, [.receiveDone])
  else if engine.streamCount ≥ engine.limits.maxStreams ∨
      engine.pendingOpens ≥ engine.limits.maxPendingOpens then
    some (engine, receiveFailed ⟨.resourceExhausted, ""⟩)
  else if (engine.find id).isSome then
    engine.reject "peer OPEN reused an active ID"
  else
    match service with
    | none =>
      some (engine.insertPeer id request service false,
        [.abortStream id .unsupported ⟨.notFound, ""⟩, .receiveDone])
    | some required =>
      if ¬ authorized then
        some (engine.insertPeer id request service false,
          [.abortStream id .unauthorized ⟨.permissionDenied, ""⟩, .receiveDone])
      else if ¬ routeAllowed required request.destination then
        some (engine.insertPeer id request service false,
          [.abortStream id .unsupported ⟨.notFound, ""⟩, .receiveDone])
      else some (engine.insertPeer id request service true, [.receiveDone])

/-- Why a DATA or PACKET record is refused. -/
def dataFailure (engine : Engine) (id : Nat) (kind : ServiceKind) (size : Nat) : Option Status :=
  if ¬ isApplicationId id then
    some (protocolFailure "application record stream ID is invalid")
  else if size = 0 then
    some (protocolFailure "empty DATA/PACKET record is forbidden")
  else
    match engine.find id with
    | none => some (protocolFailure "data arrived after the peer stream barrier")
    | some stream =>
      if stream.settlementReceived ∨ stream.terminalReceived then
        some (protocolFailure "data arrived after the peer stream barrier")
      else if stream.peerWriteClosed then
        some (protocolFailure "data arrived after the peer shut down its write side")
      else if kind ≠ stream.kind then
        some (protocolFailure "record type does not match stream kind")
      else if stream.kind = .packetChannel ∧ size > engine.limits.maxPacketSize then
        some (protocolFailure "packet exceeds the session packet bound")
      else if size > stream.inboundCredit ∨ size > engine.inboundConnectionCredit then
        some (protocolFailure "peer exceeded granted flow credit")
      else none

/-- The local bound on unread data, which credit already implies. -/
def inboundFull (engine : Engine) (stream : Stream) (size : Nat) : Bool :=
  !stream.closed && stream.pendingRead.isNone &&
    (decide (stream.inboundQueuedBytes > stream.receiveWindow.size) ||
      decide (size > stream.receiveWindow.size - stream.inboundQueuedBytes) ||
      decide (size > engine.limits.maxQueuedBytes - engine.inboundQueuedBytes))

def inboundQueueFull : Status :=
  ⟨.resourceExhausted, "inbound application queue is full"⟩

/-- Debits a received payload from both credits. -/
def debitData (engine : Engine) (id : Nat) (kind : ServiceKind) (payload : Buffer) : Engine :=
  { engine.accepted (.data id kind payload) (Stream.debit payload.size) with
    inboundConnectionCredit := engine.inboundConnectionCredit - payload.size }

/-- `process_application_data`, first section. -/
def processData (engine : Engine) (id : Nat) (kind : ServiceKind) (payload : Buffer) : Outcome :=
  match engine.dataFailure id kind payload.size, engine.find id with
  | some status, _ => some (engine, receiveFailed status)
  | none, none => some (engine, [.receiveDone])
  | none, some stream =>
    if stream.closed then
      some (engine.debitData id kind payload, [.returnCredit id payload.size true])
    else if engine.inboundFull stream payload.size then
      some (engine, receiveFailed inboundQueueFull)
    else some (engine, [.publishData id kind payload])

/-- Why the second section refuses the record. -/
def crossedFailure (engine : Engine) (id size : Nat) : Option Status :=
  match engine.find id with
  | none => some (protocolFailure "data crossed the peer stream barrier")
  | some stream =>
    if stream.terminalReceived ∨ stream.settlementReceived ∨ stream.peerWriteClosed then
      some (protocolFailure "data crossed the peer stream barrier")
    else if size > stream.inboundCredit ∨ size > engine.inboundConnectionCredit then
      some (protocolFailure "peer exceeded granted flow credit")
    else none

/-- The payload reaches its stream, with the connection's blocked-peer
return. -/
def deliverData (engine : Engine) (id : Nat) (kind : ServiceKind)
    (stream : Stream) (payload : Buffer) : Engine :=
  let debited := engine.debitData id kind payload
  { engine with
    streams := (engine.accepted (.data id kind payload) fun stream =>
      (stream.debit payload.size).receiveData payload).streams
    inboundConnectionCredit := debited.inboundConnectionCredit
    connectionWindow := debited.takenWindow engine.connectionWindow false 0
    inboundQueuedBytes := engine.inboundQueuedBytes +
      if stream.pendingRead.isSome then 0 else payload.size
    leases := engine.leases ++
      if stream.pendingRead.isSome then [(id, payload.size)] else []
    history := debited.history }

/-- `process_application_data`, second section: the stream may have closed
meanwhile. -/
def publishData (engine : Engine) (id : Nat) (kind : ServiceKind) (payload : Buffer) : Outcome :=
  match engine.crossedFailure id payload.size, engine.find id with
  | some status, _ => some (engine, receiveFailed status)
  | none, none => some (engine, [.receiveDone])
  | none, some stream =>
    if stream.closed then
      some (engine.debitData id kind payload, [.returnCredit id payload.size true])
    else if engine.inboundFull stream payload.size then
      some (engine, receiveFailed inboundQueueFull)
    else
      some (engine.deliverData id kind stream payload, [.drainControls, .receiveDone])

/-- Why `process_close` fails the session. -/
def closeFailure (engine : Engine) (id : Nat) (code : CloseCode) : Option Status :=
  if ¬ isApplicationId id then
    some (protocolFailure "CLOSE stream ID is invalid")
  else
    match engine.find id with
    | none => some (protocolFailure "CLOSE names an unknown stream")
    | some stream =>
      match code with
      | .settled =>
        if stream.settlementReceived ∨ ¬ stream.expectsPeerSettlement then
          some (protocolFailure "stream settlement is unexpected")
        else none
      | .normal =>
        if stream.peerWriteClosed ∨ stream.terminalReceived ∨
            stream.settlementReceived ∨ stream.opening then
          some (protocolFailure "CLOSE repeated or preceded acceptance")
        else none
      | _ =>
        if stream.terminalReceived ∨ stream.settlementReceived then
          some (protocolFailure "terminal CLOSE repeated a peer barrier")
        else none

def receiveClose (code : CloseCode) : Stream → Stream :=
  match code with
  | .settled => Stream.receiveSettlement
  | .normal => Stream.receiveFin
  | _ => Stream.receiveTerminal

/-- The status a peer's terminal CLOSE gives to pending operations. -/
def terminalReason (code : CloseCode) : Status :=
  ⟨match code with
    | .unauthorized => .failedPrecondition
    | .unsupported => .notFound
    | .handlerFailure => .internal
    | _ => .cancelled, "peer refused or aborted the stream"⟩

/-- A terminal CLOSE, or the second FIN with nothing left to read, removes the
stream before its settlement. -/
def closeCalls (id : Nat) (code : CloseCode) (stream : Stream) : List Call :=
  if code.isTerminal then
    [.removeStream id (terminalReason code), .settleHandshake id]
  else if code = .normal ∧ stream.fullyClosed then
    [.removeStream id ⟨.closed, ""⟩, .settleHandshake id]
  else [.settleHandshake id]

/-- `process_close`. -/
def processClose (engine : Engine) (id : Nat) (code : CloseCode) : Outcome :=
  match engine.closeFailure id code, engine.find id with
  | some status, _ => some (engine, receiveFailed status)
  | none, none => some (engine, [.receiveDone])
  | none, some stream =>
    some (engine.accepted (.close id code) (receiveClose code),
      closeCalls id code (receiveClose code stream) ++ [.receiveDone])

/-- `process_connection_credit`. -/
def processConnectionCredit (engine : Engine) (increment : Nat) : Outcome :=
  if increment = 0 ∨ increment > maxCreditIncrement then
    engine.reject "connection-credit update is malformed"
  else if increment > creditRoom engine.outboundConnectionCredit then
    engine.reject "connection-credit update exceeds the YTP/1 bound"
  else
    some ({ engine.accepted (.connectionCredit increment) with
      outboundConnectionCredit :=
        engine.outboundConnectionCredit + increment },
      [.drainWrites, .receiveDone])

/-- Why `process_stream_credit` fails the session. -/
def creditFailure (engine : Engine) (id increment : Nat) : Option Status :=
  if increment = 0 ∨ increment > maxCreditIncrement then
    some (protocolFailure "stream-credit update is malformed")
  else
    match engine.find id with
    | none =>
      some (protocolFailure "credit arrived after the peer stream barrier")
    | some stream =>
      if stream.settlementReceived ∨ stream.terminalReceived then
        some (protocolFailure "credit arrived after the peer stream barrier")
      else if stream.opening ∧ stream.openedByPeer then
        some (protocolFailure "opener granted credit before acceptance")
      else if increment > creditRoom stream.outboundCredit then
        some (protocolFailure "stream-credit update exceeds the YTP/1 bound")
      else none

def creditStream (engine : Engine) (id increment : Nat) : Engine :=
  engine.accepted (.streamCredit id increment) (Stream.receiveCredit increment)

/-- The opener's side of an accepted stream: its first credit. -/
def acceptOpen (engine : Engine) (id increment : Nat) (stream : Stream) :
    Engine :=
  { engine.accepted (.streamCredit id increment) fun opened =>
      (opened.receiveCredit increment).acceptLocally (engine.initialCredit stream) with
    pendingOpens := engine.pendingOpens - 1
    streamControlsOwed := true }

/-- `process_stream_credit`. -/
def processStreamCredit (engine : Engine) (id increment : Nat) : Outcome :=
  match engine.creditFailure id increment, engine.find id with
  | some status, _ => some (engine, receiveFailed status)
  | none, none => some (engine, [.receiveDone])
  | none, some stream =>
    if stream.closed then
      some (engine.creditStream id increment, [.receiveDone])
    else if stream.opening then
      some (engine.acceptOpen id increment stream, [.drainControls, .drainWrites, .receiveDone])
    else
      some (engine.creditStream id increment, [.drainWrites, .receiveDone])

def processPing (engine : Engine) : Outcome :=
  some (engine.accepted .ping, [.enqueue { record := .pong, isControl := true } .pong])

def processPong (engine : Engine) : Outcome :=
  some (engine.accepted .pong, [.receiveDone])

/-- The provider commits the new inbound root and keeps the old one. -/
def acceptInboundRekey (engine : Engine) (secret : Nat) : Engine :=
  { engine with
    security := { engine.security with
      previousRoot := some engine.security.inboundRoot
      inboundRoot := secret :: engine.security.inboundRoot }
    rekeyWork := engine.rekeyWork + 1 }

/-- `process_rekey_init`, up to the provider's acceptance. -/
def processRekeyInit (engine : Engine) (epoch secret size : Nat) (choice : Choice) : Outcome :=
  if ¬ engine.rekeySizeOk size rekeyInitMessageBytes then
    engine.reject "REKEY_INIT payload has an invalid size"
  else if engine.inbound.epoch = maxEpoch ∨
      epoch ≠ engine.inbound.epoch + 1 ∨
      engine.rekeyWork ≥ engine.limits.maxConcurrentRekeys then
    engine.reject "inbound rekey epoch or capacity is invalid"
  else if ¬ choice.accept then
    some (engine, receiveFailed ⟨.internal, "security provider threw while accepting rekey"⟩)
  else if ¬ engine.rekeyMessageOk choice.messageSize rekeyAckMessageBytes then
    some (engine, receiveFailed ⟨.providerMismatch,
      "security provider returned an invalid rekey acknowledgement"⟩)
  else
    some (engine.acceptInboundRekey secret, [.acceptRekeyInit epoch secret size choice.messageSize])

def rekeyAckRequest (engine : Engine) (epoch ackSize : Nat) : Request where
  record := .rekeyAck epoch engine.security.inboundRoot ackSize
  protect := false
  isControl := true

/-- The old epoch stays open, with its own counts, until the peer's first
record of the new one. -/
def switchInbound (engine : Engine) (epoch : Nat) : Engine :=
  { engine with
    inbound := { engine.inbound with
      previousOpen := true
      previousBytes := engine.inbound.bytes
      previousRecords := engine.inbound.records
      epoch := epoch
      bytes := 0
      records := 0 }
    rekeyWork := engine.rekeyWork - 1 }

/-- The second half of `process_rekey_init`. -/
def acceptRekeyInit (engine : Engine) (epoch secret size ackSize : Nat) :
    Outcome :=
  some ((engine.switchInbound epoch).accepted (.rekeyInit epoch secret size),
    [.enqueue (engine.rekeyAckRequest epoch ackSize) .rekeyAck])

/-- `sample_round_trip_locked`: the smallest recent sample is kept. -/
def sampleRoundTrip (engine : Engine) (sent now : Time) : Engine :=
  let fresh := engine.roundTrip.all (fun best => decide (now - sent ≤ best)) ||
    decide (now ≥ engine.roundTripExpiry)
  { engine with
    roundTrip := if fresh then some (now - sent) else engine.roundTrip
    roundTripExpiry := if fresh then now + roundTripWindow
      else engine.roundTripExpiry }

/-- The switch to the acknowledged epoch. -/
def commitRekey (engine : Engine) (epoch : Nat) (now : Time) : Engine :=
  { engine.sampleRoundTrip engine.outbound.rekeyStarted now with
    outbound := { engine.outbound with
      epoch := epoch
      bytes := 0
      records := 0
      rekeyPending := false }
    rekeyWork := engine.rekeyWork - 1
    security := { engine.security with
      outboundRoot := engine.security.candidate.getD []
      candidate := none } }

/-- `process_rekey_ack`, up to its flush.  It holds the record-order lock. -/
def processRekeyAck (engine : Engine) (epoch : Nat) (confirmation : Root)
    (size : Nat) (now : Time) : Outcome :=
  if ¬ engine.rekeySizeOk size rekeyAckMessageBytes then
    engine.reject "REKEY_ACK payload has an invalid size"
  else if engine.orderingLocked then none
  else if ¬ engine.outbound.rekeyPending ∨ epoch ≠ engine.outbound.rekeyEpoch then
    engine.reject "REKEY_ACK epoch is unexpected"
  else if engine.outbound.rekeyExpired ∨ now ≥ engine.outbound.rekeyDeadline then
    engine.reject "rekey acknowledgement deadline expired"
  else if engine.security.candidate ≠ some confirmation then
    some (engine, receiveFailed ⟨.internal, "rekey confirmation failed"⟩)
  else
    some (engine.commitRekey epoch now, [.flushDeferred])

/-- `advertise_post_authentication_state`. -/
def advertise (engine : Engine) : Outcome :=
  some (engine, [.enqueue { record := .capabilities engine.config.localManifest, isControl := true }
    .capabilities])

def advertiseCredit (engine : Engine) : Outcome :=
  some ({ engine with connectionWindow := { engine.connectionWindow with
      size := engine.limits.initialConnectionCredit
      owed := engine.limits.initialConnectionCredit } },
    [.drainControls, .receiveDone])

def receiveDone (engine : Engine) : Outcome :=
  some ({ engine with receiveInProgress := false }, [])

end Engine

end Yume.Session
