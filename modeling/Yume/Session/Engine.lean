/-
The state that `SessionEngine::Impl` guards with its locks, and the small
updates its critical sections are built from.
-/
import Yume.Session.Stream

namespace Yume.Session

/-- The post-AUTH states of a session.  `closed` and `failed` are terminal. -/
inductive SessionState where
  | awaitingCapabilities
  | active
  | closed
  | failed
deriving Repr, DecidableEq

structure ServiceRequirement where
  serviceName : ServiceName
  serviceKind : ServiceKind
  maxConcurrentStreams : Nat
  maxReceiveCredit : Nat := 0
  directTcp : Bool := false
  directUdp : Bool := false
deriving Repr, DecidableEq

/-- What is fixed when AUTH has established the session: the local graph and
limits, the peer's authenticated manifest, and the provider's AEAD overhead. -/
structure Config where
  role : EndpointRole
  limits : SessionLimits := {}
  services : List ServiceRequirement := []
  peerManifest : CapabilityManifest
  maxSealedOverhead : Nat := 0

namespace Config

def localManifest (config : Config) : CapabilityManifest where
  entries := config.services.map fun service =>
    ⟨service.serviceName, service.serviceKind,
      min service.maxConcurrentStreams config.limits.maxStreams⟩
  maxEpochBytes := config.limits.maxEpochBytes

/-- Both directions use the smaller advertised epoch. -/
def epochPayloadBytes (config : Config) : Nat :=
  min config.limits.maxEpochBytes config.peerManifest.maxEpochBytes

def epochRecordLimit (config : Config) : Nat :=
  Session.epochRecordLimit config.epochPayloadBytes

/-- What `SessionEngine::create` and the manifest decoder have checked. -/
structure Valid (config : Config) : Prop where
  admissible : Admissible config.limits
  overhead : config.maxSealedOverhead ≤ config.limits.maxSecurityOverhead
  peerEpoch : isValidEpochPayloadBytes config.peerManifest.maxEpochBytes = true
  manifest : config.localManifest.encodedSize ≤ maxCapabilityManifestSize

end Config

structure OutboundEpoch where
  epoch : Nat := 0
  nextSequence : Nat := 0
  sequenceExhausted : Bool := false
  rekeyPending : Bool := false
  rekeyExpired : Bool := false
  rekeyStarted : Time := 0
  rekeyDeadline : Time := 0
  rekeyEpoch : Nat := 0
  bytes : Nat := 0
  records : Nat := 0
  firstSend : Time := 0
deriving Repr, DecidableEq

structure InboundEpoch where
  epoch : Nat := 0
  nextSequence : Nat := 0
  sequenceExhausted : Bool := false
  bytes : Nat := 0
  records : Nat := 0
  previousOpen : Bool := false
  previousBytes : Nat := 0
  previousRecords : Nat := 0
deriving Repr, DecidableEq

/-- The outbound queues and the counters that charge them.  `pendingWriteBytes`
is the retained storage of unsent writes, which shares the byte budget. -/
structure OutboundQueue where
  items : List OutboundItem := []
  deferred : List DeferredRecord := []
  active : Option ActiveSend := none
  wireBytes : Nat := 0
  controlMessages : Nat := 0
  pendingWriteBytes : Nat := 0

def OutboundQueue.retained (queue : OutboundQueue) : Nat :=
  queue.wireBytes + queue.pendingWriteBytes

/-- The provider's directional roots, as its contract describes them.  The
previous inbound root is held from REKEY_INIT until the first record of the
new epoch opens. -/
structure SecurityProvider where
  outboundRoot : Root := []
  candidate : Option Root := none
  inboundRoot : Root := []
  previousRoot : Option Root := none
deriving Repr, DecidableEq

/-- History that no engine function reads: the protected records in the order
they took a token, the tokens passed to `seal_record`, the protected records in
the order they entered the wire queue, the protected records opened, and the
ones among them whose processing succeeded. -/
structure History where
  committed : List (RecordKeyToken × Record) := []
  sealed : List RecordKeyToken := []
  queued : List (RecordKeyToken × Record) := []
  opened : List (RecordKeyToken × Record) := []
  processed : List Record := []

structure Engine where
  config : Config
  state : SessionState := .awaitingCapabilities
  terminalStatus : Status := {}
  streams : List Stream := []
  nextLocalStreamId : Nat
  localStreamIdsExhausted : Bool := false
  lastPeerStreamId : Nat := 0
  pendingOpens : Nat := 0
  nextOperationId : Nat := 1
  operationIdsExhausted : Bool := false
  lastScheduledStreamId : Nat := 0
  pendingWritesDraining : Bool := false
  inboundQueuedBytes : Nat := 0
  outboundConnectionCredit : Nat := 0
  inboundConnectionCredit : Nat := 0
  connectionWindow : ReceiveWindow := {}
  controlsDraining : Bool := false
  controlsDrainAgain : Bool := false
  streamControlsOwed : Bool := false
  roundTrip : Option Time := none
  roundTripExpiry : Time := 0
  outbound : OutboundEpoch := {}
  inbound : InboundEpoch := {}
  rekeyWork : Nat := 0
  queue : OutboundQueue := {}
  orderingLocked : Bool := false
  receiveInProgress : Bool := false
  security : SecurityProvider := {}
  leases : List (Nat × Nat) := []
  history : History := {}

namespace Engine

def limits (engine : Engine) : SessionLimits := engine.config.limits

/-- `terminal_locked`. -/
def terminal (engine : Engine) : Bool :=
  engine.state == .closed || engine.state == .failed

/-- `streams_.find`. -/
def find (engine : Engine) (id : Nat) : Option Stream :=
  engine.streams.find? fun stream => stream.id == id && stream.present

/-- An entry of `streams_` that is not closed. -/
def findOpen (engine : Engine) (id : Nat) : Option Stream :=
  (engine.find id).filter fun stream => !stream.closed

def streamCount (engine : Engine) : Nat :=
  engine.streams.countP fun stream => stream.present

def modify (engine : Engine) (id : Nat) (update : Stream → Stream) : Engine :=
  { engine with streams := engine.streams.map fun stream =>
      if stream.id = id then update stream else stream }

/-- `service_stream_count_locked`. -/
def serviceStreamCount (engine : Engine) (name : ServiceName) (kind : ServiceKind) : Nat :=
  engine.streams.countP fun stream =>
    stream.present && !stream.closed && stream.kind == kind && stream.serviceName == name

def grantSlotFree (engine : Engine) (window : ReceiveWindow) : Bool :=
  decide (window.grantsQueued < engine.limits.creditReturnsPerWindow)

/-- `operation_id` allocation shared by reads and writes. -/
def takeOperationId (engine : Engine) : Engine :=
  let last := engine.nextOperationId == maxSequence
  { engine with
    operationIdsExhausted := engine.operationIdsExhausted || last
    nextOperationId := engine.nextOperationId + if last then 0 else 1 }

/-- The fixed part of a record's queue reservation. -/
def fixedOverhead (engine : Engine) (protect : Bool) : Nat :=
  frameHeaderSize +
    if protect then protectedEnvelopeBytes + engine.config.maxSealedOverhead
    else 0

def reservation (engine : Engine) (request : Request) : Nat :=
  engine.fixedOverhead request.protect + request.record.payloadSize

def deferredReservation (engine : Engine) (deferred : DeferredRecord) : Nat :=
  engine.fixedOverhead true + deferred.record.payloadSize

/-- Gives back a reservation taken for a record that was not queued. -/
def release (engine : Engine) (bytes : Nat) (isControl : Bool) : Engine :=
  { engine with queue :=
      { engine.queue with
        wireBytes := engine.queue.wireBytes - bytes
        controlMessages :=
          engine.queue.controlMessages - if isControl then 1 else 0 } }

/-- Charges a reservation. -/
def charge (engine : Engine) (bytes : Nat) (isControl : Bool) : Engine :=
  { engine with queue :=
      { engine.queue with
        wireBytes := engine.queue.wireBytes + bytes
        controlMessages :=
          engine.queue.controlMessages + if isControl then 1 else 0 } }

/-- Protected senders hold `outbound_record_mutex_`. -/
def unlock (engine : Engine) (request : Request) : Engine :=
  { engine with orderingLocked := engine.orderingLocked && !request.protect }

/-- `stop`: every later operation finds a terminal session without streams. -/
def stop (engine : Engine) (reason : Status) (failed : Bool) : Engine :=
  if engine.terminal then engine
  else
    { engine with
      state := if failed then .failed else .closed
      terminalStatus := reason
      streams := engine.streams.map fun stream =>
        { stream with closed := true, present := false }
      pendingOpens := 0
      inboundQueuedBytes := 0
      queue := {} }

def fail (engine : Engine) (status : Status) : Engine :=
  engine.stop (if status.isOk then
    ⟨.internal, "session failed without an error status"⟩ else status) true

end Engine

end Yume.Session
