/-
The operations applications start: `async_open`, the stream responder's reads,
writes, shutdown and close, their cancellations, and a handler's answer to a
peer OPEN.
-/
import Yume.Session.Closing

namespace Yume.Session

namespace Stream

/-- An opener may cancel until the acceptance was handed out. -/
def registerOpen (stream : Stream) : Stream :=
  { stream with openCancellation := stream.openCancellation ||
      (!stream.closed && (stream.opening || stream.acceptanceReady)) }

/-- The reader takes the first queued record with its credit lease. -/
def readFront (payload : Buffer) (stream : Stream) : Stream :=
  { stream with
    inbound := stream.inbound.tail
    inboundQueuedBytes := stream.inboundQueuedBytes - payload.size
    endOfStream := stream.endOfStream ||
      (stream.peerWriteClosed && stream.inbound.tail.isEmpty)
    delivered := stream.delivered ++ [payload] }

/-- A read that finds the peer's FIN with nothing queued. -/
def readEnd (stream : Stream) : Stream :=
  { stream with endOfStream := true, endReported := true }

def reportEnd (stream : Stream) : Stream :=
  { stream with endReported := true }

def parkRead (operationId : Nat) (stream : Stream) : Stream :=
  { stream with pendingRead := some operationId }

def cancelRead (stream : Stream) : Stream :=
  { stream with pendingRead := none }

def acceptWrite (write : PendingWrite) (stream : Stream) : Stream :=
  { stream with
    pendingWrites := stream.pendingWrites ++ [write]
    outboundQueuedBytes :=
      stream.outboundQueuedBytes + write.payload.retainedCapacity
    kept := stream.kept ++ [write] }

/-- `remove_stream` already returned the bytes of a closed stream. -/
def cancelWrite (write : PendingWrite) (stream : Stream) : Stream :=
  { stream.forget (some write.operationId) with
    pendingWrites := stream.pendingWrites.filter fun pending =>
      pending.operationId ≠ write.operationId
    outboundQueuedBytes := if stream.closed then stream.outboundQueuedBytes
      else stream.outboundQueuedBytes - write.payload.retainedCapacity }

def requestShutdown (stream : Stream) : Stream :=
  { stream with localWriteShutdownRequested := true }

def terminate (stream : Stream) : Stream :=
  { stream with terminated := true }

/-- An accepted stream opens its receive window and owes the first grant. -/
def openWindow (initial : Nat) (stream : Stream) : Stream :=
  { stream with
    opening := false
    receiveWindow :=
      { stream.receiveWindow with size := initial, owed := initial } }

end Stream

namespace Config

/-- `peer_capability`. -/
def peerCapability (config : Config) (name : ServiceName) (kind : ServiceKind) :
    Option Capability :=
  config.peerManifest.entries.find? fun entry =>
    entry.serviceKind == kind && entry.serviceName == name

/-- The first service of the local graph with this name and kind. -/
def localService (config : Config) (name : ServiceName) (kind : ServiceKind) :
    Option ServiceRequirement :=
  config.services.find? fun service =>
    service.serviceKind == kind && service.serviceName == name

end Config

def Transport.serves : Transport → ServiceKind → Bool
  | .tcp, .byteStream => true
  | .udp, .packetChannel => true
  | _, _ => false

namespace Engine

/-- The local half of the stream-ID space is used in steps of two. -/
def takeStreamId (engine : Engine) : Engine :=
  let last := decide (engine.nextLocalStreamId > maxApplicationStreamId - 2)
  { engine with
    localStreamIdsExhausted := engine.localStreamIdsExhausted || last
    nextLocalStreamId := engine.nextLocalStreamId + if last then 0 else 2 }

def localStream (engine : Engine) (request : OpenRequest) : Stream where
  id := engine.nextLocalStreamId
  serviceName := request.serviceName
  kind := request.serviceKind
  openedByPeer := false
  maxReceiveCredit := engine.limits.maxStreamCredit

def insertStream (engine : Engine) (stream : Stream) : Engine :=
  { engine with
    streams := engine.streams ++ [stream]
    pendingOpens := engine.pendingOpens + 1 }

/-- Why `async_open` refuses before it allocates a stream ID. -/
def openRefusal (engine : Engine) (request : OpenRequest) : Option Status :=
  if request.destination.any fun destination =>
      !destination.transport.serves request.serviceKind then
    some ⟨.invalidArgument, "route protocol does not match the service kind"⟩
  else if engine.state ≠ .active then
    some ⟨.failedPrecondition, "session is not active"⟩
  else if engine.localStreamIdsExhausted ∨
      engine.streamCount ≥ engine.limits.maxStreams ∨
      engine.pendingOpens ≥ engine.limits.maxPendingOpens then
    some ⟨.resourceExhausted, "session stream capacity is exhausted"⟩
  else
    match engine.config.peerCapability request.serviceName
        request.serviceKind with
    | none => some ⟨.notFound, "peer did not advertise this service and kind"⟩
    | some capability =>
      if engine.serviceStreamCount request.serviceName request.serviceKind ≥
          capability.maxConcurrentStreams then
        some ⟨.resourceExhausted, "peer service stream limit is exhausted"⟩
      else none

/-- `async_open`: the stream ID is allocated here, its OPEN is published by the
`enqueue_record` that follows. -/
def asyncOpen (engine : Engine) (request : OpenRequest) : Outcome :=
  match engine.openRefusal request with
  | some _ => some (engine, [])
  | none =>
    some ((engine.insertStream (engine.localStream request)).takeStreamId,
      [.enqueue { record := .open engine.nextLocalStreamId request }
        (.open engine.nextLocalStreamId)])

def openRegistered (engine : Engine) (id : Nat) : Outcome :=
  some (engine.modify id Stream.registerOpen, [])

def openCancelled : Status := ⟨.cancelled, "stream open was cancelled"⟩

def cancelOpen (engine : Engine) (id : Nat) : Outcome :=
  match engine.findOpen id with
  | none => some (engine, [])
  | some stream =>
    if (stream.opening || stream.acceptanceReady) && !stream.openedByPeer then
      some (engine, [.abortStream id .aborted openCancelled])
    else some (engine, [])

/-- The calls that retire a stream whose last queued record was read. -/
def afterLastRead (id : Nat) (stream : Stream) : List Call :=
  if stream.fullyClosed then
    [.removeStream id ⟨.closed, ""⟩, .settleHandshake id] else []

/-- The reader takes a queued record and owns its credit lease. -/
def readRecord (engine : Engine) (id : Nat) (payload : Buffer) : Engine :=
  { engine.modify id (Stream.readFront payload) with
    inboundQueuedBytes := engine.inboundQueuedBytes - payload.size
    leases := engine.leases ++ [(id, payload.size)] }

/-- The responder's own EOF and termination marks are read first. -/
def streamRead (engine : Engine) (id : Nat) : Outcome :=
  match engine.object id with
  | none => some (engine, [])
  | some held =>
    if engine.terminal ∨ held.terminated then some (engine, [])
    else if held.endOfStream then some (engine.modify id Stream.reportEnd, [])
    else
      match engine.findOpen id with
      | none => some (engine, [])
      | some stream =>
        if stream.pendingRead.isSome then some (engine, [])
        else
          match stream.inbound with
          | payload :: _ =>
            some (engine.readRecord id payload, afterLastRead id (stream.readFront payload))
          | [] =>
            if stream.peerWriteClosed then
              some (engine.modify id Stream.readEnd, afterLastRead id stream.readEnd)
            else if engine.operationIdsExhausted then some (engine, [])
            else
              some ((engine.modify id (Stream.parkRead engine.nextOperationId)).takeOperationId, [])

def cancelRead (engine : Engine) (id operationId : Nat) : Outcome :=
  match engine.find id with
  | none => some (engine, [])
  | some stream =>
    if stream.pendingRead = some operationId then
      some (engine.modify id Stream.cancelRead, [])
    else some (engine, [])

/-- The payload sizes `stream_write` accepts. -/
def writableSize (engine : Engine) (stream : Stream) (size : Nat) : Bool :=
  decide (size ≠ 0) && decide (size ≤ engine.limits.maxFramePayload) &&
    decide (size ≤ engine.limits.maxConnectionCredit) &&
    decide (size ≤ engine.limits.maxStreamCredit) &&
    (stream.kind != .packetChannel ||
      decide (size ≤ engine.limits.maxPacketSize))

/-- Is there storage for another waiting write? -/
def writeFits (engine : Engine) (stream : Stream) (storage : Nat) : Bool :=
  decide (storage ≤ engine.limits.maxStreamQueuedBytes - stream.outboundQueuedBytes) &&
    decide (engine.queue.retained ≤ applicationQueueLimit engine.limits) &&
    decide (storage ≤ applicationQueueLimit engine.limits - engine.queue.retained)

def queueWrite (engine : Engine) (id : Nat) (payload : Buffer) : Engine :=
  { engine.takeOperationId with
    streams := (engine.modify id (Stream.acceptWrite ⟨engine.nextOperationId, payload⟩)).streams
    queue := { engine.queue with pendingWriteBytes :=
      engine.queue.pendingWriteBytes + payload.retainedCapacity } }

/-- Why `stream_write` refuses a payload. -/
def writeRefusal (engine : Engine) (id : Nat) (payload : Buffer) : Option Status :=
  match engine.findOpen id with
  | none => some streamIsClosed
  | some stream =>
    if stream.localWriteShutdownRequested then
      some ⟨.closed, "stream write side is shut down"⟩
    else if ¬ engine.writableSize stream payload.size then
      some ⟨.invalidArgument, "stream payload size is invalid"⟩
    else if ¬ engine.writeFits stream payload.retainedCapacity then
      some ⟨.resourceExhausted, "stream write queue is full"⟩
    else if engine.operationIdsExhausted then
      some ⟨.resourceExhausted, "stream operation IDs are exhausted"⟩
    else none

def streamWrite (engine : Engine) (id : Nat) (payload : Buffer) : Outcome :=
  match engine.writeRefusal id payload with
  | some _ => some (engine, [])
  | none => some (engine.queueWrite id payload, [.drainWrites])

def dropPendingWrite (engine : Engine) (stream : Stream) (write : PendingWrite) : Engine :=
  { engine.modify stream.id (Stream.cancelWrite write) with
    queue := { engine.queue with pendingWriteBytes :=
      if stream.closed then engine.queue.pendingWriteBytes
      else engine.queue.pendingWriteBytes - write.payload.retainedCapacity } }

def cancelWrite (engine : Engine) (id operationId : Nat) : Outcome :=
  match engine.find id with
  | none => some (engine, [])
  | some stream =>
    match stream.pendingWrites.find? fun write =>
        write.operationId == operationId with
    | none => some (engine, [])
    | some write =>
      some (engine.dropPendingWrite stream write, [.finishShutdown id, .drainWrites])

def streamShutdown (engine : Engine) (id : Nat) : Outcome :=
  match engine.findOpen id with
  | none => some (engine, [])
  | some stream =>
    if stream.localWriteShutdownRequested then some (engine, [])
    else some (engine.modify id Stream.requestShutdown, [.finishShutdown id])

def streamClosedLocally : Status := ⟨.cancelled, "stream was closed locally"⟩

/-- The responder's `close`. -/
def streamClose (engine : Engine) (id : Nat) : Outcome :=
  some (engine.modify id Stream.terminate, [.abortStream id .aborted streamClosedLocally])

/-- The first grant of an accepted stream. -/
def initialCredit (engine : Engine) (stream : Stream) : Nat :=
  min engine.limits.initialStreamCredit stream.maxReceiveCredit

def acceptStream (engine : Engine) (stream : Stream) : Engine :=
  { engine.modify stream.id (Stream.openWindow (engine.initialCredit stream)) with
    pendingOpens := engine.pendingOpens - 1
    streamControlsOwed := true }

/-- `complete_peer_open`: the handler accepts or refuses a peer's stream. -/
def completePeerOpen (engine : Engine) (id : Nat) (status : Status) : Outcome :=
  match engine.findOpen id with
  | none => some (engine, [])
  | some stream =>
    if engine.terminal ∨ ¬ stream.openedByPeer ∨ ¬ stream.opening then
      some (engine, [])
    else if status.isOk then
      some (engine.acceptStream stream, [.drainControls, .finishShutdown id])
    else
      some (engine, [.abortStream id (if status.code = .permissionDenied then .unauthorized
          else .handlerFailure) status])

end Engine

end Yume.Session
