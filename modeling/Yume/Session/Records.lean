/-
The records one session exchanges, as their decoded values, and the queues'
view of a record: its wire form, its engine control and its completion.
Payload bytes are carried as an opaque content with a size, since the engine
never looks inside an application payload.
-/
import Yume.Session.Limits

namespace Yume.Session

inductive EndpointRole where
  | client
  | server
deriving Repr, DecidableEq

inductive ServiceKind where
  | byteStream
  | packetChannel
deriving Repr, DecidableEq

inductive Transport where
  | tcp
  | udp
deriving Repr, DecidableEq

/-- A single-owner byte buffer.  `retainedCapacity` is its backing allocation,
which can exceed the logical size. -/
structure Buffer where
  content : Nat
  size : Nat
  retainedCapacity : Nat
deriving Repr, DecidableEq

abbrev ServiceName := List UInt8

/-- The route destination of an OPEN: the engine reads only its transport and
charges its encoded length. -/
structure Destination where
  transport : Transport
  encodedLength : Nat
deriving Repr, DecidableEq

structure OpenRequest where
  serviceName : ServiceName
  serviceKind : ServiceKind
  destination : Option Destination := none
deriving Repr, DecidableEq

def OpenRequest.encodedSize (request : OpenRequest) : Nat :=
  8 + request.serviceName.length + (request.destination.map Destination.encodedLength).getD 0

structure Capability where
  serviceName : ServiceName
  serviceKind : ServiceKind
  maxConcurrentStreams : Nat
deriving Repr, DecidableEq

structure CapabilityManifest where
  entries : List Capability
  maxEpochBytes : Nat
deriving Repr, DecidableEq

def CapabilityManifest.encodedSize (manifest : CapabilityManifest) : Nat :=
  8 + (manifest.entries.map fun entry => 8 + entry.serviceName.length).sum

/-- `StreamCloseCode`. -/
inductive CloseCode where
  | normal
  | unauthorized
  | unsupported
  | handlerFailure
  | aborted
  | settled
deriving Repr, DecidableEq

/-- Codes 1 through 4. -/
def CloseCode.isTerminal : CloseCode → Bool
  | .normal | .settled => false
  | .unauthorized | .unsupported | .handlerFailure | .aborted => true

/-- The directional root of one epoch, as the chain of rekey secrets mixed into
the authenticated initial root. -/
abbrev Root := List Nat

/-- One decoded YTP/1 frame.  `data` is DATA on a byte stream and PACKET on a
packet channel.  `invalid` stands for every plaintext the decoders refuse and
for AUTH records, which no post-AUTH state accepts. -/
inductive Record where
  | capabilities (manifest : CapabilityManifest)
  | open (streamId : Nat) (request : OpenRequest)
  | data (streamId : Nat) (kind : ServiceKind) (payload : Buffer)
  | close (streamId : Nat) (code : CloseCode)
  | connectionCredit (increment : Nat)
  | streamCredit (streamId : Nat) (increment : Nat)
  | rekeyInit (epoch : Nat) (secret : Nat) (messageSize : Nat)
  | rekeyAck (epoch : Nat) (confirmation : Root) (messageSize : Nat)
  | ping
  | pong
  | invalid (size : Nat)
deriving Repr, DecidableEq

namespace Record

/-- The header's stream ID.  Zero is the session's control stream. -/
def streamId : Record → Nat
  | .open id _ | .data id _ _ | .close id _ | .streamCredit id _ => id
  | _ => 0

def payloadSize : Record → Nat
  | .capabilities manifest => manifest.encodedSize
  | .open _ request => request.encodedSize
  | .data _ _ payload => payload.size
  | .close _ _ => closePayloadBytes
  | .connectionCredit _ | .streamCredit _ _ => creditPayloadBytes
  | .rekeyInit _ _ size | .rekeyAck _ _ size => rekeyEpochBytes + size
  | .ping | .pong => pingPayloadBytes
  | .invalid size => size

def isClose : Record → Bool
  | .close _ _ => true
  | _ => false

def isOpen : Record → Bool
  | .open _ _ => true
  | _ => false

def isRekeyInit : Record → Bool
  | .rekeyInit _ _ _ => true
  | _ => false

def isRekeyControl : Record → Bool
  | .rekeyInit _ _ _ | .rekeyAck _ _ _ => true
  | _ => false

/-- Application payload bytes charged to flow credit. -/
def dataBytes : Record → Nat
  | .data _ _ payload => payload.size
  | _ => 0

end Record

/-- `RecordKeyToken`: one directional, one-use record key. -/
structure RecordKeyToken where
  epoch : Nat
  sequence : Nat
deriving Repr, DecidableEq

/-- An ideal AEAD ciphertext: it opens only under the root and the token that
sealed it. -/
structure SealedRecord where
  root : Root
  token : RecordKeyToken
  plaintext : Record
deriving Repr, DecidableEq

/-- A carrier record.  After AUTH every frame is sealed except REKEY_ACK. -/
inductive Wire where
  | sealed (token : RecordKeyToken) (body : SealedRecord)
  | bare (record : Record)
deriving Repr, DecidableEq

/-- The plaintext a carrier record holds. -/
def Wire.record : Wire → Record
  | .sealed _ body => body.plaintext
  | .bare record => record

inductive ControlKind where
  | none
  | credit
  | fin
  | terminal
  | settlement
deriving Repr, DecidableEq

/-- The engine obligation a record discharges.  A deferred record keeps its
reservation across the rekey flush. -/
structure EngineControl where
  kind : ControlKind := .none
  streamId : Nat := 0
  increment : Nat := 0
  reserved : Bool := false
deriving Repr, DecidableEq

inductive QueueAdmission where
  | unattempted
  | refused
  | accepted
deriving Repr, DecidableEq

structure PendingWrite where
  operationId : Nat
  payload : Buffer
deriving Repr, DecidableEq

/-- The arguments of one `enqueue_record` call.  `completion` names the write
operation whose completion travels with the record. -/
structure Request where
  record : Record
  protect : Bool := true
  isControl : Bool := false
  completion : Option Nat := none
  bypassRekeyBarrier : Bool := false
  control : EngineControl := {}
deriving Repr, DecidableEq

structure DeferredRecord where
  record : Record
  isControl : Bool
  completion : Option Nat
  control : EngineControl
deriving Repr, DecidableEq

def DeferredRecord.request (deferred : DeferredRecord) : Request where
  record := deferred.record
  isControl := deferred.isControl
  completion := deferred.completion
  control := deferred.control

/-- The accepted write a record carries. -/
def Request.write (request : Request) : List PendingWrite :=
  match request.record, request.completion with
  | .data _ _ payload, some operationId => [⟨operationId, payload⟩]
  | _, _ => []

def Request.deferred (request : Request) : DeferredRecord where
  record := request.record
  isControl := request.isControl
  completion := request.completion
  control := request.control

structure OutboundItem where
  wire : Wire
  size : Nat
  isControl : Bool
  completion : Option Nat
  control : EngineControl
deriving Repr, DecidableEq

/-- The send the carrier has not completed.  Its record is history that no
engine function reads. -/
structure ActiveSend where
  wire : Wire
  wireBytes : Nat
  isControl : Bool
  completion : Option Nat
  control : EngineControl
deriving Repr, DecidableEq

end Yume.Session
