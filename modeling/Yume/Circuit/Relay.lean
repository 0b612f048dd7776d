/-
Relay messages: the rules of each type, `EncodeRelayMessage`,
`DecodeRelayMessage`, the bucket a sender picks, and the exactness of the
circuit codecs.
-/
import Yume.Circuit.Payloads

namespace Yume.Circuit

open Yume.Lib List
open Yume.Ytp (Destination AddressKind)

/-- `RelayType`, an enumeration over one byte. -/
structure RelayType where
  wire : UInt8
deriving Repr, DecidableEq

namespace RelayType

def begin : RelayType := ⟨1⟩
def data : RelayType := ⟨2⟩
def «end» : RelayType := ⟨3⟩
def streamCredit : RelayType := ⟨4⟩
def extend : RelayType := ⟨5⟩
def connected : RelayType := ⟨6⟩
def extended : RelayType := ⟨7⟩
def extendFailed : RelayType := ⟨8⟩
def circuitFailed : RelayType := ⟨9⟩

/-- `is_known_relay_type`. -/
def isKnown (type : RelayType) : Bool :=
  decide (begin.wire ≤ type.wire) && decide (type.wire ≤ circuitFailed.wire)

/-- `allowed_in`. -/
def allowedIn (type : RelayType) (direction : Direction) : Bool :=
  if type = begin ∨ type = extend then direction == .forward
  else if type = connected ∨ type = extended ∨ type = extendFailed ∨ type = circuitFailed then
    direction == .backward
  else if type = data ∨ type = «end» ∨ type = streamCredit then
    direction == .forward || direction == .backward
  else false

/-- `is_stream_message`. -/
def isStreamMessage (type : RelayType) : Bool :=
  type == begin || type == data || type == «end» || type == streamCredit ||
    type == connected

end RelayType

def relayHeaderBytes : Nat := 8
def maxBeginPayload : Nat := 1 + 2 + 1 + Ytp.maxDnsNameBytes
def maxCreditIncrement : Nat := 2 ^ 30

/-- `is_known_circuit_reason`. -/
def isKnownCircuitReason (value : UInt8) : Bool := decide (1 ≤ value) && decide (value ≤ 6)

/-- `is_known_stream_reason`. -/
def isKnownStreamReason (value : UInt8) : Bool := decide (value ≤ 8)

/-- `is_relay_capacity`. -/
def isRelayCapacity (direction : Direction) (size : Nat) : Bool :=
  direction.isKnown &&
    (bucketsOf direction).any fun bucket => relayCapacity direction bucket == size

/-- The smallest BEGIN payload of an address kind. -/
def minBeginPayload (kind : AddressKind) : Nat :=
  if kind = .ipv4 then 1 + 2 + 4
  else if kind = .ipv6 then 1 + 2 + 16
  else if kind = .dns then 1 + 2 + 1 + 1
  else 3

/-- The rule for a payload that is one reason. -/
def checkReason (known : UInt8 → Bool) : Bytes → Result Unit
  | [reason] => if known reason then .ok () else .error ⟨.invalidReason, relayHeaderBytes⟩
  | _ => .error ⟨.invalidLength, 2⟩

/-- `check_payload`. -/
def checkPayload (type : RelayType) (payload : Bytes) : Result Unit :=
  let sizeIs (expected : Nat) : Result Unit :=
    if payload.length = expected then .ok () else .error ⟨.invalidLength, 2⟩
  if type = .begin then
    if payload.length > maxBeginPayload ∨ payload.length < 3 then .error ⟨.invalidLength, 2⟩
    else if payload.length < minBeginPayload ⟨payload.headD 0⟩ then
      .error ⟨.invalidLength, 2⟩
    else .ok ()
  else if type = .data then
    if payload.length = 0 then .error ⟨.invalidLength, 2⟩ else .ok ()
  else if type = .«end» then checkReason isKnownStreamReason payload
  else if type = .streamCredit then
    match sizeIs 4 with
    | .error failure => .error failure
    | .ok () =>
      if 1 ≤ beNat payload ∧ beNat payload ≤ maxCreditIncrement then .ok ()
      else .error ⟨.invalidCredit, relayHeaderBytes⟩
  else if type = .extend then sizeIs extendPayloadBytes
  else if type = .connected then sizeIs 0
  else if type = .extended then sizeIs hopHandshakeBytes
  else if type = .extendFailed ∨ type = .circuitFailed then
    checkReason isKnownCircuitReason payload
  else .error ⟨.invalidType, 0⟩

/-- `BucketForPayload`. -/
def bucketForPayload (direction : Direction) (payloadBytes : Nat) : Option Nat :=
  if ¬ direction.isKnown then none
  else (bucketsOf direction).find? fun bucket =>
    decide (payloadBytes ≤ relayCapacity direction bucket - relayHeaderBytes)

/-- `RelayMessageView`. -/
structure RelayMessage where
  type : RelayType
  stream : UInt32
  payload : Bytes
deriving Repr, DecidableEq

/-- `DecodeRelayMessage`. -/
def decodeRelayMessage (direction : Direction) (plaintext : Bytes) : Result RelayMessage :=
  if ¬ direction.isKnown then .error ⟨.wrongDirection, 0⟩
  else if ¬ isRelayCapacity direction plaintext.length then .error ⟨.invalidLength, 0⟩
  else
    match plaintext with
    | type :: reserved :: l1 :: l0 :: s3 :: s2 :: s1 :: s0 :: rest =>
      let length := beNat [l1, l0]
      let stream := UInt32.ofNat (beNat [s3, s2, s1, s0])
      let payload := rest.take length
      if ¬ RelayType.isKnown ⟨type⟩ then .error ⟨.invalidType, 0⟩
      else if ¬ RelayType.allowedIn ⟨type⟩ direction then .error ⟨.wrongDirection, 0⟩
      else if reserved ≠ 0 then .error ⟨.nonzeroReserved, 1⟩
      else if length > plaintext.length - relayHeaderBytes then .error ⟨.invalidLength, 2⟩
      else if (stream != 0) ≠ RelayType.isStreamMessage ⟨type⟩ then
        .error ⟨.invalidStream, 4⟩
      else
        match checkPayload ⟨type⟩ payload with
        | .error failure => .error failure
        | .ok () =>
          match firstNonzero plaintext (relayHeaderBytes + length) with
          | some nonzero => .error ⟨.nonzeroFiller, nonzero⟩
          | none => .ok ⟨⟨type⟩, stream, payload⟩
    -- No relay capacity is this short.
    | _ => .error ⟨.invalidLength, 0⟩

def relayFront (message : RelayMessage) : Bytes :=
  [message.type.wire, 0] ++ beBytes 2 message.payload.length ++
    beBytes 4 message.stream.toNat ++ message.payload

/-- `EncodeRelayMessage` into a caller's buffer of `size` bytes. -/
def encodeRelayMessage (direction : Direction) (message : RelayMessage) (size : Nat) :
    Result Bytes :=
  if ¬ isRelayCapacity direction size then .error ⟨.outputTooSmall, 0⟩
  else if ¬ message.type.isKnown then .error ⟨.invalidType, 0⟩
  else if ¬ message.type.allowedIn direction then .error ⟨.wrongDirection, 0⟩
  else if message.payload.length > size - relayHeaderBytes then .error ⟨.invalidLength, 2⟩
  else if (message.stream != 0) ≠ message.type.isStreamMessage then .error ⟨.invalidStream, 4⟩
  else
    match checkPayload message.type message.payload with
    | .error failure => .error failure
    | .ok () => .ok (padded size (relayFront message))

/-- How `send_message` of the client and `send` of a node pad a relay message
before they seal it: none where they throw. -/
def padMessage (direction : Direction) (message : RelayMessage) : Option (Nat × Bytes) :=
  match bucketForPayload direction message.payload.length with
  | none => none
  | some bucket =>
    match encodeRelayMessage direction message (relayCapacity direction bucket) with
    | .error _ => none
    | .ok plaintext => some (bucket, plaintext)

section Capacities

variable {direction : Direction} {size bucket payloadBytes : Nat}

/-- The relay capacities are those of the buckets. -/
theorem isRelayCapacity_iff : isRelayCapacity direction size = true ↔
    ∃ bucket, isBucket direction bucket = true ∧ relayCapacity direction bucket = size := by
  simp only [isRelayCapacity, isBucket, Bool.and_eq_true, any_eq_true, beq_iff_eq, contains_iff_mem]
  constructor
  · rintro ⟨hknown, bucket, hmem, hsize⟩
    exact ⟨bucket, ⟨hknown, hmem⟩, hsize⟩
  rintro ⟨bucket, ⟨hknown, hmem⟩, hsize⟩
  exact ⟨hknown, bucket, hmem, hsize⟩

theorem isRelayCapacity_bounds (h : isRelayCapacity direction size = true) :
    direction.isKnown = true ∧ 460 ≤ size ∧ size ≤ 16263 := by
  obtain ⟨bucket, hbucket, rfl⟩ := isRelayCapacity_iff.mp h
  have hbounds := isBucket_bounds hbucket
  rw [relayCapacity_eq hbucket]
  rw [isBucket, Bool.and_eq_true] at hbucket
  exact ⟨hbucket.1, by omega, by omega⟩

theorem bucketsOf_ascending (direction : Direction) : (bucketsOf direction).Pairwise (· < ·) := by
  unfold bucketsOf
  split_ifs <;> decide

/-- The first hit in an ascending list is the smallest. -/
theorem find?_smallest {p : Nat → Bool} {sizes : List Nat}
    (hascending : sizes.Pairwise (· < ·)) (h : sizes.find? p = some size) :
    size ∈ sizes ∧ p size = true ∧ ∀ other ∈ sizes, p other = true → size ≤ other := by
  obtain ⟨hhit, before, after, rfl, hmiss⟩ := find?_eq_some_iff_append.mp h
  refine ⟨by simp, hhit, fun other hother hhits => ?_⟩
  rcases mem_append.mp hother with hbefore | hafter
  · exact absurd hhits (by simpa using hmiss other hbefore)
  rcases mem_cons.mp hafter with rfl | hafter
  · exact Nat.le_refl _
  have hrest := (pairwise_append.mp hascending).2.1
  exact Nat.le_of_lt (rel_of_pairwise_cons hrest hafter)

/-- The bucket that is picked holds the payload and is the smallest that does. -/
theorem bucketForPayload_eq_some (h : bucketForPayload direction payloadBytes = some bucket) :
    isBucket direction bucket = true ∧
      payloadBytes ≤ relayCapacity direction bucket - relayHeaderBytes ∧
      ∀ other, isBucket direction other = true →
        payloadBytes ≤ relayCapacity direction other - relayHeaderBytes → bucket ≤ other := by
  unfold bucketForPayload at h
  split_ifs at h with hknown
  obtain ⟨hmem, hfits, hsmallest⟩ := find?_smallest (bucketsOf_ascending direction) h
  simp only [isBucket, Bool.and_eq_true, contains_iff_mem]
  exact ⟨⟨hknown, hmem⟩, of_decide_eq_true hfits,
    fun other hother hholds => hsmallest other hother.2 (decide_eq_true hholds)⟩

/-- A payload that some bucket holds is given one. -/
theorem bucketForPayload_isSome (hbucket : isBucket direction bucket = true)
    (h : payloadBytes ≤ relayCapacity direction bucket - relayHeaderBytes) :
    ∃ smallest, bucketForPayload direction payloadBytes = some smallest := by
  rw [isBucket, Bool.and_eq_true, contains_iff_mem] at hbucket
  rw [bucketForPayload, if_neg (not_not.mpr hbucket.1)]
  exact Option.isSome_iff_exists.mp (find?_isSome.mpr ⟨bucket, hbucket.2, decide_eq_true h⟩)

end Capacities

section Codec

variable {direction : Direction} {message : RelayMessage} {size : Nat} {plaintext : Bytes}

/-- The conditions under which a relay message can be encoded into `size` bytes. -/
structure RelayValid (direction : Direction) (message : RelayMessage) (size : Nat) :
    Prop where
  capacity : isRelayCapacity direction size = true
  isKnown : message.type.isKnown = true
  allowed : message.type.allowedIn direction = true
  length : ¬ message.payload.length > size - relayHeaderBytes
  stream : (message.stream != 0) = message.type.isStreamMessage
  payload : checkPayload message.type message.payload = .ok ()

theorem RelayValid.length_le (h : RelayValid direction message size) :
    relayHeaderBytes + message.payload.length ≤ size := by
  have hlength := h.length
  have hbounds := isRelayCapacity_bounds h.capacity
  simp only [relayHeaderBytes] at *
  omega

theorem relayFront_length (message : RelayMessage) :
    (relayFront message).length = relayHeaderBytes + message.payload.length := by
  simp [relayFront, relayHeaderBytes]
  omega

/-- The encoder accepts exactly the valid messages. -/
theorem encodeRelayMessage_eq_ok_iff :
    encodeRelayMessage direction message size = .ok plaintext ↔
      RelayValid direction message size ∧ plaintext = padded size (relayFront message) := by
  constructor
  · intro h
    unfold encodeRelayMessage at h
    split_ifs at h with hcapacity hknown hallowed hlength hstream
    split at h
    · cases h
    rename_i hpayload
    cases h
    exact ⟨⟨hcapacity, hknown, hallowed, hlength, not_not.mp hstream, hpayload⟩, rfl⟩
  rintro ⟨h, rfl⟩
  rw [encodeRelayMessage, if_neg (not_not.mpr h.capacity), if_neg (not_not.mpr h.isKnown),
    if_neg (not_not.mpr h.allowed), if_neg h.length, if_neg (not_not.mpr h.stream),
    h.payload]

/-- The decoder reads a valid message back. -/
theorem RelayValid.decode_eq (h : RelayValid direction message size) :
    decodeRelayMessage direction (padded size (relayFront message)) = .ok message := by
  obtain ⟨type, stream, payload⟩ := message
  have hlength := h.length_le
  obtain ⟨hdirection, hbounds⟩ := isRelayCapacity_bounds h.capacity
  have hfront := relayFront_length ⟨type, stream, payload⟩
  have hsize : (padded size (relayFront ⟨type, stream, payload⟩)).length = size :=
    padded_length (hfront ▸ hlength)
  have hnonzero : firstNonzero (padded size (relayFront ⟨type, stream, payload⟩))
      (relayHeaderBytes + payload.length) = none := hfront ▸ firstNonzero_padded
  simp only [relayHeaderBytes] at hlength
  obtain ⟨l1, l0, hl, hcounted⟩ := two_bytes_roundtrip (n := payload.length) (by omega)
  obtain ⟨s3, s2, s1, s0, hs, hstream⟩ := four_bytes_roundtrip stream
  have hbytes : padded size (relayFront ⟨type, stream, payload⟩) =
      type.wire :: 0 :: l1 :: l0 :: s3 :: s2 :: s1 :: s0 ::
        (payload ++ List.replicate (size - (relayFront ⟨type, stream, payload⟩).length) 0) := by
    simp [padded, relayFront, hl, hs]
  unfold decodeRelayMessage
  rw [if_neg (not_not.mpr hdirection), hsize, if_neg (not_not.mpr h.capacity)]
  rw [hbytes] at hnonzero ⊢
  dsimp only
  rw [hcounted, hstream, UInt32.ofNat_toNat, take_left, if_neg (not_not.mpr h.isKnown),
    if_neg (not_not.mpr h.allowed), if_neg (not_not.mpr rfl), if_neg h.length,
    if_neg (not_not.mpr h.stream)]
  have hpayload := h.payload
  dsimp only at hpayload
  rw [hpayload, hnonzero]

/-- An accepted plaintext is the encoding of what was read. -/
theorem decodeRelayMessage_ok (h : decodeRelayMessage direction plaintext = .ok message) :
    RelayValid direction message plaintext.length ∧
      plaintext = padded plaintext.length (relayFront message) := by
  unfold decodeRelayMessage at h
  split at h
  · cases h
  split at h
  · cases h
  rename_i hdirection hcapacity
  rw [not_not] at hcapacity
  split at h
  · rename_i type reserved l1 l0 s3 s2 s1 s0 rest
    dsimp only at h
    split_ifs at h with hknown hallowed hreserved hlong hstream
    split at h
    · cases h
    rename_i hpayload
    split at h
    · cases h
    rename_i hnonzero
    cases h
    have hfits : beNat [l1, l0] ≤ rest.length := by
      simpa [relayHeaderBytes] using hlong
    have htake : (rest.take (beNat [l1, l0])).length = beNat [l1, l0] :=
      length_take_of_le hfits
    have hl : beBytes 2 (beNat [l1, l0]) = [l1, l0] := beBytes_beNat [l1, l0]
    have hs : beBytes 4 (beNat [s3, s2, s1, s0]) = [s3, s2, s1, s0] :=
      beBytes_beNat [s3, s2, s1, s0]
    refine ⟨⟨hcapacity, hknown, hallowed, by rw [htake]; exact hlong, not_not.mp hstream,
      hpayload⟩, ?_⟩
    have hfront : relayFront ⟨⟨type⟩, UInt32.ofNat (beNat [s3, s2, s1, s0]),
          rest.take (beNat [l1, l0])⟩ =
        (type :: reserved :: l1 :: l0 :: s3 :: s2 :: s1 :: s0 :: rest).take
          (relayHeaderBytes + beNat [l1, l0]) := by
      rw [relayFront, htake, hl, toNat_ofNat_beNat, hs, not_not.mp hreserved,
        relayHeaderBytes, Nat.add_comm]
      rfl
    rw [hfront]
    refine eq_padded_take ?_ hnonzero
    simp only [length_cons, relayHeaderBytes]
    omega
  · cases h

/-- The senders pad every message that can be encoded, into the smallest bucket. -/
theorem padMessage_of_encode (h : encodeRelayMessage direction message size = .ok plaintext) :
    ∃ bucket padding, padMessage direction message = some (bucket, padding) := by
  obtain ⟨hvalid, -⟩ := encodeRelayMessage_eq_ok_iff.mp h
  obtain ⟨used, hused, rfl⟩ := isRelayCapacity_iff.mp hvalid.capacity
  obtain ⟨bucket, hbucket⟩ := bucketForPayload_isSome hused (Nat.not_lt.mp hvalid.length)
  obtain ⟨hbuckets, hfits, -⟩ := bucketForPayload_eq_some hbucket
  have hencode := encodeRelayMessage_eq_ok_iff.mpr ⟨{ hvalid with
        capacity := isRelayCapacity_iff.mpr ⟨bucket, hbuckets, rfl⟩
        length := Nat.not_lt.mpr hfits }, rfl⟩
  exact ⟨bucket, _, by simp only [padMessage, hbucket, hencode]; rfl⟩

theorem padMessage_eq_some {bucket : Nat}
    (h : padMessage direction message = some (bucket, plaintext)) :
    bucketForPayload direction message.payload.length = some bucket ∧
      encodeRelayMessage direction message (relayCapacity direction bucket) = .ok plaintext := by
  unfold padMessage at h
  split at h
  · cases h
  rename_i hbucket
  split at h
  · cases h
  rename_i hencode
  cases h
  exact ⟨hbucket, hencode⟩

end Codec

/-- What it means that the cell codec is canonical. -/
structure CellsCanonical : Prop where
  roundtrip : ∀ direction command bucket body cell,
    encodeCell direction command bucket body = .ok cell →
      (∃ layers, decodeCell direction cell = .ok ⟨command, bucket, body, layers⟩) ∧
      cell.length = bucket ∧
      ∀ other, isBucket direction other = true →
        cellHeaderBytes + body.length ≤ other → bucket ≤ other
  canonical : ∀ direction cell view, decodeCell direction cell = .ok view →
    encodeCell direction view.command view.bucket view.body = .ok cell
  sizes : ∀ direction (cell : Bytes), cell.length ∉ bucketsOf direction →
    ∃ failure, decodeCell direction cell = .error failure

/-- What it means that the CREATE, EXTEND and BEGIN codecs are canonical. -/
structure PayloadsCanonical : Prop where
  create : ∀ depth (clientHandshake : Block clientHandshakeBytes) body,
    encodeCreate depth clientHandshake = .ok body →
      decodeCreate body = .ok ⟨depth, clientHandshake.1⟩
  createCanonical : ∀ body view, decodeCreate body = .ok view →
    ∃ clientHandshake : Block clientHandshakeBytes, view.clientHandshake = clientHandshake.1 ∧
      encodeCreate view.depth clientHandshake = .ok body
  extend : ∀ (nextIdentity : Block fingerprintBytes) (clientHandshake : Block clientHandshakeBytes),
    handshakePrefix clientHandshake.1 0 = .ok () →
      decodeExtendPayload (encodeExtendPayload nextIdentity clientHandshake) =
        .ok ⟨nextIdentity.1, clientHandshake.1⟩
  extendCanonical : ∀ payload view, decodeExtendPayload payload = .ok view →
    ∃ (nextIdentity : Block fingerprintBytes) (clientHandshake : Block clientHandshakeBytes),
      view = ⟨nextIdentity.1, clientHandshake.1⟩ ∧
      encodeExtendPayload nextIdentity clientHandshake = payload
  handshakes : ∀ (handshake : ClientHandshake) (clientHandshake : Block clientHandshakeBytes),
    clientHandshake.1 = encodeClientHandshake handshake →
      handshakePrefix clientHandshake.1 0 = .ok () ∧
      ∀ bytes, decodeClientHandshake bytes = .ok handshake ↔ bytes = clientHandshake.1
  hopHandshakes : ∀ (handshake : HopHandshake) bytes,
    decodeHopHandshake bytes = .ok handshake ↔ bytes = encodeHopHandshake handshake
  begin : ∀ destination payload, encodeBeginPayload destination = .ok payload ↔
    decodeBeginPayload payload = .ok destination

/-- What it means that the relay codec is canonical for the size of the buffer,
and that the senders use the smallest one. -/
structure RelaysCanonical : Prop where
  roundtrip : ∀ direction message size plaintext,
    encodeRelayMessage direction message size = .ok plaintext →
      decodeRelayMessage direction plaintext = .ok message ∧ plaintext.length = size
  canonical : ∀ direction plaintext message, decodeRelayMessage direction plaintext = .ok message →
      encodeRelayMessage direction message plaintext.length = .ok plaintext
  sizes : ∀ direction (plaintext : Bytes), isRelayCapacity direction plaintext.length = false →
    ∃ failure, decodeRelayMessage direction plaintext = .error failure
  smallest : ∀ direction message size plaintext,
    encodeRelayMessage direction message size = .ok plaintext →
      ∃ bucket padding, padMessage direction message = some (bucket, padding) ∧
        decodeRelayMessage direction padding = .ok message ∧
        padding.length = relayCapacity direction bucket ∧
        isBucket direction bucket = true ∧
        ∀ other, isBucket direction other = true →
          message.payload.length ≤ relayCapacity direction other - relayHeaderBytes → bucket ≤ other

theorem cells_canonical : CellsCanonical where
  roundtrip := by
    intro direction command bucket body cell h
    obtain ⟨hvalid, rfl⟩ := encodeCell_eq_ok_iff.mp h
    refine ⟨⟨_, hvalid.decode_eq⟩, padded_length ?_, (checkBody_smallest hvalid.isBucket
      hvalid.rule).2⟩
    rw [cellFront_length]
    exact hvalid.length_le
  canonical := by
    intro direction cell view h
    obtain ⟨hvalid, hcell, -⟩ := decodeCell_ok h
    exact encodeCell_eq_ok_iff.mpr ⟨hvalid, hcell⟩
  sizes := by
    intro direction cell h
    have hbucket : isBucket direction cell.length = false := by
      rw [isBucket, Bool.and_eq_false_iff]
      exact .inr (by simpa using h)
    unfold decodeCell
    exact ⟨_, if_pos (by rw [hbucket]; decide)⟩

theorem payloads_canonical : PayloadsCanonical where
  create := fun _ _ _ => encodeCreate_eq_ok_iff.mp
  createCanonical := by
    intro body view h
    exact ⟨⟨view.clientHandshake, decodeCreate_handshake h⟩, rfl, encodeCreate_eq_ok_iff.mpr h⟩
  extend := fun _ _ h => decodeExtendPayload_eq_ok_iff.mpr ⟨rfl, h⟩
  extendCanonical := by
    intro payload view h
    obtain ⟨hidentity, hhandshake⟩ := decodeExtendPayload_view h
    obtain ⟨hpayload, -⟩ : payload = encodeExtendPayload ⟨view.nextIdentity, hidentity⟩
        ⟨view.clientHandshake, hhandshake⟩ ∧ _ := decodeExtendPayload_eq_ok_iff.mp h
    exact ⟨_, _, rfl, hpayload.symm⟩
  handshakes := by
    intro handshake clientHandshake h
    rw [h]
    refine ⟨?_, fun bytes => decodeClientHandshake_eq_ok_iff⟩
    simp only [encodeClientHandshake, append_assoc]
    exact handshakePrefix_append _
  hopHandshakes := fun _ _ => decodeHopHandshake_eq_ok_iff
  begin := fun _ _ => encodeBeginPayload_eq_ok_iff

theorem relays_canonical : RelaysCanonical where
  roundtrip := by
    intro direction message size plaintext h
    obtain ⟨hvalid, rfl⟩ := encodeRelayMessage_eq_ok_iff.mp h
    refine ⟨hvalid.decode_eq, padded_length ?_⟩
    rw [relayFront_length]
    exact hvalid.length_le
  canonical := by
    intro direction plaintext message h
    exact encodeRelayMessage_eq_ok_iff.mpr (decodeRelayMessage_ok h)
  sizes := by
    intro direction plaintext h
    cases hdecode : decodeRelayMessage direction plaintext with
    | error failure => exact ⟨failure, rfl⟩
    | ok =>
      have hcapacity := (decodeRelayMessage_ok hdecode).1.capacity
      rw [h] at hcapacity
      cases hcapacity
  smallest := by
    intro direction message size plaintext h
    obtain ⟨bucket, padding, hpad⟩ := padMessage_of_encode h
    obtain ⟨hbucket, hencode⟩ := padMessage_eq_some hpad
    obtain ⟨hisBucket, -, hsmallest⟩ := bucketForPayload_eq_some hbucket
    obtain ⟨hvalid, rfl⟩ := encodeRelayMessage_eq_ok_iff.mp hencode
    refine ⟨bucket, _, hpad, hvalid.decode_eq, padded_length ?_, hisBucket, hsmallest⟩
    rw [relayFront_length]
    exact hvalid.length_le

/-- The circuit codecs are canonical: EXTEND for the handshakes that start as one,
relay messages for the capacity they were padded to. -/
theorem circuit_codecs_canonical :
    CellsCanonical ∧ PayloadsCanonical ∧ RelaysCanonical :=
  ⟨cells_canonical, payloads_canonical, relays_canonical⟩

/-- A message that every bucket holds. -/
def connectedMessage : RelayMessage := ⟨.connected, 1, []⟩

theorem connectedMessage_valid : RelayValid .backward connectedMessage 4044 where
  capacity := by decide
  isKnown := by decide
  allowed := by decide
  length := by decide
  stream := by decide
  payload := by decide

/-- EXTEND encodes what its decoder refuses, and a relay message has accepted
encodings of several lengths. -/
theorem extend_and_relay_not_canonical :
    (∃ (nextIdentity : Block fingerprintBytes) (clientHandshake : Block clientHandshakeBytes),
      decodeExtendPayload (encodeExtendPayload nextIdentity clientHandshake) ≠
        .ok ⟨nextIdentity.1, clientHandshake.1⟩) ∧
    ∃ (plaintext padding : Bytes) (message : RelayMessage) (bucket : Nat),
      decodeRelayMessage .backward plaintext = .ok message ∧
        padMessage .backward message = some (bucket, padding) ∧ padding ≠ plaintext := by
  refine ⟨⟨⟨List.replicate 32 0, by decide⟩, ⟨List.replicate 1636 0, ?_⟩, fun h => ?_⟩, ?_⟩
  · rw [length_replicate]
    rfl
  · have hleading := (decodeExtendPayload_eq_ok_iff.mp h).2
    have hwrong : handshakePrefix (List.replicate 1636 0) 0 ≠ .ok () := by decide +kernel
    exact hwrong hleading
  obtain ⟨bucket, padding, hpad⟩ := padMessage_of_encode
    (encodeRelayMessage_eq_ok_iff.mpr ⟨connectedMessage_valid, rfl⟩)
  refine ⟨_, padding, connectedMessage, bucket, connectedMessage_valid.decode_eq, hpad, ?_⟩
  obtain ⟨hbucket, hencode⟩ := padMessage_eq_some hpad
  have hpicked : bucketForPayload .backward 0 = some 512 := by decide
  cases hbucket.symm.trans hpicked
  have hlength := (relays_canonical.roundtrip _ _ _ _ hencode).2
  intro heq
  rw [heq, padded_length] at hlength
  · exact absurd hlength (by decide)
  rw [relayFront_length]
  exact connectedMessage_valid.length_le

theorem circuit_codecs_canonical_connected :
    ∃ plaintext, encodeRelayMessage .backward connectedMessage 4044 = .ok plaintext ∧
      decodeRelayMessage .backward plaintext = .ok connectedMessage := by
  have hencode := encodeRelayMessage_eq_ok_iff.mpr ⟨connectedMessage_valid, rfl⟩
  exact ⟨_, hencode, (circuit_codecs_canonical.2.2.roundtrip _ _ _ _ hencode).1⟩

end Yume.Circuit
