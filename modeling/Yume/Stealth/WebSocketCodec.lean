/-
The WebSocket codec: encoders, the incremental parser that unmasks frames where
they lie in the input buffer, and the drains.  Masking keys come from a source
that gives the key of every draw.
-/
import Yume.Stealth.WebSocketFrames

namespace Yume.Stealth

open Yume.Lib List

/-- A message payload in two parts. -/
structure WebSocketPayload where
  first : Bytes
  second : Bytes
deriving Repr, DecidableEq

namespace WebSocketPayload

def size (payload : WebSocketPayload) : Nat := payload.first.length + payload.second.length

def bytes (payload : WebSocketPayload) : Bytes := payload.first ++ payload.second

/-- `WebSocketPayload::part`. -/
def part (payload : WebSocketPayload) (offset length : Nat) : WebSocketPayload :=
  if offset < payload.first.length then
    let fromFirst := min length (payload.first.length - offset)
    ⟨(payload.first.drop offset).take fromFirst, payload.second.take (length - fromFirst)⟩
  else ⟨(payload.second.drop (offset - payload.first.length)).take length, []⟩

@[simp] theorem bytes_length (payload : WebSocketPayload) :
    payload.bytes.length = payload.size := by
  simp [bytes, size]

theorem part_bytes (payload : WebSocketPayload) (offset length : Nat) :
    (payload.part offset length).bytes = (payload.bytes.drop offset).take length := by
  unfold part bytes
  split
  · rename_i hlt
    have hzero : offset - payload.first.length = 0 := by omega
    have hrest : length - min length (payload.first.length - offset) =
        length - (payload.first.drop offset).length := by
      rw [length_drop]
      omega
    have hfirst : (payload.first.drop offset).take (min length (payload.first.length - offset)) =
        (payload.first.drop offset).take length := by
      rw [← length_drop, ← take_take, take_length]
    dsimp only
    rw [drop_append, take_append, hzero, drop_zero, hrest, hfirst]
  · rename_i hge
    have hnil : payload.first.drop offset = [] := drop_eq_nil_of_le (by omega)
    rw [drop_append, hnil]
    simp

end WebSocketPayload

/-- The limits that a codec accepts. -/
abbrev MessageLimit := { limit : Nat // 0 < limit ∧ limit ≤ maxMessageBytes }

/-- `WebSocketCodec`, without its observer.  `drawn` counts the masking keys. -/
structure WebSocketCodec where
  role : WebSocketRole
  limit : MessageLimit
  inbound : Bytes := []
  inboundOffset : Nat := 0
  decoded : Bytes := []
  fragmented : Bytes := []
  wireReplies : Bytes := []
  immediatelyConsumable : Nat := 0
  fragmentedBinary : Bool := false
  closeSent : Bool := false
  closed : Bool := false
  error : Option String := none
  drawn : Nat := 0

/-- The constructor. -/
def WebSocketCodec.create (role : WebSocketRole) (limit : Nat) : Option WebSocketCodec :=
  if h : 0 < limit ∧ limit ≤ maxMessageBytes then some { role := role, limit := ⟨limit, h⟩ }
  else none

/-- The bytes of one frame. -/
def frameWire (role : WebSocketRole) (key : MaskingKey) (opcode : UInt8) (payload : Bytes)
    (final : Bool) : Bytes :=
  encodeHeader opcode final role.masks payload.length ++
    if role.masks then key.1 ++ applyWebSocketMask payload key 0 else payload

namespace WebSocketCodec

variable (keys : Nat → MaskingKey)

section Encoding

/-- `EncodeFrame`: the appended bytes, or what it throws. -/
def encodeFrame (c : WebSocketCodec) (opcode : UInt8) (payload : WebSocketPayload)
    (final : Bool) : Except String Bytes × WebSocketCodec :=
  if payload.size > maxMessageBytes then (.error "WebSocket message exceeds 16 MiB", c)
  else
    (.ok (frameWire c.role (keys c.drawn) opcode payload.bytes final),
      if c.role.masks then { c with drawn := c.drawn + 1 } else c)

/-- `EncodeBinary`. -/
def encodeBinary (c : WebSocketCodec) (payload : WebSocketPayload) :
    Except String Bytes × WebSocketCodec :=
  if c.closed then (.error "WebSocket is closed", c) else c.encodeFrame keys 0x2 payload true

/-- `EncodeBinaryFragmented`. -/
def encodeBinaryFragmented (c : WebSocketCodec) (payload : WebSocketPayload)
    (firstFragmentBytes : Nat) : Except String Bytes × WebSocketCodec :=
  if c.closed then (.error "WebSocket is closed", c)
  else if firstFragmentBytes = 0 ∨ firstFragmentBytes ≥ payload.size then
    (.error "invalid WebSocket binary fragmentation split", c)
  else
    match c.encodeFrame keys 0x2 (payload.part 0 firstFragmentBytes) false with
    | (.error reason, c) => (.error reason, c)
    | (.ok start, c) =>
      match c.encodeFrame keys 0x0
          (payload.part firstFragmentBytes (payload.size - firstFragmentBytes)) true with
      | (.error reason, c) => (.error reason, c)
      | (.ok rest, c) => (.ok (start ++ rest), c)

/-- `EncodePing`. -/
def encodePing (c : WebSocketCodec) (data : Bytes) : Except String Bytes × WebSocketCodec :=
  if c.closed then (.error "WebSocket is closed", c)
  else if data.length > 125 then (.error "WebSocket PING exceeds 125 bytes", c)
  else c.encodeFrame keys 0x9 ⟨data, []⟩ true

/-- `EncodeClose`. -/
def encodeClose (c : WebSocketCodec) (code : UInt16) (reason : Bytes) :
    Except String Bytes × WebSocketCodec :=
  if reason.length > 123 then (.error "WebSocket close reason exceeds 123 bytes", c)
  else
    match c.encodeFrame keys 0x8 ⟨beBytes 2 code.toNat ++ reason, []⟩ true with
    | (.error reason, c) => (.error reason, c)
    | (.ok bytes, c) => (.ok bytes, { c with closeSent := true })

end Encoding

section Decoding

/-- `Fail`: the first reason stays. -/
def fail (c : WebSocketCodec) (reason : String) : WebSocketCodec :=
  { c with error := c.error.or (some reason) }

def failed (c : WebSocketCodec) : Bool := c.error.isSome

/-- The input that is not parsed yet. -/
def retained (c : WebSocketCodec) : Bytes := c.inbound.drop c.inboundOffset

/-- The masking key at a position of the input. -/
def keyAt (input : Bytes) (position : Nat) : MaskingKey :=
  ⟨((input.drop position).take 4 ++ List.replicate 4 0).take 4, by simp⟩

/-- Unmasks the payload of a complete frame where it lies. -/
def unmask (c : WebSocketCodec) (header : FrameHeader) : WebSocketCodec :=
  if header.masked then
    let start := c.inboundOffset + header.payloadAt
    { c with inbound := c.inbound.take start ++
        (applyWebSocketMask ((c.inbound.drop start).take header.payloadSize)
          (keyAt c.inbound (c.inboundOffset + header.offset)) 0 ++
        c.inbound.drop (start + header.payloadSize)) }
  else c

/-- A reply frame.  No control payload is longer than `EncodeFrame` takes. -/
def reply (c : WebSocketCodec) (opcode : UInt8) (payload : Bytes) : WebSocketCodec :=
  match c.encodeFrame keys opcode ⟨payload, []⟩ true with
  | (.ok bytes, c) => { c with wireReplies := c.wireReplies ++ bytes }
  | (.error _, c) => c

/-- A continuation frame. -/
def continuation (c : WebSocketCodec) (fin : Bool) (payload : Bytes) : WebSocketCodec :=
  if !c.fragmentedBinary then c.fail "unexpected WebSocket continuation"
  else if payload.length > c.limit.1 - c.fragmented.length then
    c.fail "fragmented WebSocket binary message exceeds configured limit"
  else
    let c := { c with fragmented := c.fragmented ++ payload }
    if !fin then c
    else if c.fragmented.length > maxPendingBytes - c.decoded.length then
      c.fail "decoded WebSocket buffer limit exceeded"
    else
      { c with decoded := c.decoded ++ c.fragmented, fragmented := [], fragmentedBinary := false }

/-- A binary frame. -/
def binary (c : WebSocketCodec) (fin : Bool) (payload : Bytes) : WebSocketCodec :=
  if c.fragmentedBinary then c.fail "new WebSocket data frame during fragmentation"
  else if !fin then { c with fragmented := payload, fragmentedBinary := true }
  else if payload.length > maxPendingBytes - c.decoded.length then
    c.fail "decoded WebSocket buffer limit exceeded"
  else { c with decoded := c.decoded ++ payload }

/-- A close frame, answered with its own payload unless a close was sent. -/
def close (c : WebSocketCodec) (payload : Bytes) : WebSocketCodec :=
  if payload.length = 1 then c.fail "invalid one-byte WebSocket close payload"
  else if c.closeSent then { c with closed := true }
  else { (reply keys { c with closed := true } 0x8 payload) with closeSent := true }

/-- The switch over the opcode. -/
def dispatch (c : WebSocketCodec) (opcode : UInt8) (fin : Bool) (payload : Bytes) :
    WebSocketCodec :=
  if opcode = 0x0 then c.continuation fin payload
  else if opcode = 0x2 then c.binary fin payload
  else if opcode = 0x8 then c.close keys payload
  else if opcode = 0x9 then c.reply keys 0xA payload
  else if opcode = 0xA then c
  else c.fail (if opcode = 0x1 then "WebSocket text messages are not a YUME carrier"
    else "unsupported WebSocket opcode")

/-- The bytes of a frame that can be retired at once. -/
def consumableOf (header : FrameHeader) : Nat :=
  if header.control then header.total else header.total - header.payloadSize

/-- The accounting behind the switch. -/
def account (c : WebSocketCodec) (consumable : Nat) : WebSocketCodec :=
  if c.failed then c
  else if consumable > maxSize - c.immediatelyConsumable then
    c.fail "WebSocket flow-control accounting overflow"
  else { c with immediatelyConsumable := c.immediatelyConsumable + consumable }

/-- Takes a complete frame off the input. -/
def takeFrame (c : WebSocketCodec) (header : FrameHeader) : WebSocketCodec :=
  let start := c.inboundOffset + header.payloadAt
  let c := c.unmask header
  let payload := (c.inbound.drop start).take header.payloadSize
  let c := { c with inboundOffset := c.inboundOffset + header.total }
  (c.dispatch keys header.opcode header.fin payload).account (consumableOf header)

/-- One round of the loop in `Process`. -/
def processFrame (c : WebSocketCodec) : Option WebSocketCodec :=
  if c.failed then none
  else
    match parseHeader c.role c.limit.1 c.retained with
    | .error .waiting => none
    | .error (.failed reason) => some (c.fail reason)
    | .ok header =>
      if c.retained.length < header.total then none else some (c.takeFrame keys header)

/-- Two codecs with the same input, role and limit. -/
structure SameInput (c c' : WebSocketCodec) : Prop where
  inbound : c'.inbound = c.inbound
  inboundOffset : c'.inboundOffset = c.inboundOffset
  role : c'.role = c.role
  limit : c'.limit = c.limit

variable {c : WebSocketCodec}

theorem SameInput.retained {c c' : WebSocketCodec} (h : SameInput c c') :
    c'.retained = c.retained := by
  rw [WebSocketCodec.retained, h.inbound, h.inboundOffset]
  rfl

theorem sameInput_fail (reason : String) : SameInput c (c.fail reason) := ⟨rfl, rfl, rfl, rfl⟩

theorem encodeFrame_sameInput (opcode : UInt8) (payload : WebSocketPayload) (final : Bool) :
    SameInput c (c.encodeFrame keys opcode payload final).2 := by
  unfold encodeFrame
  split_ifs <;> exact ⟨rfl, rfl, rfl, rfl⟩

theorem reply_sameInput (opcode : UInt8) (payload : Bytes) :
    SameInput c (c.reply keys opcode payload) := by
  have hframe := encodeFrame_sameInput keys (c := c) opcode ⟨payload, []⟩ true
  unfold reply
  split <;> rename_i heq <;> rw [heq] at hframe <;>
    exact { hframe with }

theorem dispatch_sameInput (opcode : UInt8) (fin : Bool) (payload : Bytes) :
    SameInput c (c.dispatch keys opcode fin payload) := by
  have hreply := fun c => reply_sameInput keys (c := c)
  unfold dispatch continuation binary close
  dsimp only
  split_ifs <;> first
    | exact ⟨rfl, rfl, rfl, rfl⟩
    | exact hreply _ _ _
    | exact ⟨(hreply _ _ _).inbound, (hreply _ _ _).inboundOffset, (hreply _ _ _).role,
      (hreply _ _ _).limit⟩

theorem account_sameInput (consumable : Nat) : SameInput c (c.account consumable) := by
  unfold account
  split_ifs <;> exact ⟨rfl, rfl, rfl, rfl⟩

theorem unmask_length (header : FrameHeader) :
    (c.unmask header).inbound.length = c.inbound.length := by
  unfold unmask
  split
  · simp only [length_append, length_take, applyWebSocketMask_length, length_drop]
    omega
  · rfl

theorem unmask_fields (header : FrameHeader) :
    ∃ inbound, c.unmask header = { c with inbound := inbound } := by
  unfold unmask
  split
  · exact ⟨_, rfl⟩
  · exact ⟨c.inbound, rfl⟩

/-- What a taken frame leaves of the input. -/
theorem takeFrame_retained_length (header : FrameHeader) :
    (c.takeFrame keys header).retained.length = c.retained.length - header.total := by
  have hlength := unmask_length (c := c) header
  obtain ⟨inbound, hunmask⟩ := unmask_fields (c := c) header
  simp only [takeFrame]
  rw [(account_sameInput _).retained, (dispatch_sameInput keys _ _ _).retained]
  simp only [hunmask, retained, length_drop] at hlength ⊢
  omega

theorem takeFrame_role (header : FrameHeader) :
    (c.takeFrame keys header).role = c.role ∧ (c.takeFrame keys header).limit = c.limit := by
  obtain ⟨inbound, hunmask⟩ := unmask_fields (c := c) header
  simp only [takeFrame]
  rw [(account_sameInput _).role, (dispatch_sameInput keys _ _ _).role, (account_sameInput _).limit,
    (dispatch_sameInput keys _ _ _).limit]
  simp only [hunmask, and_self]

theorem fail_failed (reason : String) : (c.fail reason).failed = true := by
  simp [failed, fail]

/-- The loop of `Process`. -/
def processLoop : Loop WebSocketCodec where
  step := processFrame keys
  measure c := (if c.failed then 0 else 1) + c.retained.length
  lowers := by
    intro c c' h
    unfold processFrame at h
    split_ifs at h with hfailed
    split at h
    · cases h
    · rename_i reason hparse
      cases h
      rw [fail_failed, if_pos rfl, if_neg hfailed, (sameInput_fail reason).retained]
      omega
    rename_i header hparse
    split_ifs at h with hlong
    cases h
    have hpositive : 2 ≤ header.total := by
      have hoffset := (parseHeader_ok hparse).1
      simp only [FrameHeader.total, FrameHeader.payloadAt]
      omega
    rw [takeFrame_retained_length, if_neg hfailed]
    split_ifs <;> omega

/-- `Process`. -/
def process (c : WebSocketCodec) : WebSocketCodec := (processLoop keys).run c

/-- `Feed`. -/
def feed (c : WebSocketCodec) (data : Bytes) : WebSocketCodec :=
  if c.failed ∨ data.length = 0 then c
  else if data.length > maxPendingBytes - (c.inbound.length - c.inboundOffset) then
    c.fail "WebSocket input buffer limit exceeded"
  else
    let c := process keys { c with
      inbound := c.inbound.drop c.inboundOffset ++ data, inboundOffset := 0 }
    if c.inboundOffset = c.inbound.length then { c with inbound := [], inboundOffset := 0 } else c

/-- `TakeDrain`: the tunnel bytes and the bytes that can be retired at once. -/
def takeDrain (c : WebSocketCodec) : (Bytes × Nat) × WebSocketCodec :=
  ((c.decoded, c.immediatelyConsumable), { c with decoded := [], immediatelyConsumable := 0 })

/-- `TakeWireReplies`. -/
def takeWireReplies (c : WebSocketCodec) : Bytes × WebSocketCodec :=
  (c.wireReplies, { c with wireReplies := [] })

end Decoding

end WebSocketCodec

end Yume.Stealth
