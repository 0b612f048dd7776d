/-
The frames of the WebSocket codec: masking, headers, and how a header that is
still incomplete, malformed or complete is told apart.
-/
import Yume.Lib.Bytes
import Yume.Lib.Loop

namespace Yume.Stealth

open Yume.Lib List

inductive WebSocketRole
  | client
  | server
deriving Repr, DecidableEq

/-- The role that a codec talks to. -/
def WebSocketRole.peer : WebSocketRole → WebSocketRole
  | .client => .server
  | .server => .client

/-- Clients mask what they send. -/
def WebSocketRole.masks (role : WebSocketRole) : Bool := role = .client

def maxMessageBytes : Nat := 16 * 1024 * 1024

def maxPendingBytes : Nat := 32 * 1024 * 1024

def maxSize : Nat := 2 ^ 64 - 1

section Masking

abbrev MaskingKey := { bytes : Bytes // bytes.length = 4 }

/-- The key repeated in memory order from the phase on, one word long. -/
def maskPattern (key : MaskingKey) (phase : Nat) : Bytes :=
  (List.range 8).map fun i => key.1.getD ((phase + i) % 4) 0

/-- The word loop, then the bytes behind the last whole word. -/
def maskWords (pattern : Bytes) : Bytes → Bytes
  | a :: b :: c :: d :: e :: f :: g :: h :: rest =>
    List.zipWith (· ^^^ ·) [a, b, c, d, e, f, g, h] pattern ++ maskWords pattern rest
  | rest => List.zipWith (· ^^^ ·) rest pattern

/-- `ApplyWebSocketMask`. -/
def applyWebSocketMask (data : Bytes) (key : MaskingKey) (phase : Nat) : Bytes :=
  maskWords (maskPattern key phase) data

theorem maskPattern_length (key : MaskingKey) (phase : Nat) :
    (maskPattern key phase).length = 8 := by
  simp [maskPattern]

variable {pattern : Bytes}

theorem maskWords_short {data : Bytes} (h : data.length < 8) :
    maskWords pattern data = List.zipWith (· ^^^ ·) data pattern := by
  unfold maskWords
  split
  · simp only [length_cons] at h
    omega
  · rfl

theorem zipWith_xor_self {data : Bytes} (h : data.length ≤ pattern.length) :
    List.zipWith (· ^^^ ·) (List.zipWith (· ^^^ ·) data pattern) pattern = data := by
  induction data generalizing pattern with
  | nil => simp
  | cons byte rest ih =>
    cases pattern with
    | nil => simp at h
    | cons =>
      simp only [length_cons, Nat.add_le_add_iff_right] at h
      rw [zipWith_cons_cons, zipWith_cons_cons, ih h, UInt8.xor_assoc, UInt8.xor_self, UInt8.xor_zero]

theorem maskWords_word {word : Bytes} (hword : word.length = 8) (rest : Bytes) :
    maskWords pattern (word ++ rest) =
      List.zipWith (· ^^^ ·) word pattern ++ maskWords pattern rest := by
  match word, hword with
  | [a, b, c, d, e, f, g, h], _ => rfl

/-- Induction by whole words. -/
theorem words_induction {motive : Bytes → Prop} (short : ∀ data, data.length < 8 → motive data)
    (word : ∀ word rest, word.length = 8 → motive rest → motive (word ++ rest))
    (data : Bytes) : motive data := by
  generalize hsize : data.length = size
  induction size using Nat.strongRecOn generalizing data with
  | ind size ih =>
    by_cases hlt : data.length < 8
    · exact short data hlt
    have hrest : (data.drop 8).length < size := by
      rw [length_drop]
      omega
    rw [← take_append_drop 8 data]
    exact word _ _ (length_take_of_le (by omega)) (ih _ hrest _ rfl)

theorem maskWords_length (hpattern : pattern.length = 8)
    (data : Bytes) : (maskWords pattern data).length = data.length := by
  induction data using words_induction with
  | short data hshort =>
    rw [maskWords_short hshort, length_zipWith]
    omega
  | word word rest hword ih =>
    rw [maskWords_word hword, length_append, ih, length_zipWith, length_append]
    omega

theorem maskWords_maskWords (hpattern : pattern.length = 8) (data : Bytes) :
    maskWords pattern (maskWords pattern data) = data := by
  induction data using words_induction with
  | short data hshort =>
    rw [maskWords_short hshort, maskWords_short, zipWith_xor_self (by omega)]
    rw [length_zipWith]
    omega
  | word word rest hword ih =>
    rw [maskWords_word hword, maskWords_word, ih, zipWith_xor_self (by omega)]
    rw [length_zipWith]
    omega

@[simp] theorem applyWebSocketMask_length (data : Bytes) (key : MaskingKey) (phase : Nat) :
    (applyWebSocketMask data key phase).length = data.length :=
  maskWords_length (maskPattern_length key phase) data

/-- Masking twice with one key gives the data back. -/
theorem applyWebSocketMask_twice (data : Bytes) (key : MaskingKey) (phase : Nat) :
    applyWebSocketMask (applyWebSocketMask data key phase) key phase = data :=
  maskWords_maskWords (maskPattern_length key phase) data

end Masking

section Headers

/-- Why no frame is taken off the input. -/
inductive Halt
  | waiting
  | failed (reason : String)
deriving Repr, DecidableEq

structure FrameHeader where
  opcode : UInt8
  fin : Bool
  masked : Bool
  offset : Nat
  payloadSize : Nat
deriving Repr, DecidableEq

namespace FrameHeader

def control (header : FrameHeader) : Bool := header.opcode &&& 0x08 ≠ 0

def maskBytes (header : FrameHeader) : Nat := if header.masked then 4 else 0

/-- Where the payload starts. -/
def payloadAt (header : FrameHeader) : Nat := header.offset + header.maskBytes

def total (header : FrameHeader) : Nat := header.payloadAt + header.payloadSize

end FrameHeader

/-- The payload length and the bytes before the masking key, from the length
code and the bytes behind it. -/
def readLength (code : UInt8) (rest : Bytes) : Except Halt (Nat × Nat) :=
  if code = 126 then
    if rest.length < 2 then .error .waiting
    else if beNat (rest.take 2) < 126 then .error (.failed "non-minimal WebSocket length")
    else .ok (beNat (rest.take 2), 4)
  else if code = 127 then
    if rest.length < 8 then .error .waiting
    else if beNat (rest.take 8) ≥ 2 ^ 63 ∨ beNat (rest.take 8) ≤ 0xffff then
      .error (.failed "invalid WebSocket 64-bit length")
    else .ok (beNat (rest.take 8), 10)
  else .ok (code.toNat, 2)

/-- The length checks of `Process`. -/
def checkHeader (limit : Nat) (header : FrameHeader) : Except Halt FrameHeader :=
  if !header.control ∧ header.payloadSize > limit then
    .error (.failed "WebSocket binary message exceeds configured limit")
  else if header.control ∧ (!header.fin ∨ header.payloadSize > 125) then
    .error (.failed "invalid fragmented or oversized WebSocket control frame")
  else if header.payloadSize > maxSize - header.offset - header.maskBytes then
    .error (.failed "WebSocket frame length overflow")
  else .ok header

/-- The header checks of `Process`, up to the point where the frame's length is
known. -/
def parseHeader (role : WebSocketRole) (limit : Nat) : Bytes → Except Halt FrameHeader
  | first :: second :: rest =>
    if first &&& 0x70 ≠ 0 then
      .error (.failed ("WebSocket RSV bits are unsupported (first byte=" ++
        toString first.toNat ++ ")"))
    else if (second &&& 0x80 ≠ 0) ≠ (role = .server) then
      .error (.failed (if role = .server then "WebSocket client frame is not masked"
        else "WebSocket server frame is masked"))
    else
      match readLength (second &&& 0x7f) rest with
      | .error halt => .error halt
      | .ok (payloadSize, offset) =>
        checkHeader limit ⟨first &&& 0x0f, first &&& 0x80 ≠ 0, second &&& 0x80 ≠ 0, offset,
          payloadSize⟩
  | _ => .error .waiting

/-- `HeaderBytes`. -/
def headerBytes (size : Nat) (masked : Bool) : Nat :=
  2 + (if size < 126 then 0 else if size ≤ 0xffff then 2 else 8) + if masked then 4 else 0

/-- The seven bits that give a length or announce its bytes. -/
def lengthCode (size : Nat) : UInt8 :=
  if size < 126 then UInt8.ofNat size else if size ≤ 0xffff then 126 else 127

def lengthBytes (size : Nat) : Bytes :=
  if size < 126 then [] else if size ≤ 0xffff then beBytes 2 size else beBytes 8 size

/-- The header that `EncodeFrame` writes before the masking key. -/
def encodeHeader (opcode : UInt8) (final mask : Bool) (size : Nat) : Bytes :=
  ((if final then 0x80 else 0) ||| (opcode &&& 0x0f)) ::
    ((if mask then 0x80 else 0) ||| lengthCode size) :: lengthBytes size

variable {role : WebSocketRole} {limit : Nat}

theorem readLength_append {code : UInt8} {rest : Bytes}
    (h : readLength code rest ≠ .error .waiting) (more : Bytes) :
    readLength code (rest ++ more) = readLength code rest := by
  unfold readLength at h ⊢
  by_cases hshort : code = 126
  · rw [if_pos hshort] at h ⊢
    rw [if_pos hshort]
    have hlength : ¬ rest.length < 2 := fun hlt => h (by rw [if_pos hlt])
    rw [if_neg hlength, if_neg (by rw [length_append]; omega), take_append_of_le_length (by omega)]
  rw [if_neg hshort] at h ⊢
  rw [if_neg hshort]
  by_cases hlong : code = 127
  · rw [if_pos hlong] at h ⊢
    rw [if_pos hlong]
    have hlength : ¬ rest.length < 8 := fun hlt => h (by rw [if_pos hlt])
    rw [if_neg hlength, if_neg (by rw [length_append]; omega), take_append_of_le_length (by omega)]
  · rw [if_neg hlong, if_neg hlong]

variable {input : Bytes} {size : Nat} {header : FrameHeader}

theorem checkHeader_ok {checked : FrameHeader}
    (h : checkHeader limit header = .ok checked) : checked = header := by
  unfold checkHeader at h
  split_ifs at h
  exact (Except.ok.inj h).symm

/-- Once a header has been judged, the bytes behind it change nothing. -/
theorem parseHeader_append (h : parseHeader role limit input ≠ .error .waiting)
    (more : Bytes) : parseHeader role limit (input ++ more) = parseHeader role limit input := by
  match input, h with
  | [], h => exact absurd rfl h
  | [_], h => exact absurd rfl h
  | first :: second :: rest, h =>
    simp only [cons_append, parseHeader] at h ⊢
    by_cases hrsv : first &&& 0x70 ≠ 0
    · rw [if_pos hrsv, if_pos hrsv]
    rw [if_neg hrsv] at h ⊢
    rw [if_neg hrsv]
    by_cases hmask : (second &&& 0x80 ≠ 0) ≠ (role = .server)
    · rw [if_pos hmask, if_pos hmask]
    rw [if_neg hmask] at h ⊢
    rw [if_neg hmask, readLength_append]
    intro hwaiting
    rw [hwaiting] at h
    exact h rfl

theorem readLength_ok {code : UInt8} {rest : Bytes} {offset : Nat}
    (h : readLength code rest = .ok (size, offset)) : 2 ≤ offset := by
  unfold readLength at h
  split_ifs at h <;> cases h <;> decide

theorem parseHeader_ok (h : parseHeader role limit input = .ok header) :
    2 ≤ header.offset ∧ header.masked = decide (role = .server) := by
  match input, h with
  | first :: second :: rest, h =>
    simp only [parseHeader] at h
    split_ifs at h with hrsv hmask
    split at h
    · cases h
    rename_i hlength
    cases checkHeader_ok h
    refine ⟨readLength_ok hlength, ?_⟩
    exact decide_eq_decide.mpr (iff_of_eq (not_not.mp hmask))

theorem parseHeader_size
    (h : parseHeader role limit input = .ok header) : header.payloadSize ≤ max limit 125 := by
  match input, h with
  | first :: second :: rest, h =>
    simp only [parseHeader] at h
    split_ifs at h
    split at h
    · cases h
    cases checkHeader_ok h
    unfold checkHeader at h
    split_ifs at h with hlong hcontrol
    simp only [not_and, not_or, Bool.not_eq_true', gt_iff_lt, Nat.not_lt] at hlong hcontrol
    rcases Bool.eq_false_or_eq_true (FrameHeader.control _) with hbit | hbit
    · exact (hcontrol hbit).2.trans (Nat.le_max_right _ _)
    · exact (hlong hbit).trans (Nat.le_max_left _ _)

theorem encodeHeader_length (opcode : UInt8) (final mask : Bool) (size : Nat) :
    (encodeHeader opcode final mask size).length = 2 + (lengthBytes size).length := by
  simp only [encodeHeader, length_cons]
  omega

theorem headerBytes_eq (size : Nat) (masked : Bool) :
    headerBytes size masked = 2 + (lengthBytes size).length + if masked then 4 else 0 := by
  unfold headerBytes lengthBytes
  split_ifs <;> simp

theorem readLength_written (hsize : size < 2 ^ 63) (rest : Bytes) :
    readLength (lengthCode size) (lengthBytes size ++ rest) =
      .ok (size, 2 + (lengthBytes size).length) := by
  unfold lengthCode lengthBytes
  by_cases hsmall : size < 126
  · have hcode : (UInt8.ofNat size).toNat = size :=
      UInt8.toNat_ofNat_of_lt' (lt_trans hsmall (by decide))
    have hne : ∀ code : UInt8, 126 ≤ code.toNat → UInt8.ofNat size ≠ code := by
      rintro code hcode' rfl
      omega
    rw [if_pos hsmall, if_pos hsmall, readLength, if_neg (hne 126 (by decide)),
      if_neg (hne 127 (by decide)), hcode]
    rfl
  rw [if_neg hsmall, if_neg hsmall]
  by_cases hmedium : size ≤ 0xffff
  · have hnat : beNat ((beBytes 2 size ++ rest).take 2) = size := by
      rw [take_left' (beBytes_length 2 size), beNat_beBytes 2 (by omega)]
    rw [if_pos hmedium, if_pos hmedium, readLength, if_pos rfl,
      if_neg (by rw [length_append, beBytes_length]; omega), hnat, if_neg hsmall,
      beBytes_length]
  have hnat : beNat ((beBytes 8 size ++ rest).take 8) = size := by
    rw [take_left' (beBytes_length 8 size), beNat_beBytes 8 (by omega)]
  rw [if_neg hmedium, if_neg hmedium, readLength, if_neg (by decide), if_pos rfl,
    if_neg (by rw [length_append, beBytes_length]; omega), hnat, if_neg (by omega),
    beBytes_length]

theorem lengthCode_lt (size : Nat) : (lengthCode size).toNat < 128 := by
  unfold lengthCode
  split_ifs
  · rename_i hsmall
    rw [UInt8.toNat_ofNat_of_lt' (lt_trans hsmall (by decide))]
    omega
  · decide
  · decide

theorem maskBit_or : ∀ (mask : Bool) (code : Fin 128),
    decide (((if mask then 0x80 else 0) ||| UInt8.ofNat code.val) &&& 0x80 ≠ 0) = mask ∧
      ((if mask then 0x80 else 0) ||| UInt8.ofNat code.val) &&& 0x7f = UInt8.ofNat code.val := by
  decide +kernel

theorem finBit_or : ∀ (final : Bool) (opcode : Fin 16),
    ((if final then 0x80 else 0) ||| (UInt8.ofNat opcode.val &&& 0x0f)) &&& 0x70 = 0 ∧
      decide (((if final then 0x80 else 0) ||| (UInt8.ofNat opcode.val &&& 0x0f)) &&& 0x80 ≠ 0) =
        final ∧
      ((if final then 0x80 else 0) ||| (UInt8.ofNat opcode.val &&& 0x0f)) &&& 0x0f =
        UInt8.ofNat opcode.val := by
  decide +kernel

/-- The header that a frame of the given shape has. -/
def writtenHeader (opcode : UInt8) (final mask : Bool) (size : Nat) : FrameHeader :=
  ⟨opcode, final, mask, 2 + (lengthBytes size).length, size⟩

/-- A written header is read back by the other role, whatever follows it. -/
theorem parseHeader_written {opcode : UInt8} {final : Bool}
    (hopcode : opcode.toNat < 16) (hsize : size < 2 ^ 63)
    (hchecked : checkHeader limit (writtenHeader opcode final role.peer.masks size) =
      .ok (writtenHeader opcode final role.peer.masks size)) (rest : Bytes) :
    parseHeader role limit (encodeHeader opcode final role.peer.masks size ++ rest) =
      .ok (writtenHeader opcode final role.peer.masks size) := by
  obtain ⟨hrsv, hfin, hop⟩ := finBit_or final ⟨opcode.toNat, hopcode⟩
  obtain ⟨hmask, hcode⟩ := maskBit_or role.peer.masks ⟨(lengthCode size).toNat, lengthCode_lt size⟩
  simp only [UInt8.ofNat_toNat] at hrsv hfin hop hmask hcode
  have hrole : role.peer.masks = decide (role = .server) := by cases role <;> decide
  have hmasked := propext (decide_eq_decide.mp (hmask.trans hrole))
  simp only [encodeHeader, cons_append, parseHeader]
  rw [if_neg (not_not.mpr hrsv), if_neg (not_not.mpr hmasked), hcode, readLength_written hsize]
  simp only [hop, hfin, hmask]
  exact hchecked

end Headers

end Yume.Stealth
