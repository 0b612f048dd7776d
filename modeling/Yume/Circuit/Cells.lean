/-
Circuit cells: the buckets of each direction, the body rule of each command,
`EncodeCell`, `DecodeCell` and the exactness of the codec.
-/
import Yume.Lib.Bytes

namespace Yume.Circuit

open Yume.Lib List

inductive ErrorCode where
  | truncated
  | trailingData
  | unsupportedVersion
  | invalidCommand
  | invalidBucket
  | invalidLength
  | nonzeroFiller
  | nonzeroReserved
  | invalidDepth
  | invalidType
  | wrongDirection
  | invalidStream
  | invalidReason
  | invalidDestination
  | invalidCredit
  | outputTooSmall
deriving Repr, DecidableEq

/-- A failed `Status`: its code and the offset of the first violation. -/
structure Failure where
  code : ErrorCode
  offset : Nat
deriving Repr, DecidableEq

abbrev Result := Except Failure

/-- `Direction`, an enumeration over one byte. -/
structure Direction where
  wire : UInt8
deriving Repr, DecidableEq

namespace Direction

def forward : Direction := ⟨1⟩
def backward : Direction := ⟨2⟩

/-- `is_known_direction`. -/
def isKnown (direction : Direction) : Bool := direction == forward || direction == backward

end Direction

/-- `Command`, an enumeration over one byte. -/
structure Command where
  wire : UInt8
deriving Repr, DecidableEq

namespace Command

def create : Command := ⟨1⟩
def created : Command := ⟨2⟩
def relay : Command := ⟨3⟩

/-- `is_known_command`. -/
def isKnown (command : Command) : Bool :=
  decide (create.wire ≤ command.wire) && decide (command.wire ≤ relay.wire)

end Command

def cellVersion : UInt8 := 1
def cellHeaderBytes : Nat := 4
def maxHops : Nat := 3
def layerTagBytes : Nat := 16
def forwardBuckets : List Nat := [512, 4096, 16311]
def backwardBuckets : List Nat := [512, 4096, 16315]
def clientHandshakeBytes : Nat := 4 + 32 + 32 + 1568
def hopHandshakeBytes : Nat := 4 + 32 + 1568 + 32 + 4691
def createBodyBytes : Nat := 2 + clientHandshakeBytes
def createBucket : Nat := 4096
def createdBucket : Nat := 16315

/-- `buckets_of`. -/
def bucketsOf (direction : Direction) : List Nat :=
  if direction = .forward then forwardBuckets else backwardBuckets

/-- `IsBucket`. -/
def isBucket (direction : Direction) (size : Nat) : Bool :=
  direction.isKnown && (bucketsOf direction).contains size

/-- `RelayCapacity`. -/
def relayCapacity (direction : Direction) (bucket : Nat) : Nat :=
  if isBucket direction bucket then bucket - cellHeaderBytes - maxHops * layerTagBytes else 0

/-- `first_nonzero`. -/
def firstNonzero (bytes : Bytes) (start : Nat) : Option Nat :=
  ((bytes.drop start).findIdx? (· != 0)).map (start + ·)

/-- `check_body`. -/
def checkBody (direction : Direction) (command : Command) (bucket bodyBytes : Nat) : Result Unit :=
  if command = .create then
    if direction ≠ .forward then .error ⟨.wrongDirection, 1⟩
    else if bucket ≠ createBucket then .error ⟨.invalidBucket, 0⟩
    else if bodyBytes = createBodyBytes then .ok () else .error ⟨.invalidLength, 2⟩
  else if command = .created then
    if direction ≠ .backward then .error ⟨.wrongDirection, 1⟩
    else if bucket ≠ createdBucket then .error ⟨.invalidBucket, 0⟩
    else if bodyBytes = hopHandshakeBytes then .ok () else .error ⟨.invalidLength, 2⟩
  else if command = .relay then
    let capacity := relayCapacity direction bucket
    if bodyBytes ≤ capacity ∨ (bodyBytes - capacity) % layerTagBytes ≠ 0 ∨
        (bodyBytes - capacity) / layerTagBytes > maxHops then
      .error ⟨.invalidLength, 2⟩
    else .ok ()
  else .error ⟨.invalidCommand, 1⟩

structure CellView where
  command : Command
  bucket : Nat
  body : Bytes
  layers : Nat
deriving Repr, DecidableEq

/-- The layer count of a cell. -/
def layersOf (direction : Direction) (command : Command) (bucket bodyBytes : Nat) : Nat :=
  if command = .relay then (bodyBytes - relayCapacity direction bucket) / layerTagBytes
  else 0

/-- `DecodeCell`. -/
def decodeCell (direction : Direction) (cell : Bytes) : Result CellView :=
  if ¬ isBucket direction cell.length then .error ⟨.invalidBucket, 0⟩
  else
    match cell with
    | version :: command :: l1 :: l0 :: rest =>
      let bodyBytes := beNat [l1, l0]
      if version ≠ cellVersion then .error ⟨.unsupportedVersion, 0⟩
      else if ¬ Command.isKnown ⟨command⟩ then .error ⟨.invalidCommand, 1⟩
      else if bodyBytes > cell.length - cellHeaderBytes then .error ⟨.invalidLength, 2⟩
      else
        match checkBody direction ⟨command⟩ cell.length bodyBytes with
        | .error failure => .error failure
        | .ok () =>
          match firstNonzero cell (cellHeaderBytes + bodyBytes) with
          | some nonzero => .error ⟨.nonzeroFiller, nonzero⟩
          | none =>
            .ok ⟨⟨command⟩, cell.length, rest.take bodyBytes,
              layersOf direction ⟨command⟩ cell.length bodyBytes⟩
    -- No bucket is this short.
    | _ => .error ⟨.invalidBucket, 0⟩

/-- The front of a message, filled up with zeros to a size. -/
def padded (size : Nat) (front : Bytes) : Bytes :=
  front ++ List.replicate (size - front.length) 0

def cellFront (command : Command) (body : Bytes) : Bytes :=
  [cellVersion, command.wire] ++ beBytes 2 body.length ++ body

/-- `EncodeCell` into a caller's buffer of `size` bytes. -/
def encodeCellInto (direction : Direction) (command : Command) (bucket : Nat) (body : Bytes)
    (size : Nat) : Result Bytes :=
  if ¬ isBucket direction bucket then .error ⟨.invalidBucket, 0⟩
  else if size ≠ bucket then .error ⟨.outputTooSmall, 0⟩
  else if ¬ command.isKnown then .error ⟨.invalidCommand, 1⟩
  else if body.length > bucket - cellHeaderBytes then .error ⟨.invalidLength, 2⟩
  else
    match checkBody direction command bucket body.length with
    | .error failure => .error failure
    | .ok () => .ok (padded size (cellFront command body))

/-- `EncodeCell`. -/
def encodeCell (direction : Direction) (command : Command) (bucket : Nat) (body : Bytes) :
    Result Bytes :=
  if ¬ isBucket direction bucket then .error ⟨.invalidBucket, 0⟩
  else encodeCellInto direction command bucket body bucket

section Padding

variable {size : Nat} {front bytes : Bytes}

theorem padded_length (h : front.length ≤ size) : (padded size front).length = size := by
  rw [padded, length_append, length_replicate]
  omega

/-- Nothing but zeros is left at an offset. -/
theorem firstNonzero_eq_none_iff {start : Nat} :
    firstNonzero bytes start = none ↔
      bytes.drop start = List.replicate (bytes.length - start) 0 := by
  rw [firstNonzero, Option.map_eq_none_iff, findIdx?_eq_none_iff, eq_replicate_iff, length_drop]
  simp

theorem firstNonzero_padded : firstNonzero (padded size front) front.length = none := by
  rw [firstNonzero_eq_none_iff, padded, drop_left, length_append,
    Nat.add_sub_cancel_left, length_replicate]

/-- Bytes with zeros only behind their front are the padding of it. -/
theorem eq_padded_take {start : Nat} (hstart : start ≤ bytes.length)
    (h : firstNonzero bytes start = none) :
    bytes = padded bytes.length (bytes.take start) := by
  rw [firstNonzero_eq_none_iff] at h
  rw [padded, length_take, Nat.min_eq_left hstart, ← h, take_append_drop]

end Padding

section Buckets

variable {direction : Direction} {command : Command} {bucket bodyBytes : Nat}

/-- The six buckets. -/
theorem isBucket_iff : isBucket direction bucket = true ↔
    (direction = .forward ∧ (bucket = 512 ∨ bucket = 4096 ∨ bucket = 16311)) ∨
      (direction = .backward ∧ (bucket = 512 ∨ bucket = 4096 ∨ bucket = 16315)) := by
  simp only [isBucket, Direction.isKnown, bucketsOf, Bool.and_eq_true, Bool.or_eq_true,
    beq_iff_eq, contains_iff_mem]
  constructor
  · rintro ⟨rfl | rfl, hmem⟩
    · exact .inl ⟨rfl, by simpa [forwardBuckets] using hmem⟩
    · exact .inr ⟨rfl, by simpa [Direction.forward, Direction.backward, backwardBuckets] using hmem⟩
  rintro (⟨rfl, hsize⟩ | ⟨rfl, hsize⟩)
  · exact ⟨.inl rfl, by simpa [forwardBuckets] using hsize⟩
  exact ⟨.inr rfl, by simpa [Direction.forward, Direction.backward, backwardBuckets] using hsize⟩

theorem isBucket_bounds (h : isBucket direction bucket = true) : 512 ≤ bucket ∧ bucket ≤ 16315 := by
  rcases isBucket_iff.mp h with ⟨-, rfl | rfl | rfl⟩ | ⟨-, rfl | rfl | rfl⟩ <;> decide

theorem relayCapacity_eq (h : isBucket direction bucket = true) :
    relayCapacity direction bucket = bucket - 52 := by
  rw [relayCapacity, if_pos h]
  simp only [cellHeaderBytes, maxHops, layerTagBytes]
  omega

/-- The bodies that each command may have. -/
theorem checkBody_ok (h : checkBody direction command bucket bodyBytes = .ok ()) :
    (direction = .forward ∧ bucket = 4096 ∧ bodyBytes = 1638) ∨
      (direction = .backward ∧ bucket = 16315 ∧ bodyBytes = 6327) ∨
      ∃ layers, 0 < layers ∧ layers ≤ 3 ∧
        bodyBytes = relayCapacity direction bucket + 16 * layers := by
  unfold checkBody at h
  split_ifs at h with hcreate hforward hbucket hbody hcreated hbackward hbucket hbody hrelay
  · exact .inl ⟨not_not.mp hforward, not_not.mp hbucket, hbody⟩
  · exact .inr (.inl ⟨not_not.mp hbackward, not_not.mp hbucket, hbody⟩)
  dsimp only at h
  split_ifs at h with hbad
  simp only [not_or, not_not, Nat.not_le, Nat.not_lt, layerTagBytes, maxHops] at hbad
  refine .inr (.inr ⟨(bodyBytes - relayCapacity direction bucket) / 16, ?_, hbad.2.2, ?_⟩) <;> omega

/-- The bucket of a body that passes its check is the smallest that holds it. -/
theorem checkBody_smallest (hbucket : isBucket direction bucket = true)
    (h : checkBody direction command bucket bodyBytes = .ok ()) :
    cellHeaderBytes + bodyBytes ≤ bucket ∧
      ∀ other, isBucket direction other = true →
        cellHeaderBytes + bodyBytes ≤ other → bucket ≤ other := by
  have hcapacity := relayCapacity_eq hbucket
  have hbody := checkBody_ok h
  rw [hcapacity] at hbody
  simp only [cellHeaderBytes]
  rcases isBucket_iff.mp hbucket with ⟨rfl, hsize⟩ | ⟨rfl, hsize⟩
  · refine ⟨?_, fun other hother hfits => ?_⟩
    · rcases hbody with ⟨-, rfl, rfl⟩ | ⟨hwrong, -⟩ | ⟨layers, hpositive, hfew, rfl⟩
      · decide
      · exact absurd hwrong (by decide)
      · omega
    rcases isBucket_iff.mp hother with ⟨-, hothers⟩ | ⟨hwrong, -⟩
    · rcases hbody with ⟨-, rfl, rfl⟩ | ⟨hwrong, -⟩ | ⟨layers, hpositive, hfew, rfl⟩
      · omega
      · exact absurd hwrong (by decide)
      · omega
    · exact absurd hwrong (by decide)
  refine ⟨?_, fun other hother hfits => ?_⟩
  · rcases hbody with ⟨hwrong, -⟩ | ⟨-, rfl, rfl⟩ | ⟨layers, hpositive, hfew, rfl⟩
    · exact absurd hwrong (by decide)
    · decide
    · omega
  rcases isBucket_iff.mp hother with ⟨hwrong, -⟩ | ⟨-, hothers⟩
  · exact absurd hwrong (by decide)
  rcases hbody with ⟨hwrong, -⟩ | ⟨-, rfl, rfl⟩ | ⟨layers, hpositive, hfew, rfl⟩
  · exact absurd hwrong (by decide)
  · omega
  · omega

end Buckets

section Codec

variable {direction : Direction} {command : Command} {bucket : Nat} {body cell : Bytes}
  {view : CellView}

/-- The conditions under which a cell can be encoded. -/
structure CellValid (direction : Direction) (command : Command) (bucket : Nat)
    (body : Bytes) : Prop where
  isBucket : isBucket direction bucket = true
  isKnown : command.isKnown = true
  rule : checkBody direction command bucket body.length = .ok ()

theorem CellValid.length_le (h : CellValid direction command bucket body) :
    cellHeaderBytes + body.length ≤ bucket := (checkBody_smallest h.isBucket h.rule).1

theorem cellFront_length (command : Command) (body : Bytes) :
    (cellFront command body).length = cellHeaderBytes + body.length := by
  simp [cellFront, cellHeaderBytes]
  omega

/-- The encoder accepts exactly the valid cells. -/
theorem encodeCell_eq_ok_iff :
    encodeCell direction command bucket body = .ok cell ↔
      CellValid direction command bucket body ∧ cell = padded bucket (cellFront command body) := by
  constructor
  · intro h
    unfold encodeCell encodeCellInto at h
    split_ifs at h with hbucket hsize hcommand hlong
    split at h
    · cases h
    rename_i hrule
    cases h
    exact ⟨⟨hbucket, hcommand, hrule⟩, rfl⟩
  rintro ⟨h, rfl⟩
  have hlong : ¬ body.length > bucket - cellHeaderBytes := by
    have := h.length_le
    omega
  unfold encodeCell encodeCellInto
  rw [if_neg (not_not.mpr h.isBucket), if_neg (not_not.mpr h.isBucket),
    if_neg (not_not.mpr rfl), if_neg (not_not.mpr h.isKnown), if_neg hlong, h.rule]

/-- The decoder reads a valid cell back. -/
theorem CellValid.decode_eq (h : CellValid direction command bucket body) :
    decodeCell direction (padded bucket (cellFront command body)) =
      .ok ⟨command, bucket, body, layersOf direction command bucket body.length⟩ := by
  have hlength := h.length_le
  have hbounds := isBucket_bounds h.isBucket
  have hfront := cellFront_length command body
  have hsize : (padded bucket (cellFront command body)).length = bucket :=
    padded_length (hfront ▸ hlength)
  have hnonzero : firstNonzero (padded bucket (cellFront command body))
      (cellHeaderBytes + body.length) = none := hfront ▸ firstNonzero_padded
  simp only [cellHeaderBytes] at hlength
  obtain ⟨l1, l0, hl, hcounted⟩ := two_bytes_roundtrip (n := body.length) (by omega)
  have hbytes : padded bucket (cellFront command body) = cellVersion :: command.wire :: l1 :: l0 ::
        (body ++ List.replicate (bucket - (cellFront command body).length) 0) := by
    simp [padded, cellFront, hl]
  unfold decodeCell
  rw [hsize, if_neg (not_not.mpr h.isBucket)]
  rw [hbytes] at hnonzero ⊢
  dsimp only
  rw [hcounted, if_neg (not_not.mpr rfl), if_neg (not_not.mpr h.isKnown),
    if_neg (by simp only [cellHeaderBytes]; omega), h.rule, hnonzero, take_left]

/-- An accepted cell is the encoding of what was read. -/
theorem decodeCell_ok (h : decodeCell direction cell = .ok view) :
    CellValid direction view.command view.bucket view.body ∧
      cell = padded view.bucket (cellFront view.command view.body) ∧
      view.layers = layersOf direction view.command view.bucket view.body.length := by
  unfold decodeCell at h
  split at h
  · cases h
  rename_i hbucket
  rw [not_not] at hbucket
  split at h
  · rename_i version command l1 l0 rest
    dsimp only at h
    split_ifs at h with hversion hcommand hlong
    split at h
    · cases h
    rename_i hrule
    split at h
    · cases h
    rename_i hnonzero
    cases h
    have hfits : beNat [l1, l0] ≤ rest.length := by
      simpa [cellHeaderBytes] using hlong
    have htake : (rest.take (beNat [l1, l0])).length = beNat [l1, l0] :=
      length_take_of_le hfits
    have hl : beBytes 2 (beNat [l1, l0]) = [l1, l0] := beBytes_beNat [l1, l0]
    refine ⟨⟨hbucket, hcommand, by rw [htake]; exact hrule⟩, ?_, by rw [htake]⟩
    have hfront : cellFront ⟨command⟩ (rest.take (beNat [l1, l0])) =
        (version :: command :: l1 :: l0 :: rest).take (cellHeaderBytes + beNat [l1, l0]) := by
      rw [cellFront, htake, hl, not_not.mp hversion, cellHeaderBytes, Nat.add_comm]
      rfl
    dsimp only
    rw [hfront]
    refine eq_padded_take ?_ hnonzero
    simp only [length_cons, cellHeaderBytes]
    omega
  · cases h

end Codec

end Yume.Circuit
