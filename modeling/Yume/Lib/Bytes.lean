/-
Big-endian numbers and length-prefixed fields as lists of bytes, and how they
are read back.
-/
import Mathlib.Data.List.Basic
import Mathlib.Tactic.Common
import Mathlib.Tactic.Ring

namespace Yume.Lib

open List

abbrev Bytes := List UInt8

/-- The last `width` big-endian bytes of a number. -/
def beBytes : Nat → Nat → Bytes
  | 0, _ => []
  | width + 1, n => UInt8.ofNat (n / 256 ^ width) :: beBytes width n

/-- The number that big-endian bytes spell. -/
def beNat : Bytes → Nat
  | [] => 0
  | byte :: rest => byte.toNat * 256 ^ rest.length + beNat rest

@[simp] theorem beBytes_length (width n : Nat) : (beBytes width n).length = width := by
  induction width with
  | zero => rfl
  | succ width ih => simp [beBytes, ih]

theorem beNat_lt (bytes : Bytes) : beNat bytes < 256 ^ bytes.length := by
  induction bytes with
  | nil => simp [beNat]
  | cons byte rest ih =>
    have hbyte : byte.toNat + 1 ≤ 256 := byte.toNat_lt
    calc beNat (byte :: rest) < (byte.toNat + 1) * 256 ^ rest.length := by
          rw [beNat, Nat.succ_mul]
          omega
      _ ≤ 256 * 256 ^ rest.length := Nat.mul_le_mul_right _ hbyte
      _ = 256 ^ (byte :: rest).length := by rw [length_cons, pow_succ']

/-- Only the low bytes of a number are written. -/
theorem beBytes_add_mul (width n k : Nat) :
    beBytes width (n + k * 256 ^ width) = beBytes width n := by
  induction width generalizing k with
  | zero => rfl
  | succ width ih =>
    have hsplit : n + k * 256 ^ (width + 1) = n + k * 256 * 256 ^ width := by ring
    have hpos : 0 < 256 ^ width := Nat.pow_pos (by decide)
    rw [beBytes, beBytes, hsplit, ih, Nat.add_mul_div_right _ _ hpos]
    congr 1
    apply UInt8.toNat_inj.mp
    simp

/-- Writing what was read gives the bytes back. -/
theorem beBytes_beNat (bytes : Bytes) : beBytes bytes.length (beNat bytes) = bytes := by
  induction bytes with
  | nil => rfl
  | cons byte rest ih =>
    have hlt := beNat_lt rest
    have hpos : 0 < 256 ^ rest.length := Nat.pow_pos (by decide)
    rw [length_cons, beBytes, beNat, Nat.add_comm, beBytes_add_mul, ih,
      Nat.add_mul_div_right _ _ hpos, Nat.div_eq_of_lt hlt, Nat.zero_add]
    simp

/-- Reading what was written gives the number back, if it fits. -/
theorem beNat_beBytes (width : Nat) {n : Nat} (h : n < 256 ^ width) :
    beNat (beBytes width n) = n := by
  induction width generalizing n with
  | zero =>
    simp only [pow_zero, Nat.lt_one_iff] at h
    simp [beBytes, beNat, h]
  | succ width ih =>
    have hpos : 0 < 256 ^ width := Nat.pow_pos (by decide)
    have htop : n / 256 ^ width < 256 := by
      rw [Nat.div_lt_iff_lt_mul hpos, ← pow_succ']
      exact h
    have hlow := beBytes_add_mul width (n % 256 ^ width) (n / 256 ^ width)
    rw [Nat.mul_comm, Nat.mod_add_div] at hlow
    rw [beBytes, beNat, hlow, ih (Nat.mod_lt _ hpos), beBytes_length,
      UInt8.toNat_ofNat_of_lt' htop, Nat.mul_comm, Nat.div_add_mod]

theorem beBytes_inj {width m n : Nat} (hm : m < 256 ^ width) (hn : n < 256 ^ width)
    (h : beBytes width m = beBytes width n) : m = n := by
  rw [← beNat_beBytes width hm, h, beNat_beBytes width hn]

/-- A number that fits in two bytes survives the wire. -/
theorem two_bytes_roundtrip {n : Nat} (h : n < 256 ^ 2) :
    ∃ high low, beBytes 2 n = [high, low] ∧ beNat [high, low] = n :=
  ⟨_, _, rfl, beNat_beBytes 2 h⟩

/-- A 32-bit number survives the wire. -/
theorem four_bytes_roundtrip (n : UInt32) :
    ∃ b3 b2 b1 b0, beBytes 4 n.toNat = [b3, b2, b1, b0] ∧ beNat [b3, b2, b1, b0] = n.toNat :=
  ⟨_, _, _, _, rfl, beNat_beBytes 4 (Nat.lt_of_lt_of_le n.toNat_lt (by decide))⟩

theorem toNat_ofNat_beNat (b3 b2 b1 b0 : UInt8) :
    (UInt32.ofNat (beNat [b3, b2, b1, b0])).toNat = beNat [b3, b2, b1, b0] := by
  have hlt : beNat [b3, b2, b1, b0] < 256 ^ 4 := beNat_lt [b3, b2, b1, b0]
  exact UInt32.toNat_ofNat_of_lt' (Nat.lt_of_lt_of_le hlt (by decide))

/-- A field behind its four-byte length. -/
def lengthPrefixed (field : Bytes) : Bytes := beBytes 4 field.length ++ field

/-- A field that its length prefix can describe. -/
def Fits (field : Bytes) : Prop := field.length < 256 ^ 4

theorem lengthPrefixed_inj {field other rest tail : Bytes} (hfield : Fits field)
    (hother : Fits other)
    (h : lengthPrefixed field ++ rest = lengthPrefixed other ++ tail) :
    field = other ∧ rest = tail := by
  simp only [lengthPrefixed, append_assoc] at h
  obtain ⟨hlength, hbody⟩ := append_inj h (by simp)
  exact append_inj hbody (beBytes_inj hfield hother hlength)

/-- A sequence of fields is spelled in one way only. -/
theorem flatMap_lengthPrefixed_inj {fields others : List Bytes}
    (hfields : ∀ field ∈ fields, Fits field) (hothers : ∀ field ∈ others, Fits field)
    (h : fields.flatMap lengthPrefixed = others.flatMap lengthPrefixed) :
    fields = others := by
  induction fields generalizing others with
  | nil =>
    cases others with
    | nil => rfl
    | cons => simp [lengthPrefixed, beBytes] at h
  | cons field fields ih =>
    cases others with
    | nil => simp [lengthPrefixed, beBytes] at h
    | cons =>
      rw [flatMap_cons, flatMap_cons] at h
      obtain ⟨hhead, htail⟩ := lengthPrefixed_inj (hfields _ mem_cons_self)
        (hothers _ mem_cons_self) h
      rw [hhead, ih (fun f hf => hfields f (mem_cons_of_mem _ hf))
        (fun f hf => hothers f (mem_cons_of_mem _ hf)) htail]

/-- The running total of an encoder's fields, each behind a header of `overhead`
bytes, or none when it would exceed the bound. -/
def boundedTotal (bound overhead : Nat) : List Bytes → Nat → Option Nat
  | [], total => some total
  | field :: rest, total =>
    if total > bound - overhead ∨ field.length > bound - total - overhead then none
    else boundedTotal bound overhead rest (total + (overhead + field.length))

/-- The total is the sum, if that is within the bound. -/
theorem boundedTotal_eq {bound overhead total : Nat} (fields : List Bytes)
    (hoverhead : overhead ≤ bound) (htotal : total ≤ bound) :
    boundedTotal bound overhead fields total =
      if total + (fields.map fun field => overhead + field.length).sum ≤ bound then
        some (total + (fields.map fun field => overhead + field.length).sum)
      else none := by
  induction fields generalizing total with
  | nil => simp [boundedTotal, htotal]
  | cons field rest ih =>
    have hassoc : ∀ sum, total + (overhead + field.length + sum) =
        total + (overhead + field.length) + sum := fun sum => by omega
    rw [boundedTotal, map_cons, sum_cons, hassoc]
    split_ifs with hlarge hfits hfits
    · omega
    · rfl
    · rw [ih (by omega), if_pos hfits]
    · rw [ih (by omega), if_neg hfits]

end Yume.Lib
