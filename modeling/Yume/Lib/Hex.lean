/-
Lower-case hexadecimal: two digits a byte, one spelling for each value.
-/
import Yume.Lib.Bytes

namespace Yume.Lib

open List

/-- The digits, by value. -/
def hexDigit (value : UInt8) : UInt8 := if value < 10 then 48 + value else 87 + value

def isLowerHex (digit : UInt8) : Bool :=
  (decide (48 ≤ digit) && decide (digit ≤ 57)) || (decide (97 ≤ digit) && decide (digit ≤ 102))

def hexValue (digit : UInt8) : UInt8 := if digit ≤ 57 then digit - 48 else digit - 97 + 10

/-- `hex_lower`. -/
def hexLower (bytes : Bytes) : Bytes :=
  bytes.flatMap fun byte : UInt8 => [hexDigit ((byte >>> 4) &&& 0x0f), hexDigit (byte &&& 0x0f)]

/-- The loop of `decode_lower_hex`. -/
def hexBytes : Bytes → Bytes
  | high :: low :: rest => ((hexValue high <<< 4) ||| hexValue low) :: hexBytes rest
  | _ => []

/-- `decode_lower_hex` into `size` bytes. -/
def decodeLowerHex (text : Bytes) (size : Nat) : Option Bytes :=
  if text.length ≠ 2 * size ∨ ¬ text.all isLowerHex then none else some (hexBytes text)

theorem hexLower_length (bytes : Bytes) : (hexLower bytes).length = 2 * bytes.length := by
  induction bytes with
  | nil => rfl
  | cons byte rest ih =>
    simp only [hexLower, flatMap_cons, length_append] at ih ⊢
    rw [ih]
    simp only [length_cons, length_nil]
    omega

/-- Two digits of a byte are digits and give it back. -/
theorem hexDigits_byte (byte : UInt8) :
    isLowerHex (hexDigit ((byte >>> 4) &&& 0x0f)) = true ∧
      isLowerHex (hexDigit (byte &&& 0x0f)) = true ∧
      (hexValue (hexDigit ((byte >>> 4) &&& 0x0f)) <<< 4) |||
        hexValue (hexDigit (byte &&& 0x0f)) = byte := by
  have hall : ∀ n : Fin 256, (fun byte : UInt8 =>
      isLowerHex (hexDigit ((byte >>> 4) &&& 0x0f)) = true ∧
      isLowerHex (hexDigit (byte &&& 0x0f)) = true ∧
      (hexValue (hexDigit ((byte >>> 4) &&& 0x0f)) <<< 4) |||
        hexValue (hexDigit (byte &&& 0x0f)) = byte) (UInt8.ofNat n.val) := by
    decide +kernel
  have hbyte := hall ⟨byte.toNat, byte.toNat_lt⟩
  simpa using hbyte

/-- A digit is that of its value, which is below sixteen. -/
theorem hexDigit_hexValue {digit : UInt8} (h : isLowerHex digit = true) :
    hexValue digit < 16 ∧ hexDigit (hexValue digit) = digit := by
  have hall : ∀ n : Fin 256, isLowerHex (UInt8.ofNat n.val) = true →
      hexValue (UInt8.ofNat n.val) < 16 ∧
        hexDigit (hexValue (UInt8.ofNat n.val)) = UInt8.ofNat n.val := by
    decide +kernel
  have hdigit := hall ⟨digit.toNat, digit.toNat_lt⟩
  rw [show UInt8.ofNat digit.toNat = digit by simp] at hdigit
  exact hdigit h

/-- The two nibbles of a byte that was put together. -/
theorem nibbles {high low : UInt8} (hhigh : high < 16) (hlow : low < 16) :
    (((high <<< 4) ||| low) >>> 4) &&& 0x0f = high ∧ ((high <<< 4) ||| low) &&& 0x0f = low := by
  have hall : ∀ m n : Fin 16,
      (((UInt8.ofNat m.val <<< 4) ||| UInt8.ofNat n.val) >>> 4) &&& 0x0f = UInt8.ofNat m.val ∧
        ((UInt8.ofNat m.val <<< 4) ||| UInt8.ofNat n.val) &&& 0x0f = UInt8.ofNat n.val := by
    decide +kernel
  have hboth := hall ⟨high.toNat, UInt8.lt_iff_toNat_lt.mp hhigh⟩
    ⟨low.toNat, UInt8.lt_iff_toNat_lt.mp hlow⟩
  simpa using hboth

/-- Decoding gives the bytes back. -/
theorem decodeLowerHex_hexLower (bytes : Bytes) :
    decodeLowerHex (hexLower bytes) bytes.length = some bytes := by
  have hdigits : (hexLower bytes).all isLowerHex = true := by
    rw [hexLower, all_flatMap, all_eq_true]
    intro byte _
    obtain ⟨hhigh, hlow, -⟩ := hexDigits_byte byte
    simp [hhigh, hlow]
  have hbytes : hexBytes (hexLower bytes) = bytes := by
    induction bytes with
    | nil => rfl
    | cons byte rest ih =>
      have hrest : (hexLower rest).all isLowerHex = true := by
        simp only [hexLower, flatMap_cons, all_append, Bool.and_eq_true] at hdigits
        exact hdigits.2
      rw [hexLower, flatMap_cons]
      exact congrArg₂ List.cons (hexDigits_byte byte).2.2 (ih hrest)
  rw [decodeLowerHex, if_neg (by simp [hexLower_length, hdigits]), hbytes]

/-- What is decoded is spelled in one way only. -/
theorem hexLower_of_decode {text bytes : Bytes} {size : Nat}
    (h : decodeLowerHex text size = some bytes) :
    hexLower bytes = text ∧ bytes.length = size := by
  unfold decodeLowerHex at h
  split_ifs at h with hbad
  cases h
  simp only [not_or, not_not] at hbad
  obtain ⟨hlength, hdigits⟩ := hbad
  induction size generalizing text with
  | zero =>
    rw [Nat.mul_zero, length_eq_zero_iff] at hlength
    subst hlength
    exact ⟨rfl, rfl⟩
  | succ size ih =>
    rcases text with _ | ⟨high, _ | ⟨low, rest⟩⟩
    · simp at hlength
    · simp at hlength
      omega
    simp only [all_cons, Bool.and_eq_true] at hdigits
    obtain ⟨hhigh, hhighs⟩ := hexDigit_hexValue hdigits.1
    obtain ⟨hlow, hlows⟩ := hexDigit_hexValue hdigits.2.1
    obtain ⟨hfirst, hsecond⟩ := nibbles hhigh hlow
    obtain ⟨hrest, hsize⟩ := ih (by simp only [length_cons] at hlength; omega) hdigits.2.2
    refine ⟨?_, by rw [hexBytes, length_cons, hsize]⟩
    rw [hexBytes, hexLower, flatMap_cons, hfirst, hsecond, hhighs, hlows]
    exact congrArg ([high, low] ++ ·) hrest

end Yume.Lib
