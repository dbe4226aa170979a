-- SUMMARY: Byte strings as little-endian numbers, and windows of seven bits.
import Mathlib.Data.Nat.Digits.Defs
import GsmSipBridge.Lib.Bytes

/-!
# Little-endian numbers

Symbols narrower than a byte, packed from the low bits up, are the digits of one
number whose bytes are the packed data. Reading a symbol back is dividing by a power
of two and taking a remainder, whatever byte it starts in.
-/

namespace LittleEndian

open List Nat

/-- The number with these digits in base `b`, the first one lowest. -/
def number (b : Nat) (data : Bytes) : Nat :=
  Nat.ofDigits b (data.map UInt8.toNat)

/-- The `len` low bytes of a number. -/
def bytes (n : Nat) : (len : Nat) → Bytes
  | 0 => []
  | len + 1 => UInt8.ofNat n :: bytes (n / 256) len

@[simp] theorem bytes_length (n len : Nat) : (bytes n len).length = len := by
  induction len generalizing n with
  | zero => rfl
  | succ len ih => exact congrArg (· + 1) (ih _)

theorem number_bytes (n len : Nat) : number 256 (bytes n len) = n % 256 ^ len := by
  induction len generalizing n with
  | zero => exact (mod_one n).symm
  | succ len ih =>
    have hih : ofDigits 256 ((bytes (n / 256) len).map UInt8.toNat) = n / 256 % 256 ^ len :=
      ih _
    unfold number bytes
    rw [map_cons, ofDigits_cons, hih, pow_succ']
    exact mod_mul.symm

theorem bytes_take {n h len : Nat} (hle : h ≤ len) : (bytes n len).take h = bytes n h := by
  induction h generalizing n len with
  | zero => rfl
  | succ h ih =>
    cases len with
    | zero => cases hle
    | succ len =>
      change UInt8.ofNat n :: (bytes (n / 256) len).take h = _
      rw [ih (le_of_succ_le_succ hle)]
      rfl

/-- The bytes of a number over a shorter one. -/
theorem bytes_number_add (data : Bytes) (n : Nat) :
    bytes (number 256 data + 256 ^ data.length * n) data.length = data := by
  induction data generalizing n with
  | nil => rfl
  | cons d rest ih =>
    have hlow : (number 256 (d :: rest) + 256 ^ (d :: rest).length * n) =
        d.toNat + 256 * (number 256 rest + 256 ^ rest.length * n) := by
      unfold number
      rw [map_cons, ofDigits_cons, length_cons]
      ring
    have hd := d.toNat_lt
    rw [hlow]
    change UInt8.ofNat _ :: bytes _ rest.length = d :: rest
    rw [show (d.toNat + 256 * (number 256 rest + 256 ^ rest.length * n)) / 256 =
      number 256 rest + 256 ^ rest.length * n by omega, ih]
    congr 1
    rw [← UInt8.toNat_inj, UInt8.toNat_ofNat']
    omega

section Digits

variable {b : Nat} {data : Bytes} {i : Nat}

theorem number_lt (hb : 1 < b) (h : ∀ d ∈ data, d.toNat < b) : number b data < b ^ data.length := by
  have := ofDigits_lt_base_pow_length hb (forall_mem_map.mpr h)
  rwa [length_map] at this

/-- The digit at a position. -/
theorem number_digit (hb : 1 < b) (h : ∀ d ∈ data, d.toNat < b) {d : UInt8}
    (hd : data[i]? = some d) :
    number b data / b ^ i % b = d.toNat := by
  obtain ⟨hi, rfl⟩ := List.getElem?_eq_some_iff.mp hd
  have hdrop : (data.map UInt8.toNat).drop i = data[i].toNat :: (data.map UInt8.toNat).drop (i + 1) := by
    rw [drop_eq_getElem_cons (by rwa [length_map]), getElem_map]
  unfold number
  rw [ofDigits_div_pow_eq_ofDigits_drop i (by omega) _ (forall_mem_map.mpr h), hdrop, ofDigits_cons,
    add_mul_mod_self_left, mod_eq_of_lt (h _ (getElem_mem hi))]

/-- Nothing is above the last digit. -/
theorem number_div_eq_zero (hb : 1 < b) (h : ∀ d ∈ data, d.toNat < b) (hi : data.length ≤ i) :
    number b data / b ^ i = 0 :=
  Nat.div_eq_of_lt (Nat.lt_of_lt_of_le (number_lt hb h) (Nat.pow_le_pow_right (by omega) hi))

end Digits

/-- Seven bits from two bytes. -/
theorem window {n k : Nat} (hk : k < 8) :
    ((n % 256) >>> k ||| (n / 256 % 256) <<< (8 - k)) &&& 0x7f = n / 2 ^ k % 128 := by
  refine eq_of_testBit_eq fun j => ?_
  rw [show (0x7f : Nat) = 2 ^ 7 - 1 from rfl, show (128 : Nat) = 2 ^ 7 from rfl,
    show (256 : Nat) = 2 ^ 8 from rfl, testBit_and, testBit_or, testBit_two_pow_sub_one,
    testBit_mod_two_pow, testBit_shiftRight, testBit_shiftLeft, testBit_mod_two_pow,
    testBit_mod_two_pow, testBit_div_two_pow, testBit_div_two_pow]
  by_cases hj : j < 7
  · by_cases hlow : k + j < 8
    · simp [hj, hlow, add_comm, show ¬ (8 - k ≤ j) by omega]
    · have hhigh : j - (8 - k) + 8 = k + j := by omega
      simp [hj, hlow, show 8 - k ≤ j by omega, show j - (8 - k) < 8 by omega, hhigh, add_comm]
  · simp [hj]

/-- Seven bits from one byte. -/
theorem window_zero (n : Nat) : (n % 256) &&& 0x7f = n % 128 := by
  rw [show (0x7f : Nat) = 2 ^ 7 - 1 from rfl, and_two_pow_sub_one_eq_mod]
  omega

end LittleEndian
