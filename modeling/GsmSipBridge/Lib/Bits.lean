-- SUMMARY: Byte strings as bit strings, most significant bit first.
import Mathlib.Data.FinEnum
import Mathlib.Tactic.IntervalCases
import Mathlib.Tactic.Ring
import GsmSipBridge.Lib.Bytes
import GsmSipBridge.Lib.Decoder

/-!
# Bits of a byte string

The bits of a byte string in transmission order. A bit string whose length is no
multiple of eight is packed with zero bits at the end; `Packs` says so without
choosing a packing function, and at most one byte string packs a bit string.
-/

namespace Bits

open List Nat

/-- The bits of a byte, most significant first. -/
def byteBits (b : UInt8) : List Bool :=
  [7, 6, 5, 4, 3, 2, 1, 0].map b.toNat.testBit

variable {b : UInt8} {bs : Bytes} {v : Bool} {l : List Bool} {as : Bytes}

@[simp] theorem byteBits_length : (byteBits b).length = 8 := rfl

/-! ## Numbers -/

/-- The number a bit string denotes. -/
def value : List Bool → Nat
  | [] => 0
  | b :: l => b.toNat * 2 ^ l.length + value l

/-- The `n` low bits of a number. -/
def low (v : Nat) : Nat → List Bool
  | 0 => []
  | n + 1 => v.testBit n :: low v n

@[simp] theorem low_length (v n : Nat) : (low v n).length = n := by
  induction n with
  | zero => rfl
  | succ n ih => rw [low, length_cons, ih]

theorem value_lt (l : List Bool) : value l < 2 ^ l.length := by
  induction l with
  | nil => decide
  | cons b l ih =>
    rw [value, length_cons]
    cases b <;> simp only [Bool.toNat_false, Bool.toNat_true] <;> omega

theorem value_append (l m : List Bool) : value (l ++ m) = value l * 2 ^ m.length + value m := by
  induction l with
  | nil => simp [value]
  | cons a l ih =>
    rw [cons_append, value, ih, value, length_append]
    ring

theorem value_concat (l : List Bool) (b : Bool) : value (l ++ [b]) = 2 * value l + b.toNat := by
  rw [value_append, Nat.mul_comm]
  simp [value]

/-- A field in the middle of a number. -/
theorem value_field {m n : Nat} (h : m + n ≤ l.length) :
    value l / 2 ^ (l.length - (m + n)) % 2 ^ n = value ((l.drop m).take n) := by
  have hsplit : value l = value (l.take m ++ (l.drop m).take n ++ l.drop (m + n)) := by
    rw [← drop_drop, append_assoc, take_append_drop, take_append_drop]
  have hlt := value_lt ((l.drop m).take n)
  have hend := value_lt (l.drop (m + n))
  have hlen : ((l.drop m).take n).length = n := by simp; omega
  rw [hlen] at hlt
  rw [length_drop] at hend
  rw [hsplit, value_append, value_append, hlen, length_drop, Nat.add_comm,
    Nat.add_mul_div_right _ _ (Nat.two_pow_pos _), div_eq_of_lt hend, zero_add,
    mul_add_mod_self_right, mod_eq_of_lt hlt]

theorem value_low (v n : Nat) : value (low v n) = v % 2 ^ n := by
  induction n with
  | zero => rw [low, value, pow_zero, mod_one]
  | succ n ih =>
    rw [low, value, low_length, ih, mod_pow_succ, toNat_testBit, mul_comm, add_comm]

theorem value_injective {m : List Bool} (hlen : l.length = m.length) (h : value l = value m) :
    l = m := by
  induction l generalizing m with
  | nil => exact (length_eq_zero_iff.mp hlen.symm).symm
  | cons a l ih =>
    cases m with
    | nil => cases hlen
    | cons b m =>
      have hlen' : l.length = m.length := succ.inj hlen
      have hl := value_lt l
      have hm := value_lt m
      rw [value, value, hlen'] at h
      rw [hlen'] at hl
      have hab : a = b ∧ value l = value m := by
        cases a <;> cases b <;> simp only [Bool.toNat_false, Bool.toNat_true] at h <;>
          exact ⟨by first | rfl | omega, by omega⟩
      rw [hab.1, ih hlen' hab.2]

theorem value_byteBits : ∀ b : UInt8, value (byteBits b) = b.toNat := by
  decide +kernel

theorem byteBits_injective {a : UInt8} (h : byteBits a = byteBits b) : a = b := by
  apply UInt8.toNat_inj.mp
  rw [← value_byteBits, ← value_byteBits, h]

/-! ## Byte strings -/

def bits (bs : Bytes) : List Bool :=
  bs.flatMap byteBits

@[simp] theorem bits_nil : bits [] = [] := rfl

@[simp] theorem bits_cons : bits (b :: bs) = byteBits b ++ bits bs := rfl

@[simp] theorem bits_append (as bs : Bytes) : bits (as ++ bs) = bits as ++ bits bs :=
  flatMap_append

@[simp] theorem bits_length : (bits bs).length = 8 * bs.length := by
  induction bs with
  | nil => rfl
  | cons b bs ih =>
    rw [bits_cons, length_append, byteBits_length, length_cons]
    omega

theorem bits_injective (h : bits as = bits bs) : as = bs := by
  induction as generalizing bs with
  | nil =>
    have hlen := congrArg length h
    simp only [bits_nil, length_nil, bits_length] at hlen
    exact (length_eq_zero_iff.mp (by omega)).symm
  | cons a as ih =>
    cases bs with
    | nil => cases h
    | cons b bs =>
      obtain ⟨hhead, htail⟩ := append_inj h rfl
      rw [byteBits_injective hhead, ih htail]

theorem bits_replicate_zero (n : Nat) : bits (List.replicate n 0) = List.replicate (8 * n) false := by
  induction n with
  | zero => rfl
  | succ n ih =>
    rw [replicate_succ, bits_cons, ih, mul_succ, add_comm, replicate_add]
    rfl

theorem bits_drop (n : Nat) : bits (bs.drop n) = (bits bs).drop (8 * n) := by
  induction bs generalizing n with
  | nil => simp
  | cons b bs ih =>
    cases n with
    | zero => rfl
    | succ n =>
      rw [drop_succ_cons, bits_cons, ih, mul_succ, add_comm, ← byteBits_length,
        drop_length_add_append]

theorem bits_mono (h : as <+: bs) : bits as <+: bits bs := by
  obtain ⟨y, rfl⟩ := h
  exact ⟨bits y, (bits_append as y).symm⟩

/-! ## Single bits

`bitAt` and the masked `or` below are how programs read and set one bit. -/

def bitAt (b : UInt8) (i : Nat) : UInt8 :=
  (b >>> UInt8.ofNat i) &&& 1

theorem bitAt_eq {i : Nat} (hi : i < 8) : bitAt b i = (b.toNat.testBit i).toUInt8 := by
  apply UInt8.toNat_inj.mp
  rw [bitAt, UInt8.toNat_and, UInt8.toNat_shiftRight, UInt8.toNat_ofNat', UInt8.toNat_one,
    and_one_is_mod, shiftRight_eq_div_pow, mod_eq_of_lt (show i < 2 ^ 8 by omega),
    mod_eq_of_lt hi, ← toNat_testBit]
  cases b.toNat.testBit i <;> rfl

theorem bits_getElem? (bs : Bytes) (p : Nat) :
    (bits bs)[p]? = bs[p / 8]?.map fun b => b.toNat.testBit (7 - p % 8) := by
  induction bs generalizing p with
  | nil => simp
  | cons b bs ih =>
    rw [bits_cons]
    rcases lt_or_ge p 8 with hp | hp
    · interval_cases p <;> rfl
    obtain ⟨q, rfl⟩ := Nat.exists_eq_add_of_le hp
    rw [getElem?_append_right hp, byteBits_length, Nat.add_sub_cancel_left, ih,
      add_div_left q (by decide), add_mod_left]
    rfl

theorem byteBits_or {j : Nat} (hj : j < 8)
    (hfree : (byteBits b)[j]? = some false) :
    byteBits (b ||| v.toUInt8 <<< UInt8.ofNat (7 - j)) = (byteBits b).set j v := by
  simp only [byteBits, UInt8.toNat_or, testBit_or, map_cons, map_nil] at hfree ⊢
  interval_cases j <;> cases v <;> simp_all +decide [Bool.toUInt8]

/-- Setting a bit that is zero. -/
theorem bits_modify {p : Nat} (hfree : (bits bs)[p]? = some false) :
    bits (bs.modify (p / 8) fun b => b ||| v.toUInt8 <<< UInt8.ofNat (7 - p % 8)) =
      (bits bs).set p v := by
  induction bs generalizing p with
  | nil => cases hfree
  | cons b bs ih =>
    rw [bits_cons] at hfree ⊢
    rcases lt_or_ge p 8 with hp | hp
    · rw [getElem?_append_left hp] at hfree
      rw [div_eq_of_lt hp, mod_eq_of_lt hp, modify_zero_cons, bits_cons,
        byteBits_or hp hfree, set_append_left _ _ hp]
    obtain ⟨q, rfl⟩ := Nat.exists_eq_add_of_le hp
    rw [getElem?_append_right hp, byteBits_length, Nat.add_sub_cancel_left] at hfree
    rw [add_div_left q (by decide), add_mod_left, modify_succ_cons, bits_cons,
      ih hfree, set_append_right _ _ hp, byteBits_length, Nat.add_sub_cancel_left]

/-- Masking a byte to its first `m` bits. -/
theorem byteBits_mask {m : Nat} (h0 : 0 < m) (h8 : m < 8) :
    byteBits (b &&& 0xff <<< UInt8.ofNat (8 - m)) =
      (byteBits b).take m ++ List.replicate (8 - m) false := by
  simp only [byteBits, UInt8.toNat_and, testBit_and, map_cons, map_nil]
  interval_cases m <;> simp +decide [replicate]

/-! ## Packing -/

/-- `bs` is `l` with the last byte filled up with zero bits. -/
def Packs (bs : Bytes) (l : List Bool) : Prop :=
  ∃ k, k < 8 ∧ bits bs = l ++ List.replicate k false

namespace Packs

theorem pad (h : Packs bs l) : bits bs = l ++ List.replicate (8 * bs.length - l.length) false := by
  obtain ⟨k, -, hb⟩ := h
  have hlen := congrArg length hb
  rw [bits_length, length_append, length_replicate] at hlen
  rw [hb, hlen, Nat.add_sub_cancel_left]

theorem length_eq (h : Packs bs l) : bs.length = (l.length + 7) / 8 := by
  obtain ⟨k, hk, hb⟩ := h
  have hlen := congrArg length hb
  rw [bits_length, length_append, length_replicate] at hlen
  omega

theorem unique (ha : Packs as l) (hb : Packs bs l) : as = bs := by
  apply bits_injective
  rw [ha.pad, hb.pad, ha.length_eq, hb.length_eq]

theorem take_eq (h : Packs bs l) : (bits bs).take l.length = l := by
  rw [h.pad, take_left]

theorem isPrefix (h : Packs bs l) : l <+: bits bs :=
  ⟨_, h.pad.symm⟩

theorem nil : Packs [] [] := ⟨0, by decide, rfl⟩

theorem self : Packs bs (bits bs) := ⟨0, by decide, (append_nil _).symm⟩

/-- One more bit, in a fresh byte when the last one is full. -/
theorem concat (h : Packs bs l) (v : Bool) :
    Packs ((if l.length % 8 = 0 then bs ++ [0] else bs).modify (l.length / 8)
      fun b => b ||| v.toUInt8 <<< UInt8.ofNat (7 - l.length % 8)) (l ++ [v]) := by
  -- Either way a zero bit is free right after `l`.
  have hroom : ∃ k, k < 8 ∧ bits (if l.length % 8 = 0 then bs ++ [0] else bs) =
      l ++ false :: replicate k false := by
    obtain ⟨k, hk, hb⟩ := h
    have hbits := congrArg length hb
    rw [bits_length, length_append, length_replicate] at hbits
    by_cases hfull : l.length % 8 = 0
    · obtain rfl : k = 0 := by omega
      refine ⟨7, by decide, ?_⟩
      rw [if_pos hfull, bits_append, hb, replicate_zero, append_nil]
      rfl
    · obtain ⟨m, rfl⟩ : ∃ m, k = m + 1 := ⟨k - 1, by omega⟩
      exact ⟨m, by omega, by rw [if_neg hfull, hb, replicate_succ]⟩
  obtain ⟨k, hk, hb⟩ := hroom
  refine ⟨k, hk, ?_⟩
  rw [bits_modify (by rw [hb, getElem?_append_right (Nat.le_refl _), Nat.sub_self]; rfl), hb,
    set_append_right _ _ (Nat.le_refl _), Nat.sub_self, append_assoc]
  rfl

end Packs

/-- One more bit, as a writer appends it to its bytes and bit count. -/
def pushBit (w : Bytes × Nat) (v : Bool) : Bytes × Nat :=
  ((if w.2 % 8 = 0 then w.1 ++ [0] else w.1).modify (w.2 / 8)
    fun b => b ||| v.toUInt8 <<< UInt8.ofNat (7 - w.2 % 8), w.2 + 1)

def pack (l : List Bool) : Bytes :=
  (l.foldl pushBit ([], 0)).1

theorem packs_pack (l : List Bool) : Packs (pack l) l := by
  have hfold : (l.foldl pushBit ([], 0)).2 = l.length ∧ Packs (l.foldl pushBit ([], 0)).1 l := by
    induction l using reverseRecOn with
    | nil => exact ⟨rfl, Packs.nil⟩
    | append_singleton l v ih =>
      rw [foldl_concat, pushBit, ih.1]
      exact ⟨by simp, ih.2.concat v⟩
  exact hfold.2

theorem Packs.eq_pack (h : Packs bs l) : bs = pack l :=
  h.unique (packs_pack l)

/-! ## Reading -/

open Decoder

variable {n : Nat}

/-- The number in the next `n` bits. -/
def readNumber (n : Nat) : Decoder (List Bool) UInt8 := do
  let l ← take n
  pure (UInt8.ofNat (value l))

theorem reads_readNumber {v : UInt8} (h : v.toNat < 2 ^ n) :
    Reads (readNumber n) (low v.toNat n) v := by
  have hval : UInt8.ofNat (value (low v.toNat n)) = v := by
    rw [value_low, mod_eq_of_lt h, UInt8.ofNat_toNat]
  have hread := (Reads.take (low_length v.toNat n)).bind_pure fun l => UInt8.ofNat (value l)
  rwa [hval] at hread

theorem readNumber_length {r : List Bool} {v : UInt8} (h : readNumber n l = some (v, r)) :
    r.length + n = l.length := by
  obtain ⟨m, r', htake, hpure⟩ := bind_eq_some h
  cases hpure
  obtain ⟨_, rfl, -, rfl, rfl⟩ := Takes.take n _ _ _ htake
  rw [length_append, add_comm]

/-- A number is read from its own bits. -/
theorem takes_readNumber (hn : n ≤ 8) :
    Takes (readNumber n) fun enc v => enc = low v.toNat n ∧ v.toNat < 2 ^ n := by
  refine (Takes.take n).bind ?_
  rintro l _ ⟨rfl, rfl⟩
  have hlt := value_lt l
  have hval : (UInt8.ofNat (value l)).toNat = value l :=
    UInt8.toNat_ofNat_of_lt' (Nat.lt_of_lt_of_le hlt (Nat.pow_le_pow_right (by decide) hn))
  refine Takes.pure ⟨?_, hval.symm ▸ hlt⟩
  apply value_injective (by simp)
  rw [append_nil, value_low, hval, mod_eq_of_lt hlt]

end Bits
