-- SUMMARY: Byte strings: checked indexing, slices, big-endian words, and UTF-8.
import Mathlib.Algebra.Group.Nat.Defs
import Mathlib.Data.List.Basic

/-!
# Byte strings

Wire formats are lists of bytes. An index that the code has already checked is
read with `byteAt`, whose value past the end never matters. Words are
big-endian, written in arithmetic rather than shifts so that the round trips
are linear.
-/

abbrev Bytes := List UInt8

namespace Bytes

open List

variable {data : Bytes} {i : Nat} {b : UInt8}

/-- The byte at a position the caller has checked. -/
def byteAt (data : Bytes) (i : Nat) : UInt8 := data.getD i 0

theorem byteAt_append (pre data : Bytes) (i : Nat) :
    byteAt (pre ++ data) (pre.length + i) = data.byteAt i := by
  rw [byteAt, byteAt, getD_eq_getElem?_getD, getD_eq_getElem?_getD,
    getElem?_append_right (Nat.le_add_right _ _), Nat.add_sub_cancel_left]

/-- How modelled code can fail to return: an index or a range past the end,
which panics, or a loop that uses up the fuel of its model. -/
inductive Fault where
  | outOfRange (index len : Nat)
  | outOfFuel

/-- `data[i]`, which panics past the end. -/
def index (data : Bytes) (i : Nat) : Except Fault UInt8 :=
  match data[i]? with
  | some b => .ok b
  | none => .error (.outOfRange i data.length)

theorem index_ok (h : data[i]? = some b) : data.index i = .ok b := by
  unfold index
  rw [h]

/-- The half-open slice `data[lo..hi]`. -/
def slice (data : Bytes) (lo hi : Nat) : Bytes := (data.take hi).drop lo

theorem slice_append (pre mid rest : Bytes) :
    slice (pre ++ (mid ++ rest)) pre.length (pre.length + mid.length) = mid := by
  rw [slice, ← append_assoc, take_left' length_append, drop_left]

/-- `data[lo..hi]`, which panics unless `lo ≤ hi ≤ len`. -/
def range (data : Bytes) (lo hi : Nat) : Except Fault Bytes :=
  if lo ≤ hi ∧ hi ≤ data.length then .ok (data.slice lo hi)
  else .error (.outOfRange hi data.length)

theorem index_append {pre : Bytes} (h : data[i]? = some b) :
    index (pre ++ data) (pre.length + i) = .ok b := by
  refine index_ok ?_
  rw [getElem?_append_right (Nat.le_add_right _ _), Nat.add_sub_cancel_left]
  exact h

theorem range_ok {lo hi : Nat} (h : lo ≤ hi) (h' : hi ≤ data.length) :
    data.range lo hi = .ok (data.slice lo hi) :=
  if_pos ⟨h, h'⟩

theorem range_append (pre mid rest : Bytes) :
    range (pre ++ (mid ++ rest)) pre.length (pre.length + mid.length) = .ok mid := by
  rw [range_ok (Nat.le_add_right _ _) (by simp only [length_append]; omega), slice_append]

/-! ## Returning -/

/-- The computation ends with a result. -/
def Returns {ε α : Type} (m : Except ε α) : Prop :=
  ∃ a, m = .ok a

theorem Returns.ok {ε α : Type} (a : α) : Returns (.ok a : Except ε α) := ⟨a, rfl⟩

theorem not_returns {ε α : Type} {m : Except ε α} : ¬ Returns m ↔ ∃ e, m = .error e := by
  cases m <;> simp [Returns]

theorem Returns.bind {ε α β : Type} {m : Except ε α} {k : α → Except ε β} (hm : Returns m)
    (hk : ∀ a, Returns (k a)) : Returns (m >>= k) := by
  obtain ⟨a, rfl⟩ := hm
  exact hk a

theorem returns_index (h : i < data.length) : Returns (data.index i) :=
  ⟨_, index_ok (getElem?_eq_getElem h)⟩

theorem returns_range {lo hi : Nat} (h : lo ≤ hi) (h' : hi ≤ data.length) :
    Returns (data.range lo hi) :=
  ⟨_, range_ok h h'⟩

/-! ## Big-endian words -/

/-- `u16::from_be_bytes`. -/
def u16Be (a b : UInt8) : UInt16 := UInt16.ofNat (a.toNat * 2 ^ 8 + b.toNat)

/-- `u32::from_be_bytes`. -/
def u32Be (a b c d : UInt8) : UInt32 :=
  UInt32.ofNat (a.toNat * 2 ^ 24 + b.toNat * 2 ^ 16 + c.toNat * 2 ^ 8 + d.toNat)

/-- `u16::to_be_bytes`. -/
def ofU16 (n : UInt16) : Bytes := [UInt8.ofNat (n.toNat / 2 ^ 8), UInt8.ofNat n.toNat]

/-- `u32::to_be_bytes`. -/
def ofU32 (n : UInt32) : Bytes :=
  [UInt8.ofNat (n.toNat / 2 ^ 24), UInt8.ofNat (n.toNat / 2 ^ 16),
    UInt8.ofNat (n.toNat / 2 ^ 8), UInt8.ofNat n.toNat]

@[simp] theorem ofU32_length (n : UInt32) : (ofU32 n).length = 4 := rfl

/-- Big-endian words, one after the other. -/
def words (ws : List UInt32) : Bytes :=
  ws.flatMap ofU32

@[simp] theorem words_length (ws : List UInt32) : (words ws).length = 4 * ws.length := by
  induction ws with
  | nil => rfl
  | cons w ws ih =>
    rw [words, flatMap_cons, length_append, length_cons]
    change 4 + (words ws).length = _
    omega

theorem u16Be_ofU16 (n : UInt16) :
    u16Be (UInt8.ofNat (n.toNat / 2 ^ 8)) (UInt8.ofNat n.toNat) = n := by
  apply UInt16.toNat_inj.mp
  have hn := n.toNat_lt
  simp only [u16Be, UInt16.toNat_ofNat', UInt8.toNat_ofNat']
  omega

theorem ofU16_u16Be (a b : UInt8) : ofU16 (u16Be a b) = [a, b] := by
  have ha := a.toNat_lt
  have hb := b.toNat_lt
  simp only [ofU16, u16Be, UInt16.toNat_ofNat', List.cons.injEq, and_true, ← UInt8.toNat_inj,
    UInt8.toNat_ofNat']
  omega

theorem ofU32_u32Be (a b c d : UInt8) : ofU32 (u32Be a b c d) = [a, b, c, d] := by
  have ha := a.toNat_lt
  have hb := b.toNat_lt
  have hc := c.toNat_lt
  have hd := d.toNat_lt
  simp only [ofU32, u32Be, UInt32.toNat_ofNat', List.cons.injEq, and_true, ← UInt8.toNat_inj,
    UInt8.toNat_ofNat']
  omega

theorem u32Be_ofU32 (n : UInt32) :
    u32Be (UInt8.ofNat (n.toNat / 2 ^ 24)) (UInt8.ofNat (n.toNat / 2 ^ 16))
      (UInt8.ofNat (n.toNat / 2 ^ 8)) (UInt8.ofNat n.toNat) = n := by
  apply UInt32.toNat_inj.mp
  have hn := n.toNat_lt
  simp only [u32Be, UInt32.toNat_ofNat', UInt8.toNat_ofNat']
  omega

end Bytes

/-! ## UTF-8

Text is a list of Unicode scalar values. Lossy decoding replaces each maximal
ill-formed part by U+FFFD, following the byte classes of the standard library:
after a lead byte the second byte has the range the lead allows, later ones are
plain continuation bytes, and an ill-formed part ends before the byte that does
not fit. -/

abbrev Text := List Char

instance : Coe String Text := ⟨String.toList⟩

namespace Utf8

def encodeChar (c : Char) : Bytes :=
  let n := c.toNat
  if n < 0x80 then [UInt8.ofNat n]
  else if n < 0x800 then [UInt8.ofNat (0xc0 + n / 64), UInt8.ofNat (0x80 + n % 64)]
  else if n < 0x10000 then
    [UInt8.ofNat (0xe0 + n / 4096), UInt8.ofNat (0x80 + n / 64 % 64), UInt8.ofNat (0x80 + n % 64)]
  else
    [UInt8.ofNat (0xf0 + n / 262144), UInt8.ofNat (0x80 + n / 4096 % 64),
      UInt8.ofNat (0x80 + n / 64 % 64), UInt8.ofNat (0x80 + n % 64)]

/-- The bytes of a text. -/
def encode (text : Text) : Bytes :=
  text.flatMap encodeChar

def replacement : Char := Char.ofNat 0xfffd

/-- A continuation byte. -/
def cont (b : UInt8) : Bool :=
  0x80 ≤ b.toNat && b.toNat ≤ 0xbf

/-- The second bytes a three-byte lead allows. -/
def second3 (lead b : UInt8) : Bool :=
  if lead.toNat = 0xe0 then 0xa0 ≤ b.toNat && b.toNat ≤ 0xbf
  else if lead.toNat = 0xed then 0x80 ≤ b.toNat && b.toNat ≤ 0x9f
  else cont b

/-- The second bytes a four-byte lead allows. -/
def second4 (lead b : UInt8) : Bool :=
  if lead.toNat = 0xf0 then 0x90 ≤ b.toNat && b.toNat ≤ 0xbf
  else if lead.toNat = 0xf4 then 0x80 ≤ b.toNat && b.toNat ≤ 0x8f
  else cont b

/-- The first character of `lead :: rest`, or the replacement, and how many
bytes it stands for. -/
def lossyStep (lead : UInt8) (rest : Bytes) : Char × Nat :=
  let n := lead.toNat
  if n < 0x80 then (Char.ofNat n, 1)
  else if 0xc2 ≤ n ∧ n ≤ 0xdf then
    match rest with
    | b :: _ => if cont b then (Char.ofNat ((n - 0xc0) * 64 + (b.toNat - 0x80)), 2) else (replacement, 1)
    | [] => (replacement, 1)
  else if 0xe0 ≤ n ∧ n ≤ 0xef then
    match rest with
    | b :: c :: _ =>
      if second3 lead b then
        if cont c then
          (Char.ofNat ((n - 0xe0) * 4096 + (b.toNat - 0x80) * 64 + (c.toNat - 0x80)), 3)
        else (replacement, 2)
      else (replacement, 1)
    | [b] => if second3 lead b then (replacement, 2) else (replacement, 1)
    | [] => (replacement, 1)
  else if 0xf0 ≤ n ∧ n ≤ 0xf4 then
    match rest with
    | b :: c :: d :: _ =>
      if second4 lead b then
        if cont c then
          if cont d then
            (Char.ofNat ((n - 0xf0) * 262144 + (b.toNat - 0x80) * 4096 + (c.toNat - 0x80) * 64 +
              (d.toNat - 0x80)), 4)
          else (replacement, 3)
        else (replacement, 2)
      else (replacement, 1)
    | [b, c] =>
      if second4 lead b then if cont c then (replacement, 3) else (replacement, 2)
      else (replacement, 1)
    | [b] => if second4 lead b then (replacement, 2) else (replacement, 1)
    | [] => (replacement, 1)
  else (replacement, 1)

def lossyLoop : Nat → Bytes → Text
  | 0, _ => []
  | _, [] => []
  | fuel + 1, lead :: rest =>
    let s := lossyStep lead rest
    s.1 :: lossyLoop fuel (rest.drop (s.2 - 1))

/-- `String::from_utf8_lossy`; every step uses up a byte. -/
def fromUtf8Lossy (bytes : Bytes) : Text :=
  lossyLoop bytes.length bytes

/-! ### Decoding inverts encoding -/

variable {text : Text} {rest : Bytes} {c : Char}

@[simp] theorem encode_cons (c : Char) : encode (c :: text) = encodeChar c ++ encode text := rfl

@[simp] theorem encode_append (a b : Text) : encode (a ++ b) = encode a ++ encode b :=
  List.flatMap_append

theorem ofNat_eq {n : Nat} (h : n = c.toNat) : Char.ofNat n = c := by
  rw [h, Char.ofNat_toNat]

/-- A scalar value is below the surrogates or above them. -/
theorem scalar (c : Char) : c.toNat < 0xd800 ∨ (0xdfff < c.toNat ∧ c.toNat < 0x110000) :=
  c.valid

theorem toNat_cont (n : Nat) : (UInt8.ofNat (0x80 + n % 64)).toNat = 0x80 + n % 64 :=
  UInt8.toNat_ofNat_of_lt' (show 0x80 + n % 64 < 256 by omega)

theorem lossyStep_two (h1 : 0x80 ≤ c.toNat) (h2 : c.toNat < 0x800) :
    lossyStep (UInt8.ofNat (0xc0 + c.toNat / 64)) (UInt8.ofNat (0x80 + c.toNat % 64) :: rest) =
      (c, 2) := by
  have hlead := UInt8.toNat_ofNat_of_lt' (show 0xc0 + c.toNat / 64 < 256 by omega)
  simp only [lossyStep, hlead, toNat_cont, cont]
  rw [if_neg (by omega), if_pos (by omega), if_pos (by simp; omega)]
  exact congrArg (·, 2) (ofNat_eq (by omega))

theorem lossyStep_three (h1 : 0x800 ≤ c.toNat) (h2 : c.toNat < 0x10000) :
    lossyStep (UInt8.ofNat (0xe0 + c.toNat / 4096)) (UInt8.ofNat (0x80 + c.toNat / 64 % 64) ::
      UInt8.ofNat (0x80 + c.toNat % 64) :: rest) = (c, 3) := by
  have hscalar := scalar c
  have hlead := UInt8.toNat_ofNat_of_lt' (show 0xe0 + c.toNat / 4096 < 256 by omega)
  have hsecond : second3 (UInt8.ofNat (0xe0 + c.toNat / 4096))
      (UInt8.ofNat (0x80 + c.toNat / 64 % 64)) = true := by
    simp only [second3, cont, hlead, toNat_cont]
    repeat' split
    all_goals
      simp only [Bool.and_eq_true, decide_eq_true_iff]
      omega
  simp only [lossyStep, hlead, toNat_cont, cont]
  rw [if_neg (by omega), if_neg (by omega), if_pos (by omega), if_pos hsecond,
    if_pos (by simp; omega)]
  exact congrArg (·, 3) (ofNat_eq (by omega))

theorem lossyStep_four (h : 0x10000 ≤ c.toNat) :
    lossyStep (UInt8.ofNat (0xf0 + c.toNat / 262144)) (UInt8.ofNat (0x80 + c.toNat / 4096 % 64) ::
      UInt8.ofNat (0x80 + c.toNat / 64 % 64) :: UInt8.ofNat (0x80 + c.toNat % 64) :: rest) =
      (c, 4) := by
  have hscalar := scalar c
  have hlead := UInt8.toNat_ofNat_of_lt' (show 0xf0 + c.toNat / 262144 < 256 by omega)
  have hsecond : second4 (UInt8.ofNat (0xf0 + c.toNat / 262144))
      (UInt8.ofNat (0x80 + c.toNat / 4096 % 64)) = true := by
    simp only [second4, cont, hlead, toNat_cont]
    repeat' split
    all_goals
      simp only [Bool.and_eq_true, decide_eq_true_iff]
      omega
  simp only [lossyStep, hlead, toNat_cont, cont]
  rw [if_neg (by omega), if_neg (by omega), if_neg (by omega), if_pos (by omega), if_pos hsecond,
    if_pos (by simp; omega), if_pos (by simp; omega)]
  exact congrArg (·, 4) (ofNat_eq (by omega))

/-- One encoded character is decoded as itself, whatever follows. -/
theorem lossyStep_encodeChar (c : Char) (rest : Bytes) :
    ∃ lead tail, encodeChar c = lead :: tail ∧
      lossyStep lead (tail ++ rest) = (c, tail.length + 1) := by
  unfold encodeChar
  by_cases h1 : c.toNat < 0x80
  · have hlead := UInt8.toNat_ofNat_of_lt' (show c.toNat < 256 by omega)
    refine ⟨_, [], by rw [if_pos h1], ?_⟩
    simp only [lossyStep, hlead]
    rw [if_pos h1, Char.ofNat_toNat]
    rfl
  · by_cases h2 : c.toNat < 0x800
    · exact ⟨_, _, by rw [if_neg h1, if_pos h2], lossyStep_two (Nat.not_lt.mp h1) h2⟩
    by_cases h3 : c.toNat < 0x10000
    · exact ⟨_, _, by rw [if_neg h1, if_neg h2, if_pos h3], lossyStep_three (Nat.not_lt.mp h2) h3⟩
    · exact ⟨_, _, by rw [if_neg h1, if_neg h2, if_neg h3], lossyStep_four (Nat.not_lt.mp h3)⟩

theorem lossyLoop_encode {fuel : Nat} (h : (encode text).length ≤ fuel) :
    lossyLoop fuel (encode text) = text := by
  induction text generalizing fuel with
  | nil => cases fuel <;> rfl
  | cons c text ih =>
    obtain ⟨lead, tail, hchar, hstep⟩ := lossyStep_encodeChar c (encode text)
    rw [encode_cons, hchar, List.cons_append] at h ⊢
    cases fuel with
    | zero => exact absurd h (by simp)
    | succ fuel =>
      rw [List.length_cons, List.length_append] at h
      rw [lossyLoop, hstep, Nat.add_sub_cancel, List.drop_left, ih (by omega)]

theorem fromUtf8Lossy_encode (text : Text) : fromUtf8Lossy (encode text) = text :=
  lossyLoop_encode (Nat.le_refl _)

end Utf8
