-- SUMMARY: Operations on text: lines, trimming, fields, splitting, ASCII case; numerals.
import Mathlib.Data.List.DropRight
import GsmSipBridge.Lib.Bytes

/-!
# Text operations

The string operations line-oriented protocols are parsed with. A text is a list
of Unicode scalar values; `List.dropPrefix?` serves for stripping a fixed start.
-/

/-! ## Lists cut at separators -/

namespace List

variable {α : Type}

/-- A list is one piece without separators, or such a piece, a separator and a
list. -/
theorem separatorInduction (p : α → Bool) {P : List α → Prop}
    (last : ∀ l, (∀ x ∈ l, p x = false) → P l)
    (piece : ∀ l sep rest, (∀ x ∈ l, p x = false) → p sep = true → P rest → P (l ++ sep :: rest))
    (l : List α) : P l := by
  induction hn : l.length using Nat.strongRecOn generalizing l with
  | ind n ih =>
    cases hfind : l.find? p with
    | none => exact last l fun x hx => Bool.eq_false_iff.mpr (find?_eq_none.mp hfind x hx)
    | some sep =>
      obtain ⟨hsep, before, rest, rfl, hbefore⟩ := find?_eq_some_iff_append.mp hfind
      refine piece before sep rest (fun x hx => by simpa using hbefore x hx) hsep
        (ih rest.length ?_ rest rfl)
      rw [← hn, length_append, length_cons]
      omega

/-- What does not contain a separator and starts a list cut at it starts the first piece. -/
theorem prefix_of_prefix_append {p l : List α} {sep : α} {rest : List α} (h : sep ∉ p)
    (hpre : p <+: l ++ sep :: rest) : p <+: l := by
  rcases prefix_or_prefix_of_prefix hpre (prefix_append l (sep :: rest)) with hp | ⟨more, rfl⟩
  · exact hp
  rw [prefix_append_right_inj] at hpre
  cases more with
  | nil => simp
  | cons a more =>
    rw [cons_prefix_cons] at hpre
    exact absurd (mem_append_right l (hpre.1 ▸ mem_cons_self)) h

/-- Without one `a` at the end. -/
def chop {α : Type} [DecidableEq α] (a : α) (l : List α) : List α :=
  if l.getLast? = some a then l.dropLast else l

section Chop

variable [DecidableEq α] (a : α)

@[simp] theorem chop_concat_self (l : List α) : chop a (l ++ [a]) = l := by
  rw [chop, getLast?_concat, if_pos rfl, dropLast_concat]

theorem chop_isPrefix (l : List α) : chop a l <+: l := by
  unfold chop
  split
  · exact dropLast_prefix l
  · exact prefix_rfl

end Chop

end List

namespace Text

open List

variable {l : Text}

/-- The Unicode `White_Space` property. -/
def isWhitespace (c : Char) : Bool :=
  let n := c.toNat
  (9 ≤ n && n ≤ 13) || n == 0x20 || n == 0x85 || n == 0xa0 || n == 0x1680 ||
    (0x2000 ≤ n && n ≤ 0x200a) || n == 0x2028 || n == 0x2029 || n == 0x202f || n == 0x205f ||
    n == 0x3000

def trim (t : Text) : Text :=
  List.rdropWhile isWhitespace (t.dropWhile isWhitespace)

/-- Without white space at the front. -/
def trimStart (t : Text) : Text :=
  t.dropWhile isWhitespace

/-- The parts before and after the first `c`. -/
def splitOnce (c : Char) : Text → Option (Text × Text)
  | [] => none
  | x :: xs => if x = c then some ([], xs) else (splitOnce c xs).map fun p => (x :: p.1, p.2)

/-- The lines of a text. A line feed ends a line, together with a carriage return
before it; what follows the last one is a line unless it is empty. -/
def lines (t : Text) : List Text :=
  let pieces := t.splitOn '\n'
  pieces.dropLast.map (List.chop '\r') ++ (pieces.getLast?.filter (!·.isEmpty)).toList

/-- The fields between white space. -/
def splitWhitespace (t : Text) : List Text :=
  (t.splitOnP isWhitespace).filter (!·.isEmpty)

/-- Fields with a space between them. -/
def join : List Text → Text
  | [] => []
  | field :: fields => field ++ fields.flatMap (' ' :: ·)

/-- At most `n` pieces: the last one is not split any further. -/
def splitn (n : Nat) (c : Char) (t : Text) : List Text :=
  match n with
  | 0 => []
  | 1 => [t]
  | n + 2 =>
    match splitOnce c t with
    | none => [t]
    | some (piece, rest) => piece :: splitn (n + 1) c rest

def toAsciiLowercase (t : Text) : Text :=
  t.map Char.toLower

def toAsciiUppercase (t : Text) : Text :=
  t.map Char.toUpper

def eqIgnoreAsciiCase (s t : Text) : Bool :=
  toAsciiLowercase s == toAsciiLowercase t

/-! ## Lines -/

theorem lines_line (h : '\n' ∉ l) (rest : Text) :
    lines (l ++ '\n' :: rest) = l.chop '\r' :: lines rest := by
  have hne : rest.splitOn '\n' ≠ [] := splitOn_ne_nil '\n' rest
  unfold lines
  rw [splitOn_append_cons_self_of_not_mem h]
  simp only [dropLast_cons_of_ne_nil hne, map_cons, cons_append, getLast?_cons_of_ne_nil hne]

/-- Lines that are written with carriage return and line feed are read back. -/
theorem lines_flatMap_crlf {ls : List Text} (h : ∀ l ∈ ls, '\n' ∉ l) :
    lines (ls.flatMap (· ++ ['\r', '\n'])) = ls := by
  induction ls with
  | nil => rfl
  | cons l ls ih =>
    have hl : '\n' ∉ l ++ ['\r'] := by
      rw [mem_append]
      exact fun hmem => hmem.elim (h l mem_cons_self) (by decide)
    have hline := lines_line hl (ls.flatMap (· ++ ['\r', '\n']))
    rw [chop_concat_self, ih fun l' hl' => h l' (mem_cons_of_mem l hl')] at hline
    simpa using hline

theorem lines_last (h : '\n' ∉ l) : lines l = if l.isEmpty then [] else [l] := by
  unfold lines
  rw [splitOn_eq_singleton h]
  cases l <;> rfl

variable {t r : Text} {p a : Text} {c : Char} {fields : List Text} {b : Text}

theorem newline_not_mem_of_mem_lines (h : l ∈ lines t) : '\n' ∉ l := by
  have hfree : ∀ {s : Text}, (∀ x ∈ s, (x == '\n') = false) → '\n' ∉ s := fun h hmem =>
    Bool.false_ne_true ((h _ hmem).symm.trans (beq_self_eq_true _))
  induction t using separatorInduction (· == '\n') with
  | last s hs =>
    rw [lines_last (hfree hs)] at h
    split at h
    · cases h
    · rw [mem_singleton.mp h]
      exact hfree hs
  | piece s sep rest hs hsep ih =>
    rw [beq_iff_eq.mp hsep, lines_line (hfree hs), mem_cons] at h
    cases h with
    | inl h =>
      rw [h]
      exact fun hmem => hfree hs ((chop_isPrefix '\r' s).subset hmem)
    | inr h => exact ih h

/-! ## Trimming -/

/-- Without white space at either end. -/
def Trimmed (t : Text) : Prop :=
  (∀ c ∈ t.head?, isWhitespace c = false) ∧ ∀ c ∈ t.getLast?, isWhitespace c = false

-- the bounded quantifiers are decided along the text, never over all characters
instance (t : Text) : Decidable (Trimmed t) :=
  @instDecidableAnd _ _ (Option.decidableForallMem _) (Option.decidableForallMem _)

/-- Without white space at the end. -/
def trimEnd (t : Text) : Text :=
  List.rdropWhile isWhitespace t

/-- Something that ends without white space. -/
def Closed (t : Text) : Prop :=
  t ≠ [] ∧ ∀ c ∈ t.getLast?, isWhitespace c = false

instance (t : Text) : Decidable (Closed t) :=
  @instDecidableAnd _ _ inferInstance (Option.decidableForallMem _)

theorem Closed.append (a : Text) (h : Closed r) : Closed (a ++ r) := by
  refine ⟨append_ne_nil_of_right_ne_nil a h.1, ?_⟩
  rw [getLast?_append_of_ne_nil _ h.1]
  exact h.2

theorem Closed.cons (c : Char) (h : Closed r) : Closed (c :: r) :=
  h.append [c]

theorem dropWhile_of_head (h : ∀ c ∈ t.head?, isWhitespace c = false) :
    t.dropWhile isWhitespace = t := by
  cases t with
  | nil => rfl
  | cons c t => rw [dropWhile_cons_of_neg (by rw [h c rfl]; exact Bool.false_ne_true)]

theorem trim_of_trimmed (h : Trimmed t) : trim t = t := by
  rw [trim, dropWhile_of_head h.1, rdropWhile_eq_self_iff]
  intro hne
  rw [h.2 _ (getLast?_eq_some_getLast hne)]
  exact Bool.false_ne_true

/-- A start that ends without white space is kept. -/
theorem trimEnd_append (hp : ∀ c ∈ p.getLast?, isWhitespace c = false) :
    trimEnd (p ++ r) = p ++ trimEnd r := by
  have hlast : p.reverse.dropWhile isWhitespace = p.reverse :=
    dropWhile_of_head (by rw [head?_reverse]; exact hp)
  unfold trimEnd rdropWhile
  rw [reverse_append, dropWhile_append]
  split
  next hempty => rw [hlast, isEmpty_iff.mp hempty]; simp
  next => rw [reverse_append, reverse_reverse]

theorem trimmed_trim : Trimmed (trim t) := by
  constructor
  · intro c hc
    cases hdrop : t.dropWhile isWhitespace with
    | nil =>
      rw [trim, hdrop] at hc
      cases hc
    | cons d more =>
      have hnot := head_dropWhile_not isWhitespace (by rw [hdrop]; exact cons_ne_nil d more)
      simp only [hdrop, head_cons] at hnot
      have htrim : trim t = d :: trimEnd more := by
        rw [trim, hdrop]
        exact trimEnd_append (p := [d]) (fun x hx => by cases hx; exact hnot)
      rw [htrim] at hc
      cases hc
      exact hnot
  · intro c hc
    have hne : trim t ≠ [] := fun hnil => by rw [hnil] at hc; cases hc
    have hnot := rdropWhile_last_not isWhitespace _ hne
    rw [getLast?_eq_some_getLast hne] at hc
    exact Bool.eq_false_iff.mpr (Option.some.inj hc ▸ hnot)

theorem mem_of_mem_trim (h : c ∈ trim t) : c ∈ t :=
  (dropWhile_sublist _).mem ((List.rdropWhile_prefix _ _).subset h)

theorem mem_trim (h : c ∈ t) (hc : isWhitespace c = false) : c ∈ trim t := by
  have hdrop {l : Text} (h : c ∈ l) : c ∈ l.dropWhile isWhitespace := by
    rw [← takeWhile_append_dropWhile (l := l), mem_append] at h
    refine h.resolve_left fun hmem => ?_
    rw [mem_takeWhile_imp hmem] at hc
    cases hc
  rw [trim, rdropWhile, mem_reverse]
  exact hdrop (mem_reverse.2 (hdrop h))

theorem trim_within : trim t <:+: t :=
  (List.rdropWhile_prefix _ _).isInfix.trans (dropWhile_suffix _).isInfix

/-- White space at the front does not count. -/
theorem trim_cons (h : isWhitespace c = true) : trim (c :: t) = trim t := by
  rw [trim, dropWhile_cons_of_pos h]
  rfl

theorem trim_append_of_closed (hp : Trimmed p.head?.toList) (hne : p ≠ []) (hr : Closed r) :
    trim (p ++ r) = p ++ r := by
  refine trim_of_trimmed ⟨?_, (hr.append p).2⟩
  rw [head?_append_of_ne_nil _ hne]
  intro c hc
  exact hp.1 c (by rw [Option.mem_def.mp hc]; rfl)

/-- A start that is kept keeps what follows it up to the white space at the end. -/
theorem trim_append (hp : Trimmed p) (hne : p ≠ []) (r : Text) :
    trim (p ++ r) = p ++ trimEnd r := by
  have hhead : ∀ c ∈ (p ++ r).head?, isWhitespace c = false := by
    rw [head?_append_of_ne_nil _ hne]
    exact hp.1
  rw [trim, dropWhile_of_head hhead]
  exact trimEnd_append hp.2

theorem trim_of_head (h : t.head? = some c) (hc : isWhitespace c = false) :
    ∃ rest, trim t = c :: rest := by
  obtain ⟨rest, rfl⟩ := head?_eq_some_iff.mp h
  have hkept : Trimmed [c] := by simp [Trimmed, hc]
  exact ⟨trimEnd rest, trim_append hkept (cons_ne_nil c []) rest⟩

/-! ## Fields -/

/-- A field: something, without white space. -/
def Token (t : Text) : Prop :=
  t ≠ [] ∧ ∀ c ∈ t, isWhitespace c = false

instance (t : Text) : Decidable (Token t) :=
  @instDecidableAnd _ _ inferInstance (List.decidableBAll _ t)

theorem Token.not_mem (h : Token t) (hc : isWhitespace c = true) : c ∉ t :=
  fun hmem => Bool.false_ne_true ((h.2 c hmem).symm.trans hc)

theorem Token.closed (h : Token t) : Closed t :=
  ⟨h.1, fun _ hc => h.2 _ (mem_of_getLast? hc)⟩

theorem Token.trimmed (h : Token t) : Trimmed t :=
  ⟨fun _ hc => h.2 _ (mem_of_head? hc), fun _ hc => h.2 _ (mem_of_getLast? hc)⟩

@[simp] theorem splitWhitespace_nil : splitWhitespace [] = [] := rfl

theorem splitWhitespace_token (h : Token t) : splitWhitespace t = [t] := by
  rw [splitWhitespace, splitOnP_eq_singleton h.2]
  simp [h.1]

theorem splitWhitespace_append (h : isWhitespace c = true) (s t : Text) :
    splitWhitespace (s ++ c :: t) = splitWhitespace s ++ splitWhitespace t := by
  rw [splitWhitespace, splitOnP_append_cons s t h, filter_append]
  rfl

theorem token_of_mem_splitWhitespace {f : Text} (h : f ∈ splitWhitespace t) : Token f := by
  have hpiece : ∀ {s : Text}, (∀ x ∈ s, isWhitespace x = false) → f ∈ splitWhitespace s → Token f := by
    intro s hs hf
    rw [splitWhitespace, splitOnP_eq_singleton hs, mem_filter, mem_singleton] at hf
    obtain ⟨rfl, hne⟩ := hf
    exact ⟨by simpa using hne, hs⟩
  induction t using separatorInduction isWhitespace with
  | last s hs => exact hpiece hs h
  | piece s sep rest hs hsep ih =>
    rw [splitWhitespace_append hsep, mem_append] at h
    cases h with
    | inl h => exact hpiece hs h
    | inr h => exact ih h

theorem splitWhitespace_trimEnd : splitWhitespace (trimEnd t) = splitWhitespace t := by
  induction t using reverseRecOn with
  | nil => rfl
  | append_singleton t c ih =>
    rw [trimEnd, rdropWhile_concat]
    split
    next hc => rw [splitWhitespace_append hc, splitWhitespace_nil, append_nil]; exact ih
    next => rfl

section

variable (h : ∀ f ∈ fields, Token f)

include h

theorem splitWhitespace_fields (s : Text) :
    splitWhitespace (s ++ fields.flatMap (' ' :: ·)) = splitWhitespace s ++ fields := by
  induction fields generalizing s with
  | nil => simp
  | cons f fields ih =>
    have hf := splitWhitespace_token (h f mem_cons_self)
    have hrest := ih (fun f' hf' => h f' (mem_cons_of_mem f hf')) f
    rw [flatMap_cons, cons_append, splitWhitespace_append (by decide), hrest, hf]
    rfl

theorem splitWhitespace_join : splitWhitespace (join fields) = fields := by
  cases fields with
  | nil => rfl
  | cons f fields =>
    rw [join, splitWhitespace_fields fun f' hf' => h f' (mem_cons_of_mem f hf'),
      splitWhitespace_token (h f mem_cons_self)]
    rfl

theorem closed_join (hne : fields ≠ []) : Closed (join fields) := by
  cases fields with
  | nil => exact absurd rfl hne
  | cons f fields =>
    cases eq_nil_or_concat fields with
    | inl hnil =>
      rw [hnil, join, flatMap_nil, append_nil]
      exact (h f mem_cons_self).closed
    | inr hconcat =>
      obtain ⟨init, last, rfl⟩ := hconcat
      rw [join, concat_eq_append, flatMap_append, flatMap_singleton]
      exact .append _ (.append _ (.cons _ (h last (by simp)).closed))

end

/-! ## Stripping a start and splitting at a character -/

theorem dropPrefix?_self_append (p r : Text) : (p ++ r).dropPrefix? p = some r :=
  dropPrefix?_append_of_beq r (beq_self_eq_true p)

theorem dropPrefix?_of_head_ne {d : Char} (hp : p.head? = some d) (h : c ≠ d) :
    (c :: t).dropPrefix? p = none := by
  cases p with
  | nil => cases hp
  | cons x p =>
    rw [head?_cons, Option.some.injEq] at hp
    rw [dropPrefix?, if_neg (by simpa [hp] using h)]

theorem splitOnce_append (h : c ∉ a) (b : Text) : splitOnce c (a ++ c :: b) = some (a, b) := by
  induction a with
  | nil => rw [nil_append, splitOnce, if_pos rfl]
  | cons x a ih =>
    rw [mem_cons, not_or] at h
    rw [cons_append, splitOnce, if_neg (Ne.symm h.1), ih h.2]
    rfl

theorem splitOnce_none (h : c ∉ a) : splitOnce c a = none := by
  induction a with
  | nil => rfl
  | cons x a ih =>
    rw [mem_cons, not_or] at h
    rw [splitOnce, if_neg (Ne.symm h.1), ih h.2]
    rfl

theorem eq_of_splitOnce (h : splitOnce c t = some (a, b)) : t = a ++ c :: b ∧ c ∉ a := by
  by_cases hc : c ∈ t
  · obtain ⟨a', b', rfl, hnot⟩ := eq_append_cons_of_mem hc
    rw [splitOnce_append hnot] at h
    cases h
    exact ⟨rfl, hnot⟩
  · rw [splitOnce_none hc] at h
    cases h

theorem exists_splitOnce (h : c ∈ t) : ∃ a b, splitOnce c t = some (a, b) := by
  obtain ⟨a, b, rfl, hnot⟩ := eq_append_cons_of_mem h
  exact ⟨a, b, splitOnce_append hnot b⟩

theorem splitn_three (ha : c ∉ a) (hb : c ∉ b) (rest : Text) :
    splitn 3 c (a ++ c :: (b ++ c :: rest)) = [a, b, rest] := by
  rw [splitn, splitOnce_append ha]
  dsimp only
  rw [splitn, splitOnce_append hb]
  rfl

end Text

/-! ## Numerals

Display is `Nat.toDigits`. Parsing follows the fixed-width integers: an optional
plus sign, at least one digit, and a value that fits. -/

namespace Numeral

variable {c : Char} {n : Nat}

/-- The value of a digit or a letter. -/
def alphanumericValue (c : Char) : Option Nat :=
  let n := c.toNat
  if 48 ≤ n ∧ n ≤ 57 then some (n - 48)
  else if 97 ≤ n ∧ n ≤ 122 then some (n - 87)
  else if 65 ≤ n ∧ n ≤ 90 then some (n - 55)
  else none

/-- The value of a digit in a radix. -/
def digitValue (radix : Nat) (c : Char) : Option Nat :=
  (alphanumericValue c).filter (· < radix)

def isDigit (radix : Nat) (c : Char) : Bool :=
  (digitValue radix c).isSome

/-- The value of digits behind a number already read. -/
def valueFrom (radix : Nat) : Nat → Text → Option Nat
  | acc, [] => some acc
  | acc, c :: cs => (digitValue radix c).bind fun d => valueFrom radix (acc * radix + d) cs

def value (radix : Nat) (t : Text) : Option Nat :=
  valueFrom radix 0 t

/-- An unsigned decimal number of at most `max`. -/
def parse (max : Nat) (t : Text) : Option Nat :=
  let digits := (t.dropPrefix? ['+']).getD t
  if digits.isEmpty then none else (value 10 digits).filter (· ≤ max)

def parseU8 (t : Text) : Option UInt8 := (parse 255 t).map UInt8.ofNat
def parseU16 (t : Text) : Option UInt16 := (parse 65535 t).map UInt16.ofNat
def parseU32 (t : Text) : Option UInt32 := (parse 4294967295 t).map UInt32.ofNat

/-- An unsigned hexadecimal number of 32 bits. -/
def parseHexU32 (t : Text) : Option UInt32 :=
  let digits := (t.dropPrefix? ['+']).getD t
  if digits.isEmpty then none else ((value 16 digits).filter (· ≤ 4294967295)).map UInt32.ofNat

def display (n : Nat) : Text :=
  Nat.toDigits 10 n

/-! ### Digits read back -/

theorem alphanumericValue_digitChar {d : Nat} (h : d < 16) :
    alphanumericValue d.digitChar = some d := by
  revert d
  decide

section

variable {radix : Nat} (hpos : 1 < radix) (hle : radix ≤ 16)

include hle in
theorem digitValue_digitChar {d : Nat} (h : d < radix) : digitValue radix d.digitChar = some d := by
  rw [digitValue, alphanumericValue_digitChar (Nat.lt_of_lt_of_le h hle), Option.filter_some,
    if_pos (decide_eq_true h)]

theorem valueFrom_append (acc : Nat) (s t : Text) :
    valueFrom radix acc (s ++ t) = (valueFrom radix acc s).bind (valueFrom radix · t) := by
  induction s generalizing acc with
  | nil => rfl
  | cons c s ih =>
    simp only [List.cons_append, valueFrom]
    cases digitValue radix c with
    | none => rfl
    | some d => exact ih _

include hpos hle in
theorem value_toDigits (n : Nat) : value radix (Nat.toDigits radix n) = some n := by
  induction n using Nat.strongRecOn with
  | ind n ih =>
    by_cases h : n < radix
    · rw [Nat.toDigits_of_lt_base h, value, valueFrom, digitValue_digitChar hle h]
      simp [valueFrom]
    have hdiv : n / radix < n := Nat.div_lt_self (by omega) hpos
    have hmod := digitValue_digitChar hle (Nat.mod_lt n (show 0 < radix by omega))
    rw [Nat.toDigits_of_base_le hpos (Nat.not_lt.mp h), value, valueFrom_append]
    rw [show valueFrom radix 0 (Nat.toDigits radix (n / radix)) = some (n / radix) from ih _ hdiv]
    simp only [Option.bind_some, valueFrom, hmod]
    rw [Nat.mul_comm, Nat.div_add_mod]

/-- What has a value consists of digits. -/
theorem isDigit_of_valueFrom {acc n : Nat} {t : Text} (h : valueFrom radix acc t = some n) :
    ∀ c ∈ t, isDigit radix c = true := by
  induction t generalizing acc with
  | nil => nofun
  | cons c t ih =>
    obtain ⟨d, hd, hrest⟩ := Option.bind_eq_some_iff.mp h
    exact List.forall_mem_cons.mpr ⟨by rw [isDigit, hd]; rfl, ih hrest⟩

include hpos hle in
theorem isDigit_of_mem_toDigits {n : Nat} (h : c ∈ Nat.toDigits radix n) : isDigit radix c = true :=
  isDigit_of_valueFrom (value_toDigits hpos hle n) c h

end

theorem isWhitespace_of_isDigit {radix : Nat} (h : isDigit radix c = true) :
    Text.isWhitespace c = false := by
  have hrange : (48 ≤ c.toNat ∧ c.toNat ≤ 57) ∨ (97 ≤ c.toNat ∧ c.toNat ≤ 122) ∨
      (65 ≤ c.toNat ∧ c.toNat ≤ 90) := by
    by_contra hno
    simp only [not_or] at hno
    rw [isDigit, digitValue, alphanumericValue, if_neg hno.1, if_neg hno.2.1, if_neg hno.2.2] at h
    exact Bool.false_ne_true h
  simp only [Text.isWhitespace, Bool.or_eq_false_iff, Bool.and_eq_false_iff, decide_eq_false_iff_not,
    beq_eq_false_iff_ne]
  omega

/-! ### Decimal numbers -/

theorem isDigit_of_mem_display (h : c ∈ display n) : isDigit 10 c = true :=
  isDigit_of_mem_toDigits (by decide) (by decide) h

theorem token_display (n : Nat) : Text.Token (display n) :=
  ⟨Nat.toDigits_ne_nil, fun _ hc => isWhitespace_of_isDigit (isDigit_of_mem_display hc)⟩

theorem parse_display {max : Nat} (h : n ≤ max) : parse max (display n) = some n := by
  have hvalue : value 10 (display n) = some n := value_toDigits (by decide) (by decide) n
  cases hd : display n with
  | nil => exact absurd hd Nat.toDigits_ne_nil
  | cons c cs =>
    have hdigit : isDigit 10 c = true := isDigit_of_mem_display (n := n) (by simp [hd])
    have hplus : c ≠ '+' := by
      rintro rfl
      exact absurd hdigit (by decide)
    rw [hd] at hvalue
    rw [parse, Text.dropPrefix?_of_head_ne rfl hplus, Option.getD_none, if_neg (by simp), hvalue,
      Option.filter_some, if_pos (decide_eq_true h)]

theorem parse_le {max : Nat} {t : Text} (h : parse max t = some n) : n ≤ max := by
  unfold parse at h
  dsimp only at h
  split at h
  · cases h
  · exact of_decide_eq_true (Option.filter_eq_some_iff.mp h).2

theorem parseU8_display (n : UInt8) : parseU8 (display n.toNat) = some n := by
  rw [parseU8, parse_display (Nat.le_of_lt_succ n.toNat_lt), Option.map_some, UInt8.ofNat_toNat]

theorem parseU16_display (n : UInt16) : parseU16 (display n.toNat) = some n := by
  rw [parseU16, parse_display (Nat.le_of_lt_succ n.toNat_lt), Option.map_some, UInt16.ofNat_toNat]

theorem parseU32_display (n : UInt32) : parseU32 (display n.toNat) = some n := by
  rw [parseU32, parse_display (Nat.le_of_lt_succ n.toNat_lt), Option.map_some, UInt32.ofNat_toNat]

end Numeral
