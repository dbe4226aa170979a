-- SUMMARY: Sequences cut at a delimiter of two elements, and streams into lines.
import Mathlib.Data.List.Chain
import GsmSipBridge.Lib.Bytes

/-!
# Delimited lines

A line ends at a delimiter of two different elements, such as CR LF. A sequence is
free of the delimiter when it does not occur in it; half a delimiter may. Because
the two elements differ, a free line followed by the delimiter has exactly that one
occurrence, so searching and splitting find the lines that were written.
-/

namespace Delimited

open List Option

/-! ## Search -/

section Search

variable {α : Type} [DecidableEq α] {i : Nat} {needle : List α} {l : List α}

/-- The position of the first occurrence. -/
def find (needle : List α) : List α → Option Nat
  | [] => none
  | a :: l => if needle <+: a :: l then some 0 else (find needle l).map (· + 1)

theorem find_length (h : find needle l = some i) : i + needle.length ≤ l.length := by
  induction l generalizing i with
  | nil => cases h
  | cons a l ih =>
    unfold find at h
    split at h
    case isTrue hpre =>
      cases h
      rw [Nat.zero_add]
      exact hpre.length_le
    case isFalse =>
      obtain ⟨j, hj, rfl⟩ := map_eq_some_iff.mp h
      have := ih hj
      rw [length_cons]
      omega

/-- What was found stays the first occurrence when more follows. -/
theorem find_append (h : find needle l = some i) (more : List α) :
    find needle (l ++ more) = some i := by
  induction l generalizing i with
  | nil => cases h
  | cons a l ih =>
    unfold find at h
    rw [cons_append, find]
    split at h
    case isTrue hpre =>
      have hlong : needle <+: a :: (l ++ more) := hpre.trans (prefix_append (a :: l) more)
      rw [if_pos hlong]
      exact h
    case isFalse hpre =>
      obtain ⟨j, hj, rfl⟩ := map_eq_some_iff.mp h
      -- the occurrence further on leaves room for one at the front to be inside `l`
      have hroom := find_length hj
      rw [if_neg, ih hj, map_some]
      intro hlong
      refine hpre (prefix_of_prefix_length_le hlong (prefix_append (a :: l) more) ?_)
      rw [length_cons]
      omega

theorem find_none_of_prefix {p q : List α} (hpq : p <+: q) (h : find p l = none) :
    find q l = none := by
  induction l with
  | nil => rfl
  | cons a l ih =>
    unfold find at h ⊢
    split at h
    case isTrue => cases h
    case isFalse hp =>
      rw [if_neg fun hq => hp (hpq.trans hq), ih (map_eq_none_iff.mp h)]
      rfl

theorem find_none_of_append {more : List α} (h : find needle (l ++ more) = some i)
    (hlen : l.length < i + needle.length) : find needle l = none := by
  cases hl : find needle l with
  | none => rfl
  | some j =>
    have hsame := find_append hl more
    rw [h, some.injEq] at hsame
    have := find_length hl
    omega

end Search

/-! ## Lines -/

section Lines

variable {α : Type} {x y : α} {l : List α} {m : List α}

/-- The delimiter does not occur. -/
def Free (x y : α) (l : List α) : Prop :=
  l.IsChain fun a b => ¬ (a = x ∧ b = y)

instance [DecidableEq α] (l : List α) : Decidable (Free x y l) :=
  inferInstanceAs (Decidable (l.IsChain fun a b => ¬ (a = x ∧ b = y)))

theorem free_nil : Free x y [] := isChain_nil

theorem free_of_not_mem (h : x ∉ l) : Free x y l := by
  induction l with
  | nil => exact free_nil
  | cons a l ih =>
    refine isChain_cons.mpr ⟨fun b _ hab => h ?_, ih fun hx => h (mem_cons_of_mem a hx)⟩
    rw [hab.1]
    exact mem_cons_self

theorem Free.within (h : Free x y l) (hm : m <:+: l) : Free x y m :=
  h.infix hm

/-- Free pieces around something that is neither half of the delimiter. -/
theorem Free.append (hl : Free x y l) (hm : Free x y m) (hseam : ∀ b ∈ m.head?, b ≠ y) :
    Free x y (l ++ m) :=
  isChain_append.mpr ⟨hl, hm, fun _ _ b hb hab => hseam b hb hab.2⟩

/-- A free line is not continued to a delimiter at its front. -/
theorem not_delimiter_prefix (hxy : x ≠ y) (h : Free x y l) (hne : l ≠ []) (rest : List α) :
    ¬ [x, y] <+: l ++ x :: y :: rest := by
  intro hpre
  match l, h, hne with
  | [a], _, _ =>
    rw [singleton_append, cons_prefix_cons, cons_prefix_cons] at hpre
    exact hxy hpre.2.1.symm
  | a :: b :: l, h, _ =>
    rw [cons_append, cons_append, cons_prefix_cons, cons_prefix_cons] at hpre
    exact (isChain_cons_cons.mp h).1 ⟨hpre.1.symm, hpre.2.1.symm⟩

/-- Lines, each with the delimiter behind it. -/
def terminated (x y : α) (lines : List (List α)) : List α :=
  lines.flatMap (· ++ [x, y])

@[simp] theorem terminated_nil : terminated x y [] = [] := rfl

@[simp] theorem terminated_cons (l : List α) (lines : List (List α)) :
    terminated x y (l :: lines) = l ++ x :: y :: terminated x y lines := by
  simp [terminated]

@[simp] theorem terminated_append (ls ms : List (List α)) :
    terminated x y (ls ++ ms) = terminated x y ls ++ terminated x y ms :=
  flatMap_append

variable [DecidableEq α] {lines : List (List α)}

/-- A search for something that starts with the delimiter passes over a free line. -/
theorem find_skip (hxy : x ≠ y) (h : Free x y l) (more rest : List α) :
    find (x :: y :: more) (l ++ x :: y :: rest) =
      (find (x :: y :: more) (x :: y :: rest)).map (· + l.length) := by
  induction l with
  | nil => simp
  | cons a l ih =>
    have hskip := not_delimiter_prefix hxy h (cons_ne_nil a l) rest
    have hno : ¬ x :: y :: more <+: a :: (l ++ x :: y :: rest) :=
      fun hpre => hskip ((prefix_append [x, y] more).trans hpre)
    rw [cons_append, find, if_neg hno, ih (IsChain.of_cons h), Option.map_map]
    congr 1

/-- The first delimiter behind a free line is the one that ends it. -/
theorem find_line (hxy : x ≠ y) (h : Free x y l) (rest : List α) :
    find [x, y] (l ++ x :: y :: rest) = some l.length := by
  rw [find_skip hxy h, find, if_pos (by simp), map_some, Nat.zero_add]

/-- The search for a blank line passes over a line that another one follows. -/
theorem find_blank_line (hxy : x ≠ y) {rest : List α} (h : Free x y l) (hrest : ¬ [x, y] <+: rest) :
    find [x, y, x, y] (l ++ x :: y :: rest) =
      (find [x, y, x, y] rest).map (· + (l.length + 2)) := by
  have hfirst : ¬ [x, y, x, y] <+: x :: y :: rest := by
    rw [cons_prefix_cons, cons_prefix_cons]
    exact fun hpre => hrest hpre.2.2
  have hsecond : ¬ [x, y, x, y] <+: y :: rest := by
    rw [cons_prefix_cons]
    exact fun hpre => hxy hpre.1
  rw [find_skip hxy h, find, if_neg hfirst, find, if_neg hsecond, Option.map_map, Option.map_map]
  congr 1
  funext n
  simp only [Function.comp_apply]
  omega

/-- The first blank line is the one behind the last of the lines. -/
theorem find_blank (hxy : x ≠ y) {first : List α} (hfirst : Free x y first)
    (hlines : ∀ l ∈ lines, Free x y l ∧ l ≠ []) (rest : List α) :
    (find [x, y, x, y] (terminated x y (first :: lines) ++ x :: y :: rest)).map (· + 4) =
      some ((terminated x y (first :: lines)).length + 2) := by
  induction lines generalizing first with
  | nil =>
    have hblank : find [x, y, x, y] (first ++ x :: y :: x :: y :: rest) = some first.length := by
      rw [find_skip hxy hfirst, find, if_pos (by simp), map_some, Nat.zero_add]
    simp [terminated_cons, terminated_nil, hblank]
  | cons next lines ih =>
    have hnext := hlines next mem_cons_self
    have hskip : ¬ [x, y] <+: terminated x y (next :: lines) ++ x :: y :: rest := by
      rw [terminated_cons, append_assoc]
      exact not_delimiter_prefix hxy hnext.1 hnext.2 _
    have hrec := ih hnext.1 fun l hl => hlines l (mem_cons_of_mem next hl)
    obtain ⟨i, hi, hlen⟩ := map_eq_some_iff.mp hrec
    rw [terminated_cons, append_assoc, cons_append, cons_append,
      find_blank_line hxy hfirst hskip, hi, map_some, map_some, some.injEq,
      length_append, length_cons, length_cons]
    omega

/-- The pieces between the delimiters. -/
def split (x y : α) : List α → List (List α)
  | [] => [[]]
  | [a] => [[a]]
  | a :: b :: l =>
    if a = x ∧ b = y then [] :: split x y l
    else (split x y (b :: l)).modifyHead (a :: ·)

theorem split_line (hxy : x ≠ y) (h : Free x y l) (rest : List α) :
    split x y (l ++ x :: y :: rest) = l :: split x y rest := by
  induction l with
  | nil => rw [nil_append, split, if_pos ⟨rfl, rfl⟩]
  | cons a l ih =>
    have hrec := ih (IsChain.of_cons h)
    match l, h with
    | [], _ =>
      rw [cons_append, nil_append] at *
      rw [split, if_neg fun hxx => hxy hxx.2, hrec]
      rfl
    | b :: l, h =>
      rw [cons_append, cons_append] at *
      rw [split, if_neg (isChain_cons_cons.mp h).1, hrec]
      rfl

theorem split_terminated (hxy : x ≠ y) (h : ∀ l ∈ lines, Free x y l) (rest : List α) :
    split x y (terminated x y lines ++ rest) = lines ++ split x y rest := by
  induction lines with
  | nil => rfl
  | cons l lines ih =>
    rw [terminated_cons, append_assoc, cons_append, cons_append,
      split_line hxy (h l mem_cons_self), ih fun m hm => h m (mem_cons_of_mem l hm)]
    rfl

/-- There is a first piece, and the sequence starts with it. -/
theorem split_head (x y : α) (l : List α) : ∃ p ps, split x y l = p :: ps ∧ p <+: l := by
  fun_induction split x y l with
  | case1 => exact ⟨[], [], rfl, nil_prefix⟩
  | case2 a => exact ⟨[a], [], rfl, prefix_rfl⟩
  | case3 a b l _ _ => exact ⟨[], split x y l, rfl, nil_prefix⟩
  | case4 a b l _ ih =>
    obtain ⟨p, ps, heq, hp⟩ := ih
    refine ⟨a :: p, ps, ?_, cons_prefix_cons.mpr ⟨rfl, hp⟩⟩
    rw [heq]
    rfl

theorem free_of_mem_split : ∀ p ∈ split x y l, Free x y p := by
  fun_induction split x y l with
  | case1 =>
    intro p h
    rw [mem_singleton.mp h]
    exact free_nil
  | case2 a =>
    intro p h
    rw [mem_singleton.mp h]
    exact isChain_singleton a
  | case3 a b l _ ih =>
    intro p h
    cases mem_cons.mp h with
    | inl hp =>
      rw [hp]
      exact free_nil
    | inr hp => exact ih p hp
  | case4 a b l hab ih =>
    intro p h
    obtain ⟨q, qs, heq, hq⟩ := split_head x y (b :: l)
    rw [heq] at h ih
    cases mem_cons.mp h with
    | inr hp => exact ih p (mem_cons_of_mem q hp)
    | inl hp =>
      rw [hp]
      refine isChain_cons.mpr ⟨fun c hc hac => hab ⟨hac.1, ?_⟩, ih q mem_cons_self⟩
      -- the piece goes on with the element behind `a`
      obtain ⟨t, ht⟩ := hq
      have hhead : (q ++ t).head? = some c := by
        rw [head?_append, mem_def.mp hc, some_or]
      rw [ht, head?_cons, some.injEq] at hhead
      rw [hhead]
      exact hac.2

end Lines

/-! ## Lines of encoded text -/

section Encoded

open Utf8

variable {c : Char} {t : Text} {b : UInt8}

theorem encodeChar_ascii (h : c.toNat < 0x80) : encodeChar c = [UInt8.ofNat c.toNat] := by
  rw [encodeChar, if_pos h]

theorem le_of_mem_encodeChar (h : 0x80 ≤ c.toNat) (hb : b ∈ encodeChar c) : 0x80 ≤ b.toNat := by
  have hscalar := scalar c
  unfold encodeChar at hb
  rw [if_neg (Nat.not_lt.mpr h)] at hb
  split at hb
  all_goals try split at hb
  all_goals
    simp only [mem_cons, not_mem_nil, or_false] at hb
    rcases hb with rfl | rfl | rfl | rfl
  all_goals
    rw [UInt8.toNat_ofNat']
    omega

theorem encodeChar_ne_nil (c : Char) : encodeChar c ≠ [] := by
  unfold encodeChar
  dsimp only
  repeat' split
  all_goals exact cons_ne_nil _ _

/-- An ASCII byte at the front of an encoded text is its first character. -/
theorem head_encode (h : b ∈ (encode (c :: t)).head?) (hb : b.toNat < 0x80) :
    c.toNat = b.toNat := by
  rw [encode_cons, head?_append_of_ne_nil _ (encodeChar_ne_nil c)] at h
  by_cases hc : c.toNat < 0x80
  · rw [encodeChar_ascii hc] at h
    cases h
    rw [UInt8.toNat_ofNat']
    omega
  · have := le_of_mem_encodeChar (Nat.not_lt.mp hc) (mem_of_head? h)
    omega

/-- An ASCII text starts the encoding of a text when it starts the text. -/
theorem isPrefixOf_encode {p : Text} (hp : ∀ c ∈ p, c.toNat < 0x80) :
    (encode p).isPrefixOf (encode t) = p.isPrefixOf t := by
  induction p generalizing t with
  | nil => rfl
  | cons c p ih =>
    have hc := hp c mem_cons_self
    rw [encode_cons, encodeChar_ascii hc, singleton_append]
    cases t with
    | nil => rfl
    | cons d t =>
      have hrec := ih (fun x hx => hp x (mem_cons_of_mem c hx)) (t := t)
      have hcbyte : (UInt8.ofNat c.toNat).toNat = c.toNat :=
        UInt8.toNat_ofNat_of_lt' (Nat.lt_trans hc (by decide))
      by_cases hd : d.toNat < 0x80
      · rw [encode_cons, encodeChar_ascii hd, singleton_append, isPrefixOf_cons_cons]
        congr 1
        rw [Bool.eq_iff_iff, beq_iff_eq, beq_iff_eq]
        refine ⟨fun h => ?_, fun h => by rw [h]⟩
        rw [← Char.toNat_inj, ← hcbyte, h, UInt8.toNat_ofNat_of_lt' (Nat.lt_trans hd (by decide))]
      · have hne : c ≠ d := fun h => hd (h ▸ hc)
        obtain ⟨b, bs, hbs⟩ := exists_cons_of_ne_nil (encodeChar_ne_nil d)
        have hb := le_of_mem_encodeChar (Nat.not_lt.mp hd) (hbs ▸ mem_cons_self : b ∈ _)
        have hbyte : UInt8.ofNat c.toNat ≠ b := fun h => by rw [← h] at hb; omega
        rw [encode_cons, hbs, cons_append, isPrefixOf_cons_cons, isPrefixOf_cons_cons,
          beq_false_of_ne hbyte, beq_false_of_ne hne, Bool.false_and, Bool.false_and]

theorem free_encode {x y : Char} (hx : x.toNat < 0x80) (hy : y.toNat < 0x80) (h : Free x y t) :
    Free (UInt8.ofNat x.toNat) (UInt8.ofNat y.toNat) (encode t) := by
  have hbyte : ∀ {n : Nat}, n < 0x80 → (UInt8.ofNat n).toNat = n := fun hn =>
    UInt8.toNat_ofNat_of_lt' (Nat.lt_trans hn (by decide))
  induction t with
  | nil => exact free_nil
  | cons c t ih =>
    have hrest := ih (IsChain.of_cons h)
    rw [encode_cons]
    by_cases hc : c.toNat < 0x80
    · rw [encodeChar_ascii hc]
      refine isChain_cons.mpr ⟨fun b hb hab => ?_, hrest⟩
      cases t with
      | nil => cases hb
      | cons d t =>
        have hcx : c = x := Char.toNat_inj.mp (by rw [← hbyte hc, hab.1, hbyte hx])
        have hdy : d.toNat = b.toNat := head_encode hb (by rw [hab.2, hbyte hy]; exact hy)
        rw [hab.2, hbyte hy] at hdy
        exact (isChain_cons_cons.mp h).1 ⟨hcx, Char.toNat_inj.mp hdy⟩
    · -- no byte of a longer character is half of the delimiter
      refine isChain_append.mpr ⟨?_, hrest, fun b hb _ _ hab => ?_⟩
      · refine free_of_not_mem fun hmem => ?_
        have := le_of_mem_encodeChar (Nat.not_lt.mp hc) hmem
        rw [hbyte hx] at this
        omega
      · have := le_of_mem_encodeChar (Nat.not_lt.mp hc) (mem_of_getLast? hb)
        rw [hab.1, hbyte hx] at this
        omega

end Encoded

end Delimited

/-! ## Lines of a stream

A line is everything up to and including the next element that ends one. A reader that holds
a part of the stream takes whole lines off it, so what it takes is a line of the stream as a
whole, however the stream is delivered. -/

namespace Lines

variable {α : Type} (stop : α → Bool)

/-- The first line, with its end, and what follows it. -/
def takeLine : List α → Option (List α × List α)
  | [] => none
  | a :: l => if stop a then some ([a], l) else (takeLine l).map fun r => (a :: r.1, r.2)

/-- The lines of a stream; the last one may lack its end. -/
def lines : List α → List (List α)
  | [] => []
  | a :: l =>
    if stop a then [a] :: lines l
    else
      match lines l with
      | [] => [[a]]
      | first :: rest => (a :: first) :: rest

/-- Every line has its end. -/
def Ended (l : List α) : Prop := ∀ a ∈ l.getLast?, stop a = true

variable {stop} {l : List α} {m : List α} {e : α}

theorem ended_nil : Ended stop ([] : List α) := nofun

theorem Ended.of_cons {a : α} (h : Ended stop (a :: l)) : Ended stop l := by
  intro b hb
  have hne : l ≠ [] := by
    rintro rfl
    cases hb
  apply h
  rw [List.getLast?_cons_of_ne_nil hne]
  exact hb

theorem Ended.append (hl : Ended stop l) (hm : Ended stop m) : Ended stop (l ++ m) := by
  intro a ha
  rw [List.getLast?_append] at ha
  cases hlast : m.getLast? with
  | none =>
    rw [hlast] at ha
    exact hl a ha
  | some b =>
    rw [hlast] at ha
    cases ha
    exact hm a hlast

/-- What is left of a stream after its first elements. -/
theorem Ended.right (h : Ended stop (l ++ m)) : Ended stop m := by
  induction l with
  | nil => exact h
  | cons a l ih => exact ih h.of_cons

theorem Ended.drop (h : Ended stop l) (n : Nat) : Ended stop (l.drop n) := by
  rw [← List.take_append_drop n l] at h
  exact h.right

theorem takeLine_eq_none_iff : takeLine stop l = none ↔ l.any stop = false := by
  induction l with
  | nil => exact iff_of_true rfl rfl
  | cons a l ih =>
    rw [takeLine, List.any_cons]
    cases stop a with
    | true => simp
    | false => simpa using ih

theorem takeLine_spec {x r : List α} (h : takeLine stop l = some (x, r)) :
    l = x ++ r ∧ ∀ m, lines stop (x ++ m) = x :: lines stop m := by
  induction l generalizing x with
  | nil => cases h
  | cons a l ih =>
    simp only [takeLine] at h
    split at h
    case isTrue hstop =>
      cases h
      exact ⟨rfl, fun m => if_pos hstop⟩
    case isFalse hstop =>
      obtain ⟨⟨y, s⟩, hy, heq⟩ := Option.map_eq_some_iff.1 h
      cases heq
      obtain ⟨rfl, hlines⟩ := ih hy
      simp [lines, if_neg hstop, hlines]

theorem lines_append (h : Ended stop l) : lines stop (l ++ m) = lines stop l ++ lines stop m := by
  induction l with
  | nil => rfl
  | cons a l ih =>
    have ih := ih h.of_cons
    simp only [List.cons_append, lines, ih]
    split
    · rfl
    rename_i hstop
    cases hl : lines stop l with
    | nil =>
      -- the element is the last of an ended stream, so it ends a line
      have hnil : l = [] := by
        cases l with
        | nil => rfl
        | cons b l =>
          simp only [lines] at hl
          split at hl
          · cases hl
          split at hl <;> cases hl
      subst hnil
      exact absurd (h a rfl) hstop
    | cons first rest => rfl

theorem lines_line {body : List α} (hbody : ∀ a ∈ body, stop a = false) (he : stop e = true) :
    lines stop (body ++ [e]) = [body ++ [e]] := by
  induction body with
  | nil => simp [lines, he]
  | cons a body ih =>
    have ha := hbody a List.mem_cons_self
    have ih := ih fun b hb => hbody b (List.mem_cons_of_mem a hb)
    simp [lines, ha, ih]

theorem ended_line (body : List α) (he : stop e = true) : Ended stop (body ++ [e]) := by
  intro a ha
  rw [List.getLast?_concat] at ha
  cases ha
  exact he

end Lines
