-- SUMMARY: IP addresses as text, and that parsing inverts display.
import GsmSipBridge.Lib.Text

/-!
# IP addresses as text

Display and parsing as the standard library has them. A version 6 address is
displayed in hexadecimal groups with its longest run of zeros left out; the
parser tries an embedded version 4 address at every group.
-/

inductive IpAddr where
  | v4 (a b c d : UInt8)
  | v6 (segments : { l : List UInt16 // l.length = 8 })
  deriving DecidableEq

structure SocketAddr where
  ip : IpAddr
  port : UInt16
  deriving DecidableEq

namespace IpAddr

open Numeral List Option Nat

def isV6 : IpAddr → Bool
  | v4 .. => false
  | v6 _ => true

def isUnspecified : IpAddr → Bool
  | v4 a b c d => a = 0 && b = 0 && c = 0 && d = 0
  | v6 segments => segments.1.all (· == 0)

/-- A version 4 address in version 6 form is the version 4 address. -/
def toCanonical : IpAddr → IpAddr
  | v4 a b c d => v4 a b c d
  | v6 segments =>
    match segments.1 with
    | [0, 0, 0, 0, 0, 0xffff, ab, cd] =>
      v4 (ab >>> 8).toUInt8 ab.toUInt8 (cd >>> 8).toUInt8 cd.toUInt8
    | _ => v6 segments

/-! ## Display -/

def displayV4 (a b c d : UInt8) : Text :=
  display a.toNat ++ '.' :: (display b.toNat ++ '.' :: (display c.toNat ++ '.' :: display d.toNat))

def hex (g : UInt16) : Text :=
  Nat.toDigits 16 g.toNat

/-- Groups separated by colons. -/
def displayGroups : List UInt16 → Text
  | [] => []
  | g :: gs => hex g ++ gs.flatMap fun g => ':' :: hex g

structure Span where
  start : Nat
  len : Nat

/-- The longest run of zeros from a position on, given the run that ends there
and the longest so far. -/
def longestZeros : List UInt16 → Nat → Span → Span → Span
  | [], _, _, longest => longest
  | g :: gs, i, current, longest =>
    if g = 0 then
      let current : Span := ⟨if current.len = 0 then i else current.start, current.len + 1⟩
      longestZeros gs (i + 1) current (if longest.len < current.len then current else longest)
    else longestZeros gs (i + 1) ⟨0, 0⟩ longest

def displayV6 (segments : List UInt16) : Text :=
  match segments with
  | [0, 0, 0, 0, 0, 0xffff, hi, lo] =>
    "::ffff:" ++ displayV4 (UInt8.ofNat (hi.toNat / 2 ^ 8)) (UInt8.ofNat hi.toNat)
      (UInt8.ofNat (lo.toNat / 2 ^ 8)) (UInt8.ofNat lo.toNat)
  | _ =>
    let zeros := longestZeros segments 0 ⟨0, 0⟩ ⟨0, 0⟩
    if 1 < zeros.len then
      displayGroups (segments.take zeros.start) ++
        ':' :: ':' :: displayGroups (segments.drop (zeros.start + zeros.len))
    else displayGroups segments

def toText : IpAddr → Text
  | v4 a b c d => displayV4 a b c d
  | v6 segments => displayV6 segments.1

/-! ## Parsing -/

def readGiven (c : Char) : Text → Option Text
  | [] => none
  | x :: rest => if x = c then some rest else none

/-- A number of at most `maxDigits` digits and a value of at most `max`. -/
def readNumber (radix maxDigits : Nat) (allowZeroPrefix : Bool) (max : Nat) (p : Text) :
    Option (Nat × Text) :=
  let digits := p.takeWhile (isDigit radix)
  if digits.isEmpty || maxDigits < digits.length then none
  else if !allowZeroPrefix && digits.head? == some '0' && 1 < digits.length then none
  else ((value radix digits).filter (· ≤ max)).map fun n => (n, p.dropWhile (isDigit radix))

/-- The separator, unless at the first index, and what follows it. -/
def readSeparated {α : Type} (sep : Char) (index : Nat) (inner : Text → Option (α × Text))
    (p : Text) : Option (α × Text) :=
  if 0 < index then (readGiven sep p).bind inner else inner p

def readOctet (index : Nat) (p : Text) : Option (UInt8 × Text) :=
  readSeparated '.' index (fun p => (readNumber 10 3 false 255 p).map fun r => (UInt8.ofNat r.1, r.2)) p

def readV4 (p : Text) : Option ((UInt8 × UInt8 × UInt8 × UInt8) × Text) := do
  let (a, p) ← readOctet 0 p
  let (b, p) ← readOctet 1 p
  let (c, p) ← readOctet 2 p
  let (d, p) ← readOctet 3 p
  some ((a, b, c, d), p)

def readGroup (p : Text) : Option (UInt16 × Text) :=
  (readNumber 16 4 true 65535 p).map fun r => (UInt16.ofNat r.1, r.2)

/-- Up to a number of groups, from an index on: the groups, whether they end in
an embedded version 4 address, and what is left. -/
def readGroups : Nat → Nat → Text → List UInt16 × Bool × Text
  | 0, _, p => ([], false, p)
  | more + 1, i, p =>
    match if 0 < more then readSeparated ':' i readV4 p else none with
    | some ((a, b, c, d), p) => ([Bytes.u16Be a b, Bytes.u16Be c d], true, p)
    | none =>
      match readSeparated ':' i readGroup p with
      | some (g, p) =>
        let r := readGroups more (i + 1) p
        (g :: r.1, r.2)
      | none => ([], false, p)

def readV6 (p : Text) : Option (List UInt16 × Text) :=
  let head := readGroups 8 0 p
  if head.1.length = 8 then some (head.1, head.2.2)
  else if head.2.1 then none
  else do
    let p ← readGiven ':' head.2.2
    let p ← readGiven ':' p
    let tail := readGroups (8 - (head.1.length + 1)) 0 p
    some (head.1 ++ (List.replicate (8 - head.1.length - tail.1.length) 0 ++ tail.1), tail.2.2)

/-- The whole text is an address. -/
def parse (t : Text) : Option IpAddr :=
  match readV4 t with
  | some ((a, b, c, d), p) => if p.isEmpty then some (v4 a b c d) else none
  | none =>
    match readV6 t with
    | some (segments, p) =>
      -- The length is always eight; it is tested for the type.
      if h : segments.length = 8 then if p.isEmpty then some (v6 ⟨segments, h⟩) else none else none
    | none => none

/-! ## Numbers read back -/

/-- The text does not go on with a digit. -/
def NoDigit (radix : Nat) (r : Text) : Prop :=
  ∀ c ∈ r.head?, isDigit radix c = false

variable {r : Text} {segments gs : List UInt16} {g : UInt16} {n a b c d : UInt8} {more : Nat}
  {radix i : Nat} {p : Text} {allowZero : Bool} {maxDigits : Nat}

theorem NoDigit.takeWhile (h : NoDigit radix r) : r.takeWhile (isDigit radix) = [] := by
  cases r with
  | nil => rfl
  | cons c r => rw [takeWhile_cons, h c rfl]; rfl

theorem NoDigit.dropWhile (h : NoDigit radix r) : r.dropWhile (isDigit radix) = r := by
  cases r with
  | nil => rfl
  | cons c r => rw [dropWhile_cons, h c rfl]; rfl

theorem readNumber_append {max n : Nat} (hpos : 1 < radix) (hle : radix ≤ 16)
    (hlen : (Nat.toDigits radix n).length ≤ maxDigits)
    (hzero : (!allowZero && (Nat.toDigits radix n).head? == some '0' &&
      decide (1 < (Nat.toDigits radix n).length)) = false)
    (hmax : n ≤ max) (hr : NoDigit radix r) :
    readNumber radix maxDigits allowZero max (Nat.toDigits radix n ++ r) = some (n, r) := by
  have hdigits : ∀ c ∈ toDigits radix n, isDigit radix c = true :=
    fun c hc => isDigit_of_mem_toDigits hpos hle hc
  have htake : (toDigits radix n ++ r).takeWhile (isDigit radix) = toDigits radix n := by
    rw [takeWhile_append_of_pos hdigits, hr.takeWhile, append_nil]
  have hne : ((toDigits radix n).isEmpty ||
      decide (maxDigits < (toDigits radix n).length)) = false := by
    simpa [toDigits_ne_nil] using hlen
  unfold readNumber
  rw [htake, dropWhile_append_of_pos hdigits, hr.dropWhile]
  simp only [hne, hzero, Bool.false_eq_true, if_false, value_toDigits hpos hle, filter_some,
    decide_eq_true hmax, if_true, map_some]

theorem readGroup_hex (hr : NoDigit 16 r) : readGroup (hex g ++ r) = some (g, r) := by
  have hlen : (toDigits 16 g.toNat).length ≤ 4 :=
    (length_toDigits_le_iff (by decide) (by decide)).mpr g.toNat_lt
  rw [readGroup, hex, readNumber_append (by decide) (by decide) hlen rfl
    (le_of_lt_succ g.toNat_lt) hr, map_some, UInt16.ofNat_toNat]

theorem readNumber_octet (hr : NoDigit 10 r) :
    readNumber 10 3 false 255 (display n.toNat ++ r) = some (n.toNat, r) := by
  have hlen : (toDigits 10 n.toNat).length ≤ 3 :=
    (length_toDigits_le_iff (by decide) (by decide)).mpr
      (lt_of_lt_of_le n.toNat_lt (by decide))
  have hzero : ∀ n < 256, (!false && (toDigits 10 n).head? == some '0' &&
      decide (1 < (toDigits 10 n).length)) = false := by decide +kernel
  exact readNumber_append (by decide) (by decide) hlen (hzero _ n.toNat_lt)
    (le_of_lt_succ n.toNat_lt) hr

theorem readOctet_first (hr : NoDigit 10 r) : readOctet 0 (display n.toNat ++ r) = some (n, r) := by
  rw [readOctet, readSeparated, if_neg (lt_irrefl 0), readNumber_octet hr, map_some,
    UInt8.ofNat_toNat]

theorem readOctet_next (hi : 0 < i) (hr : NoDigit 10 r) :
    readOctet i ('.' :: (display n.toNat ++ r)) = some (n, r) := by
  rw [readOctet, readSeparated, if_pos hi, readGiven, if_pos rfl, bind_some,
    readNumber_octet hr, map_some, UInt8.ofNat_toNat]

theorem readV4_display (a b c d : UInt8) (hr : NoDigit 10 r) :
    readV4 (displayV4 a b c d ++ r) = some ((a, b, c, d), r) := by
  have hdot : ∀ t : Text, NoDigit 10 ('.' :: t) := fun t c hc => by
    cases hc
    decide
  unfold readV4 displayV4
  simp only [append_assoc, cons_append]
  rw [readOctet_first (hdot _)]
  simp only [bind, Option.bind, readOctet_next (i := 1) (by decide) (hdot _),
    readOctet_next (i := 2) (by decide) (hdot _), readOctet_next (i := 3) (by decide) hr]

theorem readNumber_rest {max n : Nat}
    (h : readNumber radix maxDigits allowZero max p = some (n, r)) :
    r = p.dropWhile (isDigit radix) := by
  unfold readNumber at h
  dsimp only at h
  split at h
  · cases h
  split at h
  · cases h
  · obtain ⟨m, -, hm⟩ := map_eq_some_iff.mp h
    exact (Prod.mk.inj hm).2.symm

/-- A version 4 address has a dot behind its first digits. -/
theorem readV4_none (h : (p.dropWhile (isDigit 10)).head? ≠ some '.') : readV4 p = none := by
  unfold readV4
  cases hfirst : readOctet 0 p with
  | none => rfl
  | some first =>
    obtain ⟨r, hr, rfl⟩ := map_eq_some_iff.mp
      (show (readNumber 10 3 false 255 p).map _ = some first from hfirst)
    have hrest : r.2 = p.dropWhile (isDigit 10) := readNumber_rest hr
    have hdot : readGiven '.' r.2 = none := by
      rw [hrest]
      cases hp : p.dropWhile (isDigit 10) with
      | nil => rfl
      | cons c rest =>
        rw [readGiven, if_neg fun hc => h (by rw [hp, hc]; rfl)]
    have hsecond : readOctet 1 r.2 = none := by
      rw [readOctet, readSeparated, if_pos Nat.zero_lt_one, hdot, bind_none]
    simp [hsecond]

/-! ## Groups read back -/

/-- The text ends or goes on with a colon. -/
def Ends (r : Text) : Prop :=
  r = [] ∨ ∃ r', r = ':' :: r'

section

variable (h : Ends r)

include h

theorem Ends.noDigit : NoDigit radix r := by
  intro c hc
  rcases h with rfl | ⟨r', rfl⟩
  · cases hc
  · cases hc
    rfl

theorem Ends.head_ne : r.head? ≠ some '.' := by
  rcases h with rfl | ⟨r', rfl⟩
  · nofun
  · exact fun hhead => absurd (some.inj hhead) (by decide)

theorem Ends.readV4 : readV4 r = none := by
  refine readV4_none ?_
  rw [h.noDigit.dropWhile]
  exact h.head_ne

theorem Ends.readGroup : readGroup r = none := by
  unfold IpAddr.readGroup readNumber
  rw [h.noDigit.takeWhile]
  rfl

/-- A hexadecimal group is no start of a version 4 address. -/
theorem Ends.readV4_hex : IpAddr.readV4 (hex g ++ r) = none := by
  refine readV4_none ?_
  rw [dropWhile_append]
  split
  next =>
    rw [h.noDigit.dropWhile]
    exact h.head_ne
  next hne =>
    intro hhead
    have hmem : '.' ∈ (hex g).dropWhile (isDigit 10) := by
      cases hd : (hex g).dropWhile (isDigit 10) with
      | nil => exact absurd (by rw [hd]; rfl) hne
      | cons c cs =>
        rw [hd] at hhead
        exact some.inj hhead ▸ mem_cons_self
    have hdigit := isDigit_of_mem_toDigits (by decide) (by decide)
      ((dropWhile_sublist _).mem hmem)
    exact absurd hdigit (by decide)

end

/-- No group follows. -/
def Stop (r : Text) : Prop :=
  r = [] ∨ ∃ r', r = ':' :: ':' :: r'

theorem Stop.ends (h : Stop r) : Ends r :=
  h.imp id fun ⟨_, hr⟩ => ⟨_, hr⟩

theorem Stop.readSeparated {α : Type} {inner : Text → Option (α × Text)} (h : Stop r)
    (hinner : ∀ r, Ends r → inner r = none) (i : Nat) : readSeparated ':' i inner r = none := by
  unfold IpAddr.readSeparated
  split
  · rcases h with rfl | ⟨r', rfl⟩
    · rfl
    · exact hinner _ (.inr ⟨r', rfl⟩)
  · exact hinner r h.ends

theorem readGroups_stop (h : Stop r) (more i : Nat) : readGroups more i r = ([], false, r) := by
  cases more with
  | zero => rfl
  | succ more =>
    unfold readGroups
    rw [h.readSeparated (fun _ h => h.readV4), h.readSeparated (fun _ h => h.readGroup), ite_self]

/-- One group is read, whatever the separator before it was. -/
theorem readGroups_group (hr : Ends r)
    (hp : ∀ {α : Type} (inner : Text → Option (α × Text)), readSeparated ':' i inner p = inner
      (hex g ++ r)) :
    readGroups (more + 1) i p =
      (g :: (readGroups more (i + 1) r).1, (readGroups more (i + 1) r).2) := by
  conv => lhs; unfold readGroups
  rw [hp readV4, hr.readV4_hex, hp readGroup, readGroup_hex hr.noDigit, ite_self]

theorem ends_flatMap (hr : Ends r) : Ends ((gs.flatMap fun g => ':' :: hex g) ++ r) := by
  cases gs with
  | nil => exact hr
  | cons g gs => exact .inr ⟨_, rfl⟩

theorem readGroups_next (hr : Stop r) (hi : 0 < i) :
    readGroups (gs.length + more) i ((gs.flatMap fun g => ':' :: hex g) ++ r) = (gs, false, r) := by
  induction gs generalizing i with
  | nil => exact readGroups_stop hr _ i
  | cons g gs ih =>
    have hp : ∀ {α : Type} (inner : Text → Option (α × Text)),
        readSeparated ':' i inner (((g :: gs).flatMap fun g => ':' :: hex g) ++ r) =
          inner (hex g ++ ((gs.flatMap fun g => ':' :: hex g) ++ r)) := by
      intro α inner
      rw [readSeparated, if_pos hi, flatMap_cons, cons_append, cons_append, readGiven,
        if_pos rfl, bind_some, append_assoc]
    rw [length_cons, Nat.add_right_comm, readGroups_group (ends_flatMap hr.ends) hp,
      ih (succ_pos i)]

theorem readGroups_display (hr : Stop r) (more : Nat) (gs : List UInt16) :
    readGroups (gs.length + more) 0 (displayGroups gs ++ r) = (gs, false, r) := by
  cases gs with
  | nil => exact readGroups_stop hr _ 0
  | cons g gs =>
    have hp : ∀ {α : Type} (inner : Text → Option (α × Text)),
        readSeparated ':' 0 inner (displayGroups (g :: gs) ++ r) =
          inner (hex g ++ ((gs.flatMap fun g => ':' :: hex g) ++ r)) := by
      intro α inner
      rw [readSeparated, if_neg (lt_irrefl 0), displayGroups, append_assoc]
    rw [length_cons, Nat.add_right_comm, readGroups_group (ends_flatMap hr.ends) hp,
      readGroups_next hr Nat.zero_lt_one]

/-! ## The run of zeros -/

/-- A span of zeros of a list. -/
def Zeros (segments : List UInt16) (s : Span) : Prop :=
  ∃ a b, segments = a ++ (List.replicate s.len 0 ++ b) ∧ a.length = s.start

/-- The invariant is that the longest run so far is one of zeros, and that the
current one ends where the walk stands. -/
theorem zeros_longestZeros (rest : List UInt16) {done : List UInt16}
    (hsplit : segments = done ++ rest) {current longest : Span}
    (hcur : ∃ a, done = a ++ List.replicate current.len 0 ∧ (current.len ≠ 0 → a.length = current.start))
    (hlongest : Zeros segments longest) :
    Zeros segments (longestZeros rest done.length current longest) := by
  induction rest generalizing done current longest with
  | nil => exact hlongest
  | cons g rest ih =>
    have hsplit' : segments = (done ++ [g]) ++ rest := by rw [hsplit]; simp
    have hlen : done.length + 1 = (done ++ [g]).length := by simp
    unfold longestZeros
    split
    next hg =>
      obtain ⟨a, hdone, hstart⟩ := hcur
      have hnext : done ++ [g] = a ++ replicate (current.len + 1) 0 := by
        rw [hdone, hg, append_assoc, replicate_succ']
      have hbegin : a.length = if current.len = 0 then done.length else current.start := by
        split
        next hzero => rw [hdone, hzero]; simp
        next hpos => exact hstart hpos
      have hzeros : Zeros segments
          ⟨if current.len = 0 then done.length else current.start, current.len + 1⟩ :=
        ⟨a, rest, by rw [hsplit', hnext, append_assoc], hbegin⟩
      rw [hlen]
      refine ih hsplit' ⟨a, hnext, fun _ => hbegin⟩ ?_
      by_cases hlonger : longest.len < current.len + 1
      · rw [if_pos hlonger]
        exact hzeros
      · rw [if_neg hlonger]
        exact hlongest
    next =>
      rw [hlen]
      exact ih hsplit' ⟨done ++ [g], (append_nil _).symm, fun h => absurd rfl h⟩ hlongest

theorem zeros_longest (segments : List UInt16) :
    Zeros segments (longestZeros segments 0 ⟨0, 0⟩ ⟨0, 0⟩) :=
  zeros_longestZeros segments (nil_append segments).symm
    ⟨[], rfl, fun h => absurd rfl h⟩ ⟨[], segments, rfl, rfl⟩

/-! ## Addresses read back -/

theorem readV4_displayGroups (hr : Ends r) (gs : List UInt16) :
    readV4 (displayGroups gs ++ r) = none := by
  cases gs with
  | nil => exact hr.readV4
  | cons g gs =>
    rw [displayGroups, append_assoc]
    exact (ends_flatMap hr).readV4_hex

theorem readV6_full (h : segments.length = 8) :
    readV6 (displayGroups segments) = some (segments, []) := by
  have hread := readGroups_display (.inl rfl) 0 segments
  rw [append_nil, h] at hread
  unfold readV6
  rw [hread]
  simp [h]

theorem readV6_compressed {a b : List UInt16} {n : Nat} (hn : 1 < n)
    (h : a.length + n + b.length = 8) :
    readV6 (displayGroups a ++ ':' :: ':' :: displayGroups b) =
      some (a ++ (List.replicate n 0 ++ b), []) := by
  have hhead := readGroups_display (.inr ⟨displayGroups b, rfl⟩) (8 - a.length) a
  have htail := readGroups_display (.inl rfl) (8 - (a.length + 1) - b.length) b
  rw [Nat.add_sub_cancel' (show a.length ≤ 8 by omega)] at hhead
  rw [Nat.add_sub_cancel' (show b.length ≤ 8 - (a.length + 1) by omega), append_nil] at htail
  unfold readV6
  rw [hhead]
  simp only [if_neg (show ¬a.length = 8 by omega), Bool.false_eq_true, if_false, readGiven, if_true,
    bind, Option.bind, htail]
  rw [show 8 - a.length - b.length = n by omega]

theorem parse_v6 {t : Text} (h : segments.length = 8) (hv4 : readV4 t = none)
    (hv6 : readV6 t = some (segments, [])) : parse t = some (v6 ⟨segments, h⟩) := by
  unfold parse
  rw [hv4, hv6]
  simp [dif_pos h]

/-- An embedded version 4 address is read as two groups. -/
theorem readGroups_v4 (hi : 0 < i) :
    readGroups (more + 2) i (':' :: displayV4 a b c d) =
      ([Bytes.u16Be a b, Bytes.u16Be c d], true, []) := by
  have hread := readV4_display a b c d (r := []) fun c hc => by cases hc
  rw [append_nil] at hread
  unfold readGroups
  rw [if_pos (succ_pos more), readSeparated, if_pos hi, readGiven, if_pos rfl, bind_some, hread]

theorem readV6_mapped :
    readV6 ("::ffff:" ++ displayV4 a b c d) =
      some ([0, 0, 0, 0, 0, 0xffff, Bytes.u16Be a b, Bytes.u16Be c d], []) := by
  have htail : readGroups 7 0 ("ffff:" ++ displayV4 a b c d) =
      ([0xffff, Bytes.u16Be a b, Bytes.u16Be c d], true, []) := by
    rw [readGroups_group (g := 0xffff) (r := ':' :: displayV4 a b c d) (.inr ⟨_, rfl⟩)
      (fun inner => rfl), readGroups_v4 Nat.zero_lt_one]
  exact congrArg (fun tail : List UInt16 × Bool × Text => some ([] ++
    (replicate (8 - [].length - tail.1.length) 0 ++ tail.1), tail.2.2)) htail

theorem parse_displayV6 (h : segments.length = 8) :
    parse (displayV6 segments) = some (v6 ⟨segments, h⟩) := by
  unfold displayV6
  split
  next hi lo =>
    refine parse_v6 h (Ends.readV4 (.inr ⟨_, rfl⟩)) ?_
    rw [readV6_mapped, Bytes.u16Be_ofU16, Bytes.u16Be_ofU16]
  next =>
    dsimp only
    split
    next hlong =>
      obtain ⟨a, b, hsplit, hstart⟩ := zeros_longest segments
      generalize longestZeros segments 0 ⟨0, 0⟩ ⟨0, 0⟩ = zeros at hlong hsplit hstart
      have htake : segments.take zeros.start = a := by
        rw [hsplit, ← hstart, take_left]
      have hdrop : segments.drop (zeros.start + zeros.len) = b := by
        rw [hsplit, ← hstart, ← drop_drop, drop_left, drop_left' length_replicate]
      have hlen : a.length + zeros.len + b.length = 8 := by
        rw [hsplit] at h
        simp only [length_append, length_replicate] at h
        omega
      rw [htake, hdrop]
      refine parse_v6 h (readV4_displayGroups (.inr ⟨_, rfl⟩) a) ?_
      rw [readV6_compressed hlong hlen, ← hsplit]
    next =>
      have hnone := readV4_displayGroups (.inl rfl) segments
      rw [append_nil] at hnone
      exact parse_v6 h hnone (readV6_full h)

theorem parse_toText (ip : IpAddr) : parse ip.toText = some ip := by
  cases ip with
  | v4 a b c d =>
    have hread := readV4_display a b c d (r := []) fun c hc => by cases hc
    rw [append_nil] at hread
    unfold parse toText
    rw [hread]
    rfl
  | v6 segments => exact parse_displayV6 segments.2

example : parse "2001:db8::1" =
    some (v6 ⟨[0x2001, 0xdb8, 0, 0, 0, 0, 0, 1], rfl⟩) := by decide +kernel

/-! ## Characters -/

theorem isWhitespace_displayV4 : ∀ x ∈ displayV4 a b c d, Text.isWhitespace x = false := by
  have hdigits : ∀ n, ∀ x ∈ display n, Text.isWhitespace x = false := fun n => (token_display n).2
  have hdot : Text.isWhitespace '.' = false := rfl
  simp only [displayV4, forall_mem_append, forall_mem_cons]
  exact ⟨hdigits _, hdot, hdigits _, hdot, hdigits _, hdot, hdigits _⟩

theorem isWhitespace_displayGroups : ∀ x ∈ displayGroups gs, Text.isWhitespace x = false := by
  have hhex : ∀ g, ∀ x ∈ hex g, Text.isWhitespace x = false := fun _ _ hx =>
    isWhitespace_of_isDigit (isDigit_of_mem_toDigits (by decide) (by decide) hx)
  cases gs with
  | nil => nofun
  | cons g gs =>
    refine forall_mem_append.mpr ⟨hhex g, fun x hx => ?_⟩
    obtain ⟨g', -, hmem⟩ := mem_flatMap.mp hx
    rcases mem_cons.mp hmem with rfl | hmem
    · rfl
    · exact hhex g' x hmem

theorem isWhitespace_displayV6 : ∀ x ∈ displayV6 segments, Text.isWhitespace x = false := by
  have hcolon : Text.isWhitespace ':' = false := rfl
  unfold displayV6
  split
  · exact forall_mem_append.mpr
      ⟨(by decide : Text.Token "::ffff:").2, isWhitespace_displayV4⟩
  dsimp only
  split
  · simp only [forall_mem_append, forall_mem_cons]
    exact ⟨isWhitespace_displayGroups, hcolon, hcolon, isWhitespace_displayGroups⟩
  · exact isWhitespace_displayGroups

/-- An address is one field of a line. -/
theorem token_toText (ip : IpAddr) : Text.Token ip.toText := by
  refine ⟨fun hnil => ?_, fun x hx => ?_⟩
  · have hparse := parse_toText ip
    rw [hnil] at hparse
    exact absurd hparse.symm (some_ne_none ip)
  · cases ip with
    | v4 a b c d => exact isWhitespace_displayV4 x hx
    | v6 segments => exact isWhitespace_displayV6 x hx

end IpAddr
