-- SUMMARY: Association lists, maps keyed by bytes, bounded memories, tables and keyed lists.
import Mathlib.Data.List.AList
import Mathlib.Data.List.Infix
import Mathlib.Data.List.Range

/-!
# Association lists

The entries of a list without a key, and the entry of that key, are its entries in
some order. What a condition keeps is found under its key as before. Two lists with the
same keys in the same order and related values stay so under the same operations.
-/

namespace AList

open List

variable {α : Type} {β : α → Type} [DecidableEq α]

theorem entries_perm_erase {s : AList β} {a : α} {b : β a} (h : s.lookup a = some b) :
    s.entries.Perm (⟨a, b⟩ :: (s.erase a).entries) := by
  have ha : a ∈ s.entries.keys := mem_keys_of_mem (mem_lookup_iff.mp h)
  obtain ⟨b', l, r, hl, hentries, herase⟩ := exists_of_kerase ha
  have hb : b' = b := by
    have hmem : (⟨a, b'⟩ : Sigma β) ∈ s.entries := by
      rw [hentries]
      exact mem_append_right _ mem_cons_self
    exact Option.some.inj ((mem_lookup_iff.mpr hmem).symm.trans h)
  change s.entries.Perm (⟨a, b⟩ :: kerase a s.entries)
  rw [herase, hentries, hb]
  exact perm_middle

theorem length_erase_le (s : AList β) (a : α) : (s.erase a).entries.length ≤ s.entries.length :=
  (kerase_sublist a s.entries).length_le

theorem lookup_of_erase {s : AList β} {a k : α} {b : β k} (h : (s.erase a).lookup k = some b) :
    s.lookup k = some b := by
  by_cases hk : k = a
  · subst hk
    rw [lookup_erase] at h
    cases h
  · rwa [lookup_erase_ne hk] at h

section Retain

variable {γ : Type}

/-- The entries that meet a condition. -/
def retain (s : AList fun _ : α => γ) (p : α → γ → Bool) : AList fun _ : α => γ where
  entries := s.entries.filter fun e => p e.1 e.2
  nodupKeys := s.nodupKeys.sublist List.filter_sublist

theorem lookup_retain (s : AList fun _ : α => γ) (p : α → γ → Bool) (a : α) :
    (s.retain p).lookup a = (s.lookup a).filter (p a) := by
  apply Option.ext
  intro b
  rw [Option.filter_eq_some_iff, ← Option.mem_def, ← Option.mem_def, mem_lookup_iff, mem_lookup_iff]
  exact mem_filter

end Retain

section Modify

variable {γ : Type}

/-- The value of a key changed where it stands. -/
def modify (s : AList fun _ : α => γ) (a : α) (f : γ → γ) : AList fun _ : α => γ where
  entries := s.entries.map fun e => if e.1 = a then ⟨e.1, f e.2⟩ else e
  nodupKeys := by
    have hkeys : (s.entries.map fun e => if e.1 = a then ⟨e.1, f e.2⟩ else e).keys =
        s.entries.keys := by
      simp only [List.keys, List.map_map]
      apply List.map_congr_left
      intro e _
      simp only [Function.comp_apply]
      split <;> rfl
    rw [List.NodupKeys, hkeys]
    exact s.nodupKeys

theorem lookup_modify (s : AList fun _ : α => γ) (a : α) (f : γ → γ) (b : α) :
    (s.modify a f).lookup b = if b = a then (s.lookup b).map f else s.lookup b := by
  apply Option.ext
  intro c
  rw [← Option.mem_def, mem_lookup_iff]
  simp only [modify, mem_map]
  by_cases hba : b = a
  · rw [if_pos hba, Option.map_eq_some_iff]
    constructor
    · rintro ⟨e, he, heq⟩
      by_cases hea : e.1 = a
      · rw [if_pos hea] at heq
        cases heq
        exact ⟨e.2, mem_lookup_iff.2 he, rfl⟩
      · rw [if_neg hea] at heq
        cases heq
        exact absurd hba hea
    · rintro ⟨d, hd, rfl⟩
      exact ⟨⟨b, d⟩, mem_lookup_iff.1 hd, by simp [hba]⟩
  · rw [if_neg hba, ← Option.mem_def, mem_lookup_iff]
    constructor
    · rintro ⟨e, he, heq⟩
      by_cases hea : e.1 = a
      · rw [if_pos hea] at heq
        cases heq
        exact absurd hea hba
      · rw [if_neg hea] at heq
        exact heq ▸ he
    · intro hc
      exact ⟨⟨b, c⟩, hc, by simp [hba]⟩

end Modify

section Related

variable {γ δ : Type} {R : γ → δ → Prop} {s : AList fun _ : α => γ} {t : AList fun _ : α => δ}
  {f : γ → γ}

/-- The same keys in the same order, with related values. -/
def Related (R : γ → δ → Prop) (s : AList fun _ : α => γ) (t : AList fun _ : α => δ) : Prop :=
  List.Forall₂ (fun e f => e.1 = f.1 ∧ R e.2 f.2) s.entries t.entries

omit [DecidableEq α] in
theorem Related.rfl {R : γ → γ → Prop} (hR : ∀ c, R c c) : Related R s s :=
  forall₂_same.2 fun e _ => ⟨Eq.refl e.1, hR e.2⟩

omit [DecidableEq α] in
theorem Related.length_eq (h : Related R s t) : s.entries.length = t.entries.length :=
  Forall₂.length_eq h

theorem Related.lookup (h : Related R s t) (a : α) : Option.Rel R (s.lookup a) (t.lookup a) := by
  unfold AList.lookup
  unfold Related at h
  generalize s.entries = l, t.entries = m at h ⊢
  induction h with
  | nil => exact .none
  | @cons e f l m hef _ ih =>
    obtain ⟨e, c⟩ := e
    obtain ⟨f, d⟩ := f
    obtain ⟨rfl, hcd⟩ := hef
    by_cases hae : a = e
    · subst hae
      rw [dlookup_cons_eq, dlookup_cons_eq]
      exact .some hcd
    · rw [dlookup_cons_ne _ _ hae, dlookup_cons_ne _ _ hae]
      exact ih

omit [DecidableEq α] in
theorem Related.retain {p : α → γ → Bool} {q : α → δ → Bool}
    (hpq : ∀ a c d, R c d → p a c = q a d) (h : Related R s t) :
    Related R (s.retain p) (t.retain q) := by
  apply rel_filter _ h
  intro e f hef
  simp [hef.1, hpq f.1 e.2 f.2 hef.2]

theorem Related.erase (h : Related R s t) (a : α) : Related R (s.erase a) (t.erase a) := by
  unfold Related at h
  change Forall₂ _ (kerase a s.entries) (kerase a t.entries)
  generalize s.entries = l, t.entries = m at h ⊢
  induction h with
  | nil => exact .nil
  | @cons e f l m hef hlm ih =>
    by_cases hae : a = e.1
    · rw [kerase_cons_eq hae, kerase_cons_eq (hae.trans hef.1)]
      exact hlm
    · rw [kerase_cons_ne hae, kerase_cons_ne (hef.1 ▸ hae)]
      exact .cons hef ih

theorem Related.insert (h : Related R s t) (a : α) {c : γ} {d : δ} (hcd : R c d) :
    Related R (s.insert a c) (t.insert a d) := by
  exact .cons ⟨Eq.refl a, hcd⟩ (h.erase a)

theorem Related.modify (h : Related R s t) (a : α) {g : δ → δ}
    (hfg : ∀ c d, R c d → R (f c) (g d)) :
    Related R (s.modify a f) (t.modify a g) := by
  apply forall₂_map_left_iff.2
  apply forall₂_map_right_iff.2
  apply Forall₂.imp _ h
  intro e e' hee
  by_cases hea : e.1 = a
  · rw [if_pos hea, if_pos (hee.1 ▸ hea)]
    exact ⟨hee.1, hfg _ _ hee.2⟩
  · rw [if_neg hea, if_neg (hee.1 ▸ hea)]
    exact hee

/-- A value changed to a related one. -/
theorem Related.modify_self {R : γ → γ → Prop} (hR : ∀ c, R c c) (a : α)
    (hf : ∀ c, s.lookup a = some c → R c (f c)) : Related R s (s.modify a f) := by
  apply forall₂_map_right_iff.2
  apply forall₂_same.2
  intro e he
  by_cases hea : e.1 = a
  · rw [if_pos hea]
    subst hea
    exact ⟨Eq.refl e.1, hf e.2 (mem_lookup_iff.2 he)⟩
  · rw [if_neg hea]
    exact ⟨Eq.refl e.1, hR e.2⟩

end Related

end AList

/-! ## Maps keyed by bytes

An ordered map from bytes is a partial function with an iteration order. A map
whose keys lie in `1..=n` has at most `n` entries, and with `n` entries it has one
at every key of that range. -/

abbrev U8Map (α : Type) := UInt8 → Option α

namespace U8Map

open List

variable {α : Type} {m : U8Map α} {v : α} {n : Nat} {k : UInt8} {lo : Nat}

def empty : U8Map α := fun _ => none

def insert (m : U8Map α) (k : UInt8) (v : α) : U8Map α := fun j => if j = k then some v else m j

/-- The keys `lo..lo + n`, ascending. -/
def keysFrom (lo n : Nat) : List UInt8 := (List.range' lo n).map UInt8.ofNat

/-- Keys and values in key order. -/
def entries (m : U8Map α) : List (UInt8 × α) :=
  (keysFrom 0 256).filterMap fun k => (m k).map (k, ·)

def len (m : U8Map α) : Nat := m.entries.length

def values (m : U8Map α) : List α := m.entries.map Prod.snd

@[simp] theorem insert_self (k : UInt8) : m.insert k v k = some v :=
  if_pos rfl

theorem insert_ne {j : UInt8} (h : j ≠ k) : m.insert k v j = m j :=
  if_neg h

theorem mem_keysFrom (h : lo + n ≤ 256) : k ∈ keysFrom lo n ↔ lo ≤ k.toNat ∧ k.toNat < lo + n := by
  unfold keysFrom
  rw [mem_map]
  constructor
  · rintro ⟨i, hi, rfl⟩
    obtain ⟨h1, h2⟩ := mem_range'_1.mp hi
    rw [UInt8.toNat_ofNat']
    omega
  · rintro ⟨h1, h2⟩
    exact ⟨k.toNat, mem_range'_1.mpr ⟨h1, h2⟩, UInt8.ofNat_toNat⟩

theorem mem_entries : (k, v) ∈ m.entries ↔ m k = some v := by
  unfold entries
  rw [mem_filterMap]
  constructor
  · rintro ⟨j, -, hj⟩
    obtain ⟨w, hw, heq⟩ := Option.map_eq_some_iff.mp hj
    cases heq
    exact hw
  · intro h
    refine ⟨k, (mem_keysFrom (by omega)).mpr ⟨Nat.zero_le _, k.toNat_lt⟩, ?_⟩
    rw [h]
    rfl

theorem keysFrom_nodup (h : lo + n ≤ 256) : (keysFrom lo n).Nodup := by
  refine Nodup.map_on ?_ nodup_range'
  intro i hi j hj hij
  obtain ⟨-, hi⟩ := mem_range'_1.mp hi
  obtain ⟨-, hj⟩ := mem_range'_1.mp hj
  have heq := congrArg UInt8.toNat hij
  rw [UInt8.toNat_ofNat', UInt8.toNat_ofNat'] at heq
  omega

theorem entries_nodup : m.entries.Nodup := by
  have hkeys : (keysFrom 0 256).Nodup := keysFrom_nodup (Nat.le_refl 256)
  refine hkeys.filterMap ?_
  intro i j e hi hj
  obtain ⟨v, -, rfl⟩ := Option.map_eq_some_iff.mp hi
  obtain ⟨w, -, heq⟩ := Option.map_eq_some_iff.mp hj
  exact (congrArg Prod.fst heq).symm

@[simp] theorem entries_empty : (empty : U8Map α).entries = [] :=
  filterMap_eq_nil_iff.mpr fun _ _ => rfl

theorem insert_eq_self (h : m k = some v) : m.insert k v = m := by
  funext j
  by_cases hj : j = k
  · rw [hj, insert_self, h]
  · exact insert_ne hj

/-- A new key adds one entry. -/
theorem entries_insert_perm (h : m k = none) :
    (m.insert k v).entries.Perm ((k, v) :: m.entries) := by
  have hk : (k, v) ∉ m.entries := fun hmem => by
    rw [mem_entries, h] at hmem
    cases hmem
  refine (perm_ext_iff_of_nodup entries_nodup
    (nodup_cons.mpr ⟨hk, entries_nodup⟩)).mpr ?_
  rintro ⟨j, w⟩
  rw [mem_entries, mem_cons, mem_entries]
  by_cases hj : j = k
  · subst hj
    rw [h]
    simp [eq_comm]
  · rw [insert_ne hj]
    simp [hj]

/-- The keys of a map lie in `1..=n`. -/
def Within (m : U8Map α) (n : Nat) : Prop :=
  ∀ k, (m k).isSome = true → 1 ≤ k.toNat ∧ k.toNat ≤ n

theorem within_empty : (empty : U8Map α).Within n := by
  rintro k ⟨⟩

theorem Within.insert (h : m.Within n) (v : α) (hk : 1 ≤ k.toNat ∧ k.toNat ≤ n) :
    (m.insert k v).Within n := by
  intro j hj
  by_cases hjk : j = k
  · rw [hjk]
    exact hk
  · rw [insert_ne hjk] at hj
    exact h j hj

theorem filterMap_keysFrom_none {l : Nat} (hle : l + n ≤ 256)
    (h : ∀ k : UInt8, l ≤ k.toNat → k.toNat < l + n → m k = none) :
    (keysFrom l n).filterMap (fun k => (m k).map (k, ·)) = [] := by
  refine filterMap_eq_nil_iff.mpr fun k hk => ?_
  obtain ⟨h1, h2⟩ := (mem_keysFrom hle).mp hk
  rw [h k h1 h2]
  rfl

/-- Only the keys of the range matter. -/
theorem Within.entries (h : m.Within n) (hn : n ≤ 255) :
    m.entries = (keysFrom 1 n).filterMap fun k => (m k).map (k, ·) := by
  have hnone : ∀ k : UInt8, ¬ (1 ≤ k.toNat ∧ k.toNat ≤ n) → m k = none := fun k hk =>
    Option.not_isSome_iff_eq_none.mp fun hs => hk (h k hs)
  have hsplit : keysFrom 0 256 = keysFrom 0 1 ++ (keysFrom 1 n ++ keysFrom (1 + n) (255 - n)) := by
    unfold keysFrom
    rw [← map_append]
    rw [show range' 1 n ++ range' (1 + n) (255 - n) = range' 1 255 by
      rw [range'_append_1, show n + (255 - n) = 255 by omega]]
    rfl
  unfold U8Map.entries
  have hbelow := filterMap_keysFrom_none (l := 0) (n := 1) (by omega)
    fun k _ hk => hnone k (by omega)
  have habove := filterMap_keysFrom_none (l := 1 + n) (n := 255 - n) (by omega)
    fun k hk _ => hnone k (by omega)
  rw [hsplit, filterMap_append, filterMap_append, hbelow, habove, nil_append, append_nil]

theorem keysFrom_length (lo n : Nat) : (keysFrom lo n).length = n := by
  unfold keysFrom
  rw [length_map, length_range']

/-- A map on `1..=n` has `n` entries exactly when it has one at every key. -/
theorem Within.len_eq_iff (h : m.Within n) (hn : n ≤ 255) :
    m.len = n ↔ ∀ k : UInt8, 1 ≤ k.toNat → k.toNat ≤ n → (m k).isSome = true := by
  have hlen : m.len = n ↔ ((keysFrom 1 n).filterMap fun k => (m k).map (k, ·)).length =
      (keysFrom 1 n).length := by
    rw [len, h.entries hn, keysFrom_length]
  rw [hlen, filterMap_length_eq_length]
  constructor
  · intro hall k h1 h2
    have hk := hall k ((mem_keysFrom (by omega)).mpr ⟨h1, by omega⟩)
    rwa [Option.isSome_map] at hk
  · intro hall k hk
    obtain ⟨h1, h2⟩ := (mem_keysFrom (by omega)).mp hk
    rw [Option.isSome_map]
    exact hall k h1 (by omega)

/-- The values of a map that is full on `1..=n`. -/
theorem Within.values (h : m.Within n) (hn : n ≤ 255) {f : UInt8 → α}
    (hf : ∀ k : UInt8, 1 ≤ k.toNat → k.toNat ≤ n → m k = some (f k)) :
    m.values = (keysFrom 1 n).map f := by
  unfold U8Map.values
  rw [h.entries hn, map_filterMap]
  rw [filterMap_congr, filterMap_eq_map']
  intro k hk
  obtain ⟨h1, h2⟩ := (mem_keysFrom (by omega)).mp hk
  rw [hf k h1 (by omega)]
  rfl

end U8Map

/-! ## Tables

A table is the list of its rows in the order of their numbers, which an insert hands
out from 1 and nothing changes. A conditional update applies a function to the rows
that meet the condition. -/

namespace Table

open List

variable {ρ : Type}

/-- `UPDATE … SET f WHERE p`. -/
def update (rows : List ρ) (p : ρ → Bool) (f : ρ → ρ) : List ρ :=
  rows.map fun r => if p r then f r else r

variable {rows : List ρ} {p : ρ → Bool} {f : ρ → ρ} {r : ρ}

theorem mem_update_of_match (hr : r ∈ rows) (hp : p r = true) : f r ∈ update rows p f :=
  mem_map.mpr ⟨r, hr, if_pos hp⟩

theorem mem_update_of_spared (hr : r ∈ rows) (hp : p r = false) : r ∈ update rows p f :=
  mem_map.mpr ⟨r, hr, if_neg (Bool.eq_false_iff.mp hp)⟩

theorem exists_update_iff {Q : ρ → Prop} :
    (∃ r ∈ update rows p f, Q r) ↔ ∃ r ∈ rows, Q (if p r then f r else r) := by
  simp [update]

/-- The rows are numbered from 1. -/
def Numbered (key : ρ → Nat) (rows : List ρ) : Prop :=
  rows.map key = List.range' 1 rows.length

variable {key : ρ → Nat}

theorem Numbered.nil : Numbered key [] := rfl

variable (h : Numbered key rows)

include h

theorem Numbered.insert (hr : key r = rows.length + 1) : Numbered key (rows ++ [r]) := by
  unfold Numbered at h ⊢
  rw [map_append, h, length_append, length_singleton, range'_concat,
    map_singleton, hr, Nat.one_mul, Nat.add_comm]

theorem Numbered.update (hf : ∀ r, key (f r) = key r) : Numbered key (Table.update rows p f) := by
  unfold Numbered Table.update at *
  rw [length_map, ← h, map_map]
  refine map_congr_left fun r _ => ?_
  change key (if p r then f r else r) = key r
  split
  · exact hf r
  · rfl

theorem Numbered.unique {r' : ρ} (hr : r ∈ rows) (hr' : r' ∈ rows) (heq : key r = key r') :
    r = r' :=
  inj_on_of_nodup_map (h ▸ nodup_range') hr hr' heq

theorem Numbered.le_length (hr : r ∈ rows) : key r ≤ rows.length := by
  have hmem : key r ∈ rows.map key := mem_map_of_mem hr
  rw [h, mem_range'_1] at hmem
  omega

end Table

/-! ### Keyed lists -/

namespace Keyed

open List

variable {α κ : Type} [DecidableEq κ] {key : α → κ} {l : List α} {a : α} {k : κ}

theorem find_of_new (hnew : ∀ b ∈ l, key b ≠ k) : l.find? (key · == k) = none := by
  rw [find?_eq_none]
  intro b hb heq
  exact hnew b hb (beq_iff_eq.1 heq)

/-- With distinct keys, nothing else is found under the key of the first element. -/
theorem find_tail (hdist : ((a :: l).map key).Nodup) : l.find? (key · == key a) = none := by
  rw [map_cons, nodup_cons] at hdist
  apply find_of_new
  intro b hb heq
  apply hdist.1
  rw [← heq]
  exact mem_map_of_mem hb

/-- With distinct keys, an element is found under its own. -/
theorem find_of_mem (hdist : (l.map key).Nodup) (ha : a ∈ l) :
    l.find? (key · == key a) = some a := by
  cases hfind : l.find? (key · == key a) with
  | none => simpa using find?_eq_none.1 hfind a ha
  | some b =>
    have hkey : key b = key a := by simpa using find?_some hfind
    rw [inj_on_of_nodup_map hdist (mem_of_find?_eq_some hfind) ha hkey]

/-- A new element is what is found under its key. -/
theorem find_concat (hnew : ∀ b ∈ l, key b ≠ key a) :
    (l ++ [a]).find? (key · == k) = if k = key a then some a else l.find? (key · == k) := by
  rw [find?_append]
  split
  case isTrue hk =>
    rw [hk, find_of_new hnew]
    simp
  case isFalse hk => simp [Ne.symm hk]

end Keyed

/-! ## Recent entries

A new entry goes to the end and, if there are too many, the one at the front is dropped. Now and
then the entries that have expired are dropped as well. `live t a` says that `a` has not expired
at the time `t`. -/

namespace Recent

open List

variable {α : Type}

/-- A new entry at the end, the oldest ones dropped beyond `cap`. -/
def push (cap : Nat) (mem : List α) (a : α) : List α :=
  (mem ++ [a]).drop ((mem ++ [a]).length - cap)

theorem length_push_le (cap : Nat) (mem : List α) (a : α) : (push cap mem a).length ≤ cap := by
  rw [push, length_drop]
  omega

/-- The memory is what is live of a final part of all entries, and that part is no shorter than
the bound. -/
def Keeps (cap : Nat) (live : Nat → α → Bool) (t : Nat) (mem all : List α) : Prop :=
  ∃ recent, recent <:+ all ∧ mem = recent.filter (live t) ∧ (recent = all ∨ cap ≤ recent.length)

variable {cap : Nat} {live : Nat → α → Bool} {t now : Nat} {mem all : List α}

theorem keeps_nil : Keeps cap live t [] [] := ⟨[], suffix_refl [], rfl, .inl rfl⟩

/-- What has expired stays expired. -/
theorem filter_filter_live (hlive : ∀ a, live now a = true → live t a = true) (l : List α) :
    (l.filter (live t)).filter (live now) = l.filter (live now) := by
  rw [filter_filter]
  apply filter_congr
  intro a _
  cases hnow : live now a with
  | false => rfl
  | true => simp [hlive a hnow]

variable (h : Keeps cap live t mem all)

include h

theorem Keeps.expire (hlive : ∀ a, live now a = true → live t a = true) :
    Keeps cap live now (mem.filter (live now)) all := by
  obtain ⟨recent, hsuffix, rfl, hlong⟩ := h
  exact ⟨recent, hsuffix, filter_filter_live hlive recent, hlong⟩

/-- A new entry, after which the expired ones are dropped. -/
theorem Keeps.push (hlive : ∀ a, live now a = true → live t a = true) (hlen : mem.length ≤ cap)
    (hcap : 0 < cap) (a : α) :
    Keeps cap live now ((push cap mem a).filter (live now)) (all ++ [a]) := by
  obtain ⟨recent, hsuffix, rfl, hlong⟩ := h
  by_cases hfull : (recent.filter (live t)).length < cap
  · -- Nothing is dropped at the front.
    refine ⟨recent ++ [a], ?_, ?_, ?_⟩
    · obtain ⟨older, rfl⟩ := hsuffix
      exact ⟨older, by simp⟩
    · have hnone : (recent.filter (live t) ++ [a]).length - cap = 0 := by
        rw [length_append, length_singleton]
        omega
      rw [Recent.push, hnone, drop_zero, filter_append, filter_filter_live hlive, ← filter_append]
    · rcases hlong with rfl | hlong
      · exact .inl rfl
      · exact .inr (by rw [length_append]; omega)
  · -- The front is dropped, and with it what stood before it.
    cases hmem : recent.filter (live t) with
    | nil =>
      rw [hmem] at hfull
      exact absurd hcap hfull
    | cons front rest =>
      rw [hmem] at hfull hlen
      rw [length_cons] at hfull hlen
      obtain ⟨before, behind, rfl, -, -, rfl⟩ := filter_eq_cons_iff.1 hmem
      refine ⟨behind ++ [a], ?_, ?_, .inr ?_⟩
      · obtain ⟨older, rfl⟩ := hsuffix
        exact ⟨older ++ before ++ [front], by simp⟩
      · have hone : (front :: behind.filter (live t) ++ [a]).length - cap = 1 := by
          rw [length_append, length_cons, length_singleton]
          omega
        rw [Recent.push, hone, cons_append, drop_succ_cons, drop_zero,
          filter_append, filter_filter_live hlive, ← filter_append]
      · have hle := length_filter_le (live t) behind
        rw [length_append, length_singleton]
        omega

/-- An entry with fewer newer ones than the bound is there until it expires. -/
theorem Keeps.mem_of_recent {older newer : List α} {a : α} (hall : all = older ++ a :: newer)
    (hnewer : newer.length < cap) (ha : live t a = true) : a ∈ mem := by
  obtain ⟨recent, hsuffix, rfl, hlong⟩ := h
  have hat : a :: newer <:+ all := ⟨older, hall.symm⟩
  have hlen : (a :: newer).length ≤ recent.length := by
    rcases hlong with rfl | hlong
    · exact hat.length_le
    · exact Nat.le_trans hnewer hlong
  have hin : a :: newer <:+ recent := suffix_of_suffix_length_le hat hsuffix hlen
  exact mem_filter.2 ⟨hin.subset mem_cons_self, ha⟩

end Recent
