-- SUMMARY: Whatever the order of their parts, several messages each complete once.
import GsmSipBridge.Volte.Sms.Moves

/-!
# Interleaved messages

Several multi-part messages share one store with room for all of them. The parts
of all of them come in any order, some more than once. What the store holds after
some arrivals depends on which parts have come, not on their order.
-/

namespace Volte.Sms

open List Reassembly

open Ims.SmsPdu (ConcatPart)

/-- A message in parts, one to 255 of them. -/
structure Multipart where
  sender : Text
  reference : UInt16
  texts : List Text
  nonempty : 1 ≤ texts.length
  fits : texts.length ≤ 255
  deriving DecidableEq

namespace Multipart

def key (m : Multipart) : ReassemblyKey := (m.sender, m.reference)

def total (m : Multipart) : UInt8 := UInt8.ofNat m.texts.length

def joined (m : Multipart) : Text := m.texts.flatten

/-- The text at a position, counted from one. -/
def textAt (m : Multipart) (sequence : UInt8) : Text := m.texts.getD (sequence.toNat - 1) []

theorem total_toNat (m : Multipart) : m.total.toNat = m.texts.length := by
  have := m.fits
  exact UInt8.toNat_ofNat_of_lt' (show m.texts.length < 256 by omega)

/-- The texts, by position. -/
theorem map_textAt {m : Multipart} : (U8Map.keysFrom 1 m.texts.length).map m.textAt = m.texts := by
  have hfits := m.fits
  refine ext_getElem? fun i => ?_
  unfold U8Map.keysFrom
  rw [map_map, getElem?_map]
  by_cases hi : i < m.texts.length
  · rw [getElem?_range' hi, getElem?_eq_getElem hi]
    refine congrArg some ?_
    change m.texts.getD ((UInt8.ofNat (1 + 1 * i)).toNat - 1) [] = _
    rw [UInt8.toNat_ofNat_of_lt' (show 1 + 1 * i < 256 by omega), show 1 + 1 * i - 1 = i by omega]
    exact getD_eq_getElem _ _ hi
  · rw [getElem?_eq_none (by rw [length_range']; omega), getElem?_eq_none (by omega)]
    rfl

end Multipart

/-- A part of a message, when it arrives and the reference its envelope carries. -/
structure Arrival where
  message : Multipart
  index : Fin message.texts.length
  now : Nat
  rpMr : UInt8

namespace Arrival

def sequence (a : Arrival) : UInt8 := UInt8.ofNat (a.index.val + 1)

def part (a : Arrival) : ConcatPart :=
  { reference := a.message.reference, sequence := a.sequence, total := a.message.total }

def text (a : Arrival) : Text := a.message.texts.get a.index

def offer (a : Arrival) : Reassembly.Accepted :=
  { sender := a.message.sender, part := a.part, text := a.text }

theorem sequence_toNat (a : Arrival) : a.sequence.toNat = a.index.val + 1 := by
  have := a.message.fits
  exact UInt8.toNat_ofNat_of_lt' (show a.index.val + 1 < 256 by omega)

theorem textAt_sequence (a : Arrival) : a.message.textAt a.sequence = a.text := by
  unfold Multipart.textAt text
  rw [sequence_toNat]
  exact getD_eq_getElem _ _ a.index.isLt

end Arrival

variable {m : Multipart} {seen arrivals : List Arrival} {a : Arrival}

/-- Every part of the message is among the arrivals. -/
def Covered (m : Multipart) (arrivals : List Arrival) : Prop :=
  ∀ i < m.texts.length, ∃ a ∈ arrivals, a.message = m ∧ a.index.val = i

instance (m : Multipart) (arrivals : List Arrival) : Decidable (Covered m arrivals) :=
  inferInstanceAs (Decidable (∀ i < m.texts.length, ∃ a ∈ arrivals, a.message = m ∧ a.index.val = i))

/-- The outcome a part should have after the ones in `seen`. -/
def due (seen : List Arrival) (a : Arrival) : PartOutcome :=
  if Covered a.message (seen ++ [a]) then .complete a.message.joined else .pending

namespace Reassembly

/-- A part is taken in, and a completed message is marked delivered. -/
def deliver (r : Reassembly) (a : Arrival) : Reassembly × PartOutcome :=
  let admitted := r.admitPart a.message.sender a.part a.text a.now
  match admitted.2 with
  | .complete joined => (admitted.1.markDelivered a.message.sender a.part, .complete joined)
  | outcome => (admitted.1, outcome)

def deliverAll (r : Reassembly) : List Arrival → Reassembly × List PartOutcome
  | [] => (r, [])
  | a :: rest =>
    let delivered := r.deliver a
    let after := delivered.1.deliverAll rest
    (after.1, delivered.2 :: after.2)

end Reassembly

/-! ## What the arrivals determine -/

theorem Covered.mono {l l' : List Arrival} (hsub : l ⊆ l') (h : Covered m l) : Covered m l' := by
  intro i hi
  obtain ⟨a, ha, hat⟩ := h i hi
  exact ⟨a, hsub ha, hat⟩

theorem not_covered_of_none (h : ∀ a ∈ seen, a.message ≠ m) : ¬ Covered m seen := by
  intro hcover
  obtain ⟨a, ha, hmsg, -⟩ := hcover 0 m.nonempty
  exact h a ha hmsg

theorem exists_mem_concat {α : Type} {P : α → Prop} {l : List α} {a : α} :
    (∃ b ∈ l ++ [a], P b) ↔ (∃ b ∈ l, P b) ∨ P a := by
  simp [or_and_right, exists_or]

/-- Another message's part does not matter. -/
theorem covered_append_other (h : a.message ≠ m) : Covered m (seen ++ [a]) ↔ Covered m seen := by
  simp only [Covered, exists_mem_concat, h, false_and, or_false]

/-- What a buffer holds once the parts in `seen` have come. -/
def collected (m : Multipart) (seen : List Arrival) : U8Map Text := fun k =>
  if ∃ a ∈ seen, a.message = m ∧ a.sequence = k then some (m.textAt k) else none

theorem collected_isSome {k : UInt8} :
    (collected m seen k).isSome = true ↔ ∃ a ∈ seen, a.message = m ∧ a.sequence = k :=
  Option.isSome_ite

theorem collected_of_isSome {k : UInt8} (h : (collected m seen k).isSome = true) :
    collected m seen k = some (m.textAt k) := if_pos (collected_isSome.mp h)

theorem collected_within (m : Multipart) (seen : List Arrival) :
    (collected m seen).Within m.texts.length := by
  intro k hk
  obtain ⟨a, -, rfl, rfl⟩ := collected_isSome.mp hk
  have := a.index.isLt
  rw [a.sequence_toNat]
  omega

theorem collected_none (h : ∀ a ∈ seen, a.message ≠ m) : collected m seen = U8Map.empty := by
  funext k
  refine if_neg ?_
  rintro ⟨a, ha, hmsg, -⟩
  exact h a ha hmsg

theorem collected_append_self (seen : List Arrival) (a : Arrival) :
    (collected a.message seen).insert a.sequence a.text = collected a.message (seen ++ [a]) := by
  funext k
  unfold collected
  by_cases hk : k = a.sequence
  · subst hk
    rw [U8Map.insert_self, if_pos ⟨a, mem_append_right _ (mem_singleton_self a), rfl, rfl⟩,
      a.textAt_sequence]
  · rw [U8Map.insert_ne hk]
    simp only [exists_mem_concat, Ne.symm hk, and_false, or_false]

theorem collected_append_other (h : a.message ≠ m) :
    collected m (seen ++ [a]) = collected m seen := by
  funext k
  simp only [collected, exists_mem_concat, h, false_and, or_false]

/-- Counting the positions decides whether all are there. -/
theorem collected_len_iff (seen : List Arrival) :
    (collected m seen).len = m.total.toNat ↔ Covered m seen := by
  rw [m.total_toNat, (collected_within m seen).len_eq_iff m.fits]
  have hfits := m.fits
  constructor
  · intro hall i hi
    have hk : (UInt8.ofNat (i + 1)).toNat = i + 1 :=
      UInt8.toNat_ofNat_of_lt' (show i + 1 < 256 by omega)
    obtain ⟨a, ha, hmsg, hseq⟩ :=
      collected_isSome.mp (hall (UInt8.ofNat (i + 1)) (by omega) (by omega))
    refine ⟨a, ha, hmsg, ?_⟩
    have := congrArg UInt8.toNat hseq
    rw [a.sequence_toNat] at this
    omega
  · intro hcover k h1 h2
    obtain ⟨a, ha, hmsg, hindex⟩ := hcover (k.toNat - 1) (by omega)
    refine collected_isSome.mpr ⟨a, ha, hmsg, ?_⟩
    rw [← UInt8.toNat_inj, a.sequence_toNat]
    omega

theorem collected_values (h : Covered m seen) : (collected m seen).values = m.texts := by
  have hsome := ((collected_within m seen).len_eq_iff m.fits).mp
    (m.total_toNat ▸ (collected_len_iff seen).mpr h)
  rw [(collected_within m seen).values m.fits]
  · exact m.map_textAt
  · exact fun k h1 h2 => collected_of_isSome (hsome k h1 h2)

/-! ## The store along the arrivals -/

/-- Nothing is queued, every buffer is for one of the messages, and each message that
has begun and is not complete has a buffer with the parts that have come. -/
structure Tracks (messages : List Multipart) (seen : List Arrival) (r : Reassembly) : Prop where
  pending : r.pending = []
  keys : ∀ k ∈ r.buffers.keys, ∃ m ∈ messages, m.key = k
  absent : ∀ m ∈ messages, r.buffers.lookup m.key = none →
    Covered m seen ∨ ∀ a ∈ seen, a.message ≠ m
  present : ∀ m ∈ messages, ∀ b, r.buffers.lookup m.key = some b →
    ¬ Covered m seen ∧ b.total = m.total ∧ b.parts = collected m seen

theorem tracks_new (messages : List Multipart) (capacity : Nat) :
    Tracks messages [] (new capacity) where
  pending := rfl
  keys := fun _ hk => absurd hk not_mem_nil
  absent := fun _ _ _ => .inr fun _ ha => absurd ha not_mem_nil
  present := by rintro _ _ _ ⟨⟩

section Step

variable {messages : List Multipart} {r : Reassembly} {b : PartialMessage}

/-- A message without a buffer leaves room for one. -/
theorem Tracks.room (h : Tracks messages seen r) (hfit : messages.length ≤ r.capacity)
    (ha : a.message ∈ messages) (hnone : r.buffers.lookup a.message.key = none) :
    ¬ r.capacity ≤ r.buffers.entries.length := by
  have hsub : a.message.key :: r.buffers.keys ⊆ messages.map Multipart.key := by
    refine cons_subset.mpr ⟨mem_map_of_mem ha, fun k hk => ?_⟩
    obtain ⟨m, hm, rfl⟩ := h.keys k hk
    exact mem_map_of_mem hm
  have hnodup : (a.message.key :: r.buffers.keys).Nodup :=
    nodup_cons.mpr ⟨fun hmem => AList.lookup_eq_none.mp hnone (AList.mem_keys.mpr hmem),
      r.buffers.keys_nodup⟩
  have hlength := (hnodup.subperm hsub).length_le
  have hkeys : r.buffers.keys.length = r.buffers.entries.length := length_map _
  rw [length_cons, length_map] at hlength
  omega

theorem offer_checks :
    ¬ (a.part.total = 0 ∨ a.part.sequence = 0 ∨ a.part.total < a.part.sequence) := by
  have hseq := a.sequence_toNat
  have htotal := a.message.total_toNat
  rw [← UInt8.toNat_inj, ← UInt8.toNat_inj, UInt8.lt_iff_toNat_lt]
  change ¬ (a.message.total.toNat = 0 ∨ a.sequence.toNat = 0 ∨
    a.message.total.toNat < a.sequence.toNat)
  omega

/-- The buffer of a message once this part has come too. -/
def extended (seen : List Arrival) (a : Arrival) : PartialMessage :=
  { total := a.message.total, parts := collected a.message (seen ++ [a]), lastUpdated := a.now }

/-- A part put into a buffer with the parts that came before it. -/
theorem store_due (hb : r.buffers.lookup a.message.key = some b)
    (htotal : b.total = a.message.total) (hparts : b.parts = collected a.message seen) :
    r.store a.message.key a.part a.text a.now =
      ({ r with buffers := r.buffers.insert a.message.key (extended seen a) }, due seen a) := by
  have hinsert : b.parts.insert a.part.sequence a.text = collected a.message (seen ++ [a]) := by
    rw [hparts]
    exact collected_append_self seen a
  unfold store
  rw [hb]
  dsimp only
  rw [hinsert, htotal]
  refine congrArg _ ?_
  unfold due
  by_cases hcover : Covered a.message (seen ++ [a])
  · rw [if_pos ((collected_len_iff _).mpr hcover), if_pos hcover, collected_values hcover]
    rfl
  · rw [if_neg (mt (collected_len_iff _).mp hcover), if_neg hcover]

theorem no_conflict (hparts : b.parts = collected a.message seen) :
    conflicts b a.part a.text = false := by
  unfold conflicts
  rw [hparts]
  cases hheld : collected a.message seen a.part.sequence with
  | none => rfl
  | some held =>
    cases hheld.symm.trans (collected_of_isSome (by rw [hheld]; rfl))
    change (a.message.textAt a.sequence != a.text) = false
    rw [a.textAt_sequence]
    exact bne_self_eq_false a.text

/-- The part goes into its buffer, and the outcome is the one that is due. -/
theorem admitPart_due (h : Tracks messages seen r) (hfit : messages.length ≤ r.capacity)
    (ha : a.message ∈ messages) (hopen : ¬ Covered a.message seen) :
    ∃ order, r.admitPart a.message.sender a.part a.text a.now =
      ({ r with order, buffers := r.buffers.insert a.message.key (extended seen a) },
        due seen a) := by
  cases hlookup : r.buffers.lookup a.message.key with
  | none =>
    refine ⟨r.order ++ [a.message.key], ?_⟩
    have hnone := (h.absent _ ha hlookup).resolve_left hopen
    have hprovide : r.provide a.message.key a.part.total a.now =
        { r with
          buffers := r.buffers.insert a.message.key
            { total := a.message.total, parts := U8Map.empty, lastUpdated := a.now }
          order := r.order ++ [a.message.key] } := by
      unfold provide
      rw [if_pos hlookup]
      unfold evict
      rw [if_neg (h.room hfit ha hlookup)]
      rfl
    refine (admitPart_eq (e := a.offer) offer_checks).trans ?_
    rw [show r.buffers.lookup a.offer.key = none from hlookup]
    change (r.provide a.message.key a.part.total a.now).store a.message.key a.part a.text a.now = _
    rw [hprovide, store_due (AList.lookup_insert _) rfl (collected_none hnone).symm]
    rw [AList.insert_insert]
  | some b =>
    obtain ⟨-, htotal, hparts⟩ := h.present _ ha b hlookup
    refine ⟨r.order, ?_⟩
    have hprovide : r.provide a.message.key a.part.total a.now = r := by
      unfold provide
      rw [hlookup]
      exact if_neg (Option.some_ne_none b)
    refine (admitPart_eq (e := a.offer) offer_checks).trans ?_
    rw [show r.buffers.lookup a.offer.key = some b from hlookup]
    refine (if_neg (not_not.mpr htotal)).trans ?_
    change ((if conflicts b a.part a.text then _ else r).provide a.message.key
      a.part.total a.now).store a.message.key a.part a.text a.now = _
    rw [no_conflict hparts, if_neg Bool.false_ne_true, hprovide]
    exact store_due hlookup htotal hparts

/-- A store that differs from the last one in this message's buffer only. -/
theorem Tracks.update {r' : Reassembly} (hdist : (messages.map Multipart.key).Nodup)
    (h : Tracks messages seen r) (ha : a.message ∈ messages) (hpend : r'.pending = [])
    (hself : r'.buffers.lookup a.message.key =
      if Covered a.message (seen ++ [a]) then none else some (extended seen a))
    (hothers : ∀ k, k ≠ a.message.key → r'.buffers.lookup k = r.buffers.lookup k) :
    Tracks messages (seen ++ [a]) r' := by
  have hne : ∀ m ∈ messages, m ≠ a.message → m.key ≠ a.message.key := fun m hm hne heq =>
    hne (inj_on_of_nodup_map hdist hm ha heq)
  refine ⟨hpend, ?_, ?_, ?_⟩
  · intro k hk
    by_cases hkey : k = a.message.key
    · exact ⟨a.message, ha, hkey.symm⟩
    · have hsome := AList.lookup_isSome.mpr (AList.mem_keys.mpr hk)
      rw [hothers k hkey] at hsome
      exact h.keys k (AList.mem_keys.mp (AList.lookup_isSome.mp hsome))
  · intro m hm hnone
    by_cases hm' : m = a.message
    · subst hm'
      rw [hself] at hnone
      split at hnone
      · exact .inl ‹_›
      · cases hnone
    · rw [hothers _ (hne m hm hm')] at hnone
      exact (h.absent m hm hnone).imp (Covered.mono (subset_append_left _ _)) fun hnone =>
        forall_mem_append.mpr ⟨hnone, forall_mem_singleton.mpr (Ne.symm hm')⟩
  · intro m hm b hb
    by_cases hm' : m = a.message
    · subst hm'
      rw [hself] at hb
      split at hb
      · cases hb
      · cases hb
        exact ⟨‹_›, rfl, rfl⟩
    · rw [hothers _ (hne m hm hm')] at hb
      obtain ⟨hopen, htotal, hparts⟩ := h.present m hm b hb
      exact ⟨mt (covered_append_other (Ne.symm hm')).mp hopen, htotal,
        hparts.trans (collected_append_other (Ne.symm hm')).symm⟩

/-- One arrival, and the delivery of what it completes. -/
theorem deliver_tracks (hdist : (messages.map Multipart.key).Nodup)
    (h : Tracks messages seen r) (hfit : messages.length ≤ r.capacity)
    (ha : a.message ∈ messages) (hopen : ¬ Covered a.message seen) :
    (r.deliver a).2 = due seen a ∧ Tracks messages (seen ++ [a]) (r.deliver a).1 ∧
      (r.deliver a).1.capacity = r.capacity := by
  obtain ⟨order, heffect⟩ := admitPart_due h hfit ha hopen
  unfold deliver
  rw [heffect]
  unfold due
  by_cases hcover : Covered a.message (seen ++ [a])
  · -- the message is complete, and its buffer goes
    rw [if_pos hcover]
    refine ⟨rfl, h.update hdist ha h.pending ?_ ?_, rfl⟩
    · rw [if_pos hcover]
      exact AList.lookup_erase _ _
    · intro k hk
      exact (AList.lookup_erase_ne hk).trans (AList.lookup_insert_ne hk)
  · rw [if_neg hcover]
    refine ⟨rfl, h.update hdist ha h.pending ?_ ?_, rfl⟩
    · rw [if_neg hcover]
      exact AList.lookup_insert _
    · intro k hk
      exact AList.lookup_insert_ne hk

end Step

/-! ## Whole interleavings -/

/-- The outcomes that are due, one after the other. -/
def dues : List Arrival → List Arrival → List PartOutcome
  | _, [] => []
  | seen, a :: rest => due seen a :: dues (seen ++ [a]) rest

/-- No part of a message comes after the message is complete. -/
def Stops (seen : List Arrival) (arrivals : List Arrival) : Prop :=
  ∀ i : Fin arrivals.length, ¬ Covered (arrivals.get i).message (seen ++ arrivals.take i)

instance (seen arrivals : List Arrival) : Decidable (Stops seen arrivals) :=
  inferInstanceAs (Decidable (∀ i : Fin arrivals.length,
    ¬ Covered (arrivals.get i).message (seen ++ arrivals.take i)))

theorem Stops.tail {rest : List Arrival} (h : Stops seen (a :: rest)) :
    ¬ Covered a.message seen ∧ Stops (seen ++ [a]) rest := by
  refine ⟨?_, ?_⟩
  · have := h ⟨0, Nat.succ_pos _⟩
    rwa [take_zero, append_nil] at this
  · intro i
    rw [append_assoc]
    exact h i.succ

theorem deliverAll_dues {messages : List Multipart} {r : Reassembly}
    (hdist : (messages.map Multipart.key).Nodup) (h : Tracks messages seen r)
    (hfit : messages.length ≤ r.capacity) (hfrom : ∀ a ∈ arrivals, a.message ∈ messages)
    (hstops : Stops seen arrivals) :
    (r.deliverAll arrivals).2 = dues seen arrivals ∧
      Tracks messages (seen ++ arrivals) (r.deliverAll arrivals).1 := by
  induction arrivals generalizing seen r with
  | nil => exact ⟨rfl, by rw [append_nil]; exact h⟩
  | cons a rest ih =>
    obtain ⟨hopen, hstops'⟩ := hstops.tail
    obtain ⟨hdue, htracks, hcap⟩ := deliver_tracks hdist h hfit
      (hfrom a mem_cons_self) hopen
    obtain ⟨hdues, htracks'⟩ := ih htracks (hcap ▸ hfit)
      (fun b hb => hfrom b (mem_cons_of_mem a hb)) hstops'
    rw [append_assoc] at htracks'
    exact ⟨congrArg₂ List.cons hdue hdues, htracks'⟩

theorem dues_length (seen arrivals : List Arrival) : (dues seen arrivals).length = arrivals.length := by
  induction arrivals generalizing seen with
  | nil => rfl
  | cons a rest ih => exact congrArg (· + 1) (ih _)

theorem dues_getElem? {i : Nat} (h : arrivals[i]? = some a) :
    (dues seen arrivals)[i]? = some (due (seen ++ arrivals.take i) a) := by
  induction arrivals generalizing seen i with
  | nil => cases h
  | cons b rest ih =>
    cases i with
    | zero =>
      cases h
      rw [take_zero, append_nil]
      rfl
    | succ i =>
      rw [take_succ_cons, append_cons]
      exact ih h

/-- The first place where the message is complete is the arrival of one of its parts. -/
theorem exists_completing (h : Covered m arrivals) :
    ∃ i a, arrivals[i]? = some a ∧ a.message = m ∧ ¬ Covered m (arrivals.take i) ∧
      Covered m (arrivals.take (i + 1)) := by
  induction arrivals using reverseRecOn with
  | nil => exact absurd h (not_covered_of_none fun _ ha => absurd ha not_mem_nil)
  | append_singleton init a ih =>
    by_cases hinit : Covered m init
    · obtain ⟨i, b, hb, hrest⟩ := ih hinit
      have hi : i + 1 ≤ init.length := (List.getElem?_eq_some_iff.mp hb).1
      refine ⟨i, b, ?_, ?_⟩
      · rw [getElem?_append_left hi, hb]
      · rwa [take_append_of_le_length (Nat.le_of_succ_le hi), take_append_of_le_length hi]
    · refine ⟨init.length, a, ?_, ?_, ?_, ?_⟩
      · rw [getElem?_concat_length]
      · exact not_not.mp fun hne => hinit ((covered_append_other hne).mp h)
      · rwa [take_left]
      · rwa [take_of_length_le (by rw [length_append]; exact Nat.le_refl _)]

/-- Messages with different keys, no more than the store holds, whose parts come in any
order and any number of times, though not after their message is complete: a part has
the outcome that is due, each message completes exactly once, and nothing is queued. -/
theorem interleaving_independent (capacity : Nat) (messages : List Multipart)
    (hdistinct : (messages.map Multipart.key).Nodup) (hfit : messages.length ≤ max capacity 1)
    (arrivals : List Arrival) (hfrom : ∀ a ∈ arrivals, a.message ∈ messages)
    (hall : ∀ m ∈ messages, Covered m arrivals) (hstops : Stops [] arrivals) :
    let result := (new capacity).deliverAll arrivals
    result.2.length = arrivals.length ∧
      (∀ i a, arrivals[i]? = some a → result.2[i]? =
        some (if Covered a.message (arrivals.take (i + 1)) then .complete a.message.joined
          else .pending)) ∧
      (∀ m ∈ messages, ∃! i : Nat, ∃ a : Arrival, arrivals[i]? = some a ∧ a.message = m ∧
        result.2[i]? = some (.complete m.joined)) ∧
      result.1.pending = [] := by
  intro result
  obtain ⟨hdues, htracks⟩ := deliverAll_dues hdistinct (tracks_new messages capacity) hfit hfrom hstops
  have hat : ∀ i a, arrivals[i]? = some a → result.2[i]? =
      some (if Covered a.message (arrivals.take (i + 1)) then .complete a.message.joined
        else .pending) := by
    intro i a ha
    rw [hdues, dues_getElem? ha, take_add_one, ha]
    rfl
  refine ⟨?_, hat, ?_, htracks.pending⟩
  · rw [hdues, dues_length]
  · intro m hm
    obtain ⟨i, a, ha, rfl, hopen, hcovered⟩ := exists_completing (hall m hm)
    refine ⟨i, ⟨a, ha, rfl, ?_⟩, ?_⟩
    · rw [hat i a ha, if_pos hcovered]
    · rintro j ⟨b, hb, hmessage, hcomplete⟩
      rw [hat j b hb] at hcomplete
      have hj : Covered a.message (arrivals.take (j + 1)) := by
        by_contra hnot
        rw [hmessage, if_neg hnot] at hcomplete
        cases hcomplete
      -- at an earlier place the message is open, at a later one no part of it comes
      refine Nat.le_antisymm ?_ ?_
      · by_contra hlt
        obtain ⟨hlen, rfl⟩ := List.getElem?_eq_some_iff.mp hb
        refine hstops ⟨j, hlen⟩ ?_
        rw [get_eq_getElem, hmessage]
        exact hcovered.mono (take_prefix_take_left (Nat.lt_of_not_le hlt)).subset
      · by_contra hlt
        refine hopen (hj.mono ?_)
        exact (take_prefix_take_left (by omega)).subset

/-- Two texts from one sender. -/
def greeting : Multipart :=
  { sender := "+491", reference := 1, texts := ["Hel", "lo"]
    nonempty := by decide, fits := by decide }

def farewell : Multipart :=
  { sender := "+491", reference := 2, texts := ["Bye"]
    nonempty := by decide, fits := by decide }

theorem interleaving_independent_greeting :
    let arrivals : List Arrival := [⟨greeting, ⟨1, by decide⟩, 0, 9⟩,
      ⟨farewell, ⟨0, by decide⟩, 1, 8⟩, ⟨greeting, ⟨1, by decide⟩, 2, 7⟩,
      ⟨greeting, ⟨0, by decide⟩, 3, 6⟩]
    let result := (new 2).deliverAll arrivals
    result.2.length = 4 ∧ result.2[1]? = some (.complete "Bye") ∧
      result.2[3]? = some (.complete "Hello") ∧ result.1.pending = [] := by
  intro arrivals result
  obtain ⟨hlength, hat, -, hpending⟩ := interleaving_independent 2 [greeting, farewell]
    (by decide) (by decide) arrivals (by decide) (by decide) (by decide)
  refine ⟨hlength, (hat 1 _ rfl).trans ?_, (hat 3 _ rfl).trans ?_, hpending⟩
  · exact congrArg some (if_pos (by decide))
  · exact congrArg some (if_pos (by decide))

end Volte.Sms
