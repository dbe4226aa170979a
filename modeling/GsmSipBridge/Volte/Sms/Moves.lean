-- SUMMARY: What the reassembly operations move, and that no accepted part is lost.
import GsmSipBridge.Volte.Sms

/-!
# Moving parts

Eviction, reuse of a reference and expiry all give up a buffer, and giving one up
moves its parts to the queue. Taking a part in is one of these moves and then a
store into the part's own buffer, or it is refused and nothing happens.
-/

namespace Volte.Sms.Reassembly

open List

open Ims.SmsPdu (ConcatPart)

/-! ## What is held -/

/-- A part without its place: sender, position, number of parts, text. -/
abbrev Item := Text × UInt8 × UInt8 × Text

def itemsOf (sender : Text) (buffer : PartialMessage) : List Item :=
  buffer.parts.entries.map fun part => (sender, part.1, buffer.total, part.2)

def buffered (buffers : AList fun _ : ReassemblyKey => PartialMessage) : List Item :=
  buffers.entries.flatMap fun entry => itemsOf entry.1.1 entry.2

def queuedItem (q : QueuedFlush) : Item := (q.sender, q.sequence, q.total, q.text)

/-- Everything held, in the queue and in the buffers. -/
def content (r : Reassembly) : List Item :=
  r.pending.map queuedItem ++ buffered r.buffers

/-- An accepted part. -/
structure Accepted where
  sender : Text
  part : ConcatPart
  text : Text

namespace Accepted

def key (e : Accepted) : ReassemblyKey := (e.sender, e.part.reference)

def item (e : Accepted) : Item := (e.sender, e.part.sequence, e.part.total, e.text)

/-- The entry of the queue under `id`. -/
def entry (e : Accepted) (id : Nat) : QueuedFlush :=
  { id, sender := e.sender, sequence := e.part.sequence, total := e.part.total, text := e.text }

end Accepted

inductive Place where
  | buffer
  | queue (id : Nat)

/-- The part is at its position in the buffer of its key, or is the one entry of the
queue with that id. -/
def Holds (r : Reassembly) (e : Accepted) : Place → Prop
  | .buffer => ∃ b, r.buffers.lookup e.key = some b ∧ b.total = e.part.total ∧
      b.parts e.part.sequence = some e.text
  | .queue id => r.pending.filter (·.id == id) = [e.entry id]

/-- The queue's ids are distinct and not ahead of the counter, and the positions of
a buffer are between one and its number of parts. -/
structure Inv (r : Reassembly) : Prop where
  ids_nodup : (r.pending.map QueuedFlush.id).Nodup
  ids_le : ∀ q ∈ r.pending, q.id ≤ r.nextPendingId
  within : ∀ key b, r.buffers.lookup key = some b → b.parts.Within b.total.toNat

theorem inv_new (capacity : Nat) : Inv (new capacity) where
  ids_nodup := nodup_nil
  ids_le := fun _ hq => absurd hq not_mem_nil
  within := by rintro _ _ ⟨⟩

/-- Where a part may go: it may move into the queue, under an id that was not given
before. -/
def Follows (next : Nat) : Place → Place → Prop
  | .buffer, .buffer => True
  | .buffer, .queue id => next < id
  | .queue id, .queue id' => id = id'
  | .queue _, .buffer => False

theorem Follows.refl (next : Nat) (place : Place) : Follows next place place := by
  cases place with
  | buffer => trivial
  | queue id => exact rfl

theorem Follows.trans {n m : Nat} {a b c : Place} (hnm : n ≤ m) (hab : Follows n a b)
    (hbc : Follows m b c) : Follows n a c := by
  match a, b, c with
  | .buffer, .buffer, .buffer => trivial
  | .buffer, .buffer, .queue _ => exact Nat.lt_of_le_of_lt hnm hbc
  | .buffer, .queue _, .queue _ => exact hbc ▸ hab
  | .queue _, .queue _, .queue _ => exact Eq.trans hab hbc

/-- Parts may have moved; nothing was lost or added. -/
structure Shifts (r r' : Reassembly) : Prop where
  content_perm : r'.content.Perm r.content
  next_le : r.nextPendingId ≤ r'.nextPendingId
  holds : ∀ e place, Holds r e place → ∃ place', Follows r.nextPendingId place place' ∧
    Holds r' e place'

theorem Shifts.refl (r : Reassembly) : Shifts r r where
  content_perm := Perm.refl _
  next_le := Nat.le_refl _
  holds := fun _ place h => ⟨place, Follows.refl _ place, h⟩

theorem Shifts.trans {a b c : Reassembly} (hab : Shifts a b) (hbc : Shifts b c) : Shifts a c where
  content_perm := hbc.content_perm.trans hab.content_perm
  next_le := Nat.le_trans hab.next_le hbc.next_le
  holds := fun e place h => by
    obtain ⟨place', hfollows, h'⟩ := hab.holds e place h
    obtain ⟨place'', hfollows', h''⟩ := hbc.holds e place' h'
    exact ⟨place'', hfollows.trans hab.next_le hfollows', h''⟩

/-! ## Giving up a buffer -/

/-- What giving up a buffer appends to the queue, with the ids after `n`. -/
def numbered (sender : Text) (total : UInt8) : Nat → List (UInt8 × Text) → List QueuedFlush
  | _, [] => []
  | n, part :: rest =>
    { id := n + 1, sender, sequence := part.1, total, text := part.2 } ::
      numbered sender total (n + 1) rest

section Numbered

variable {sender : Text} {total : UInt8} {n : Nat} {parts : List (UInt8 × Text)}

theorem numbered_id {q : QueuedFlush} (h : q ∈ numbered sender total n parts) :
    n < q.id ∧ q.id ≤ n + parts.length := by
  induction parts generalizing n with
  | nil => cases h
  | cons part rest ih =>
    cases mem_cons.mp h with
    | inl heq =>
      rw [heq, length_cons]
      dsimp only
      omega
    | inr hmem =>
      obtain ⟨h1, h2⟩ := ih hmem
      rw [length_cons]
      omega

theorem numbered_nodup : ((numbered sender total n parts).map QueuedFlush.id).Nodup := by
  induction parts generalizing n with
  | nil => exact nodup_nil
  | cons part rest ih =>
    refine nodup_cons.mpr ⟨?_, ih⟩
    intro hmem
    obtain ⟨q, hq, hid⟩ := mem_map.mp hmem
    have := (numbered_id hq).1
    exact absurd hid (Nat.ne_of_gt this)

theorem numbered_items :
    (numbered sender total n parts).map queuedItem =
      parts.map fun part => (sender, part.1, total, part.2) := by
  induction parts generalizing n with
  | nil => rfl
  | cons part rest ih =>
    change _ :: (numbered sender total (n + 1) rest).map queuedItem = _ :: _
    rw [ih]
    rfl

variable (sender total n) in
/-- Every part of the buffer gets an id. -/
theorem exists_numbered {sequence : UInt8} {text : Text} (h : (sequence, text) ∈ parts) :
    ∃ id, n < id ∧ { id, sender, sequence, total, text : QueuedFlush } ∈
      numbered sender total n parts := by
  induction parts generalizing n with
  | nil => cases h
  | cons part rest ih =>
    cases mem_cons.mp h with
    | inl heq =>
      subst heq
      exact ⟨n + 1, Nat.lt_succ_self n, mem_cons_self⟩
    | inr hmem =>
      obtain ⟨id, hlt, hid⟩ := ih (n := n + 1) hmem
      exact ⟨id, by omega, mem_cons_of_mem _ hid⟩

end Numbered

theorem foldl_enqueueOne (sender : Text) (total : UInt8) (parts : List (UInt8 × Text))
    (r : Reassembly) :
    parts.foldl (enqueueOne sender total) r =
      { r with
        nextPendingId := r.nextPendingId + parts.length
        pending := r.pending ++ numbered sender total r.nextPendingId parts } := by
  induction parts generalizing r with
  | nil =>
    change r = { r with nextPendingId := r.nextPendingId + 0, pending := r.pending ++ [] }
    rw [append_nil]
    rfl
  | cons part rest ih =>
    rw [foldl_cons, ih]
    simp only [enqueueOne, numbered, length_cons, append_assoc, cons_append, nil_append]
    congr 1
    omega

variable {key : ReassemblyKey} {r : Reassembly} {old : PartialMessage}

theorem giveUp_some (h : r.buffers.lookup key = some old) :
    r.giveUp key =
      { r with
        buffers := r.buffers.erase key
        nextPendingId := r.nextPendingId + old.parts.entries.length
        pending := r.pending ++ numbered key.1 old.total r.nextPendingId old.parts.entries } := by
  unfold giveUp
  rw [h]
  exact foldl_enqueueOne _ _ _ _

theorem giveUp_none (h : r.buffers.lookup key = none) : r.giveUp key = r := by
  unfold giveUp
  rw [h]

/-- The entry of an id that occurs once. -/
theorem filter_id_eq {l : List QueuedFlush} {q : QueuedFlush} (hnodup : (l.map QueuedFlush.id).Nodup)
    (hq : q ∈ l) : l.filter (·.id == q.id) = [q] := by
  obtain ⟨pre, post, rfl⟩ := append_of_mem hq
  rw [map_append, map_cons, nodup_append, nodup_cons] at hnodup
  obtain ⟨-, ⟨hpost, -⟩, hdisjoint⟩ := hnodup
  rw [filter_append, filter_cons, if_pos (beq_self_eq_true q.id),
    filter_eq_nil_iff.mpr, filter_eq_nil_iff.mpr]
  · rfl
  · intro p hp hid
    exact hpost (mem_map.mpr ⟨p, hp, eq_of_beq hid⟩)
  · intro p hp hid
    exact hdisjoint p.id (mem_map_of_mem hp) q.id mem_cons_self (eq_of_beq hid)

theorem Inv.giveUp (hr : Inv r) (key : ReassemblyKey) : Inv (r.giveUp key) := by
  cases h : r.buffers.lookup key with
  | none =>
    rw [giveUp_none h]
    exact hr
  | some old =>
    rw [giveUp_some h]
    refine ⟨?_, ?_, ?_⟩
    · rw [map_append]
      refine Nodup.append hr.ids_nodup numbered_nodup ?_
      intro id hid hid'
      obtain ⟨q, hq, rfl⟩ := mem_map.mp hid
      obtain ⟨q', hq', heq⟩ := mem_map.mp hid'
      exact absurd heq (Nat.ne_of_gt (Nat.lt_of_le_of_lt (hr.ids_le q hq) (numbered_id hq').1))
    · exact forall_mem_append.mpr
        ⟨fun q hq => Nat.le_trans (hr.ids_le q hq) (Nat.le_add_right _ _),
          fun q hq => (numbered_id hq).2⟩
    · exact fun k b hb => hr.within k b (AList.lookup_of_erase hb)

theorem buffered_erase {buffers : AList fun _ : ReassemblyKey => PartialMessage}
    (h : buffers.lookup key = some old) :
    (buffered buffers).Perm (itemsOf key.1 old ++ buffered (buffers.erase key)) :=
  (AList.entries_perm_erase h).flatMap_right _

theorem buffered_insert (buffers : AList fun _ : ReassemblyKey => PartialMessage) :
    buffered (buffers.insert key old) = itemsOf key.1 old ++ buffered (buffers.erase key) := rfl

/-- The parts of the buffer move to the queue, and everything else stays. -/
theorem shifts_giveUp (hr : Inv r) : Shifts r (r.giveUp key) := by
  cases h : r.buffers.lookup key with
  | none =>
    rw [giveUp_none h]
    exact Shifts.refl r
  | some old =>
    have hinv := hr.giveUp key
    rw [giveUp_some h] at hinv ⊢
    refine ⟨?_, Nat.le_add_right _ _, ?_⟩
    · unfold content
      rw [map_append, numbered_items, append_assoc]
      exact (buffered_erase h).symm.append_left _
    · intro e place hplace
      cases place with
      | buffer =>
        obtain ⟨b, hb, htotal, htext⟩ := hplace
        by_cases hkey : e.key = key
        · subst hkey
          rw [h] at hb
          cases hb
          obtain ⟨id, hlt, hid⟩ := exists_numbered e.key.1 old.total r.nextPendingId
            (U8Map.mem_entries.mpr htext)
          refine ⟨.queue id, hlt, ?_⟩
          have hentry := filter_id_eq hinv.ids_nodup (mem_append_right r.pending hid)
          exact hentry.trans (by rw [htotal]; rfl)
        · refine ⟨.buffer, trivial, b, ?_, htotal, htext⟩
          exact (AList.lookup_erase_ne hkey).trans hb
      | queue id =>
        refine ⟨.queue id, rfl, ?_⟩
        have hmem : e.entry id ∈ r.pending :=
          mem_of_mem_filter (hplace ▸ mem_singleton_self (e.entry id))
        exact filter_id_eq hinv.ids_nodup (mem_append_left _ hmem)

theorem shifts_order (r : Reassembly) (order : List ReassemblyKey) : Shifts r { r with order } where
  content_perm := Perm.refl _
  next_le := Nat.le_refl _
  holds := fun _ place h => ⟨place, Follows.refl _ place, by cases place <;> exact h⟩

theorem Inv.order (hr : Inv r) (order : List ReassemblyKey) : Inv { r with order } :=
  { hr with }

/-- Giving up a buffer and its place in the order: reuse of a reference, and expiry. -/
theorem shifts_discard (hr : Inv r) (key : ReassemblyKey) :
    Shifts r ((r.giveUp key).dropOrder key) ∧ Inv ((r.giveUp key).dropOrder key) :=
  ⟨(shifts_giveUp hr).trans (shifts_order _ _), (hr.giveUp key).order _⟩

theorem shifts_evict (hr : Inv r) : Shifts r r.evict ∧ Inv r.evict := by
  unfold evict
  split
  · cases horder : r.order with
    | nil => exact ⟨Shifts.refl r, hr⟩
    | cons oldest rest =>
      have hr' := hr.order rest
      exact ⟨(shifts_order r rest).trans (shifts_giveUp hr'), hr'.giveUp oldest⟩
  · exact ⟨Shifts.refl r, hr⟩

/-! ## Taking a part in -/

/-- A new buffer is empty, and no part was held under its key. -/
theorem shifts_insert_empty (hr : Inv r) (h : r.buffers.lookup key = none) (total : UInt8)
    (now : Nat) (order : List ReassemblyKey) :
    let buffers := r.buffers.insert key { total, parts := U8Map.empty, lastUpdated := now }
    Shifts r { r with buffers, order } ∧ Inv { r with buffers, order } := by
  intro buffers
  refine ⟨⟨?_, Nat.le_refl _, ?_⟩, ⟨hr.ids_nodup, hr.ids_le, ?_⟩⟩
  · have hentries : buffers.entries = _ :: r.buffers.entries :=
      AList.entries_insert_of_notMem (AList.lookup_eq_none.mp h)
    unfold content buffered
    rw [hentries, flatMap_cons, itemsOf, U8Map.entries_empty]
    exact Perm.refl _
  · intro e place hplace
    refine ⟨place, Follows.refl _ place, ?_⟩
    cases place with
    | buffer =>
      obtain ⟨b, hb, hrest⟩ := hplace
      have hne : e.key ≠ key := fun heq => by
        rw [heq, h] at hb
        cases hb
      exact ⟨b, (AList.lookup_insert_ne hne).trans hb, hrest⟩
    | queue id => exact hplace
  · intro k b hb
    by_cases hk : k = key
    · subst hk
      rw [AList.lookup_insert] at hb
      cases hb
      exact U8Map.within_empty
    · exact hr.within k b ((AList.lookup_insert_ne hk).symm.trans hb)

theorem giveUp_lookup_none (other : ReassemblyKey) (h : r.buffers.lookup key = none) :
    (r.giveUp other).buffers.lookup key = none := by
  cases ho : r.buffers.lookup other with
  | none =>
    rw [giveUp_none ho]
    exact h
  | some old =>
    rw [giveUp_some ho]
    by_cases hk : key = other
    · rw [hk, AList.lookup_erase]
    · rw [AList.lookup_erase_ne hk, h]

theorem evict_lookup_none (h : r.buffers.lookup key = none) :
    r.evict.buffers.lookup key = none := by
  unfold evict
  split
  · cases r.order with
    | nil => exact h
    | cons oldest rest => exact giveUp_lookup_none oldest h
  · exact h

/-- There is a buffer afterwards, the one that was there or an empty one. -/
theorem shifts_provide (hr : Inv r) (key : ReassemblyKey) (total : UInt8) (now : Nat) :
    Shifts r (r.provide key total now) ∧ Inv (r.provide key total now) ∧
      (r.provide key total now).buffers.lookup key =
        some ((r.buffers.lookup key).getD { total, parts := U8Map.empty, lastUpdated := now }) := by
  unfold provide
  cases h : r.buffers.lookup key with
  | none =>
    obtain ⟨hshift, hinv⟩ := shifts_evict hr
    obtain ⟨hshift', hinv'⟩ := shifts_insert_empty hinv (evict_lookup_none h) total now
      (r.evict.order ++ [key])
    exact ⟨hshift.trans hshift', hinv', AList.lookup_insert _⟩
  | some b =>
    exact ⟨Shifts.refl r, hr, h⟩

/-- A part is put into its buffer: it is held there, and so is everything that was
held before. -/
structure Stores (r r' : Reassembly) (e : Accepted) : Prop where
  inv : Inv r'
  next_le : r.nextPendingId ≤ r'.nextPendingId
  holds_new : Holds r' e .buffer
  holds : ∀ e place, Holds r e place → ∃ place', Follows r.nextPendingId place place' ∧
    Holds r' e place'
  /-- A part that was there already is not held twice. -/
  content_perm : r'.content.Perm r.content ∧ Holds r e .buffer ∨
    r'.content.Perm (e.item :: r.content) ∧ ¬ Holds r e .buffer

/-- A part that is well numbered. -/
def Sound (part : ConcatPart) : Prop :=
  1 ≤ part.sequence.toNat ∧ part.sequence.toNat ≤ part.total.toNat

section Store

variable {e : Accepted} {b : PartialMessage} {now : Nat}

theorem store_fst (hb : r.buffers.lookup e.key = some b) :
    (r.store e.key e.part e.text now).1 =
      { r with
        buffers := r.buffers.insert e.key
          { b with parts := b.parts.insert e.part.sequence e.text, lastUpdated := now } } := by
  unfold store
  rw [hb]

theorem store_snd (hb : r.buffers.lookup e.key = some b) :
    (r.store e.key e.part e.text now).2 =
      if (b.parts.insert e.part.sequence e.text).len = b.total.toNat then
        .complete (b.parts.insert e.part.sequence e.text).values.flatten
      else .pending := by
  unfold store
  rw [hb]

theorem Inv.store (hr : Inv r) (hsound : Sound e.part) (hb : r.buffers.lookup e.key = some b)
    (htotal : b.total = e.part.total) : Inv (r.store e.key e.part e.text now).1 := by
  rw [store_fst hb]
  refine ⟨hr.ids_nodup, hr.ids_le, fun k b' hb' => ?_⟩
  by_cases hk : k = e.key
  · subst hk
    rw [AList.lookup_insert] at hb'
    cases hb'
    exact (hr.within _ b hb).insert _ (htotal ▸ hsound)
  · exact hr.within k b' ((AList.lookup_insert_ne hk).symm.trans hb')

/-- What is held stays where it is. -/
theorem holds_store (hb : r.buffers.lookup e.key = some b)
    (hfree : b.parts e.part.sequence = none ∨ b.parts e.part.sequence = some e.text)
    {f : Accepted} {place : Place} (hplace : Holds r f place) :
    Holds (r.store e.key e.part e.text now).1 f place := by
  rw [store_fst hb]
  cases place with
  | queue id => exact hplace
  | buffer =>
    obtain ⟨b', hb', htotal', htext⟩ := hplace
    by_cases hk : f.key = e.key
    · -- the same buffer: another position, or this one with the same text
      rw [hk, hb] at hb'
      cases hb'
      refine ⟨_, (congrArg (AList.lookup · _) hk).trans (AList.lookup_insert _), htotal', ?_⟩
      by_cases hseq : f.part.sequence = e.part.sequence
      · rw [hseq] at htext ⊢
        rw [htext] at hfree
        cases hfree with
        | inl hnone => cases hnone
        | inr hsame => exact (U8Map.insert_self _).trans hsame.symm
      · exact (U8Map.insert_ne hseq).trans htext
    · exact ⟨b', (AList.lookup_insert_ne hk).trans hb', htotal', htext⟩

/-- A part for an empty position is one more item; one that is there already is not. -/
theorem content_store (hb : r.buffers.lookup e.key = some b) (htotal : b.total = e.part.total)
    (hfree : b.parts e.part.sequence = none ∨ b.parts e.part.sequence = some e.text) :
    (r.store e.key e.part e.text now).1.content.Perm r.content ∧ Holds r e .buffer ∨
      (r.store e.key e.part e.text now).1.content.Perm (e.item :: r.content) ∧
        ¬ Holds r e .buffer := by
  rw [store_fst hb, content, buffered_insert]
  have hold := (buffered_erase hb).append_left (r.pending.map queuedItem)
  cases hfree with
  | inl hnone =>
    have hitems : (itemsOf e.sender
        { b with parts := b.parts.insert e.part.sequence e.text, lastUpdated := now }).Perm
        (e.item :: itemsOf e.sender b) := by
      unfold Accepted.item
      rw [← htotal]
      exact (U8Map.entries_insert_perm hnone).map
        fun part => (e.sender, part.1, b.total, part.2)
    refine .inr ⟨((hitems.append_right _).append_left _).trans ?_, ?_⟩
    · exact perm_middle.trans (hold.symm.cons _)
    · rintro ⟨b', hb', -, htext⟩
      rw [hb] at hb'
      cases hb'
      rw [hnone] at htext
      cases htext
  | inr hsame =>
    refine .inl ⟨?_, b, hb, htotal, hsame⟩
    rw [U8Map.insert_eq_self hsame]
    exact hold.symm

theorem stores_store (hr : Inv r) (hsound : Sound e.part) (hb : r.buffers.lookup e.key = some b)
    (htotal : b.total = e.part.total)
    (hfree : b.parts e.part.sequence = none ∨ b.parts e.part.sequence = some e.text) :
    Stores r (r.store e.key e.part e.text now).1 e where
  inv := hr.store hsound hb htotal
  next_le := by rw [store_fst hb]
  holds_new := by
    rw [store_fst hb]
    exact ⟨_, AList.lookup_insert _, htotal, U8Map.insert_self _⟩
  holds := fun _ place hplace => ⟨place, Follows.refl _ place, holds_store hb hfree hplace⟩
  content_perm := content_store hb htotal hfree

end Store

/-- A part stored after others have moved. -/
theorem Stores.of_shifts {r₁ r' : Reassembly} {e : Accepted} (hshift : Shifts r r₁)
    (hheld : Holds r₁ e .buffer ↔ Holds r e .buffer) (h : Stores r₁ r' e) : Stores r r' e where
  inv := h.inv
  next_le := Nat.le_trans hshift.next_le h.next_le
  holds_new := h.holds_new
  holds := fun f place hf => by
    obtain ⟨place', hfollows, hf'⟩ := hshift.holds f place hf
    obtain ⟨place'', hfollows', hf''⟩ := h.holds f place' hf'
    exact ⟨place'', hfollows.trans hshift.next_le hfollows', hf''⟩
  content_perm := by
    rw [← hheld]
    cases h.content_perm with
    | inl hsame => exact .inl ⟨hsame.1.trans hshift.content_perm, hsame.2⟩
    | inr hnew => exact .inr ⟨hnew.1.trans (hshift.content_perm.cons _), hnew.2⟩

section Admission

variable {e : Accepted} {b : PartialMessage} {now : Nat}

/-- The buffer under the part's key, if any, has room for it. -/
def Fits (r : Reassembly) (e : Accepted) : Prop :=
  ∀ b, r.buffers.lookup e.key = some b → b.total = e.part.total ∧
    (b.parts e.part.sequence = none ∨ b.parts e.part.sequence = some e.text)

theorem holds_provide (hr : Inv r) :
    Holds (r.provide e.key e.part.total now) e .buffer ↔ Holds r e .buffer := by
  obtain ⟨-, -, hlookup⟩ := shifts_provide hr e.key e.part.total now
  unfold Holds
  rw [hlookup]
  cases h : r.buffers.lookup e.key with
  | some b => exact Iff.rfl
  | none =>
    constructor
    · rintro ⟨b, hb, -, htext⟩
      cases hb
      cases htext
    · rintro ⟨b, hb, -⟩
      cases hb

/-- What a completed buffer is joined from. -/
def Completed (r : Reassembly) (key : ReassemblyKey) (joined : Text) : Prop :=
  ∃ b, r.buffers.lookup key = some b ∧ b.parts.len = b.total.toNat ∧
    joined = b.parts.values.flatten

variable (now) in
theorem store_completed (hb : r.buffers.lookup e.key = some b) :
    let r' := r.store e.key e.part e.text now
    r'.2 ≠ .malformed ∧ ∀ joined, r'.2 = .complete joined → Completed r'.1 e.key joined := by
  dsimp only
  rw [store_snd hb, store_fst hb]
  split
  · refine ⟨nofun, ?_⟩
    rintro joined ⟨⟩
    exact ⟨_, AList.lookup_insert _, ‹_›, rfl⟩
  · exact ⟨nofun, nofun⟩

/-- A part is refused without effect, or stored. -/
structure Admits (r : Reassembly) (result : Reassembly × PartOutcome) (e : Accepted) : Prop where
  accepted : result.2 ≠ .malformed
  stores : Stores r result.1 e
  sound : Sound e.part
  completed : ∀ joined, result.2 = .complete joined → Completed result.1 e.key joined

/-- A part that fits is stored, also after others have moved. -/
theorem admits_fits {r₀ : Reassembly} (hmoved : Shifts r₀ r)
    (hheld : Holds r e .buffer ↔ Holds r₀ e .buffer) (hr : Inv r) (hsound : Sound e.part)
    (hfits : Fits r e) :
    Admits r₀ ((r.provide e.key e.part.total now).store e.key e.part e.text now) e := by
  obtain ⟨hshift, hinv, hlookup⟩ := shifts_provide hr e.key e.part.total now
  have hroom : ∃ b, (r.provide e.key e.part.total now).buffers.lookup e.key = some b ∧
      b.total = e.part.total ∧
      (b.parts e.part.sequence = none ∨ b.parts e.part.sequence = some e.text) := by
    cases h : r.buffers.lookup e.key with
    | some b =>
      rw [h] at hlookup
      exact ⟨b, hlookup, hfits b h⟩
    | none =>
      rw [h] at hlookup
      exact ⟨_, hlookup, rfl, .inl rfl⟩
  obtain ⟨b, hb, htotal, hfree⟩ := hroom
  obtain ⟨haccept, hcompleted⟩ := store_completed now hb
  exact ⟨haccept, (stores_store hinv hsound hb htotal hfree).of_shifts (hmoved.trans hshift)
    ((holds_provide hr).trans hheld), hsound, hcompleted⟩

theorem sound_of_checks
    (h : ¬ (e.part.total = 0 ∨ e.part.sequence = 0 ∨ e.part.total < e.part.sequence)) :
    Sound e.part := by
  obtain ⟨-, h⟩ := not_or.mp h
  obtain ⟨hzero, hle⟩ := not_or.mp h
  refine ⟨Nat.one_le_iff_ne_zero.mpr fun h0 => hzero (UInt8.toNat_inj.mp h0), ?_⟩
  exact UInt8.le_iff_toNat_le.mp (UInt8.not_lt.mp hle)

theorem admitPart_eq
    (h : ¬ (e.part.total = 0 ∨ e.part.sequence = 0 ∨ e.part.total < e.part.sequence)) :
    r.admitPart e.sender e.part e.text now =
      match r.buffers.lookup e.key with
      | some existing =>
        if existing.total ≠ e.part.total then (r, .malformed)
        else ((if conflicts existing e.part e.text then (r.giveUp e.key).dropOrder e.key
          else r).provide e.key e.part.total now).store e.key e.part e.text now
      | none => (r.provide e.key e.part.total now).store e.key e.part e.text now :=
  if_neg h

theorem conflicts_ne (h : conflicts b e.part e.text = true) :
    b.parts e.part.sequence ≠ some e.text := by
  intro htext
  unfold conflicts at h
  rw [htext] at h
  exact absurd rfl (bne_iff_ne.mp h)

theorem fits_of_not_conflicts (h : conflicts b e.part e.text ≠ true) :
    b.parts e.part.sequence = none ∨ b.parts e.part.sequence = some e.text := by
  unfold conflicts at h
  cases htext : b.parts e.part.sequence with
  | none => exact .inl rfl
  | some held =>
    rw [htext] at h
    exact .inr (congrArg some (not_not.mp (mt bne_iff_ne.mpr h)))

/-- A buffer that disagrees is given up, and the part gets an empty one. -/
theorem admits_discard (hr : Inv r) (hsound : Sound e.part) {existing : PartialMessage}
    (h : r.buffers.lookup e.key = some existing)
    (hconflict : conflicts existing e.part e.text = true) :
    Admits r ((((r.giveUp e.key).dropOrder e.key).provide e.key e.part.total now).store e.key
      e.part e.text now) e := by
  obtain ⟨hshift, hinv⟩ := shifts_discard hr e.key
  have hgone : ((r.giveUp e.key).dropOrder e.key).buffers.lookup e.key = none := by
    rw [giveUp_some h]
    exact AList.lookup_erase _ _
  refine admits_fits hshift ⟨?_, ?_⟩ hinv hsound fun b hb => ?_
  · rintro ⟨b, hb, -⟩
    cases hgone.symm.trans hb
  · rintro ⟨b, hb, -, htext⟩
    cases h.symm.trans hb
    exact absurd htext (conflicts_ne hconflict)
  · cases hgone.symm.trans hb

variable (e now) in
/-- `admitPart` refuses a part and changes nothing, or takes it in. -/
theorem admitPart_cases (hr : Inv r) :
    r.admitPart e.sender e.part e.text now = (r, .malformed) ∨
      Admits r (r.admitPart e.sender e.part e.text now) e := by
  by_cases hchecks : e.part.total = 0 ∨ e.part.sequence = 0 ∨ e.part.total < e.part.sequence
  · exact .inl (if_pos hchecks)
  have hsound := sound_of_checks hchecks
  rw [admitPart_eq hchecks]
  cases h : r.buffers.lookup e.key with
  | none =>
    refine .inr (admits_fits (.refl r) .rfl hr hsound fun b hb => ?_)
    cases h.symm.trans hb
  | some existing =>
    dsimp only
    split
    · exact .inl rfl
    rename_i htotal
    refine .inr ?_
    split
    · rename_i hconflict
      exact admits_discard hr hsound h hconflict
    rename_i hconflict
    refine admits_fits (.refl r) .rfl hr hsound fun b hb => ?_
    cases h.symm.trans hb
    exact ⟨not_not.mp htotal, fits_of_not_conflicts hconflict⟩

end Admission

/-! ## Accepted parts are kept

An accepted part was acknowledged to the network, which will not send it again. It
is in its buffer, or under one id of the queue, and only a delivery takes it out. -/

variable {last : Option (Text × ConcatPart × Text)}

/-! ### Runs -/

inductive Op where
  | part (e : Accepted) (now : Nat)
  | expire (now : Nat) (iter : List ReassemblyKey)
  | flushDelivered (id : Nat)
  | delivered (sender : Text) (part : ConcatPart)

def outcome (r : Reassembly) (e : Accepted) (now : Nat) : PartOutcome :=
  (r.admitPart e.sender e.part e.text now).2

def step (r : Reassembly) : Op → Reassembly
  | .part e now => (r.admitPart e.sender e.part e.text now).1
  | .expire now iter => r.expireDue now iter
  | .flushDelivered id => r.markFlushDelivered id
  | .delivered sender part => r.markDelivered sender part

/-- The message the operation just completed. -/
def lastAfter (r : Reassembly) : Op → Option (Text × ConcatPart × Text)
  | .part e now =>
    match r.outcome e now with
    | .complete joined => some (e.sender, e.part, joined)
    | _ => none
  | _ => none

/-- The map is walked once through all its keys, and only a message that was just
completed is marked delivered. -/
def Allowed (r : Reassembly) (last : Option (Text × ConcatPart × Text)) : Op → Prop
  | .expire _ iter => iter.Perm r.buffers.keys
  | .delivered sender part => ∃ joined, last = some (sender, part, joined)
  | _ => True

def Legal : Reassembly → Option (Text × ConcatPart × Text) → List Op → Prop
  | _, _, [] => True
  | r, last, op :: ops => r.Allowed last op ∧ Legal (r.step op) (r.lastAfter op) ops

def run (r : Reassembly) (ops : List Op) : Reassembly :=
  ops.foldl step r

/-- The part leaves with a completed message that has its text at its position, or
from its id of the queue. -/
def Leaves (e : Accepted) (last : Option (Text × ConcatPart × Text)) : Place → Op → Prop
  | .buffer, .delivered sender part => (sender, part.reference) = e.key ∧
      ∃ texts : List Text, last = some (sender, part, texts.flatten) ∧
        texts.length = e.part.total.toNat ∧ texts[e.part.sequence.toNat - 1]? = some e.text
  | .queue id, .flushDelivered id' => id = id'
  | _, _ => False

/-- The part is held until it leaves. -/
def Kept (e : Accepted) :
    Place → Reassembly → Option (Text × ConcatPart × Text) → List Op → Prop
  | place, r, _, [] => Holds r e place
  | place, r, last, op :: ops => Holds r e place ∧
      (Leaves e last place op ∨
        ∃ place', Follows r.nextPendingId place place' ∧
          Kept e place' (r.step op) (r.lastAfter op) ops)

/-- What an operation does to everything that is held: a part is added once, and only
deliveries remove. -/
def Conserves (r : Reassembly) : Op → Prop
  | .part e now =>
    (r.outcome e now = .malformed ∧ r.step (.part e now) = r) ∨
    (r.outcome e now ≠ .malformed ∧ Holds r e .buffer ∧
      (r.step (.part e now)).content.Perm r.content) ∨
    (r.outcome e now ≠ .malformed ∧ ¬ Holds r e .buffer ∧
      (r.step (.part e now)).content.Perm (e.item :: r.content))
  | .expire now iter => (r.step (.expire now iter)).content.Perm r.content
  | .flushDelivered id => r.content.Perm
      ((r.pending.filter (·.id == id)).map queuedItem ++ (r.step (.flushDelivered id)).content)
  | .delivered sender part => ∃ b, r.buffers.lookup (sender, part.reference) = some b ∧
      r.content.Perm (itemsOf sender b ++ (r.step (.delivered sender part)).content)

/-- The invariant, and that the last completed message is still in its buffer. -/
structure Reached (r : Reassembly) (last : Option (Text × ConcatPart × Text)) : Prop where
  inv : Inv r
  completed : ∀ sender part joined, last = some (sender, part, joined) →
    Completed r (sender, part.reference) joined

theorem shifts_expireDue (hr : Inv r) (now : Nat) (iter : List ReassemblyKey) :
    Shifts r (r.expireDue now iter) ∧ Inv (r.expireDue now iter) := by
  unfold expireDue
  generalize r.expiredKeys now iter = keys
  induction keys generalizing r with
  | nil => exact ⟨Shifts.refl r, hr⟩
  | cons key keys ih =>
    obtain ⟨hshift, hinv⟩ := shifts_discard hr key
    obtain ⟨hshift', hinv'⟩ := ih hinv
    exact ⟨hshift.trans hshift', hinv'⟩

theorem Inv.markFlushDelivered (hr : Inv r) (id : Nat) : Inv (r.markFlushDelivered id) where
  ids_nodup := (filter_sublist.map _).nodup hr.ids_nodup
  ids_le := fun q hq => hr.ids_le q (mem_of_mem_filter hq)
  within := hr.within

theorem Inv.markDelivered (hr : Inv r) (sender : Text) (part : ConcatPart) :
    Inv (r.markDelivered sender part) where
  ids_nodup := hr.ids_nodup
  ids_le := hr.ids_le
  within := fun k b hb => hr.within k b (AList.lookup_of_erase hb)

theorem outcome_of_lastAfter {e : Accepted} {now : Nat} {sender joined : Text} {part : ConcatPart}
    (h : r.lastAfter (.part e now) = some (sender, part, joined)) :
    r.outcome e now = .complete joined ∧ e.sender = sender ∧ e.part = part := by
  simp only [lastAfter] at h
  split at h
  case h_1 hout =>
    cases h
    exact ⟨hout, rfl, rfl⟩
  case h_2 => cases h

theorem Reached.step (h : Reached r last) (op : Op) : Reached (r.step op) (r.lastAfter op) := by
  cases op with
  | part e now =>
    cases admitPart_cases e now h.inv with
    | inl hrefused =>
      have hsame : r.step (.part e now) = r := congrArg Prod.fst hrefused
      refine ⟨by rw [hsame]; exact h.inv, ?_⟩
      intro sender part joined hlast
      have hrefused' : r.outcome e now = .malformed := congrArg Prod.snd hrefused
      rw [(outcome_of_lastAfter hlast).1] at hrefused'
      cases hrefused'
    | inr hadmits =>
      refine ⟨hadmits.stores.inv, ?_⟩
      intro sender part joined hlast
      obtain ⟨hout, rfl, rfl⟩ := outcome_of_lastAfter hlast
      exact hadmits.completed joined hout
  | expire now iter => exact ⟨(shifts_expireDue h.inv now iter).2, nofun⟩
  | flushDelivered id => exact ⟨h.inv.markFlushDelivered id, nofun⟩
  | delivered sender part => exact ⟨h.inv.markDelivered sender part, nofun⟩

/-- A completed buffer has a text at every position. -/
theorem texts_of_full {b : PartialMessage} (hwithin : b.parts.Within b.total.toNat)
    (hfull : b.parts.len = b.total.toNat) {sequence : UInt8} {text : Text}
    (htext : b.parts sequence = some text) :
    ∃ texts : List Text, b.parts.values = texts ∧ texts.length = b.total.toNat ∧
      texts[sequence.toNat - 1]? = some text := by
  have htotal : b.total.toNat ≤ 255 := Nat.le_of_lt_succ b.total.toNat_lt
  have hsome := (hwithin.len_eq_iff htotal).mp hfull
  have hvalues := hwithin.values (f := fun k => (b.parts k).getD []) htotal fun k h1 h2 => by
    obtain ⟨v, hv⟩ := Option.isSome_iff_exists.mp (hsome k h1 h2)
    rw [hv]
    rfl
  obtain ⟨hlow, hhigh⟩ := hwithin sequence (htext ▸ rfl)
  refine ⟨_, hvalues, ?_, ?_⟩
  · rw [length_map, U8Map.keysFrom_length]
  · have hkey : (U8Map.keysFrom 1 b.total.toNat)[sequence.toNat - 1]? = some sequence := by
      unfold U8Map.keysFrom
      rw [getElem?_map, getElem?_range' (by omega)]
      dsimp only [Option.map]
      rw [show 1 + 1 * (sequence.toNat - 1) = sequence.toNat by omega, UInt8.ofNat_toNat]
    rw [getElem?_map, hkey, Option.map_some, htext]
    rfl

section Step

variable {e : Accepted} {op : Op} {place : Place}

/-- A flush that is confirmed leaves the queue, and no other one does. -/
theorem holds_flushDelivered {id id' : Nat} (hplace : Holds r e (.queue id')) (hid : id' ≠ id) :
    Holds (r.step (.flushDelivered id)) e (.queue id') := by
  change (r.pending.filter (·.id != id)).filter (·.id == id') = [e.entry id']
  rw [filter_filter]
  refine Eq.trans (filter_congr ?_) hplace
  intro q _
  by_cases hq : q.id = id'
  · rw [hq, beq_self_eq_true]
    exact bne_iff_ne.mpr hid
  · rw [beq_false_of_ne hq, Bool.false_and]

variable (h : Reached r last)

include h

/-- The message that a confirmed delivery is of was joined from the texts of all its
parts, the held one among them. -/
theorem leaves_delivered {sender : Text} {part : ConcatPart}
    (hallow : r.Allowed last (.delivered sender part)) (hplace : Holds r e .buffer)
    (hkey : (sender, part.reference) = e.key) : Leaves e last .buffer (.delivered sender part) := by
  obtain ⟨b, hb, htotal, htext⟩ := hplace
  obtain ⟨joined, hlast⟩ := hallow
  obtain ⟨b', hb', hfull, hjoined⟩ := h.completed sender part joined hlast
  rw [hkey, hb] at hb'
  cases hb'
  obtain ⟨texts, hvalues, hlength, hat⟩ := texts_of_full (h.inv.within _ b hb) hfull htext
  refine ⟨hkey, texts, ?_, htotal ▸ hlength, hat⟩
  rw [hlast, hjoined, hvalues]

/-- One operation leaves a held part held, or delivers it. -/
theorem holds_step (hallow : r.Allowed last op) (hplace : Holds r e place) :
    Leaves e last place op ∨
      ∃ place', Follows r.nextPendingId place place' ∧ Holds (r.step op) e place' := by
  cases op with
  | part f now =>
    refine .inr ?_
    cases admitPart_cases f now h.inv with
    | inl hrefused =>
      have hsame : r.step (.part f now) = r := congrArg Prod.fst hrefused
      exact ⟨place, Follows.refl _ place, by rw [hsame]; exact hplace⟩
    | inr hadmits => exact hadmits.stores.holds e place hplace
  | expire now iter => exact .inr ((shifts_expireDue h.inv now iter).1.holds e place hplace)
  | flushDelivered id =>
    cases place with
    | buffer => exact .inr ⟨.buffer, trivial, hplace⟩
    | queue id' =>
      by_cases hid : id' = id
      · exact .inl hid
      · exact .inr ⟨.queue id', rfl, holds_flushDelivered hplace hid⟩
  | delivered sender part =>
    cases place with
    | queue id => exact .inr ⟨.queue id, rfl, hplace⟩
    | buffer =>
      by_cases hkey : (sender, part.reference) = e.key
      · exact .inl (leaves_delivered h hallow hplace hkey)
      · obtain ⟨b, hb, hrest⟩ := hplace
        exact .inr ⟨.buffer, trivial, b,
          (AList.lookup_erase_ne fun heq => hkey heq.symm).trans hb, hrest⟩

theorem kept_of_holds {ops : List Op} (hlegal : Legal r last ops) (hplace : Holds r e place) :
    Kept e place r last ops := by
  induction ops generalizing r last place with
  | nil => exact hplace
  | cons op ops ih =>
    refine ⟨hplace, ?_⟩
    cases holds_step h hlegal.1 hplace with
    | inl hleaves => exact .inl hleaves
    | inr hmoves =>
      obtain ⟨place', hfollows, hplace'⟩ := hmoves
      exact .inr ⟨place', hfollows, ih (h.step op) hlegal.2 hplace'⟩

theorem conserves (hallow : r.Allowed last op) : Conserves r op := by
  cases op with
  | part e now =>
    cases admitPart_cases e now h.inv with
    | inl hrefused => exact .inl ⟨congrArg Prod.snd hrefused, congrArg Prod.fst hrefused⟩
    | inr hadmits =>
      cases hadmits.stores.content_perm with
      | inl hsame => exact .inr (.inl ⟨hadmits.accepted, hsame.2, hsame.1⟩)
      | inr hnew => exact .inr (.inr ⟨hadmits.accepted, hnew.2, hnew.1⟩)
  | expire now iter => exact (shifts_expireDue h.inv now iter).1.content_perm
  | flushDelivered id =>
    have hsplit : r.pending.Perm (r.pending.filter (·.id == id) ++ r.pending.filter (·.id != id)) :=
      (filter_append_perm (·.id == id) r.pending).symm
    have hitems := (hsplit.map queuedItem).append_right (buffered r.buffers)
    rw [map_append, append_assoc] at hitems
    exact hitems
  | delivered sender part =>
    obtain ⟨joined, hlast⟩ := hallow
    obtain ⟨b, hb, -⟩ := h.completed sender part joined hlast
    refine ⟨b, hb, ?_⟩
    have hitems := (buffered_erase hb).append_left (r.pending.map queuedItem)
    refine hitems.trans ?_
    rw [← append_assoc]
    exact (perm_append_comm.append_right _).trans (append_assoc _ _ _ ▸ Perm.refl _)

end Step

theorem Reached.new (capacity : Nat) : Reached (Reassembly.new capacity) none :=
  ⟨inv_new capacity, nofun⟩

/-- The state and the last completed message behind a prefix of a legal run. -/
theorem legal_append {pre ops : List Op} (h : Reached r last) (hlegal : Legal r last (pre ++ ops)) :
    ∃ last', Reached (r.run pre) last' ∧ Legal (r.run pre) last' ops := by
  induction pre generalizing r last with
  | nil => exact ⟨last, h, hlegal⟩
  | cons op pre ih => exact ih (h.step op) hlegal.2

/-- Along every legal run the ids of the queue are distinct, operations conserve what
is held, and an accepted part stays in its buffer or under one id of the queue until it
is delivered. -/
theorem parts_retained (capacity : Nat) (ops : List Op)
    (hlegal : Legal (Reassembly.new capacity) none ops) (pre : List Op) (op : Op) (post : List Op)
    (hops : ops = pre ++ op :: post) :
    let r := (Reassembly.new capacity).run pre
    (r.pending.map QueuedFlush.id).Nodup ∧ ((r.step op).pending.map QueuedFlush.id).Nodup ∧
      Conserves r op ∧
      ∀ e now, op = .part e now → r.outcome e now ≠ .malformed →
        Kept e .buffer (r.step op) (r.lastAfter op) post := by
  subst hops
  obtain ⟨last, hreached, hallowed, hlegal'⟩ := legal_append (Reached.new capacity) hlegal
  refine ⟨hreached.inv.ids_nodup, (hreached.step op).inv.ids_nodup, conserves hreached hallowed, ?_⟩
  rintro e now rfl haccepted
  refine kept_of_holds (hreached.step _) hlegal' ?_
  cases admitPart_cases e now hreached.inv with
  | inl hrefused => exact absurd (congrArg Prod.snd hrefused) haccepted
  | inr hadmits => exact hadmits.stores.holds_new

/-- The first of two parts. -/
def firstOfTwo : Accepted :=
  { sender := "+491", part := { reference := 7, sequence := 1, total := 2 }, text := "a" }

/-- A message of one part from another sender. -/
def singleton : Accepted :=
  { sender := "+492", part := { reference := 7, sequence := 1, total := 1 }, text := "b" }

/-- With room for one buffer, the second message moves the first part to the queue. -/
theorem parts_retained_eviction :
    let run : List Op := [.part firstOfTwo 0, .part singleton 1,
      .delivered singleton.sender singleton.part, .flushDelivered 1]
    Legal (Reassembly.new 1) none run ∧
      Kept firstOfTwo .buffer ((Reassembly.new 1).step (.part firstOfTwo 0))
        ((Reassembly.new 1).lastAfter (.part firstOfTwo 0)) run.tail := by
  intro run
  have hlegal : Legal (Reassembly.new 1) none run :=
    ⟨trivial, trivial, ⟨"b", by decide +kernel⟩, trivial, trivial⟩
  exact ⟨hlegal, (parts_retained 1 run hlegal [] _ _ rfl).2.2.2 firstOfTwo 0 rfl
    (by decide +kernel)⟩

end Volte.Sms.Reassembly
