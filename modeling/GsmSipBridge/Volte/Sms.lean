-- SUMMARY: Inbound texts (`volte/sms.rs`): duplicates, reassembly and its retry queue.
import Mathlib.Data.Finset.Basic
import GsmSipBridge.Ims.SmsPdu
import GsmSipBridge.Lib.Trace
import GsmSipBridge.Lib.Assoc

/-!
# Inbound texts

A message is identified by its sender and body. `Dedupe` remembers the identities
claimed last, and which of them are known to be delivered. `Reassembly` keeps the
parts of multi-part messages until all are there; what a buffer gives up goes to a
queue of single parts. Queue ids come from a 64-bit counter of queued parts, which
does not wrap.
-/

namespace Volte.Sms

open Ims.SmsPdu (ConcatPart)

/-- `InboundMessage::dedupe_key`: neither the route nor the storage index counts. -/
def dedupeKey (sender body : Text) : Text :=
  sender ++ '\x01' :: body

/-- `"[sequence/total] text"`, the body of a part that is delivered on its own. -/
def labelled (sequence total : UInt8) (text : Text) : Text :=
  '[' :: Numeral.display sequence.toNat ++ '/' :: Numeral.display total.toNat ++ ']' :: ' ' :: text

/-! ## Duplicates -/

structure Dedupe where
  /-- Claimed keys, oldest first. -/
  seen : List Text
  capacity : Nat
  confirmed : Finset Text

namespace Dedupe

def new (capacity : Nat) : Dedupe :=
  { seen := [], capacity := max capacity 1, confirmed := ∅ }

def contains (d : Dedupe) (key : Text) : Bool :=
  d.seen.any (· == key)

/-- Drops the oldest claim when there is no room for another. -/
def evict (d : Dedupe) : Dedupe :=
  if d.capacity ≤ d.seen.length then
    match d.seen with
    | evicted :: rest => { d with seen := rest, confirmed := d.confirmed.erase evicted }
    | [] => d
  else d

def admitKey (d : Dedupe) (key : Text) : Dedupe × Bool :=
  if d.contains key then (d, false)
  else ({ d.evict with seen := d.evict.seen ++ [key] }, true)

def isConfirmed (d : Dedupe) (key : Text) : Bool :=
  decide (key ∈ d.confirmed)

def confirm (d : Dedupe) (key : Text) : Dedupe :=
  if d.contains key then { d with confirmed := insert key d.confirmed } else d

def forget (d : Dedupe) (key : Text) : Dedupe :=
  { d with seen := d.seen.filter (· != key), confirmed := d.confirmed.erase key }

end Dedupe

inductive Disposition where
  | handle
  | acknowledgeOnly
  deriving DecidableEq

/-- `decide`, on the key of the message. -/
def decideOn (d : Dedupe) (key : Text) : Dedupe × Disposition :=
  let admitted := d.admitKey key
  (admitted.1, if admitted.2 then .handle else .acknowledgeOnly)

/-! ## Reassembly -/

/-- Three minutes, in nanoseconds. -/
def reassemblyTimeout : Nat := 180000000000

def reassemblyCapacity : Nat := 64

/-- Sender and concatenation reference. -/
abbrev ReassemblyKey := Text × UInt16

structure PartialMessage where
  total : UInt8
  parts : U8Map Text
  lastUpdated : Nat

inductive PartOutcome where
  | complete (joined : Text)
  | pending
  | malformed
  deriving DecidableEq

structure QueuedFlush where
  id : Nat
  sender : Text
  sequence : UInt8
  total : UInt8
  text : Text
  deriving DecidableEq

structure Reassembly where
  buffers : AList fun _ : ReassemblyKey => PartialMessage
  /-- The keys of the buffers, oldest first. -/
  order : List ReassemblyKey
  capacity : Nat
  pending : List QueuedFlush
  nextPendingId : Nat

namespace Reassembly

def new (capacity : Nat) : Reassembly :=
  { buffers := ∅, order := [], capacity := max capacity 1, pending := [], nextPendingId := 0 }

/-- Queues one part of a buffer. -/
def enqueueOne (sender : Text) (total : UInt8) (r : Reassembly) (part : UInt8 × Text) : Reassembly :=
  { r with
    nextPendingId := r.nextPendingId + 1
    pending := r.pending ++
      [{ id := r.nextPendingId + 1, sender, sequence := part.1, total, text := part.2 }] }

def enqueuePending (r : Reassembly) (sender : Text) (msg : PartialMessage) : Reassembly :=
  msg.parts.entries.foldl (enqueueOne sender msg.total) r

/-- `if let Some(old) = self.buffers.remove(&key) { self.enqueue_pending(sender, old) }`. -/
def giveUp (r : Reassembly) (key : ReassemblyKey) : Reassembly :=
  match r.buffers.lookup key with
  | some old => enqueuePending { r with buffers := r.buffers.erase key } key.1 old
  | none => r

/-- `self.order.retain(|k| k != &key)`. -/
def dropOrder (r : Reassembly) (key : ReassemblyKey) : Reassembly :=
  { r with order := r.order.filter (· != key) }

/-- Gives up the oldest buffer when there is no room for another. -/
def evict (r : Reassembly) : Reassembly :=
  if r.capacity ≤ r.buffers.entries.length then
    match r.order with
    | evicted :: rest => giveUp { r with order := rest } evicted
    | [] => r
  else r

/-- A buffer for `key`, empty if there was none. -/
def provide (r : Reassembly) (key : ReassemblyKey) (total : UInt8) (now : Nat) : Reassembly :=
  if r.buffers.lookup key = none then
    let r := r.evict
    { r with
      buffers := r.buffers.insert key { total, parts := U8Map.empty, lastUpdated := now }
      order := r.order ++ [key] }
  else r

/-- Puts the part into its buffer, which is there. -/
def store (r : Reassembly) (key : ReassemblyKey) (part : ConcatPart) (text : Text) (now : Nat) :
    Reassembly × PartOutcome :=
  match r.buffers.lookup key with
  | some buffer =>
    let buffer := { buffer with parts := buffer.parts.insert part.sequence text, lastUpdated := now }
    ({ r with buffers := r.buffers.insert key buffer },
      if buffer.parts.len = buffer.total.toNat then .complete buffer.parts.values.flatten
      else .pending)
  | none => (r, .pending)

/-- The position is taken by another text: the reference is in use for another message. -/
def conflicts (existing : PartialMessage) (part : ConcatPart) (text : Text) : Bool :=
  match existing.parts part.sequence with
  | some held => held != text
  | none => false

def admitPart (r : Reassembly) (sender : Text) (part : ConcatPart) (text : Text) (now : Nat) :
    Reassembly × PartOutcome :=
  if part.total = 0 ∨ part.sequence = 0 ∨ part.total < part.sequence then (r, .malformed)
  else
    let key : ReassemblyKey := (sender, part.reference)
    match r.buffers.lookup key with
    | some existing =>
      if existing.total ≠ part.total then (r, .malformed)
      else
        let r := if conflicts existing part text then (r.giveUp key).dropOrder key else r
        (r.provide key part.total now).store key part text now
    | none => (r.provide key part.total now).store key part text now

def markDelivered (r : Reassembly) (sender : Text) (part : ConcatPart) : Reassembly :=
  let key : ReassemblyKey := (sender, part.reference)
  { r with buffers := r.buffers.erase key }.dropOrder key

/-- The buffers whose last part is too old; `iter` is the order the map is walked in. -/
def expiredKeys (r : Reassembly) (now : Nat) (iter : List ReassemblyKey) : List ReassemblyKey :=
  iter.filter fun key =>
    match r.buffers.lookup key with
    | some buffer => reassemblyTimeout ≤ now - buffer.lastUpdated
    | none => false

def expireDue (r : Reassembly) (now : Nat) (iter : List ReassemblyKey) : Reassembly :=
  (r.expiredKeys now iter).foldl (fun r key => (r.giveUp key).dropOrder key) r

def markFlushDelivered (r : Reassembly) (id : Nat) : Reassembly :=
  { r with pending := r.pending.filter (·.id != id) }

end Reassembly

end Volte.Sms

/-! ## Two routes, one filter

A text may come over the registration and be found in the modem's storage too. Both
routes claim it in one `Dedupe`, whose calls are atomic steps between which anything
else may happen. The sweep deletes the modem's copy, which cannot be undone: it does
so for a text it relayed itself, and for one whose claim it finds confirmed. -/

namespace Volte.Sms.Sweep

open List

/-- What an observer can see: a relay that succeeded, a stored message deleted. -/
inductive Event where
  | relayed (key : Text)
  | deleted (key : Text)

/-- Where an attempt stands between two atomic steps. -/
inductive Process where
  | idle
  /-- `handle_message` before `decide`. -/
  | arrived (key : Text)
  /-- Claimed by `handle_message`; the relay is next. -/
  | relaying (key : Text)
  /-- `deliver_flushed_part` before its relay; it claims nothing. -/
  | flushing (key : Text)
  | confirming (key : Text)
  | forgetting (key : Text)
  /-- `sweep_modem_storage` between two messages: those left, and those to delete. -/
  | sweeping (left toDelete : List Text)
  /-- In `wait_for_resolution`. -/
  | waiting (key : Text) (left toDelete : List Text)
  | sweepRelaying (key : Text) (left toDelete : List Text)
  | sweepConfirming (key : Text) (left toDelete : List Text)
  | sweepForgetting (key : Text) (left toDelete : List Text)
  | deleting (toDelete : List Text)

open Process Event

/-- One atomic step of an attempt. -/
inductive Step : Dedupe → Process → Dedupe → Process → List Event → Prop
  -- the registration
  | arrive {d} (key) : Step d idle d (arrived key) []
  | claim {d d'} {key} (h : decideOn d key = (d', .handle)) :
      Step d (arrived key) d' (relaying key) []
  | repeated {d d'} {key} (h : decideOn d key = (d', .acknowledgeOnly)) :
      Step d (arrived key) d' idle []
  /-- A part that has to wait for others keeps its claim. -/
  | buffered {d} {key} : Step d (relaying key) d idle []
  | relayed {d} {key} : Step d (relaying key) d (confirming key) [.relayed key]
  | failed {d} {key} : Step d (relaying key) d (forgetting key) []
  | confirm {d} {key} : Step d (confirming key) (d.confirm key) idle []
  | forget {d} {key} : Step d (forgetting key) (d.forget key) idle []
  -- a part that waited too long
  | flush {d} (key) : Step d idle d (flushing key) []
  | flushed {d} {key} : Step d (flushing key) d (confirming key) [.relayed key]
  | flushFailed {d} {key} : Step d (flushing key) d idle []
  -- the sweep
  | sweep {d} (left) : Step d idle d (sweeping left []) []
  | sweepClaim {d d'} {key} {left toDelete} (h : decideOn d key = (d', .handle)) :
      Step d (sweeping (key :: left) toDelete) d' (sweepRelaying key left toDelete) []
  | sweepRepeated {d d'} {key} {left toDelete} (h : decideOn d key = (d', .acknowledgeOnly)) :
      Step d (sweeping (key :: left) toDelete) d' (waiting key left toDelete) []
  | foundConfirmed {d} {key} {left toDelete} (h : d.isConfirmed key = true) :
      Step d (waiting key left toDelete) d (sweeping left (toDelete ++ [key])) []
  | reclaim {d} {key} {left toDelete} (h : d.isConfirmed key = false)
      (h' : d.contains key = false) :
      Step d (waiting key left toDelete) (d.admitKey key).1 (sweepRelaying key left toDelete) []
  | poll {d} {key} {left toDelete} (h : d.isConfirmed key = false) (h' : d.contains key = true) :
      Step d (waiting key left toDelete) d (waiting key left toDelete) []
  | timeOut {d} {key} {left toDelete} (h : d.isConfirmed key = false)
      (h' : d.contains key = true) :
      Step d (waiting key left toDelete) d (sweeping left toDelete) []
  | sweepRelayed {d} {key} {left toDelete} :
      Step d (sweepRelaying key left toDelete) d (sweepConfirming key left toDelete) [.relayed key]
  | sweepFailed {d} {key} {left toDelete} :
      Step d (sweepRelaying key left toDelete) d (sweepForgetting key left toDelete) []
  | sweepConfirm {d} {key} {left toDelete} :
      Step d (sweepConfirming key left toDelete) (d.confirm key)
        (sweeping left (toDelete ++ [key])) []
  | sweepForget {d} {key} {left toDelete} :
      Step d (sweepForgetting key left toDelete) (d.forget key) (sweeping left toDelete) []
  /-- No message is left, or no time is. -/
  | sweepDone {d} {left toDelete} : Step d (sweeping left toDelete) d (deleting toDelete) []
  | delete {d} {key} {toDelete} :
      Step d (deleting (key :: toDelete)) d (deleting toDelete) [.deleted key]
  | deleteFailed {d} {key} {toDelete} :
      Step d (deleting (key :: toDelete)) d (deleting toDelete) []
  | finished {d} {toDelete} : Step d (deleting toDelete) d idle []

/-- A line whose filter has room for `capacity` claims and `n` attempts that share it, after
some steps. -/
abbrev Reachable (capacity n : Nat) : Dedupe → List Process → List Event → Prop :=
  Interleave.Reachable Step (fun _ _ => True) (Dedupe.new capacity) (List.replicate n idle)

/-! ### The filter -/

/-- Confirmed keys are claimed, and a relay of each succeeded. -/
structure Confirmed (d : Dedupe) (history : List Event) : Prop where
  seen : ∀ key ∈ d.confirmed, key ∈ d.seen
  relayed : ∀ key ∈ d.confirmed, .relayed key ∈ history

variable {d : Dedupe} {history : List Event} {d' : Dedupe} {key : Text} {p : Process}

section

variable (h : Confirmed d history)

include h

theorem Confirmed.append (es : List Event) : Confirmed d (history ++ es) :=
  ⟨h.seen, fun key hkey => mem_append_left _ (h.relayed key hkey)⟩

theorem Confirmed.evict : Confirmed d.evict history := by
  unfold Dedupe.evict
  split
  · cases hseen : d.seen with
    | nil => exact h
    | cons oldest rest =>
      refine ⟨fun key hkey => ?_, fun key hkey => h.relayed key (Finset.mem_of_mem_erase hkey)⟩
      have hmem := h.seen key (Finset.mem_of_mem_erase hkey)
      rw [hseen] at hmem
      exact (mem_cons.mp hmem).resolve_left (Finset.ne_of_mem_erase hkey)
  · exact h

theorem Confirmed.admitKey (key : Text) : Confirmed (d.admitKey key).1 history := by
  unfold Dedupe.admitKey
  split
  · exact h
  · exact ⟨fun k hk => mem_append_left _ (h.evict.seen k hk), h.evict.relayed⟩

theorem Confirmed.decideOn {disposition : Disposition}
    (hd : Sms.decideOn d key = (d', disposition)) :
    Confirmed d' history := by
  have hd' : (d.admitKey key).1 = d' := congrArg Prod.fst hd
  exact hd' ▸ h.admitKey key

theorem Confirmed.confirm (hrelayed : .relayed key ∈ history) :
    Confirmed (d.confirm key) history := by
  unfold Dedupe.confirm
  split
  · rename_i hcontains
    obtain ⟨k, hk, heq⟩ := any_eq_true.mp hcontains
    exact ⟨Finset.forall_mem_insert .. |>.mpr ⟨eq_of_beq heq ▸ hk, h.seen⟩,
      Finset.forall_mem_insert .. |>.mpr ⟨hrelayed, h.relayed⟩⟩
  · exact h

theorem Confirmed.forget (key : Text) : Confirmed (d.forget key) history where
  seen := fun k hk => mem_filter.mpr ⟨h.seen k (Finset.mem_of_mem_erase hk),
    bne_iff_ne.mpr (Finset.ne_of_mem_erase hk)⟩
  relayed := fun k hk => h.relayed k (Finset.mem_of_mem_erase hk)

end

/-! ### The attempts -/

/-- What an attempt knows: the key it is about to confirm and the messages it is about to
delete were relayed. -/
def Knows (history : List Event) : Process → Prop
  | confirming key => .relayed key ∈ history
  | sweeping _ toDelete | waiting _ _ toDelete | sweepRelaying _ _ toDelete
  | sweepForgetting _ _ toDelete | deleting toDelete => ∀ key ∈ toDelete, .relayed key ∈ history
  | sweepConfirming key _ toDelete =>
      .relayed key ∈ history ∧ ∀ key ∈ toDelete, .relayed key ∈ history
  | idle | arrived _ | relaying _ | flushing _ | forgetting _ => True

/-- Nothing is unlearned. -/
theorem Knows.append (h : Knows history p) (es : List Event) : Knows (history ++ es) p := by
  have hmono : ∀ {e : Event}, e ∈ history → e ∈ history ++ es := mem_append_left _
  cases p with
  | idle | arrived _ | relaying _ | flushing _ | forgetting _ => trivial
  | confirming key => exact hmono h
  | sweeping _ toDelete | waiting _ _ toDelete | sweepRelaying _ _ toDelete
  | sweepForgetting _ _ toDelete | deleting toDelete => exact fun key hkey => hmono (h key hkey)
  | sweepConfirming key _ toDelete => exact ⟨hmono h.1, fun key hkey => hmono (h.2 key hkey)⟩

/-- A stored message is deleted only after a relay with its key. -/
def Justified (history : List Event) : Prop :=
  ∀ pre key post, history = pre ++ .deleted key :: post → .relayed key ∈ pre

theorem justified_iff : Justified history ↔
    Interleave.Fits (fun pre e => ∀ key, e = .deleted key → .relayed key ∈ pre) history := by
  constructor
  · intro h pre e post heq key he
    exact h pre key post (he ▸ heq)
  · intro h pre key post heq
    exact h pre _ post heq key rfl

theorem Justified.concat {e : Event} (h : Justified history)
    (he : ∀ key, e = .deleted key → .relayed key ∈ history) : Justified (history ++ [e]) :=
  justified_iff.mpr ((justified_iff.mp h).concat he)

theorem knows_concat {toDelete : List Text} (h : ∀ key ∈ toDelete, .relayed key ∈ history)
    (hkey : .relayed key ∈ history) : ∀ k ∈ toDelete ++ [key], .relayed k ∈ history :=
  forall_mem_append.mpr ⟨h, forall_mem_singleton.mpr hkey⟩

/-- What every step keeps. -/
structure Shared (d : Dedupe) (history : List Event) : Prop where
  confirmed : Confirmed d history
  justified : Justified history

theorem Shared.quiet (h : Shared d history) (hconf : Confirmed d' history) :
    Shared d' (history ++ []) := by
  rw [append_nil]
  exact ⟨hconf, h.justified⟩

theorem Shared.relayed (h : Shared d history) (key : Text) : Shared d (history ++ [.relayed key]) :=
  ⟨h.confirmed.append _, h.justified.concat fun _ he => nomatch he⟩

/-- One step, from what the store and the acting attempt know. -/
theorem step_shared {p' : Process} {es : List Event} (hshared : Shared d history)
    (hknows : Knows history p) (hstep : Step d p d' p' es) :
    Shared d' (history ++ es) ∧ Knows (history ++ es) p' := by
  have hlast : ∀ e : Event, e ∈ history ++ [e] := fun e =>
    mem_append_right _ (mem_singleton_self e)
  cases hstep with
  | arrive | flush | buffered | flushFailed | failed | finished =>
    exact ⟨hshared.quiet hshared.confirmed, trivial⟩
  | claim h | repeated h => exact ⟨hshared.quiet (hshared.confirmed.decideOn h), trivial⟩
  | relayed | flushed => exact ⟨hshared.relayed _, hlast _⟩
  | confirm => exact ⟨hshared.quiet (hshared.confirmed.confirm hknows), trivial⟩
  | forget => exact ⟨hshared.quiet (hshared.confirmed.forget _), trivial⟩
  | sweep left =>
    exact ⟨hshared.quiet hshared.confirmed, fun key hkey => absurd hkey not_mem_nil⟩
  | sweepClaim h | sweepRepeated h =>
    exact ⟨hshared.quiet (hshared.confirmed.decideOn h), hknows.append []⟩
  | foundConfirmed h =>
    have hkey := hshared.confirmed.relayed _ (of_decide_eq_true h)
    refine ⟨hshared.quiet hshared.confirmed, ?_⟩
    rw [append_nil]
    exact knows_concat hknows hkey
  | reclaim => exact ⟨hshared.quiet (hshared.confirmed.admitKey _), hknows.append []⟩
  | poll | timeOut | sweepFailed | sweepDone =>
    exact ⟨hshared.quiet hshared.confirmed, hknows.append []⟩
  | sweepRelayed =>
    exact ⟨hshared.relayed _, hlast _, fun key hkey => mem_append_left _ (hknows key hkey)⟩
  | sweepConfirm =>
    refine ⟨hshared.quiet (hshared.confirmed.confirm hknows.1), ?_⟩
    rw [append_nil]
    exact knows_concat hknows.2 hknows.1
  | sweepForget => exact ⟨hshared.quiet (hshared.confirmed.forget _), hknows.append []⟩
  | delete =>
    have hkey := hknows _ mem_cons_self
    refine ⟨⟨hshared.confirmed.append _, hshared.justified.concat fun _ he => ?_⟩, ?_⟩
    · cases he
      exact hkey
    exact fun key hk => mem_append_left _ (hknows key (mem_cons_of_mem _ hk))
  | deleteFailed =>
    refine ⟨hshared.quiet hshared.confirmed, ?_⟩
    exact fun key hk => mem_append_left _ (hknows key (mem_cons_of_mem _ hk))

/-- Whatever the attempts do and in whatever order: a stored message is deleted only after
a relay with its key succeeded, and the confirmed keys are claimed ones with a relay. -/
theorem deletes_only_relayed {capacity n : Nat} {d : Dedupe} {processes : List Process}
    {history : List Event} (hreach : Reachable capacity n d processes history) :
    Justified history ∧ (∀ key ∈ d.confirmed, key ∈ d.seen) ∧
      ∀ key ∈ d.confirmed, .relayed key ∈ history := by
  have hnone : Confirmed (Dedupe.new capacity) [] :=
    ⟨fun key hkey => absurd hkey (Finset.notMem_empty key),
      fun key hkey => absurd hkey (Finset.notMem_empty key)⟩
  have hstart : Interleave.Invariant Shared (fun _ => Knows) (fun _ _ _ => True)
      (Dedupe.new capacity) (replicate n idle) [] := by
    refine ⟨⟨hnone, justified_iff.mpr .nil⟩, fun i p hp => ?_, fun _ _ _ _ _ _ _ => trivial⟩
    obtain ⟨-, rfl⟩ := mem_replicate.mp (mem_of_getElem? hp)
    trivial
  obtain ⟨hshared, -, -⟩ := hreach.invariant (fun _ _ _ _ => trivial) hstart
    (fun _ _ _ _ _ _ hshared hknows _ hstep _ => step_shared hshared hknows hstep)
    (fun _ _ _ _ _ es _ _ _ hknows _ _ => ⟨hknows.append es, trivial⟩)
    (fun _ _ _ _ _ _ _ _ _ => trivial)
  exact ⟨hshared.justified, hshared.confirmed.seen, hshared.confirmed.relayed⟩

/-- Of two stored messages one is relayed by the registration, while the sweep waits for it,
and one by the sweep. -/
theorem deletes_only_relayed_sweep :
    ∃ d processes, Reachable 2 2 d processes
        [.relayed "k", .relayed "m", .deleted "k", .deleted "m"] ∧
      Justified
        [.relayed "k", .relayed "m", .deleted "k", .deleted "m"] := by
  have htrue : ∀ {P : List Process}, ∀ p ∈ P, True := fun _ _ => trivial
  have hstart : Reachable 2 2 (Dedupe.new 2) [idle, idle] [] := .start htrue
  have hwaits := (((hstart.step 0 rfl (.arrive "k") htrue).step 0 rfl (.claim rfl)
    htrue).step 1 rfl (.sweep ["k", "m"]) htrue).step 1 rfl (.sweepRepeated rfl) htrue
  have hfound := ((hwaits.step 0 rfl .relayed htrue).step 0 rfl .confirm htrue).step 1 rfl
    (.foundConfirmed rfl) htrue
  have hswept := (((hfound.step 1 rfl (.sweepClaim rfl) htrue).step 1 rfl .sweepRelayed
    htrue).step 1 rfl .sweepConfirm htrue).step 1 rfl .sweepDone htrue
  have hreach := (hswept.step 1 rfl .delete htrue).step 1 rfl .delete htrue
  exact ⟨_, _, hreach, (deletes_only_relayed hreach).1⟩

end Volte.Sms.Sweep
