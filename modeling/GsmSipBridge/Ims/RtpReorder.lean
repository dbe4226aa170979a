-- SUMMARY: The RTP reorder buffer (`ims/rtp_reorder.rs`) and its runs.
import Mathlib.Data.List.Sort
import Mathlib.Data.Finset.Insert
import GsmSipBridge.Lib.Trace
import GsmSipBridge.Ims.Rtp

/-!
# The RTP reorder buffer

A bounded wait for a missing RTP sequence number. Instants and durations are
natural numbers of nanoseconds, instants from an arbitrary fixed origin. The fingerprint of a packet's media uses
the standard library's default hasher, whose algorithm is unspecified, so the
hash is a parameter of the model and every result holds for all of them.
-/

namespace Ims.RtpReorder

open Rtp

/-- What a delivered packet is remembered by: its sequence number and the
fingerprint of its media. -/
abbrev Identity := UInt16 × UInt64

def recentSequenceHistory : UInt16 := 100

def restartConfirmationWindow : Nat := 1000000000

def deliveredPacketHistory : Nat := 65536

structure RestartCandidate where
  seq : UInt16
  packet : Bytes
  since : Nat

structure RtpReorderBuffer where
  maxWait : Nat
  ssrc : Option UInt32
  retiredSsrcs : Finset UInt32
  -- The hash map of counts, as a partial function.
  delivered : Identity → Option Nat
  deliveryOrder : List Identity
  expected : UInt16
  -- The B-tree map, in ascending key order.
  pending : List (UInt16 × Bytes)
  deadline : Option Nat
  restartCandidate : Option RestartCandidate

namespace RtpReorderBuffer

def new (maxWait : Nat) : RtpReorderBuffer where
  maxWait := maxWait
  ssrc := none
  retiredSsrcs := ∅
  delivered := fun _ => none
  deliveryOrder := []
  expected := 0
  pending := []
  deadline := none
  restartCandidate := none

/-- `pending.entry(seq).or_insert(packet)`. -/
def orInsert (seq : UInt16) (packet : Bytes) (pending : List (UInt16 × Bytes)) :
    List (UInt16 × Bytes) :=
  if seq ∈ pending.map Prod.fst then pending
  else pending.orderedInsert (fun x y => x.1.toNat ≤ y.1.toNat) (seq, packet)

variable (hasher : UInt32 × UInt8 × Bytes → UInt64)

def mediaIdentity (parsed : ParsedPacket) : UInt64 :=
  hasher (parsed.timestamp, parsed.payloadType, parsed.payload)

/-- Forget the oldest remembered delivery once the history is over its bound. -/
def evictOldest (b : RtpReorderBuffer) : RtpReorderBuffer :=
  if b.deliveryOrder.length ≤ deliveredPacketHistory then b
  else
    match b.deliveryOrder with
    | [] => b
    | oldest :: rest =>
      let b := { b with deliveryOrder := rest }
      match b.delivered oldest with
      | none => b
      | some count =>
        { b with
          delivered := Function.update b.delivered oldest
            (if count - 1 = 0 then none else some (count - 1)) }

def rememberDelivery (b : RtpReorderBuffer) (packet : Bytes) : RtpReorderBuffer :=
  match parsePacket packet with
  | none => b
  | some parsed =>
    let identity := (parsed.seq, mediaIdentity hasher parsed)
    evictOldest
      { b with
        delivered := Function.update b.delivered identity
          (some ((b.delivered identity).getD 0 + 1))
        deliveryOrder := b.deliveryOrder ++ [identity] }

/-- Release the whole batch in modular order, skipping any other holes. -/
def releasePending (b : RtpReorderBuffer) : RtpReorderBuffer × List Bytes :=
  let packets := b.pending.insertionSort
    (fun x y => (x.1 - b.expected).toNat ≤ (y.1 - b.expected).toNat)
  let b' := { b with
    restartCandidate := none
    deadline := none
    pending := []
    expected := match packets.getLast? with
      | some last => last.1 + 1
      | none => b.expected }
  let out := packets.map Prod.snd
  (out.foldl (rememberDelivery hasher) b', out)

/-- Drop a restart candidate whose confirmation window is over. -/
def expireCandidate (b : RtpReorderBuffer) (now : Nat) : RtpReorderBuffer :=
  match b.restartCandidate with
  | some candidate =>
    if restartConfirmationWindow ≤ now - candidate.since then { b with restartCandidate := none }
    else b
  | none => b

def flushExpired (b : RtpReorderBuffer) (now : Nat) : RtpReorderBuffer × List Bytes :=
  let b := b.expireCandidate now
  match b.deadline with
  | some deadline => if deadline ≤ now then b.releasePending hasher else (b, [])
  | none => (b, [])

/-! ## The four classes of arrival

`push` in the source is one function; its branches are named here by what the
packet is to the buffer. -/

/-- A source never seen before: the previous one is retired and the sequence
space starts over at this packet. -/
def switchSource (b : RtpReorderBuffer) (parsed : ParsedPacket) (packet : Bytes) :
    RtpReorderBuffer × List Bytes :=
  let retired := match b.ssrc with
    | some previous => insert previous b.retiredSsrcs
    | none => b.retiredSsrcs
  (rememberDelivery hasher
    { b with
      retiredSsrcs := retired
      pending := []
      deadline := none
      restartCandidate := none
      delivered := fun _ => none
      deliveryOrder := []
      ssrc := some parsed.ssrc
      expected := parsed.seq + 1 } packet, [packet])

/-- Behind `expected`: a duplicate, a late packet, or evidence of a restart. -/
def pushBehind (b : RtpReorderBuffer) (parsed : ParsedPacket) (packet : Bytes) (now : Nat) :
    RtpReorderBuffer × List Bytes :=
  if (b.delivered (parsed.seq, mediaIdentity hasher parsed)).isSome then
    ({ b with restartCandidate := none }, [])
  else
    -- A candidate that neither matches is forgotten: the source takes it first.
    let tooLateOrProbe : RtpReorderBuffer :=
      if recentSequenceHistory < b.expected - parsed.seq then
        { b with restartCandidate := some ⟨parsed.seq, packet, now⟩ }
      else { b with restartCandidate := none }
    match b.restartCandidate with
    | some candidate =>
      if parsed.seq = candidate.seq + 1 then
        let b' := { b with
          restartCandidate := none
          pending := []
          deadline := none
          expected := parsed.seq + 1 }
        (rememberDelivery hasher (rememberDelivery hasher b' candidate.packet) packet,
          [candidate.packet, packet])
      else if parsed.seq = candidate.seq then (b, [])
      else (tooLateOrProbe, [])
    | none => (tooLateOrProbe, [])

/-- The packet `expected` names: delivered with the whole batch behind it. -/
def pushExpected (b : RtpReorderBuffer) (parsed : ParsedPacket) (packet : Bytes) :
    RtpReorderBuffer × List Bytes :=
  let b := rememberDelivery hasher
    { b with restartCandidate := none, expected := parsed.seq + 1 } packet
  let r := b.releasePending hasher
  (r.1, packet :: r.2)

/-- Ahead of `expected`: held until the hole is filled or the wait is over. -/
def pushAhead (b : RtpReorderBuffer) (parsed : ParsedPacket) (packet : Bytes) (now : Nat) :
    RtpReorderBuffer × List Bytes :=
  flushExpired hasher
    { b with
      restartCandidate := none
      pending := orInsert parsed.seq packet b.pending
      deadline := some (b.deadline.getD (now + b.maxWait)) } now

/-- A packet of the active source, after the deadline has been applied. -/
def pushByDistance (b : RtpReorderBuffer) (parsed : ParsedPacket) (packet : Bytes) (now : Nat) :
    RtpReorderBuffer × List Bytes :=
  if 0x8000 ≤ parsed.seq - b.expected then b.pushBehind hasher parsed packet now
  else if parsed.seq - b.expected = 0 then b.pushExpected hasher parsed packet
  else b.pushAhead hasher parsed packet now

def push (b : RtpReorderBuffer) (packet : Bytes) (now : Nat) :
    RtpReorderBuffer × List Bytes :=
  match parsePacket packet with
  | none => b.flushExpired hasher now
  | some parsed =>
    if b.ssrc ≠ some parsed.ssrc then
      if parsed.ssrc ∈ b.retiredSsrcs then b.flushExpired hasher now
      else b.switchSource hasher parsed packet
    else
      let r := b.flushExpired hasher now
      let r' := r.1.pushByDistance hasher parsed packet now
      (r'.1, r.2 ++ r'.2)

end RtpReorderBuffer

/-! ## Runs -/

/-- What the receive loop can do to the buffer. -/
inductive Op where
  | push (packet : Bytes) (now : Nat)
  | flushExpired (now : Nat)

namespace Op

def now : Op → Nat
  | .push _ now => now
  | .flushExpired now => now

/-- The packet an operation hands in. -/
def pushed : Op → List Bytes
  | .push packet _ => [packet]
  | .flushExpired _ => []

end Op

variable (hasher : UInt32 × UInt8 × Bytes → UInt64)

def step (b : RtpReorderBuffer) : Op → RtpReorderBuffer × List Bytes
  | .push packet now => b.push hasher packet now
  | .flushExpired now => b.flushExpired hasher now

/-- State and delivered packets of a run from a fresh buffer. -/
def runFrom (maxWait : Nat) (ops : List Op) : RtpReorderBuffer × List Bytes :=
  Run.run (step hasher) (RtpReorderBuffer.new maxWait) ops

/-! ## One operation on the reorder buffer

`Inv` ties the pending batch, its deadline, the restart candidate and the
retired sources together. Every operation keeps it, and every operation does
one of three things to the delivered stream: continue it in modular order,
confirm a restart, or switch the source (`Outcome`). The results about whole
runs use only these two facts. -/

open List Option

/-! ### In-order delivery -/

/-- `InOrder ssrc e out e'`: the packets `out` belong to `ssrc`, each is less
than half the sequence space ahead of the one expected at that point, starting
at `e`, and `e'` is expected after the last. -/
inductive InOrder (ssrc : Option UInt32) : UInt16 → List Bytes → UInt16 → Prop where
  | nil (e : UInt16) : InOrder ssrc e [] e
  | cons {e e' : UInt16} {p : Bytes} {rest : List Bytes} {parsed : ParsedPacket} :
      parsePacket p = some parsed → ssrc = some parsed.ssrc →
      (parsed.seq - e).toNat < 0x8000 → InOrder ssrc (parsed.seq + 1) rest e' →
      InOrder ssrc e (p :: rest) e'

namespace InOrder

variable {ssrc : Option UInt32} {e e₁ e₂ : UInt16} {l : List Bytes} {p : Bytes}

theorem eq_of_nil (h : InOrder ssrc e [] e₁) : e₁ = e := by
  cases h
  rfl

theorem append {r : List Bytes} (hl : InOrder ssrc e l e₁) (hr : InOrder ssrc e₁ r e₂) :
    InOrder ssrc e (l ++ r) e₂ := by
  induction hl with
  | nil _ => exact hr
  | cons hp hs hd _ ih => exact .cons hp hs hd (ih hr)

/-- The packet delivered last is the one before the next expected. -/
theorem getLast (h : InOrder ssrc e l e₁) (hlast : l.getLast? = some p) :
    ∃ parsed, parsePacket p = some parsed ∧ ssrc = some parsed.ssrc ∧ e₁ = parsed.seq + 1 := by
  induction h with
  | nil _ => cases hlast
  | @cons e e' q rest parsed hp hs hd hrest ih =>
    cases hrest with
    | nil _ =>
      simp only [getLast?_singleton, some.injEq] at hlast
      subst hlast
      exact ⟨parsed, hp, hs, rfl⟩
    | cons _ _ _ _ =>
      exact ih hlast

/-- Every packet of an in-order delivery parses and belongs to the source. -/
theorem mem (h : InOrder ssrc e l e₁) (hmem : p ∈ l) :
    ∃ parsed, parsePacket p = some parsed ∧ ssrc = some parsed.ssrc := by
  induction h with
  | nil _ => cases hmem
  | @cons e e' q rest parsed hp hs _ _ ih =>
    cases hmem with
    | head => exact ⟨parsed, hp, hs⟩
    | tail _ htail => exact ih htail

end InOrder

/-- A pending entry is keyed by its own sequence number and belongs to the
active source. -/
def Owned (ssrc : Option UInt32) (x : UInt16 × Bytes) : Prop :=
  ∃ parsed, parsePacket x.2 = some parsed ∧ parsed.seq = x.1 ∧ ssrc = some parsed.ssrc

/-- A batch of distinct sequence numbers sorted by distance from `base` is an
in-order delivery from any `e` no farther from `base` than its first member. -/
theorem inOrder_of_sorted {ssrc : Option UInt32} {base e : UInt16} {l : List (UInt16 × Bytes)}
    (hnd : (l.map Prod.fst).Nodup)
    (hsorted : l.Pairwise fun x y => (x.1 - base).toNat ≤ (y.1 - base).toNat)
    (hwin : ∀ x ∈ l, (x.1 - base).toNat < 0x8000 ∧ (e - base).toNat ≤ (x.1 - base).toNat)
    (howned : ∀ x ∈ l, Owned ssrc x) :
    InOrder ssrc e (l.map Prod.snd)
      (match l.getLast? with
        | some last => last.1 + 1
        | none => e) := by
  induction l generalizing e with
  | nil => exact .nil e
  | cons x rest ih =>
    obtain ⟨parsed, hparse, hseq, hssrc⟩ := howned x (by simp)
    obtain ⟨hlt, hle⟩ := hwin x (by simp)
    rw [pairwise_cons] at hsorted
    simp only [map_cons, nodup_cons] at hnd
    have hhead : (parsed.seq - e).toNat < 0x8000 := by
      rw [hseq]
      simp only [UInt16.toNat_sub] at hlt hle ⊢
      ; have := base.toNat_lt; have := e.toNat_lt
      omega
    have htail := ih (e := x.1 + 1) hnd.2 hsorted.2
      (fun y hy => by
        have hxy := hsorted.1 y hy
        have hylt := (hwin y (by simp [hy])).1
        have hne : y.1 ≠ x.1 := fun h => hnd.1 (h ▸ mem_map_of_mem hy)
        have hne' : y.1.toNat ≠ x.1.toNat := fun h => hne (UInt16.toNat_inj.mp h)
        simp only [UInt16.toNat_sub, UInt16.toNat_add, UInt16.toNat_one] at hxy hylt hlt ⊢
        have := x.1.toNat_lt; have := base.toNat_lt; have := y.1.toNat_lt
        omega)
      (fun y hy => howned y (by simp [hy]))
    rw [← hseq] at htail
    refine .cons hparse hssrc hhead ?_
    rw [getLast?_cons]
    cases hl : rest.getLast? with
    | none =>
      have hnil : rest = [] := getLast?_eq_none_iff.mp hl
      subst hnil
      simp only [Option.getD_none, ← hseq]
      exact .nil _
    | some last =>
      rw [hl] at htail
      exact htail

/-! ### The invariant -/

/-- `c` holds a packet of the active source that is behind `expected` and whose
media has not been delivered. -/
def Probing (b : RtpReorderBuffer) (c : RestartCandidate) : Prop :=
  ∃ parsed, parsePacket c.packet = some parsed ∧ parsed.seq = c.seq ∧
    b.ssrc = some parsed.ssrc ∧ 0x8000 ≤ (c.seq - b.expected).toNat ∧
    b.delivered (parsed.seq, RtpReorderBuffer.mediaIdentity hasher parsed) = none

structure Inv (b : RtpReorderBuffer) : Prop where
  deadline_iff : b.deadline.isSome ↔ b.pending ≠ []
  keys_nodup : (b.pending.map Prod.fst).Nodup
  window : ∀ x ∈ b.pending,
    1 ≤ (x.1 - b.expected).toNat ∧ (x.1 - b.expected).toNat ≤ 0x7fff
  owned : ∀ x ∈ b.pending, Owned b.ssrc x
  candidate : ∀ c, b.restartCandidate = some c → Probing hasher b c
  active : ∀ ssrc, b.ssrc = some ssrc → ssrc ∉ b.retiredSsrcs
  fresh : b.ssrc = none → b.retiredSsrcs = ∅

namespace RtpReorderBuffer

/-! ### Delivery history

Remembering a delivery touches nothing but the history, so every other field of
the buffer can be read through it. -/

theorem rememberDelivery_frame (b : RtpReorderBuffer) (packet : Bytes) :
    ∃ d o, b.rememberDelivery hasher packet = { b with delivered := d, deliveryOrder := o } := by
  unfold rememberDelivery evictOldest
  split
  · exact ⟨b.delivered, b.deliveryOrder, rfl⟩
  dsimp only
  split
  · exact ⟨_, _, rfl⟩
  split
  · exact ⟨_, _, rfl⟩
  · split <;> exact ⟨_, _, rfl⟩

theorem foldl_rememberDelivery_frame (out : List Bytes) (b : RtpReorderBuffer) :
    ∃ d o, out.foldl (rememberDelivery hasher) b =
      { b with delivered := d, deliveryOrder := o } := by
  induction out generalizing b with
  | nil => exact ⟨b.delivered, b.deliveryOrder, rfl⟩
  | cons p rest ih =>
    obtain ⟨d, o, hb⟩ := rememberDelivery_frame hasher b p
    obtain ⟨d', o', hrest⟩ := ih (b.rememberDelivery hasher p)
    refine ⟨d', o', ?_⟩
    rw [foldl_cons, hrest, hb]

/-! ### Releasing and flushing -/

/-- The batch in the order it is released. -/
def batch (b : RtpReorderBuffer) : List (UInt16 × Bytes) :=
  b.pending.insertionSort (fun x y => (x.1 - b.expected).toNat ≤ (y.1 - b.expected).toNat)

theorem batch_perm (b : RtpReorderBuffer) : b.batch.Perm b.pending :=
  perm_insertionSort _ _

theorem batch_sorted (b : RtpReorderBuffer) :
    b.batch.Pairwise (fun x y => (x.1 - b.expected).toNat ≤ (y.1 - b.expected).toNat) :=
  pairwise_insertionSort _ _

variable {hasher} {b : RtpReorderBuffer} {packet : Bytes} {parsed : ParsedPacket}

/-- What is expected after a release lies past the whole batch. -/
theorem batch_behind {last : UInt16 × Bytes}
    (hwin : ∀ x ∈ b.pending, (x.1 - b.expected).toNat < 0x8000)
    (hlast : b.batch.getLast? = some last) :
    ∀ x ∈ b.pending, 0x8000 ≤ (x.1 - (last.1 + 1)).toNat := by
  intro x hx
  obtain ⟨ys, hys⟩ := getLast?_eq_some_iff.mp hlast
  have hmem : last ∈ b.pending := b.batch_perm.mem_iff.mp (by simp [hys])
  have hle : (x.1 - b.expected).toNat ≤ (last.1 - b.expected).toNat := by
    have hsorted := b.batch_sorted
    rw [hys, pairwise_append] at hsorted
    have hx' : x ∈ ys ++ [last] := hys ▸ b.batch_perm.mem_iff.mpr hx
    rcases mem_append.mp hx' with h | h
    · exact hsorted.2.2 x h last (by simp)
    · simp only [mem_singleton] at h
      rw [h]
  have hlt := hwin last hmem
  simp only [UInt16.toNat_sub, UInt16.toNat_add, UInt16.toNat_one] at hle hlt ⊢
  omega

/-- Nothing is held and both timers are cleared. -/
def cleared (b : RtpReorderBuffer) (e : UInt16) (d : Identity → Option Nat) (o : List Identity) :
    RtpReorderBuffer :=
  { b with
    restartCandidate := none, deadline := none, pending := [], expected := e, delivered := d
    deliveryOrder := o }

/-- The batch is delivered in order and left behind. -/
def Released (b : RtpReorderBuffer) (r : RtpReorderBuffer × List Bytes) : Prop :=
  ∃ e d o, r = (b.cleared e d o, b.batch.map Prod.snd) ∧
    InOrder b.ssrc b.expected (b.batch.map Prod.snd) e ∧
    ∀ x ∈ b.pending, 0x8000 ≤ (x.1 - e).toNat

variable (hasher) in
/-- The batch may start at `expected` itself: the packet just before it was
delivered in the same operation. -/
theorem released_releasePending (hnd : (b.pending.map Prod.fst).Nodup)
    (hwin : ∀ x ∈ b.pending, (x.1 - b.expected).toNat < 0x8000)
    (howned : ∀ x ∈ b.pending, Owned b.ssrc x) : Released b (b.releasePending hasher) := by
  have hperm := b.batch_perm
  have horder : InOrder b.ssrc b.expected (b.batch.map Prod.snd) _ := inOrder_of_sorted
    ((hperm.map Prod.fst).nodup_iff.mpr hnd) b.batch_sorted
    (fun x hx => ⟨hwin x (hperm.mem_iff.mp hx), by simp⟩)
    (fun x hx => howned x (hperm.mem_iff.mp hx))
  obtain ⟨d, o, hframe⟩ := foldl_rememberDelivery_frame hasher (b.batch.map Prod.snd)
    { b with
      restartCandidate := none, deadline := none, pending := []
      expected := match b.batch.getLast? with
        | some last => last.1 + 1
        | none => b.expected }
  refine ⟨_, d, o, Prod.ext hframe rfl, horder, ?_⟩
  cases hlast : b.batch.getLast? with
  | none =>
    have hnil : b.pending = [] := by
      have h := b.batch_perm
      rw [getLast?_eq_none_iff.mp hlast] at h
      exact h.symm.eq_nil
    simp [hnil]
  | some last => exact batch_behind hwin hlast

theorem expireCandidate_cases (b : RtpReorderBuffer) (now : Nat) :
    b.expireCandidate now = b ∨ b.expireCandidate now = { b with restartCandidate := none } := by
  unfold expireCandidate
  split
  · split
    · exact .inr rfl
    · exact .inl rfl
  · exact .inl rfl

/-- A flush either releases the batch or, before the deadline, only ages the
restart candidate. -/
theorem flushExpired_cases (h : Inv hasher b) (now : Nat) :
    Released b (b.flushExpired hasher now) ∨
    ((∀ deadline, b.deadline = some deadline → now < deadline) ∧
      (b.flushExpired hasher now = (b, []) ∨
        b.flushExpired hasher now = ({ b with restartCandidate := none }, []))) := by
  have hreleased := released_releasePending hasher h.keys_nodup
    (fun x hx => Nat.lt_succ_of_le (h.window x hx).2) h.owned
  have hflush : b.flushExpired hasher now = if b.deadline.any (· ≤ now) then
      b.releasePending hasher else (b.expireCandidate now, []) := by
    unfold flushExpired
    have hrel : (b.expireCandidate now).releasePending hasher = b.releasePending hasher ∧
        (b.expireCandidate now).deadline = b.deadline := by
      rcases b.expireCandidate_cases now with he | he <;> rw [he] <;> exact ⟨rfl, rfl⟩
    simp only [hrel]
    cases b.deadline with
    | none => rfl
    | some deadline => simp
  rw [hflush]
  split
  · exact .inl hreleased
  rename_i hlate
  refine .inr ⟨fun deadline hd => ?_, ?_⟩
  · rw [hd] at hlate
    simpa using hlate
  · rcases b.expireCandidate_cases now with he | he <;> rw [he]
    · exact .inl rfl
    · exact .inr rfl

/-! ### Effects

`stock` is what the buffer still holds on to. `Effect` collects what every
operation guarantees whatever class its packet falls in: the invariant, a
deadline that lies in the future and was either there before or set now, and no
packet delivered or kept that was not handed in. -/

/-- The packets the buffer holds: the batch and the restart candidate. -/
def stock (b : RtpReorderBuffer) : List Bytes :=
  b.pending.map Prod.snd ++ (b.restartCandidate.map RestartCandidate.packet).toList

variable (hasher) in
structure Effect (b : RtpReorderBuffer) (now : Nat) (pushed : List Bytes)
    (r : RtpReorderBuffer × List Bytes) : Prop where
  inv : Inv hasher r.1
  maxWait : r.1.maxWait = b.maxWait
  timely : ∀ d, r.1.deadline = some d → now < d
  source : ∀ d, r.1.deadline = some d → b.deadline = some d ∨ d = now + b.maxWait
  stock : (r.2 ++ r.1.stock).Subperm (b.stock ++ pushed)

variable {now : Nat} {pushed out : List Bytes} {r r' : RtpReorderBuffer × List Bytes}

theorem Effect.trans (h : Effect hasher b now [] r) (h' : Effect hasher r.1 now pushed r') :
    Effect hasher b now pushed (r'.1, r.2 ++ r'.2) where
  inv := h'.inv
  maxWait := h'.maxWait.trans h.maxWait
  timely := h'.timely
  source := by
    intro d hd
    rcases h'.source d hd with hd' | hd'
    · exact h.source d hd'
    · exact .inr (by rw [hd', h.maxWait])
  stock := by
    have h1 : (r.2 ++ (r'.2 ++ r'.1.stock)).Subperm (r.2 ++ (r.1.stock ++ pushed)) :=
      (subperm_append_left r.2).mpr h'.stock
    have h2 : ((r.2 ++ r.1.stock) ++ pushed).Subperm ((b.stock ++ []) ++ pushed) :=
      (subperm_append_right pushed).mpr h.stock
    simpa using h1.trans (by simpa using h2)

/-- Dropping the candidate keeps the invariant. -/
theorem inv_dropCandidate (h : Inv hasher b) : Inv hasher { b with restartCandidate := none } :=
  { h with candidate := nofun }

/-- An emptied buffer without timers satisfies the invariant whatever it has
delivered, as long as its source is not retired. -/
theorem inv_emptied (hp : b.pending = []) (hd : b.deadline = none)
    (hc : b.restartCandidate = none)
    (hactive : ∀ ssrc, b.ssrc = some ssrc → ssrc ∉ b.retiredSsrcs)
    (hfresh : b.ssrc = none → b.retiredSsrcs = ∅) : Inv hasher b where
  deadline_iff := by simp [hp, hd]
  keys_nodup := by simp [hp]
  window := by simp [hp]
  owned := by simp [hp]
  candidate := by simp [hc]
  active := hactive
  fresh := hfresh

variable (hasher) in
theorem inv_new (maxWait : Nat) : Inv hasher (new maxWait) :=
  inv_emptied rfl rfl rfl nofun fun _ => rfl

section Held

variable (h : Inv hasher b)

include h

/-- Clearing the buffer delivers what it held, or less. -/
theorem effect_cleared (hout : out.Subperm (b.stock ++ pushed)) (e : UInt16)
    (d : Identity → Option Nat) (o : List Identity) :
    Effect hasher b now pushed (b.cleared e d o, out) := by
  refine ⟨inv_emptied rfl rfl rfl h.active h.fresh, rfl, nofun, nofun, ?_⟩
  simpa [stock, cleared] using hout

theorem effect_same (hlt : ∀ d, b.deadline = some d → now < d) :
    Effect hasher b now pushed (b, []) :=
  ⟨h, rfl, hlt, fun _ hd => .inl hd, (sublist_append_left _ _).subperm⟩

theorem effect_dropCandidate (hlt : ∀ d, b.deadline = some d → now < d) :
    Effect hasher b now pushed ({ b with restartCandidate := none }, []) := by
  refine ⟨inv_dropCandidate h, rfl, hlt, fun _ hd => .inl hd, ?_⟩
  have hstock : (stock { b with restartCandidate := none }).Subperm b.stock := by
    simpa [stock] using (sublist_append_left _ _).subperm
  exact hstock.trans (sublist_append_left _ _).subperm

end Held

/-! ### Outcomes

What an operation does to the delivered stream. -/

/-- Same source, and the deliveries follow the stream in modular order. -/
structure Continues (b : RtpReorderBuffer) (r : RtpReorderBuffer × List Bytes) : Prop where
  ssrc : r.1.ssrc = b.ssrc
  retired : r.1.retiredSsrcs = b.retiredSsrcs
  order : InOrder b.ssrc b.expected r.2 r.1.expected

variable (hasher) in
/-- `packet` confirms the candidate `c`: both are behind `expected`, follow each
other, and are media the buffer has not delivered. -/
structure Restarts (b : RtpReorderBuffer) (packet : Bytes) (c : RestartCandidate)
    (r : RtpReorderBuffer × List Bytes) : Prop where
  candidate : b.restartCandidate = some c
  probing : Probing hasher b c
  confirms : ∃ parsed, parsePacket packet = some parsed ∧ b.ssrc = some parsed.ssrc ∧
    parsed.seq = c.seq + 1 ∧ 0x8000 ≤ parsed.seq - b.expected ∧
    b.delivered (parsed.seq, mediaIdentity hasher parsed) = none ∧
    r.1.expected = parsed.seq + 1
  ssrc : r.1.ssrc = b.ssrc
  retired : r.1.retiredSsrcs = b.retiredSsrcs
  out : r.2 = [c.packet, packet]

/-- `packet` opens a source that is neither active nor retired. -/
structure Switches (b : RtpReorderBuffer) (packet : Bytes)
    (r : RtpReorderBuffer × List Bytes) : Prop where
  opens : ∃ parsed, parsePacket packet = some parsed ∧ b.ssrc ≠ some parsed.ssrc ∧
    parsed.ssrc ∉ b.retiredSsrcs ∧ r.1.ssrc = some parsed.ssrc ∧ r.1.expected = parsed.seq + 1
  retired : ∀ ssrc, ssrc ∈ r.1.retiredSsrcs ↔ b.ssrc = some ssrc ∨ ssrc ∈ b.retiredSsrcs
  out : r.2 = [packet]

theorem Continues.trans (h : Continues b r) (h' : Continues r.1 r') :
    Continues b (r'.1, r.2 ++ r'.2) where
  ssrc := h'.ssrc.trans h.ssrc
  retired := h'.retired.trans h.retired
  order := h.order.append (h.ssrc ▸ h'.order)

theorem flushExpired_spec (h : Inv hasher b) (now : Nat) :
    Effect hasher b now [] (b.flushExpired hasher now) ∧
    Continues b (b.flushExpired hasher now) := by
  rcases flushExpired_cases h now with ⟨e, d, o, hr, horder, -⟩ | ⟨hlt, hr | hr⟩ <;> rw [hr]
  · refine ⟨effect_cleared h ?_ e d o, rfl, rfl, horder⟩
    rw [append_nil]
    exact (b.batch_perm.map Prod.snd).subperm.trans (sublist_append_left _ _).subperm
  · exact ⟨effect_same h hlt, rfl, rfl, .nil _⟩
  · exact ⟨effect_dropCandidate h hlt, rfl, rfl, .nil _⟩

/-- A candidate that survives the flush at the start of a push survives it
because nothing was released, so the flush changed nothing. -/
theorem flushExpired_of_candidate (h : Inv hasher b) {c : RestartCandidate}
    (hc : (b.flushExpired hasher now).1.restartCandidate = some c) :
    b.flushExpired hasher now = (b, []) := by
  rcases flushExpired_cases h now with ⟨e, d, o, hr, -, -⟩ | ⟨-, hr | hr⟩
  · rw [hr] at hc
    cases hc
  · exact hr
  · rw [hr] at hc
    cases hc

/-! #### A packet behind `expected` -/

variable (hasher) in
/-- What a packet behind `expected` can do: drop the candidate, leave the buffer
alone, become the candidate, or confirm the one there is. -/
theorem pushBehind_cases (b : RtpReorderBuffer) (parsed : ParsedPacket) (packet : Bytes)
    (now : Nat) :
    b.pushBehind hasher parsed packet now = ({ b with restartCandidate := none }, []) ∨
    b.pushBehind hasher parsed packet now = (b, []) ∨
    (b.delivered (parsed.seq, mediaIdentity hasher parsed) = none ∧
      b.pushBehind hasher parsed packet now =
        ({ b with restartCandidate := some ⟨parsed.seq, packet, now⟩ }, [])) ∨
    (b.delivered (parsed.seq, mediaIdentity hasher parsed) = none ∧
      ∃ c d o, b.restartCandidate = some c ∧ parsed.seq = c.seq + 1 ∧
        b.pushBehind hasher parsed packet now =
          (b.cleared (parsed.seq + 1) d o, [c.packet, packet])) := by
  unfold pushBehind
  split
  · exact .inl rfl
  rename_i hnew
  have hnone : b.delivered (parsed.seq, mediaIdentity hasher parsed) = none := by
    simpa using hnew
  dsimp only
  split
  · rename_i c hc
    split
    · rename_i hseq
      obtain ⟨d, o, hframe⟩ := foldl_rememberDelivery_frame hasher [c.packet, packet]
        (b.cleared (parsed.seq + 1) b.delivered b.deliveryOrder)
      exact .inr (.inr (.inr ⟨hnone, c, d, o, hc, hseq, Prod.ext hframe rfl⟩))
    · split
      · exact .inr (.inl rfl)
      · split
        · exact .inr (.inr (.inl ⟨hnone, rfl⟩))
        · exact .inl rfl
  · split
    · exact .inr (.inr (.inl ⟨hnone, rfl⟩))
    · exact .inl rfl

section Active

variable (h : Inv hasher b) (hp : parsePacket packet = some parsed)
  (hs : b.ssrc = some parsed.ssrc)

include h hp hs

theorem pushBehind_spec (hd : 0x8000 ≤ parsed.seq - b.expected)
    (ht : ∀ d, b.deadline = some d → now < d) :
    let r := b.pushBehind hasher parsed packet now
    Effect hasher b now [packet] r ∧ (Continues b r ∨ ∃ c, Restarts hasher b packet c r) := by
  rcases b.pushBehind_cases hasher parsed packet now with
    hr | hr | ⟨hnone, hr⟩ | ⟨hnone, c, d, o, hc, hseq, hr⟩ <;> rw [hr]
  · exact ⟨effect_dropCandidate h ht, .inl ⟨rfl, rfl, .nil _⟩⟩
  · exact ⟨effect_same h ht, .inl ⟨rfl, rfl, .nil _⟩⟩
  · refine ⟨⟨{ h with candidate := ?_ }, rfl, ht, fun _ hd => .inl hd, ?_⟩, .inl ⟨rfl, rfl, .nil _⟩⟩
    · intro c hc
      cases hc
      exact ⟨parsed, hp, rfl, hs, UInt16.le_iff_toNat_le.mp hd, hnone⟩
    · simp only [stock, map_some, toList_some, append_assoc, nil_append]
      exact (subperm_append_left _).mpr (sublist_append_right _ _).subperm
  · refine ⟨effect_cleared h ?_ _ d o, .inr ⟨c, hc, h.candidate c hc,
      ⟨parsed, hp, hs, hseq, hd, hnone, rfl⟩, rfl, rfl, rfl⟩⟩
    simp only [stock, hc, map_some, toList_some, append_assoc]
    exact (sublist_append_right _ _).subperm

/-! #### The expected packet -/

omit h hp hs in
/-- Past the expected packet, the rest of the window starts at zero. -/
theorem window_advance {seq : UInt16}
    (hwin : ∀ x ∈ b.pending, 1 ≤ (x.1 - b.expected).toNat ∧ (x.1 - b.expected).toNat ≤ 0x7fff)
    (hseq : seq = b.expected) : ∀ x ∈ b.pending, (x.1 - (seq + 1)).toNat < 0x8000 := by
  intro x hx
  obtain ⟨hlo, hhi⟩ := hwin x hx
  subst hseq
  simp only [UInt16.toNat_sub, UInt16.toNat_add, UInt16.toNat_one] at hlo hhi ⊢
  have := x.1.toNat_lt; have := b.expected.toNat_lt
  omega

/-- The expected packet is delivered first and takes the whole batch with it. -/
theorem pushExpected_cleared (hseq : parsed.seq = b.expected) :
    ∃ e d o out, b.pushExpected hasher parsed packet = (b.cleared e d o, packet :: out) ∧
      out.Perm (b.pending.map Prod.snd) ∧ InOrder b.ssrc b.expected (packet :: out) e := by
  obtain ⟨d, o, hframe⟩ := rememberDelivery_frame hasher
    { b with restartCandidate := none, expected := parsed.seq + 1 } packet
  have hadvance : ∀ x ∈ b.pending, (x.1 - (parsed.seq + 1)).toNat < 0x8000 :=
    window_advance h.window hseq
  obtain ⟨e, d', o', hspec, horder, -⟩ := released_releasePending hasher
    (b := { b with
      restartCandidate := none, expected := parsed.seq + 1, delivered := d, deliveryOrder := o })
    h.keys_nodup hadvance h.owned
  have hout : InOrder b.ssrc b.expected (packet :: _) e := .cons hp hs (by simp [hseq]) horder
  refine ⟨e, d', o', _, ?_, ?_, hout⟩
  · unfold pushExpected
    rw [hframe]
    dsimp only
    rw [hspec]
    rfl
  · exact (batch_perm _).map Prod.snd

theorem pushExpected_spec (hseq : parsed.seq = b.expected) :
    Effect hasher b now [packet] (b.pushExpected hasher parsed packet) ∧
    Continues b (b.pushExpected hasher parsed packet) := by
  obtain ⟨e, d, o, out, hr, hperm, horder⟩ := pushExpected_cleared h hp hs hseq
  rw [hr]
  refine ⟨effect_cleared h ?_ e d o, rfl, rfl, horder⟩
  have hstock : out.Subperm b.stock :=
    hperm.subperm.trans (sublist_append_left _ _).subperm
  have hperm' : (packet :: out).Perm (out ++ [packet]) := (perm_append_singleton _ _).symm
  exact hperm'.subperm.trans ((subperm_append_right _).mpr hstock)

end Active

/-! #### A packet ahead of `expected` -/

section Insert

variable (seq : UInt16) (packet : Bytes) (pending : List (UInt16 × Bytes))

theorem orInsert_cases :
    (seq ∈ pending.map Prod.fst ∧ orInsert seq packet pending = pending) ∨
    (seq ∉ pending.map Prod.fst ∧
      (orInsert seq packet pending).Perm ((seq, packet) :: pending)) := by
  unfold orInsert
  split
  · rename_i hmem
    exact .inl ⟨hmem, rfl⟩
  · rename_i hnew
    exact .inr ⟨hnew, perm_orderedInsert _ _ _⟩

theorem mem_orInsert {x : UInt16 × Bytes} (hx : x ∈ orInsert seq packet pending) :
    (x = (seq, packet) ∧ seq ∉ pending.map Prod.fst) ∨ x ∈ pending := by
  rcases orInsert_cases seq packet pending with ⟨-, heq⟩ | ⟨hnew, hperm⟩
  · exact .inr (heq ▸ hx)
  · exact (mem_cons.mp (hperm.mem_iff.mp hx)).imp_left (⟨·, hnew⟩)

theorem subset_orInsert : ∀ x ∈ pending, x ∈ orInsert seq packet pending := by
  intro x hx
  rcases orInsert_cases seq packet pending with ⟨-, heq⟩ | ⟨-, hperm⟩
  · rwa [heq]
  · exact hperm.mem_iff.mpr (mem_cons_of_mem _ hx)

theorem orInsert_ne_nil : orInsert seq packet pending ≠ [] := by
  intro hnil
  rcases orInsert_cases seq packet pending with ⟨hmem, heq⟩ | ⟨-, hperm⟩
  · simp [heq.symm.trans hnil] at hmem
  · exact absurd (hnil ▸ hperm).symm.eq_nil (by simp)

theorem orInsert_keys_nodup (hnd : (pending.map Prod.fst).Nodup) :
    ((orInsert seq packet pending).map Prod.fst).Nodup := by
  rcases orInsert_cases seq packet pending with ⟨-, heq⟩ | ⟨hnew, hperm⟩
  · rwa [heq]
  · rw [(hperm.map Prod.fst).nodup_iff, map_cons, nodup_cons]
    exact ⟨hnew, hnd⟩

theorem orInsert_packets :
    ((orInsert seq packet pending).map Prod.snd).Subperm (pending.map Prod.snd ++ [packet]) := by
  rcases orInsert_cases seq packet pending with ⟨-, heq⟩ | ⟨-, hperm⟩
  · rw [heq]
    exact (sublist_append_left _ _).subperm
  · exact ((hperm.map Prod.snd).trans (perm_append_singleton _ _).symm).subperm

end Insert

/-- The buffer right after an insertion, before the flush that ends the push. -/
def held (b : RtpReorderBuffer) (parsed : ParsedPacket) (packet : Bytes) (now : Nat) :
    RtpReorderBuffer :=
  { b with
    restartCandidate := none
    pending := orInsert parsed.seq packet b.pending
    deadline := some (b.deadline.getD (now + b.maxWait)) }

section Ahead

variable (h : Inv hasher b) (now : Nat) (hp : parsePacket packet = some parsed)
  (hs : b.ssrc = some parsed.ssrc) (hlo : 1 ≤ (parsed.seq - b.expected).toNat)
  (hhi : (parsed.seq - b.expected).toNat ≤ 0x7fff)

include h hp hs hlo hhi

theorem inv_held :
    Inv hasher (b.held parsed packet now) where
  deadline_iff := by simp [held, orInsert_ne_nil]
  keys_nodup := orInsert_keys_nodup _ _ _ h.keys_nodup
  window := by
    intro x hx
    rcases mem_orInsert _ _ _ hx with ⟨rfl, -⟩ | hx
    · exact ⟨hlo, hhi⟩
    · exact h.window x hx
  owned := by
    intro x hx
    rcases mem_orInsert _ _ _ hx with ⟨rfl, -⟩ | hx
    · exact ⟨parsed, hp, rfl, hs⟩
    · exact h.owned x hx
  candidate := nofun
  active := h.active
  fresh := h.fresh

theorem pushAhead_spec :
    Effect hasher b now [packet] (b.pushAhead hasher parsed packet now) ∧
    Continues b (b.pushAhead hasher parsed packet now) := by
  obtain ⟨heffect, hcont⟩ := flushExpired_spec (inv_held h now hp hs hlo hhi) now
  refine ⟨⟨heffect.inv, heffect.maxWait, heffect.timely, ?_, heffect.stock.trans ?_⟩,
    hcont.ssrc, hcont.retired, hcont.order⟩
  · intro d hd
    rcases heffect.source d hd with hd' | hd'
    · simp only [held, some.injEq] at hd'
      cases hb : b.deadline with
      | none =>
        rw [hb] at hd'
        exact .inr hd'.symm
      | some d₀ =>
        rw [hb, getD_some] at hd'
        exact .inl (by rw [hd'])
    · exact .inr hd'
  · simp only [held, stock, map_none, toList_none, append_nil]
    refine (orInsert_packets parsed.seq packet b.pending).trans ?_
    exact (subperm_append_right _).mpr (sublist_append_left _ _).subperm

end Ahead

/-! #### A new source -/

variable (hasher) in
theorem switchSource_cleared (b : RtpReorderBuffer) (parsed : ParsedPacket) (packet : Bytes) :
    ∃ retired d o, b.switchSource hasher parsed packet =
        ({ b.cleared (parsed.seq + 1) d o with
          retiredSsrcs := retired, ssrc := some parsed.ssrc }, [packet]) ∧
      ∀ ssrc, ssrc ∈ retired ↔ b.ssrc = some ssrc ∨ ssrc ∈ b.retiredSsrcs := by
  choose d o hframe using fun before => rememberDelivery_frame hasher before packet
  refine ⟨_, _, _, Prod.ext (hframe _) rfl, fun ssrc => ?_⟩
  cases b.ssrc with
  | none => simp
  | some previous => rw [Finset.mem_insert, some.injEq, eq_comm]

theorem switchSource_spec (hp : parsePacket packet = some parsed) (hs : b.ssrc ≠ some parsed.ssrc)
    (hret : parsed.ssrc ∉ b.retiredSsrcs) :
    Effect hasher b now [packet] (b.switchSource hasher parsed packet) ∧
    Switches b packet (b.switchSource hasher parsed packet) := by
  obtain ⟨retired, d, o, hr, hmem⟩ := b.switchSource_cleared hasher parsed packet
  rw [hr]
  refine ⟨⟨inv_emptied rfl rfl rfl ?_ nofun, rfl, nofun, nofun, ?_⟩,
    ⟨parsed, hp, hs, hret, rfl, rfl⟩, hmem, rfl⟩
  · intro ssrc hssrc
    cases hssrc
    rw [hmem]
    rintro (h | h)
    · exact hs h
    · exact hret h
  · exact (sublist_append_right _ _).subperm

/-! ### The operations -/

/-- A packet of a retired source is no packet at all. -/
theorem push_retired (h : Inv hasher b) (hp : parsePacket packet = some parsed)
    (hret : parsed.ssrc ∈ b.retiredSsrcs) :
    b.push hasher packet now = b.flushExpired hasher now := by
  have hne : b.ssrc ≠ some parsed.ssrc := fun hs => h.active _ hs hret
  unfold push
  rw [hp]
  simp [hne, hret]

variable (hasher) in
/-- The three branches, each with its bounds on the distance. -/
theorem pushByDistance_cases (b : RtpReorderBuffer) (parsed : ParsedPacket) (packet : Bytes)
    (now : Nat) :
    (0x8000 ≤ parsed.seq - b.expected ∧
      b.pushByDistance hasher parsed packet now = b.pushBehind hasher parsed packet now) ∨
    (parsed.seq = b.expected ∧
      b.pushByDistance hasher parsed packet now = b.pushExpected hasher parsed packet) ∨
    (1 ≤ (parsed.seq - b.expected).toNat ∧ (parsed.seq - b.expected).toNat ≤ 0x7fff ∧
      b.pushByDistance hasher parsed packet now = b.pushAhead hasher parsed packet now) := by
  unfold pushByDistance
  have hle : (0x8000 ≤ parsed.seq - b.expected) ↔ 0x8000 ≤ (parsed.seq - b.expected).toNat :=
    UInt16.le_iff_toNat_le
  have hzero : (parsed.seq - b.expected = 0) ↔ (parsed.seq - b.expected).toNat = 0 :=
    UInt16.toNat_inj.symm
  split
  · rename_i hbehind
    exact .inl ⟨hbehind, rfl⟩
  rename_i hbehind
  have hlt := mt hle.mpr hbehind
  split
  · rename_i heq
    refine .inr (.inl ⟨?_, rfl⟩)
    rw [← UInt16.sub_add_cancel parsed.seq b.expected, heq, UInt16.zero_add]
  · rename_i hne
    have hpos := mt hzero.mpr hne
    exact .inr (.inr ⟨by omega, by omega, rfl⟩)

theorem pushByDistance_spec (h : Inv hasher b) (hp : parsePacket packet = some parsed)
    (hs : b.ssrc = some parsed.ssrc) (ht : ∀ d, b.deadline = some d → now < d) :
    let r := b.pushByDistance hasher parsed packet now
    Effect hasher b now [packet] r ∧ (Continues b r ∨ ∃ c, Restarts hasher b packet c r) := by
  rcases pushByDistance_cases hasher b parsed packet now with
    ⟨hd, hr⟩ | ⟨heq, hr⟩ | ⟨hlo, hhi, hr⟩ <;> rw [hr]
  · exact pushBehind_spec h hp hs hd ht
  · exact (pushExpected_spec h hp hs heq).imp_right .inl
  · exact (pushAhead_spec h now hp hs hlo hhi).imp_right .inl

end RtpReorderBuffer

open RtpReorderBuffer

variable {hasher} {b : RtpReorderBuffer}

/-- An operation only flushes, handles a packet of the active source after a flush, or
opens a source never seen before. -/
theorem step_cases (h : Inv hasher b) (op : Op) :
    step hasher b op = b.flushExpired hasher op.now ∨
    ∃ packet now parsed, op = .push packet now ∧ parsePacket packet = some parsed ∧
      ((∃ r, b.flushExpired hasher now = r ∧ Inv hasher r.1 ∧ r.1.ssrc = some parsed.ssrc ∧
        step hasher b op = ((r.1.pushByDistance hasher parsed packet now).1,
          r.2 ++ (r.1.pushByDistance hasher parsed packet now).2)) ∨
      (b.ssrc ≠ some parsed.ssrc ∧ parsed.ssrc ∉ b.retiredSsrcs ∧
        step hasher b op = b.switchSource hasher parsed packet)) := by
  cases op with
  | flushExpired now => exact .inl rfl
  | push packet now =>
    cases hp : parsePacket packet with
    | none => exact .inl (by simp [step, push, hp, Op.now])
    | some parsed =>
      by_cases hret : parsed.ssrc ∈ b.retiredSsrcs
      · exact .inl (push_retired h hp hret)
      refine .inr ⟨packet, now, parsed, rfl, hp, ?_⟩
      by_cases hs : b.ssrc = some parsed.ssrc
      · obtain ⟨heffect, hcont⟩ := flushExpired_spec h now
        exact .inl ⟨_, rfl, heffect.inv, hcont.ssrc.trans hs, by simp [step, push, hp, hs]⟩
      · exact .inr ⟨hs, hret, by
          simp only [step, push, hp, hs, ne_eq, not_false_eq_true, if_true, hret, if_false]⟩

theorem step_spec (h : Inv hasher b) (op : Op) :
    Effect hasher b op.now op.pushed (step hasher b op) ∧
    (Continues b (step hasher b op) ∨
    (∃ packet now c, op = .push packet now ∧ b.flushExpired hasher now = (b, []) ∧
      Restarts hasher b packet c (step hasher b op)) ∨
    (∃ packet now, op = .push packet now ∧ Switches b packet (step hasher b op))) := by
  obtain ⟨heffect, hcont⟩ := flushExpired_spec h op.now
  rcases step_cases h op with hr | ⟨packet, now, parsed, rfl, hp,
    ⟨r, rfl, hinv, hs, hr⟩ | ⟨hs, hret, hr⟩⟩ <;> rw [hr]
  · refine ⟨{ heffect with stock := ?_ }, .inl hcont⟩
    exact heffect.stock.trans (by simpa using (sublist_append_left _ _).subperm)
  · obtain ⟨heffect', hout | ⟨c, hout⟩⟩ := pushByDistance_spec hinv hp hs heffect.timely
    · exact ⟨heffect.trans heffect', .inl (hcont.trans hout)⟩
    -- A candidate survived the flush, so the flush did nothing.
    refine ⟨heffect.trans heffect', .inr (.inl ⟨packet, now, c, rfl, ?_⟩)⟩
    have hnop := flushExpired_of_candidate h hout.candidate
    rw [hnop] at hout ⊢
    exact ⟨rfl, hout⟩
  · obtain ⟨heffect, hswitch⟩ := switchSource_spec hp hs hret
    exact ⟨heffect, .inr (.inr ⟨packet, now, rfl, hswitch⟩)⟩

theorem runFrom_concat (maxWait : Nat) (ops : List Op) (op : Op) :
    runFrom hasher maxWait (ops ++ [op]) =
      ((step hasher (runFrom hasher maxWait ops).1 op).1,
        (runFrom hasher maxWait ops).2 ++ (step hasher (runFrom hasher maxWait ops).1 op).2) :=
  Run.run_concat ops op

variable (hasher) in
theorem inv_runFrom (maxWait : Nat) (ops : List Op) : Inv hasher (runFrom hasher maxWait ops).1 :=
  Run.run_invariant (inv_new hasher maxWait) (fun _ op h => (step_spec h op).1.inv) ops

end Ims.RtpReorder
