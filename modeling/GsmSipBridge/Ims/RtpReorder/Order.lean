-- SUMMARY: Deliveries of the reorder buffer: at most once, in modular order, after a bounded wait.
import GsmSipBridge.Ims.RtpReorder

/-!
# Delivery order

Nothing is fabricated or delivered twice, and consecutive deliveries of one
source advance by at most half the sequence space. The one exception is the
first packet of a confirmed restart, which is why the statement names the
operation that confirmed it.
-/

namespace Ims.RtpReorder

open Rtp RtpReorderBuffer List

variable (hasher : UInt32 × UInt8 × Bytes → UInt64)

/-! ## Restarts -/

/-- `packet` is behind `expected` and its media is in the delivered history. -/
def Known (b : RtpReorderBuffer) (packet : Bytes) : Prop :=
  ∃ parsed, parsePacket packet = some parsed ∧ 0x8000 ≤ parsed.seq - b.expected ∧
    (b.delivered (parsed.seq, mediaIdentity hasher parsed)).isSome

/-- Pushing `packet` takes the branch that confirms the restart candidate `c`:
`c` outlives the flush at the start of the push, and `packet` is of the active
source, behind `expected`, not yet delivered, and the one right after `c`. -/
def ConfirmsRestart (b : RtpReorderBuffer) (packet : Bytes) (now : Nat)
    (c : RestartCandidate) : Prop :=
  ∃ parsed, parsePacket packet = some parsed ∧ b.ssrc = some parsed.ssrc ∧
    0x8000 ≤ parsed.seq - (b.flushExpired hasher now).1.expected ∧
    ((b.flushExpired hasher now).1.delivered
      (parsed.seq, mediaIdentity hasher parsed)).isSome = false ∧
    (b.flushExpired hasher now).1.restartCandidate = some c ∧ parsed.seq = c.seq + 1

/-- `q` is the first packet of a restart confirmed in the run: it was pushed
while unknown, became the candidate, and the packet that confirmed it follows
it in sequence and in delivery. -/
def RestartAt (maxWait : Nat) (ops : List Op) (i : Nat) (q : Bytes) : Prop :=
  ∃ earlier t between packet now after c,
    ops = (earlier ++ .push q t :: between) ++ .push packet now :: after ∧
    ¬ Known hasher ((runFrom hasher maxWait earlier).1.flushExpired hasher t).1 q ∧
    (let b := (runFrom hasher maxWait (earlier ++ .push q t :: between)).1
     ConfirmsRestart hasher b packet now c ∧ c.packet = q ∧
      ¬ Known hasher (b.flushExpired hasher now).1 q ∧
      ¬ Known hasher (b.flushExpired hasher now).1 packet) ∧
    (runFrom hasher maxWait (earlier ++ .push q t :: between)).2.length = i ∧
    (runFrom hasher maxWait ops).2[i + 1]? = some packet ∧
    ∃ pq pp, parsePacket q = some pq ∧ parsePacket packet = some pp ∧ pp.seq = pq.seq + 1

variable {hasher} {c : RestartCandidate} {q : Bytes} {b : RtpReorderBuffer} {packet p : Bytes}
  {l : List Bytes} {pq : ParsedPacket} {ssrc : Option UInt32} {i maxWait : Nat} {ops : List Op}

theorem not_known {parsed : ParsedPacket} (hp : parsePacket packet = some parsed)
    (hnone : b.delivered (parsed.seq, mediaIdentity hasher parsed) = none) :
    ¬ Known hasher b packet := by
  rintro ⟨parsed', hp', -, hsome⟩
  cases hp.symm.trans hp'
  simp [hnone] at hsome

/-- A candidate comes from the push that stored it, at which it was unknown. -/
theorem candidate_origin_step (h : Inv hasher b) {op : Op}
    (hc : (step hasher b op).1.restartCandidate = some c) :
    b.restartCandidate = some c ∨
    ∃ now, op = .push c.packet now ∧ ¬ Known hasher (b.flushExpired hasher now).1 c.packet := by
  have hflush : ∀ now, (b.flushExpired hasher now).1.restartCandidate = some c →
      b.restartCandidate = some c := by
    intro now hc
    rwa [flushExpired_of_candidate h hc] at hc
  rcases step_cases h op with hr | ⟨packet, now, parsed, rfl, hp,
    ⟨r, rfl, hinv, hs, hr⟩ | ⟨-, -, hr⟩⟩ <;> rw [hr] at hc
  · exact .inl (hflush _ hc)
  · rcases pushByDistance_cases hasher (b.flushExpired hasher now).1 parsed packet now with
      ⟨-, hr⟩ | ⟨heq, hr⟩ | ⟨hlo, hhi, hr⟩ <;> rw [hr] at hc
    · rcases (b.flushExpired hasher now).1.pushBehind_cases hasher parsed packet now with
        hr | hr | ⟨hnone, hr⟩ | ⟨-, _, d, o, -, -, hr⟩ <;> rw [hr] at hc
      · cases hc
      · exact .inl (hflush now hc)
      · cases hc
        exact .inr ⟨now, rfl, not_known hp hnone⟩
      · cases hc
    · obtain ⟨e, d, o, out, hr, -, -⟩ := pushExpected_cleared hinv hp hs heq
      rw [hr] at hc
      cases hc
    · -- The candidate is dropped before the insertion, and no flush brings it back.
      have hnop := flushExpired_of_candidate (inv_held hinv now hp hs hlo hhi) hc
      change (((b.flushExpired hasher now).1.held parsed packet now).flushExpired hasher
        now).1.restartCandidate = some c at hc
      rw [hnop] at hc
      cases hc
  · obtain ⟨retired, d, o, hr, -⟩ := b.switchSource_cleared hasher parsed packet
    rw [hr] at hc
    cases hc

theorem candidate_origin (maxWait : Nat) (ops : List Op)
    (hc : (runFrom hasher maxWait ops).1.restartCandidate = some c) :
    ∃ earlier t between, ops = earlier ++ .push c.packet t :: between ∧
      ¬ Known hasher ((runFrom hasher maxWait earlier).1.flushExpired hasher t).1 c.packet := by
  induction ops using reverseRecOn with
  | nil => cases hc
  | append_singleton ops op ih =>
    rw [runFrom_concat] at hc
    rcases candidate_origin_step (inv_runFrom hasher maxWait ops) hc with hc | ⟨t, rfl, hk⟩
    · obtain ⟨earlier, t, between, rfl, hk⟩ := ih hc
      exact ⟨earlier, t, between ++ [op], by simp, hk⟩
    · exact ⟨ops, t, [], rfl, hk⟩

/-! ## The stream -/

/-- The first packet of an in-order delivery, measured from the packet before
the one expected. -/
theorem InOrder.head {s e' : UInt16} (h : InOrder ssrc (s + 1) l e') (hhead : l.head? = some q)
    (hq : parsePacket q = some pq) : 1 ≤ (pq.seq - s).toNat ∧ (pq.seq - s).toNat ≤ 0x8000 := by
  cases h with
  | nil _ => cases hhead
  | cons hx _ hd _ =>
    cases hhead
    cases hq.symm.trans hx
    simp only [UInt16.toNat_sub, UInt16.toNat_add, UInt16.toNat_one] at hd ⊢
    ; have := s.toNat_lt
    omega

/-- Neighbours of an in-order delivery advance by one to half the space. -/
theorem InOrder.adjacent {e e' : UInt16} (h : InOrder ssrc e l e') {pp : ParsedPacket}
    (hadj : Run.Adjacent l i p q) (hp : parsePacket p = some pp) (hq : parsePacket q = some pq) :
    1 ≤ (pq.seq - pp.seq).toNat ∧ (pq.seq - pp.seq).toNat ≤ 0x8000 := by
  induction h generalizing i with
  | nil _ => exact absurd hadj Run.not_adjacent_nil
  | @cons e e' x rest parsed hx _ _ hrest ih =>
    cases i with
    | zero =>
      obtain ⟨rfl, hhead⟩ := Run.adjacent_cons_zero hadj
      cases hp.symm.trans hx
      exact hrest.head hhead hq
    | succ i => exact ih (Run.adjacent_cons_succ hadj)

/-- The packet delivered last is the one before `expected`. -/
theorem last_delivered (maxWait : Nat) (ops : List Op)
    (hlast : (runFrom hasher maxWait ops).2.getLast? = some p) :
    ∃ parsed, parsePacket p = some parsed ∧
      (runFrom hasher maxWait ops).1.ssrc = some parsed.ssrc ∧
      (runFrom hasher maxWait ops).1.expected = parsed.seq + 1 := by
  induction ops using reverseRecOn generalizing p with
  | nil => cases hlast
  | append_singleton ops op ih =>
    rw [runFrom_concat] at hlast ⊢
    rcases (step_spec (inv_runFrom hasher maxWait ops) op).2 with
      hr | ⟨packet, now, c, -, -, hr⟩ | ⟨packet, now, -, hr⟩
    · cases hout : (step hasher (runFrom hasher maxWait ops).1 op).2.getLast? with
      | none =>
        have hnil := getLast?_eq_none_iff.mp hout
        have horder := hr.order
        rw [hnil] at hlast horder
        rw [append_nil] at hlast
        obtain ⟨parsed, hp, hs, he⟩ := ih hlast
        exact ⟨parsed, hp, hr.ssrc.trans hs, horder.eq_of_nil.trans he⟩
      | some q =>
        rw [getLast?_append, hout, Option.some_or, Option.some.injEq] at hlast
        subst hlast
        obtain ⟨parsed, hp, hs, he⟩ := hr.order.getLast hout
        exact ⟨parsed, hp, hr.ssrc.trans hs, he⟩
    · obtain ⟨parsed, hp, hs, -, -, -, he⟩ := hr.confirms
      simp only [hr.out, getLast?_append, getLast?_cons_cons, getLast?_singleton,
        Option.some_or, Option.some.injEq] at hlast
      subst hlast
      exact ⟨parsed, hp, hr.ssrc.trans hs, he⟩
    · obtain ⟨parsed, hp, -, -, hs, he⟩ := hr.opens
      simp only [hr.out, getLast?_append, getLast?_singleton, Option.some_or,
        Option.some.injEq] at hlast
      subst hlast
      exact ⟨parsed, hp, hs, he⟩

/-- What is delivered and what is still held was pushed, copy for copy. -/
theorem delivered_subperm (maxWait : Nat) (ops : List Op) :
    ((runFrom hasher maxWait ops).2 ++ (runFrom hasher maxWait ops).1.stock).Subperm
      (ops.flatMap Op.pushed) := by
  induction ops using reverseRecOn with
  | nil => exact Subperm.refl _
  | append_singleton ops op ih =>
    rw [runFrom_concat, append_assoc]
    have hstep := (step_spec (inv_runFrom hasher maxWait ops) op).1.stock
    refine ((subperm_append_left _).mpr hstep).trans ?_
    simpa using (subperm_append_right op.pushed).mpr ih

/-- A restart found in a run is found in every longer run. -/
theorem RestartAt.concat (h : RestartAt hasher maxWait ops i q) (op : Op) :
    RestartAt hasher maxWait (ops ++ [op]) i q := by
  obtain ⟨earlier, t, between, packet, now, after, c, hops, hk, hc, hlen, hnext, hseq⟩ := h
  refine ⟨earlier, t, between, packet, now, after ++ [op], c, by simp [hops], hk, hc, hlen, ?_,
    hseq⟩
  rw [runFrom_concat, List.getElem?_append_left (List.getElem?_eq_some_iff.mp hnext).1]
  exact hnext

/-- The operation that confirms a restart delivers its first packet next. -/
theorem RtpReorderBuffer.Restarts.restartAt {now : Nat}
    (hnop : (runFrom hasher maxWait ops).1.flushExpired hasher now =
      ((runFrom hasher maxWait ops).1, []))
    (h : Restarts hasher (runFrom hasher maxWait ops).1 packet c
      (step hasher (runFrom hasher maxWait ops).1 (.push packet now))) :
    RestartAt hasher maxWait (ops ++ [.push packet now])
      (runFrom hasher maxWait ops).2.length c.packet := by
  obtain ⟨earlier, t, between, rfl, hk⟩ := candidate_origin maxWait ops h.candidate
  obtain ⟨parsed, hp, hs, hseq, hd, hnone, -⟩ := h.confirms
  obtain ⟨pc, hpc, hpcseq, -, -, hprobe⟩ := h.probing
  refine ⟨earlier, t, between, packet, now, [], c, rfl, hk, ⟨?_, rfl, ?_, ?_⟩, rfl, ?_, pc, parsed,
    hpc, hp, by rw [hseq, hpcseq]⟩
  · exact ⟨parsed, hp, hs, by rw [hnop]; exact hd, by rw [hnop]; simp [hnone],
      by rw [hnop]; exact h.candidate, hseq⟩
  · rw [hnop]
    exact not_known hpc hprobe
  · rw [hnop]
    exact not_known hp hnone
  · rw [runFrom_concat, h.out]
    simp

/-- The next sequence number is one ahead, across the wrap as well. -/
theorem seq_step_one {a b : UInt16} (h : b = a + 1) :
    1 ≤ (b - a).toNat ∧ (b - a).toNat ≤ 0x8000 := by
  have := a.toNat_lt
  rw [h]
  simp only [UInt16.toNat_sub, UInt16.toNat_add, UInt16.toNat_one]
  omega

section Adjacent

variable {op : Op} {pp : ParsedPacket} (hp : parsePacket p = some pp) (hq : parsePacket q = some pq)

include hp hq in
/-- The last delivery before an operation and its first one: the former is the one
before `expected`. -/
theorem ordered_at_seam (hssrc : pp.ssrc = pq.ssrc)
    (hlast : (runFrom hasher maxWait ops).2.getLast? = some p)
    (hhead : (step hasher (runFrom hasher maxWait ops).1 op).2.head? = some q) :
    (1 ≤ (pq.seq - pp.seq).toNat ∧ (pq.seq - pp.seq).toNat ≤ 0x8000) ∨
    RestartAt hasher maxWait (ops ++ [op]) (runFrom hasher maxWait ops).2.length q := by
  obtain ⟨parsed, hparsed, hs, he⟩ := last_delivered maxWait ops hlast
  cases hp.symm.trans hparsed
  rcases (step_spec (inv_runFrom hasher maxWait ops) op).2 with
    hr | ⟨packet, now, c, rfl, hnop, hr⟩ | ⟨packet, now, rfl, hr⟩
  · have horder := hr.order
    rw [he] at horder
    exact .inl (horder.head hhead hq)
  · rw [hr.out] at hhead
    cases hhead
    exact .inr (hr.restartAt hnop)
  obtain ⟨parsed, hpacket, hne, -⟩ := hr.opens
  rw [hr.out] at hhead
  cases hhead
  cases hq.symm.trans hpacket
  exact absurd (hs.trans (by rw [hssrc])) hne

include hp hq in
/-- Two deliveries of one operation. -/
theorem ordered_in_batch {j : Nat}
    (hnew : Run.Adjacent (step hasher (runFrom hasher maxWait ops).1 op).2 j p q) :
    1 ≤ (pq.seq - pp.seq).toNat ∧ (pq.seq - pp.seq).toNat ≤ 0x8000 := by
  rcases (step_spec (inv_runFrom hasher maxWait ops) op).2 with
    hr | ⟨packet, now, c, rfl, -, hr⟩ | ⟨packet, now, rfl, hr⟩
  · exact hr.order.adjacent hnew hp hq
  · obtain ⟨parsed, hpacket, -, hseq, -, -, -⟩ := hr.confirms
    obtain ⟨pc, hpc, hpcseq, -, -, -⟩ := hr.probing
    rw [hr.out] at hnew
    cases j with
    | zero =>
      obtain ⟨rfl, hhead⟩ := Run.adjacent_cons_zero hnew
      cases hhead
      cases hp.symm.trans hpc
      cases hq.symm.trans hpacket
      exact seq_step_one (hseq.trans (by rw [hpcseq]))
    | succ j =>
      exact absurd (Run.adjacent_cons_succ hnew) (by simp [Run.Adjacent])
  · rw [hr.out] at hnew
    exact absurd hnew (by simp [Run.Adjacent])

end Adjacent

variable (hasher) in
/-- **Order without duplication.** The delivered packets are, copy for copy,
among the pushed ones. Consecutive deliveries of one source advance by one to
half the sequence space, unless the second is the first packet of a confirmed
restart. -/
theorem delivered_once_in_order (maxWait : Nat) (ops : List Op) :
    ((runFrom hasher maxWait ops).2 : Multiset Bytes) ≤ (ops.flatMap Op.pushed : List Bytes) ∧
    ∀ i p q pp pq, Run.Adjacent (runFrom hasher maxWait ops).2 i p q →
      parsePacket p = some pp → parsePacket q = some pq → pp.ssrc = pq.ssrc →
      (1 ≤ (pq.seq - pp.seq).toNat ∧ (pq.seq - pp.seq).toNat ≤ 0x8000) ∨
      RestartAt hasher maxWait ops (i + 1) q := by
  constructor
  · exact Multiset.coe_le.mpr
      ((sublist_append_left _ _).subperm.trans (delivered_subperm maxWait ops))
  · induction ops using reverseRecOn with
    | nil =>
      intro i p q pp pq hadj
      exact absurd hadj Run.not_adjacent_nil
    | append_singleton ops op ih =>
      intro i p q pp pq hadj hp hq hssrc
      rw [runFrom_concat] at hadj
      rcases hadj.append with hold | ⟨hlast, hhead, hlen⟩ | ⟨j, rfl, hnew⟩
      · -- Both were delivered before this operation.
        rcases ih i p q pp pq hold hp hq hssrc with hin | hre
        · exact .inl hin
        · exact .inr (hre.concat op)
      · rw [hlen]
        exact ordered_at_seam hp hq hssrc hlast hhead
      · exact .inl (ordered_in_batch hp hq hnew)

/-! ## Retired sources

The last delivered packet always belongs to the active source, and every source
delivered from before that one is retired. A switch goes to a source that is
neither, so the sequence of sources never returns to one. -/

variable (hasher) {out : List Bytes} {ssrcs : List UInt32}

/-- The source of a packet, when it is one. -/
def ssrcOf (packet : Bytes) : Option UInt32 :=
  (parsePacket packet).map ParsedPacket.ssrc

theorem ssrcOf_of_parsePacket {parsed : ParsedPacket} (h : parsePacket packet = some parsed) :
    ssrcOf packet = some parsed.ssrc := by
  simp [ssrcOf, h]

/-- The sources of the packets delivered so far, and how they relate to the
state: the active one is last and all others are retired. -/
structure Sources (b : RtpReorderBuffer) (out : List Bytes) (ssrcs : List UInt32) : Prop where
  deliveries : out.map ssrcOf = ssrcs.map some
  last : ssrcs.getLast? = b.ssrc
  seen : ∀ ssrc ∈ ssrcs, b.ssrc = some ssrc ∨ ssrc ∈ b.retiredSsrcs
  once : (ssrcs.destutter (· ≠ ·)).Nodup

/-- More deliveries from the active source repeat its entry. -/
theorem Sources.continue {b' : RtpReorderBuffer} {new : List Bytes} (h : Sources b out ssrcs)
    (hs : b'.ssrc = b.ssrc) (hret : b'.retiredSsrcs = b.retiredSsrcs)
    (hnew : ∀ p ∈ new, b'.ssrc.isSome ∧ ssrcOf p = b'.ssrc) :
    ∃ ssrcs', Sources b' (out ++ new) ssrcs' := by
  rw [hs] at hnew
  cases hb : b.ssrc with
  | none =>
    have hnil : new = [] := by
      cases new with
      | nil => rfl
      | cons p _ => simpa [hb] using (hnew p (by simp)).1
    subst hnil
    exact ⟨ssrcs, by simpa using h.deliveries, h.last.trans hs.symm,
      by rw [hs, hret]; exact h.seen, h.once⟩
  | some s =>
    have hrep : ∀ y ∈ replicate new.length s, ssrcs.getLast? = some y := by
      intro y hy
      rw [eq_of_mem_replicate hy, h.last, hb]
    refine ⟨ssrcs ++ replicate new.length s, ?_, ?_, ?_, ?_⟩
    · have hmap : new.map ssrcOf = replicate new.length (some s) :=
        map_eq_replicate_iff.mpr fun p hp => (hnew p hp).2.trans hb
      rw [map_append, map_append, h.deliveries, hmap, map_replicate]
    · rw [hs, getLast?_append, h.last, hb, getLast?_replicate]
      split <;> rfl
    · rw [hs, hret]
      refine forall_mem_append.mpr ⟨h.seen, fun ssrc hmem => ?_⟩
      rw [eq_of_mem_replicate hmem]
      exact .inl hb
    · rw [Run.destutter_append_of_last hrep]
      exact h.once

/-- A switch appends a source that was not there. -/
theorem Sources.switch {r : RtpReorderBuffer × List Bytes} (h : Sources b out ssrcs)
    (hr : Switches b packet r) : ∃ ssrcs', Sources r.1 (out ++ r.2) ssrcs' := by
  obtain ⟨parsed, hp, hne, hret, hs, -⟩ := hr.opens
  have hfresh : parsed.ssrc ∉ ssrcs := fun hmem => (h.seen _ hmem).elim hne hret
  refine ⟨ssrcs ++ [parsed.ssrc], ?_, ?_, ?_, ?_⟩
  · rw [hr.out, map_append, h.deliveries]
    simp [ssrcOf_of_parsePacket hp]
  · rw [hs, getLast?_concat]
  · exact forall_mem_append.mpr
      ⟨fun ssrc hmem => .inr ((hr.retired ssrc).mpr (h.seen ssrc hmem)),
        forall_mem_singleton.mpr (.inl hs)⟩
  · have hlast : ssrcs.getLast? ≠ some parsed.ssrc := by
      rw [h.last]
      exact hne
    rw [Run.destutter_concat, if_neg hlast]
    refine nodup_append_comm.mp (nodup_cons.mpr ⟨fun hmem => hfresh ?_, h.once⟩)
    exact (destutter_sublist _ _).mem hmem

variable {hasher} in
/-- Every packet an operation delivers is of the source active after it. -/
theorem delivered_active (h : Inv hasher b) (op : Op) :
    ∀ p ∈ (step hasher b op).2, ∃ parsed, parsePacket p = some parsed ∧
      (step hasher b op).1.ssrc = some parsed.ssrc := by
  intro p hp
  rcases (step_spec h op).2 with hr | ⟨packet, now, c, -, -, hr⟩ | ⟨packet, now, -, hr⟩
  · exact hr.ssrc ▸ hr.order.mem hp
  · obtain ⟨parsed, hparsed, hs, -⟩ := hr.confirms
    obtain ⟨pc, hpc, -, hsc, -⟩ := hr.probing
    rw [hr.out] at hp
    rcases mem_pair.mp hp with rfl | rfl
    · exact ⟨pc, hpc, hr.ssrc.trans hsc⟩
    · exact ⟨parsed, hparsed, hr.ssrc.trans hs⟩
  · obtain ⟨parsed, hparsed, -, -, hs, -⟩ := hr.opens
    rw [hr.out] at hp
    exact ⟨parsed, mem_singleton.mp hp ▸ hparsed, hs⟩

theorem sources_runFrom (maxWait : Nat) (ops : List Op) :
    ∃ ssrcs, Sources (runFrom hasher maxWait ops).1 (runFrom hasher maxWait ops).2 ssrcs := by
  induction ops using reverseRecOn with
  | nil => exact ⟨[], rfl, rfl, by simp, by simp⟩
  | append_singleton ops op ih =>
    obtain ⟨ssrcs, h⟩ := ih
    rw [runFrom_concat]
    have hinv := inv_runFrom hasher maxWait ops
    have hnew : ∀ p ∈ (step hasher (runFrom hasher maxWait ops).1 op).2,
        (step hasher (runFrom hasher maxWait ops).1 op).1.ssrc.isSome ∧
        ssrcOf p = (step hasher (runFrom hasher maxWait ops).1 op).1.ssrc := by
      intro p hp
      obtain ⟨parsed, hparsed, hs⟩ := delivered_active hinv op p hp
      rw [hs, ssrcOf_of_parsePacket hparsed]
      exact ⟨rfl, rfl⟩
    rcases (step_spec hinv op).2 with hr | ⟨packet, now, c, -, -, hr⟩ | ⟨packet, now, -, hr⟩
    · exact h.continue hr.ssrc hr.retired hnew
    · exact h.continue hr.ssrc hr.retired hnew
    · exact h.switch hr

/-- **Retired sources stay retired.** Every delivered packet has a source, and
with consecutive repetitions collapsed no source is delivered from twice. A push
of a packet from a retired source can be replaced by a flush at the same time
without changing the deliveries or the state of the run. -/
theorem retired_stay_retired (maxWait : Nat) (ops : List Op) :
    (∃ ssrcs : List UInt32, (runFrom hasher maxWait ops).2.map ssrcOf = ssrcs.map some ∧
      (ssrcs.destutter (· ≠ ·)).Nodup) ∧
    (∀ before packet now after ssrc, ops = before ++ .push packet now :: after →
      ssrcOf packet = some ssrc → ssrc ∈ (runFrom hasher maxWait before).1.retiredSsrcs →
      runFrom hasher maxWait ops =
        runFrom hasher maxWait (before ++ .flushExpired now :: after)) := by
  constructor
  · obtain ⟨ssrcs, h⟩ := sources_runFrom hasher maxWait ops
    exact ⟨ssrcs, h.deliveries, h.once⟩
  · rintro before packet now after ssrc rfl hssrc hret
    obtain ⟨parsed, hp, rfl⟩ := Option.map_eq_some_iff.mp hssrc
    have hstep : step hasher (runFrom hasher maxWait before).1 (.push packet now) =
        step hasher (runFrom hasher maxWait before).1 (.flushExpired now) :=
      push_retired (inv_runFrom hasher maxWait before) hp hret
    unfold runFrom at hstep ⊢
    rw [Run.run_append, Run.run_append, Run.run_cons, Run.run_cons, hstep]

/-! ## Bounded hold

The deadline belongs to the batch and is set by its first member, so the bound
for a later member needs time to be non-decreasing. The batch either grows
under an unchanged deadline or is gone as a whole, which makes the arrival of a
pending packet well defined: the push since which it has been pending. -/

/-! ### The batch lives and dies as a whole -/

/-- The batch of `b` is still there under its own deadline. -/
def Keeps (b b' : RtpReorderBuffer) : Prop :=
  b'.deadline = b.deadline ∧ ∀ x ∈ b.pending, x ∈ b'.pending

/-- No sequence number of the batch of `b` is pending any more. -/
def Leaves (b b' : RtpReorderBuffer) : Prop :=
  ∀ x ∈ b.pending, x.1 ∉ b'.pending.map Prod.fst

variable {hasher}

section

variable (h : Inv hasher b)

include h

/-- A flush keeps the batch, or empties the buffer and leaves the batch behind
`expected`. -/
theorem flushExpired_batch (now : Nat) :
    let b' := (b.flushExpired hasher now).1
    (b'.deadline = b.deadline ∧ b'.pending = b.pending) ∨
    (b'.pending = [] ∧ ∀ x ∈ b.pending, 0x8000 ≤ (x.1 - b'.expected).toNat) := by
  rcases flushExpired_cases h now with ⟨e, d, o, hr, -, hbehind⟩ | ⟨-, hr | hr⟩ <;> rw [hr]
  · exact .inr ⟨rfl, hbehind⟩
  · exact .inl ⟨rfl, rfl⟩
  · exact .inl ⟨rfl, rfl⟩

/-- Inserting keeps a batch that has a deadline. -/
theorem keeps_held (parsed : ParsedPacket) (packet : Bytes) (now : Nat) :
    Keeps b (b.held parsed packet now) ∨ b.pending = [] := by
  cases hd : b.deadline with
  | none =>
    right
    by_contra hne
    simpa [hd] using h.deadline_iff.mpr hne
  | some d =>
    left
    exact ⟨by simp [held, hd], subset_orInsert _ _ _⟩

/-- A branch leaves the batch alone, empties it, or inserts a packet inside the window. -/
theorem pushByDistance_pending {packet : Bytes} {parsed : ParsedPacket} (now : Nat)
    (hp : parsePacket packet = some parsed) (hs : b.ssrc = some parsed.ssrc) :
    let b' := (b.pushByDistance hasher parsed packet now).1
    (b'.deadline = b.deadline ∧ b'.pending = b.pending) ∨ b'.pending = [] ∨
    ((parsed.seq - b.expected).toNat ≤ 0x7fff ∧
      b'.deadline = (b.held parsed packet now).deadline ∧
      b'.pending = (b.held parsed packet now).pending) := by
  rcases pushByDistance_cases hasher b parsed packet now with
    ⟨-, hr⟩ | ⟨heq, hr⟩ | ⟨hlo, hhi, hr⟩ <;> rw [hr]
  · rcases b.pushBehind_cases hasher parsed packet now with
      hr | hr | ⟨-, hr⟩ | ⟨-, c, d, o, -, -, hr⟩ <;> rw [hr]
    · exact .inl ⟨rfl, rfl⟩
    · exact .inl ⟨rfl, rfl⟩
    · exact .inl ⟨rfl, rfl⟩
    · exact .inr (.inl rfl)
  · obtain ⟨e, d, o, out, hr, -, -⟩ := pushExpected_cleared h hp hs heq
    rw [hr]
    exact .inr (.inl rfl)
  · rcases flushExpired_batch (inv_held h now hp hs hlo hhi) now with hsame | ⟨hnil, -⟩
    · exact .inr (.inr ⟨hhi, hsame⟩)
    · exact .inr (.inl hnil)

/-- An operation leaves the batch alone, empties it, or inserts its packet: into the batch,
or alone and under another number once the flush has released the batch. -/
theorem step_pending (op : Op) :
    let b' := (step hasher b op).1
    (b'.deadline = b.deadline ∧ b'.pending = b.pending) ∨ b'.pending = [] ∨
    ∃ packet now parsed, op = .push packet now ∧
      ((b'.deadline = (b.held parsed packet now).deadline ∧
        b'.pending = orInsert parsed.seq packet b.pending) ∨
      (b'.pending = [(parsed.seq, packet)] ∧ parsed.seq ∉ b.pending.map Prod.fst)) := by
  rcases step_cases h op with hr | ⟨packet, now, parsed, rfl, hp,
    ⟨r, rfl, hinv, hs, hr⟩ | ⟨-, -, hr⟩⟩ <;> rw [hr] <;> dsimp only
  · exact (flushExpired_batch h op.now).imp_right fun hend => .inl hend.1
  · have hwait := (flushExpired_spec h now).1.maxWait
    have hflush := flushExpired_batch h now
    rcases pushByDistance_pending hinv now hp hs with ⟨hd, hpend⟩ | hnil | ⟨hhi, hd, hpend⟩
    · rw [hd, hpend]
      exact hflush.imp_right fun hend => .inl hend.1
    · exact .inr (.inl hnil)
    refine .inr (.inr ⟨packet, now, parsed, rfl, ?_⟩)
    rw [hd, hpend]
    rcases hflush with ⟨hd', hpend'⟩ | ⟨hnil, hbehind⟩
    · exact .inl ⟨by simp [held, hd', hwait], by simp [held, hpend']⟩
    -- The flush released the batch: it lies behind what is expected now,
    -- and only a packet ahead can be inserted.
    refine .inr ⟨by simp [held, hnil, orInsert], fun hmem => ?_⟩
    obtain ⟨x, hx, hxs⟩ := mem_map.mp hmem
    have := hbehind x hx
    rw [hxs] at this
    omega
  · obtain ⟨retired, d, o, hr, -⟩ := b.switchSource_cleared hasher parsed packet
    rw [hr]
    exact .inr (.inl rfl)

/-- One operation keeps the batch under its deadline or ends all of it. -/
theorem step_batch (op : Op) : Keeps b (step hasher b op).1 ∨ Leaves b (step hasher b op).1 := by
  rcases step_pending h op with ⟨hd, hpend⟩ | hnil |
    ⟨packet, now, parsed, rfl, ⟨hd, hpend⟩ | ⟨hpend, hnew⟩⟩
  · exact .inl ⟨hd, fun x hx => hpend ▸ hx⟩
  · exact .inr fun x _ => by simp [hnil]
  · rcases keeps_held h parsed packet now with hk | hnil
    · exact .inl ⟨hd.trans hk.1, fun x hx => hpend ▸ hk.2 x hx⟩
    · exact .inr fun x hx => absurd hx (by simp [hnil])
  · refine .inr fun x hx hmem => hnew ?_
    simp only [hpend, map_cons, map_nil, mem_singleton] at hmem
    exact hmem ▸ mem_map_of_mem hx

end

/-! ### Arrivals -/

variable (hasher) in
/-- `p`, pushed at `t` after `before`, entered `pending` under `s` then and has
been there after every operation since. `t` is the arrival time of that copy. -/
structure HeldSince (maxWait : Nat) (before : List Op) (p : Bytes) (t : Nat) (s : UInt16)
    (after : List Op) : Prop where
  absent : s ∉ (runFrom hasher maxWait before).1.pending.map Prod.fst
  held : ∀ k, (s, p) ∈ (runFrom hasher maxWait (before ++ .push p t :: after.take k)).1.pending

variable (maxWait ops) {x : UInt16 × Bytes}

theorem runFrom_maxWait :
    (runFrom hasher maxWait ops).1.maxWait = maxWait := by
  induction ops using reverseRecOn with
  | nil => rfl
  | append_singleton ops op ih =>
    rw [runFrom_concat]
    exact (step_spec (inv_runFrom hasher maxWait ops) op).1.maxWait.trans ih

/-- A deadline was set by some operation of the run. -/
theorem deadline_set {d : Nat} (hd : (runFrom hasher maxWait ops).1.deadline = some d) :
    ∃ op ∈ ops, d = op.now + maxWait := by
  induction ops using reverseRecOn with
  | nil => cases hd
  | append_singleton ops op ih =>
    rw [runFrom_concat] at hd
    rcases (step_spec (inv_runFrom hasher maxWait ops) op).1.source d hd with hd | hd
    · obtain ⟨op', hmem, hd⟩ := ih hd
      exact ⟨op', by simp [hmem], hd⟩
    · rw [runFrom_maxWait] at hd
      exact ⟨op, by simp, hd⟩

/-- What is pending after an operation was pending before it, or was pushed by
it and was not pending before. -/
theorem mem_pending_step (h : Inv hasher b) {op : Op}
    (hx : x ∈ (step hasher b op).1.pending) :
    x ∈ b.pending ∨ (x.1 ∉ b.pending.map Prod.fst ∧ ∃ t, op = .push x.2 t) := by
  rcases step_pending h op with ⟨-, hpend⟩ | hnil |
    ⟨packet, now, parsed, rfl, ⟨-, hpend⟩ | ⟨hpend, hnew⟩⟩
  · exact .inl (hpend ▸ hx)
  · rw [hnil] at hx
    cases hx
  · rw [hpend] at hx
    rcases mem_orInsert _ _ _ hx with ⟨rfl, hnew⟩ | hx
    · exact .inr ⟨hnew, now, rfl⟩
    · exact .inl hx
  · rw [hpend, mem_singleton] at hx
    subst hx
    exact .inr ⟨hnew, now, rfl⟩

/-- A pending packet has an arrival. -/
theorem heldSince_of_pending (hx : x ∈ (runFrom hasher maxWait ops).1.pending) :
    ∃ before t after, ops = before ++ .push x.2 t :: after ∧
      HeldSince hasher maxWait before x.2 t x.1 after := by
  induction ops using reverseRecOn with
  | nil => cases hx
  | append_singleton ops op ih =>
    have hx' := hx
    rw [runFrom_concat] at hx'
    rcases mem_pending_step (inv_runFrom hasher maxWait ops) hx' with hold | ⟨hnew, t, rfl⟩
    · obtain ⟨before, t, after, rfl, hheld⟩ := ih hold
      refine ⟨before, t, after ++ [op], by simp, hheld.absent, fun k => ?_⟩
      rcases Nat.lt_or_ge after.length k with hk | hk
      · rw [take_of_length_le (by simp; omega)]
        simpa using hx
      · rw [take_append_of_le_length hk]
        exact hheld.held k
    · exact ⟨ops, t, [], rfl, hnew, fun k => by simpa using hx⟩

/-- While a packet is held, the deadline is at most its arrival plus the wait. -/
theorem HeldSince.deadline_le {maxWait : Nat} {before after : List Op} {p : Bytes} {t : Nat}
    {s : UInt16} (hmono : ((before ++ .push p t :: after).map Op.now).Pairwise (· ≤ ·))
    (h : HeldSince hasher maxWait before p t s after) :
    ∃ d, (runFrom hasher maxWait (before ++ .push p t :: after)).1.deadline = some d ∧
      d ≤ t + maxWait := by
  induction after using reverseRecOn with
  | nil =>
    have hpend : (s, p) ∈ (runFrom hasher maxWait (before ++ [.push p t])).1.pending := by
      simpa using h.held 0
    have hsome := (inv_runFrom hasher maxWait (before ++ [.push p t])).deadline_iff.mpr
      (ne_nil_of_mem hpend)
    obtain ⟨d, hd⟩ := Option.isSome_iff_exists.mp hsome
    refine ⟨d, hd, ?_⟩
    obtain ⟨op, hmem, rfl⟩ := deadline_set maxWait _ hd
    have hle : op.now ≤ t := by
      rw [map_append, pairwise_append] at hmono
      rcases mem_append.mp hmem with hop | hop
      · exact hmono.2.2 op.now (mem_map_of_mem hop) t (by simp [Op.now])
      · simp only [mem_singleton] at hop
        simp [hop, Op.now]
    omega
  | append_singleton after op ih =>
    have hprefix : HeldSince hasher maxWait before p t s after := by
      refine ⟨h.absent, fun k => ?_⟩
      have hk := h.held (min k after.length)
      rwa [take_append_of_le_length (Nat.min_le_right _ _), ← take_eq_take_min] at hk
    have hmono' : ((before ++ .push p t :: after).map Op.now).Pairwise (· ≤ ·) :=
      hmono.sublist (by simp)
    obtain ⟨d, hd, hle⟩ := ih hmono' hprefix
    have hnow := h.held (after ++ [op]).length
    rw [take_length, ← cons_append, ← append_assoc, runFrom_concat] at hnow
    have hbefore : (s, p) ∈ (runFrom hasher maxWait (before ++ .push p t :: after)).1.pending := by
      simpa using hprefix.held after.length
    refine ⟨d, ?_, hle⟩
    rw [← cons_append, ← append_assoc, runFrom_concat]
    rcases step_batch (inv_runFrom hasher maxWait (before ++ .push p t :: after)) op with
      hk | hl
    · exact hk.1.trans hd
    · exact absurd (mem_map_of_mem hnow) (hl _ hbefore)

variable (hasher) in
/-- **Bounded hold.** In every state of a run with non-decreasing time: there is
a deadline exactly while packets are pending; they lie ahead of `expected`
within half the sequence space; the deadline is later than the last operation;
every pending packet has an arrival and the deadline is within the wait of it.
So no packet is still held after an operation at or past its arrival plus the
wait. -/
theorem bounded_hold (maxWait : Nat) (ops : List Op)
    (hmono : (ops.map Op.now).Pairwise (· ≤ ·)) :
    ((runFrom hasher maxWait ops).1.deadline.isSome ↔
      (runFrom hasher maxWait ops).1.pending ≠ []) ∧
    (∀ x ∈ (runFrom hasher maxWait ops).1.pending,
      1 ≤ (x.1 - (runFrom hasher maxWait ops).1.expected).toNat ∧
      (x.1 - (runFrom hasher maxWait ops).1.expected).toNat ≤ 0x7fff) ∧
    (∀ earlier op, ops = earlier ++ [op] →
      ∀ d, (runFrom hasher maxWait ops).1.deadline = some d → op.now < d) ∧
    (∀ x ∈ (runFrom hasher maxWait ops).1.pending, ∃ before t after,
      ops = before ++ .push x.2 t :: after ∧ HeldSince hasher maxWait before x.2 t x.1 after) ∧
    (∀ before p t s after, ops = before ++ .push p t :: after →
      HeldSince hasher maxWait before p t s after →
      ∃ d, (runFrom hasher maxWait ops).1.deadline = some d ∧ d ≤ t + maxWait) ∧
    (∀ before p t s after op, ops = before ++ .push p t :: (after ++ [op]) →
      t + maxWait ≤ op.now → ¬ HeldSince hasher maxWait before p t s (after ++ [op])) := by
  have hinv := inv_runFrom hasher maxWait ops
  have htimely : ∀ earlier op, ops = earlier ++ [op] →
      ∀ d, (runFrom hasher maxWait ops).1.deadline = some d → op.now < d := by
    rintro earlier op rfl d hd
    rw [runFrom_concat] at hd
    exact (step_spec (inv_runFrom hasher maxWait earlier) op).1.timely d hd
  refine ⟨hinv.deadline_iff, hinv.window, htimely,
    fun x hx => heldSince_of_pending maxWait ops hx, ?_, ?_⟩
  · rintro before p t s after rfl hheld
    exact hheld.deadline_le hmono
  · rintro before p t s after op rfl hlate hheld
    obtain ⟨d, hd, hle⟩ := hheld.deadline_le hmono
    have := htimely (before ++ .push p t :: after) op (by simp) d hd
    omega

/-- A gap at sequence 11 holds packet 12 from time 5; the deadline is 45. -/
theorem bounded_hold_gap :
    let p := Rtp.buildPacket 12 320 7 96 [2]
    let ops := [.push (Rtp.buildPacket 10 0 7 96 [1]) 0, .push p 5, .flushExpired 7]
    (12, p) ∈ (runFrom (fun _ => 0) 40 ops).1.pending ∧
    ∃ d, (runFrom (fun _ => 0) 40 ops).1.deadline = some d ∧ 7 < d ∧ d ≤ 5 + 40 := by
  intro p ops
  have hpend : (12, p) ∈ (runFrom (fun _ => 0) 40 ops).1.pending := by decide +kernel
  have hheld : HeldSince (fun _ => 0) 40 [.push (Rtp.buildPacket 10 0 7 96 [1]) 0] p 5 12
      [.flushExpired 7] := by
    refine ⟨by decide +kernel, fun k => ?_⟩
    cases k with
    | zero => decide +kernel
    | succ k =>
      rw [take_succ_cons, take_nil]
      exact hpend
  obtain ⟨-, -, htimely, -, hbound, -⟩ := bounded_hold (fun _ => 0) 40 ops (by decide)
  obtain ⟨d, hd, hle⟩ := hbound _ p 5 12 _ rfl hheld
  exact ⟨hpend, d, hd, htimely [_, _] (.flushExpired 7) rfl d hd, hle⟩

end Ims.RtpReorder
