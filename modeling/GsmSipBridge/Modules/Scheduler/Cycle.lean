-- SUMMARY: A restart cycle accounts for every slot, in order and one at a time.
import GsmSipBridge.Modules.Scheduler

/-!
# Every card once

A slot of the initial set is pending, put off or under way, or has its final outcome, and
never two of these. Its restart is sent when it leaves the queues, so it is sent once.
-/

namespace Modules.Scheduler

open Clock CycleState List SchedulerAction

variable {view : SlotView} {now slot : Nat} {s s' : CycleState} {es log : List Entry}
  {attempt : AttemptType} {slots rest : List Nat} {outcome : Outcome} {r : Restarts}

/-! ## Slots are neither lost nor doubled -/

def Outcome.final : Outcome → Bool
  | deferred _ => false
  | success | failed _ | skipped _ | timedOut | alreadyRestartedByManual => true

/-- How many final outcomes a slot has. -/
def finals (outcomes : List CycleOutcome) (slot : Nat) : Nat :=
  outcomes.countP fun o => o.slot == slot && o.outcome.final

def Entry.rebootSlot : Entry → Option Nat
  | reboot _ slot _ => some slot
  | turn _ _ _ | resolved _ _ => none

/-- The slots a reboot was sent to, in order. -/
def rebooted (log : List Entry) : List Nat := log.filterMap Entry.rebootSlot

/-- How often a slot is in the queues. -/
def CycleState.queued (s : CycleState) (slot : Nat) : Nat :=
  s.pending.count slot + s.deferred.count slot

/-- How often a slot is the card under way: once or not at all. -/
def CycleState.underWay (s : CycleState) (slot : Nat) : Nat :=
  (s.current.map (·.slot)).toList.count slot

theorem CycleState.queued_pos : slot ∈ s.pending ∨ slot ∈ s.deferred ↔ 0 < s.queued slot := by
  unfold queued
  rw [← count_pos_iff, ← count_pos_iff]
  omega

structure Accounted (slots : List Nat) (s : CycleState) (log : List Entry) : Prop where
  outcomes : ∀ slot, finals s.outcomes slot + s.queued slot + s.underWay slot = slots.count slot
  reboots : ∀ slot, (rebooted log).count slot + s.queued slot ≤ slots.count slot

theorem finals_concat (outcomes : List CycleOutcome) (o : CycleOutcome) :
    finals (outcomes ++ [o]) slot =
      finals outcomes slot + if o.slot = slot ∧ o.outcome.final = true then 1 else 0 := by
  unfold finals
  simp

theorem rebooted_append : rebooted (log ++ es) = rebooted log ++ rebooted es :=
  filterMap_append

theorem CycleState.underWay_of_none (h : s.current = none) : s.underWay slot = 0 := by
  unfold underWay
  rw [h]
  rfl

theorem CycleState.underWay_of_some {c : CurrentCard} (h : s.current = some c) :
    s.underWay slot = if c.slot = slot then 1 else 0 := by
  unfold underWay
  rw [h, Option.map_some, Option.toList_some, count_singleton]
  simp

/-- A slot that is taken from the queue of a pass. -/
theorem CycleState.queued_eq_setQueue (hqueue : s.queue attempt = slot :: rest) (other : Nat) :
    s.queued other = (s.setQueue attempt rest).queued other + if slot = other then 1 else 0 := by
  unfold queued
  cases attempt with
  | initial | deferredRetry =>
    simp only [queue] at hqueue
    simp only [setQueue, hqueue, count_cons, beq_iff_eq]
    omega

theorem outcomes_setQueue : (s.setQueue attempt rest).outcomes = s.outcomes := by
  cases attempt <;> rfl

theorem queued_beginRestart (now other : Nat) :
    (s.beginRestart attempt slot rest now).queued other =
      (s.setQueue attempt rest).queued other := rfl

theorem ofRestart_imp_final (h : outcome.ofRestart = true) : outcome.final = true := by
  cases outcome with
  | deferred reason => cases h
  | success | failed reason | skipped reason | timedOut | alreadyRestartedByManual => rfl

/-- The turn of a slot moves it from its queue to its outcome, or to the slots that are put
off. -/
theorem passOver_balance (hqueue : s.queue attempt = slot :: rest)
    (hinsp : inspect view attempt slot = some outcome) (other : Nat) :
    let t := s.passOver attempt slot rest outcome
    finals t.outcomes other + t.queued other = finals s.outcomes other + s.queued other ∧
      finals s.outcomes other ≤ finals t.outcomes other := by
  rw [queued_eq_setQueue hqueue other]
  obtain ⟨-, ⟨reason, rfl⟩ | ⟨⟨reason, rfl⟩, -⟩⟩ := inspect_eq_some hinsp
  · simp only [passOver, outcomes_setQueue, finals_concat, Outcome.final, and_true,
      queued]
    omega
  simp only [passOver, outcomes_setQueue, finals_concat, Outcome.final,
    Bool.false_eq_true, and_false, if_false, queued, count_append,
    count_singleton, beq_iff_eq]
  omega

/-- No move puts a slot into the queues. -/
theorem Move.queued_le (h : Move view now s es s') (slot : Nat) :
    s'.queued slot ≤ s.queued slot := by
  cases h with
  | resolve | poll | retry | finish => exact Nat.le_refl _
  | passOver hcur hphase hqueue hinsp =>
    have hbalance := passOver_balance hqueue hinsp slot
    omega
  | beginRestart hcur hphase hqueue hfit =>
    rw [queued_eq_setQueue hqueue]
    exact Nat.le_add_right _ _

theorem Accounted.move (h : Accounted slots s log) (hmove : Move view now s es s') :
    Accounted slots s' (log ++ es) := by
  have hqueued := hmove.queued_le
  cases hmove with
  | @resolve c outcome gap hcur hout =>
    constructor
    · intro slot
      have hslot := h.outcomes slot
      rw [underWay_of_some hcur] at hslot
      rw [underWay_of_none rfl]
      simp only [resolve, finals_concat, ofRestart_imp_final hout, and_true,
        queued] at hslot ⊢
      omega
    · intro slot
      rw [rebooted_append]
      change (rebooted log ++ []).count slot + _ ≤ _
      rw [append_nil]
      exact h.reboots slot
  | poll | retry | finish =>
    rw [append_nil]
    exact ⟨h.outcomes, h.reboots⟩
  | @passOver attempt slot rest outcome hcur hphase hqueue hinsp =>
    have hbalance := passOver_balance hqueue hinsp
    have hcur' := (current_passOver s attempt slot rest outcome).trans hcur
    constructor
    · intro other
      have hother := h.outcomes other
      rw [underWay_of_none hcur] at hother
      rw [underWay_of_none hcur', (hbalance other).1]
      exact hother
    · intro other
      rw [rebooted_append]
      change (rebooted log ++ []).count other + _ ≤ _
      rw [append_nil]
      exact Nat.le_trans (Nat.add_le_add_left (hqueued other) _) (h.reboots other)
  | @beginRestart attempt slot rest hcur hphase hqueue hfit =>
    have hqueued := queued_eq_setQueue hqueue
    constructor
    · intro other
      have hother := h.outcomes other
      rw [underWay_of_none hcur, hqueued] at hother
      rw [underWay_of_some rfl, queued_beginRestart]
      change finals (s.setQueue attempt rest).outcomes other + _ + _ = _
      rw [outcomes_setQueue]
      simp only
      omega
    · intro other
      have hother := h.reboots other
      rw [hqueued] at hother
      rw [rebooted_append]
      change (rebooted log ++ [slot]).count other + (s.setQueue attempt rest).queued other ≤ _
      rw [count_append, count_singleton]
      simp only [beq_iff_eq]
      omega

theorem Accounted.manual (hnodup : slots.Nodup) (h : Accounted slots s log) :
    Accounted slots (handleManualRestartDuringCycle s slot).1 log := by
  refine handleManualRestart_cases h fun hmem => ?_
  have hqueued := queued_pos.1 hmem
  have honce := nodup_iff_count_le_one.1 hnodup slot
  constructor
  · intro other
    have hother := h.outcomes other
    have hslot := h.outcomes slot
    simp only [queued] at hqueued hother hslot
    simp only [finals_concat, Outcome.final, and_true, queued, count_erase,
      beq_iff_eq, underWay] at hother hslot ⊢
    by_cases heq : slot = other
    · subst heq
      simp only [if_true]
      omega
    · simp only [if_neg heq]
      omega
  · intro other
    refine Nat.le_trans (Nat.add_le_add_left ?_ _) (h.reboots other)
    exact Nat.add_le_add ((erase_sublist).count_le other)
      ((erase_sublist).count_le other)

/-! ## Turns in order -/

def Entry.turnOf : Entry → Option (AttemptType × Nat)
  | turn attempt slot _ | reboot attempt slot _ => some (attempt, slot)
  | resolved _ _ => none

/-- The turns that were taken, restarts included. -/
def turns (log : List Entry) : List (AttemptType × Nat) := log.filterMap Entry.turnOf

/-- A turn of the initial pass comes before a turn of a later slot, and before every turn of
a slot that was put off. -/
def Precedes (a b : AttemptType × Nat) : Prop :=
  match a.1, b.1 with
  | .initial, .initial => a.2 < b.2
  | .initial, .deferredRetry | .deferredRetry, .deferredRetry => True
  | .deferredRetry, .initial => False

structure InOrder (s : CycleState) (log : List Entry) : Prop where
  pendingEmpty : s.phase ≠ .initial → s.pending = []
  deferredEmpty : s.phase = .complete → s.deferred = []
  idle : s.phase = .complete → s.current = none
  ascending : s.pending.Pairwise (· < ·)
  turns : (turns log).Pairwise Precedes
  /-- Every slot that is still pending may have its turn next. -/
  next : ∀ slot ∈ s.pending, ∀ t ∈ Scheduler.turns log, Precedes t (.initial, slot)

theorem turns_append : turns (log ++ es) = turns log ++ turns es :=
  filterMap_append

theorem precedes_deferredRetry (a : AttemptType × Nat) : Precedes a (.deferredRetry, slot) := by
  obtain ⟨attempt, first⟩ := a
  cases attempt <;> trivial

section

variable (h : InOrder s log)

include h

/-- The turn of the first slot in a pass. -/
theorem InOrder.takeTurn {e : Entry} (hphase : s.phase = attempt.phase)
    (hqueue : s.queue attempt = slot :: rest) (he : e.turnOf = some (attempt, slot))
    (hphase' : s'.phase = s.phase) (hpend : s'.pending = (s.setQueue attempt rest).pending) :
    InOrder s' (log ++ [e]) := by
  have hturn : Scheduler.turns (log ++ [e]) = Scheduler.turns log ++ [(attempt, slot)] := by
    simp [Scheduler.turns, he]
  have hnot : s'.phase ≠ .complete := by
    rw [hphase', hphase]
    exact attempt.phase_ne_complete
  have hqueues : s'.pending.Sublist s.pending ∧ (s'.phase ≠ .initial → s'.pending = []) ∧
      (∀ t ∈ Scheduler.turns log, Precedes t (attempt, slot)) ∧
      ∀ other ∈ s'.pending, Precedes (attempt, slot) (.initial, other) := by
    rw [hpend]
    cases attempt with
    | initial =>
      have hslots : s.pending = slot :: rest := hqueue
      have hsorted := h.ascending
      have hnext := h.next
      rw [hslots] at hsorted hnext ⊢
      exact ⟨sublist_cons_self slot rest, fun hne => absurd (hphase'.trans hphase) hne,
        hnext slot mem_cons_self, (pairwise_cons.1 hsorted).1⟩
    | deferredRetry =>
      have hempty : s.pending = [] := h.pendingEmpty (hphase ▸ CyclePhase.noConfusion)
      refine ⟨Sublist.refl _, fun _ => hempty, fun t _ => precedes_deferredRetry t, ?_⟩
      intro other hother
      rw [setQueue, hempty] at hother
      cases hother
  obtain ⟨hsub, hempty, hbefore, hafter⟩ := hqueues
  constructor
  case pendingEmpty => exact hempty
  case deferredEmpty => exact fun hc => absurd hc hnot
  case idle => exact fun hc => absurd hc hnot
  case ascending => exact h.ascending.sublist hsub
  case turns =>
    rw [hturn]
    refine pairwise_append.2 ⟨h.turns, pairwise_singleton _ _, ?_⟩
    intro a ha b hb
    rw [mem_singleton.1 hb]
    exact hbefore a ha
  case next =>
    intro other hother t ht
    rw [hturn, mem_append] at ht
    obtain ht | ht := ht
    · exact h.next other (hsub.subset hother) t ht
    · rw [mem_singleton.1 ht]
      exact hafter other hother

theorem InOrder.move (hmove : Move view now s es s') : InOrder s' (log ++ es) := by
  cases hmove with
  | @resolve c outcome gap hcur hout =>
    have hturns : Scheduler.turns (log ++ [.resolved c.slot now]) = Scheduler.turns log := by
      rw [turns_append]
      exact append_nil _
    exact { h with
      idle := fun _ => rfl
      turns := hturns ▸ h.turns
      next := hturns ▸ h.next }
  | poll hcur hwait =>
    rw [append_nil]
    exact { h with }
  | retry hcur hphase hpend =>
    rw [append_nil]
    exact { h with
      pendingEmpty := fun _ => hpend
      deferredEmpty := fun hc => CyclePhase.noConfusion hc
      idle := fun hc => CyclePhase.noConfusion hc }
  | finish hcur hphase hpend hdefer =>
    rw [append_nil]
    have hempty : s.pending = [] := by
      by_cases hinit : s.phase = .initial
      · exact hpend hinit
      · exact h.pendingEmpty hinit
    exact { h with
      pendingEmpty := fun _ => hempty
      deferredEmpty := fun _ => hdefer
      idle := fun _ => hcur }
  | @passOver attempt slot rest outcome hcur hphase hqueue hinsp =>
    exact h.takeTurn hphase hqueue rfl (phase_passOver slot) rfl
  | @beginRestart attempt slot rest hcur hphase hqueue hfit =>
    exact h.takeTurn hphase hqueue rfl phase_setQueue rfl

theorem InOrder.manual : InOrder (handleManualRestartDuringCycle s slot).1 log := by
  refine handleManualRestart_cases h fun _ => ?_
  exact { h with
    pendingEmpty := fun hne => by simp [h.pendingEmpty hne]
    deferredEmpty := fun hc => by simp [h.deferredEmpty hc]
    ascending := h.ascending.sublist erase_sublist
    next := fun other hother => h.next other (mem_of_mem_erase hother) }

end

/-! ## One restart at a time -/

/-- The slots whose restart was sent and is not resolved. -/
def inFlight (log : List Entry) : List Nat :=
  log.foldl (fun slots e => match e with
    | .reboot _ slot _ => slot :: slots
    | .resolved slot _ => slots.erase slot
    | .turn _ _ _ => slots) []

/-- Whenever a reboot is sent no restart is in flight. -/
def Serial (log : List Entry) : Prop :=
  Interleave.Fits (fun sent e => e.rebootSlot.isSome → inFlight sent = []) log

structure OneAtATime (s : CycleState) (log : List Entry) : Prop where
  serial : Serial log
  inFlight : inFlight log = (s.current.map (·.slot)).toList

theorem OneAtATime.move (h : OneAtATime s log) (hmove : Move view now s es s') :
    OneAtATime s' (log ++ es) := by
  have hidle : s.current = none → Scheduler.inFlight log = [] := fun hcur => by
    rw [h.inFlight, hcur]
    rfl
  have hconcat : ∀ e, Scheduler.inFlight (log ++ [e]) = _ := fun e => foldl_append
  cases hmove with
  | @resolve c outcome gap hcur hout =>
    refine ⟨h.serial.concat fun he => Bool.noConfusion he, ?_⟩
    rw [hconcat, ← Scheduler.inFlight, h.inFlight, hcur]
    exact erase_cons_head _ _
  | poll | retry | finish =>
    rw [append_nil]
    exact ⟨h.serial, h.inFlight⟩
  | @passOver attempt slot rest outcome hcur hphase hqueue hinsp =>
    refine ⟨h.serial.concat fun he => Bool.noConfusion he, ?_⟩
    rw [hconcat, ← Scheduler.inFlight, hidle hcur, current_passOver, hcur]
    rfl
  | @beginRestart attempt slot rest hcur hphase hqueue hfit =>
    refine ⟨h.serial.concat fun _ => hidle hcur, ?_⟩
    rw [hconcat, ← Scheduler.inFlight, hidle hcur]
    rfl

theorem OneAtATime.manual (h : OneAtATime s log) :
    OneAtATime (handleManualRestartDuringCycle s slot).1 log :=
  handleManualRestart_cases h fun _ => ⟨h.serial, h.inFlight⟩

/-! ## Only slots that are fit -/

/-- A slot that is restarted was in the queues, and is fit. -/
theorem Moves.of_rebooted (h : Moves view now s es s') (hmem : slot ∈ rebooted es) :
    0 < s.queued slot ∧ Fit view slot := by
  induction h with
  | refl s => cases hmem
  | step head _ ih =>
    rw [rebooted_append, mem_append] at hmem
    obtain hmem | hmem := hmem
    · cases head with
      | resolve | passOver | poll | retry | finish => cases hmem
      | beginRestart hcur hphase hqueue hfit =>
        cases mem_singleton.1 hmem
        rw [queued_eq_setQueue hqueue, if_pos rfl]
        exact ⟨Nat.succ_pos _, hfit⟩
    · exact ⟨Nat.lt_of_lt_of_le (ih hmem).1 (head.queued_le slot), (ih hmem).2⟩

/-- A reboot that a step sends goes to a slot that is ready and without a call. -/
def RebootsFit (gapBase gapJitter : Nat) (r : Restarts) (e : Event) : Prop :=
  ∀ entries slot, (r.step gapBase gapJitter e).log = r.log ++ entries → slot ∈ rebooted entries →
    ∃ delay view draw, e = .advance delay view draw ∧ Fit view slot

theorem Restarts.On.rebootsFit (h : r.On) (gapBase gapJitter : Nat) (e : Event) :
    RebootsFit gapBase gapJitter r e := by
  intro entries slot
  refine Restarts.step_cases ?early ?tick ?manual e
  case tick =>
    intro delay view draw s hs _ hlog hmem
    have hticked : Ticked view (r.wait delay).clock s _ :=
      Ticked.tick draw gapBase gapJitter (h s hs)
    rw [← append_cancel_left hlog] at hmem
    exact ⟨delay, view, draw, rfl, (hticked.moves.of_rebooted hmem).2⟩
  case early =>
    intro _ _ _ _ hlog hmem
    rw [self_eq_append_right.1 hlog] at hmem
    cases hmem
  case manual =>
    intro _ hlog hmem
    rw [self_eq_append_right.1 hlog] at hmem
    cases hmem

/-! ## The cycle as a whole -/

/-- What holds of a cycle at every point: at most one reboot a slot, one restart at a time,
the turns in order; and once it has been taken down, one final outcome for each of its
slots. -/
structure EveryCardOnce (slots : List Nat) (r : Restarts) : Prop where
  rebootsOnce : (rebooted r.log).Nodup
  serial : Serial r.log
  ordered : (turns r.log).Pairwise Precedes
  outcomes : r.cycle = none → ∃ s, r.completed = some s ∧
    ∀ slot, finals s.outcomes slot = if slot ∈ slots then 1 else 0

/-- The three invariants of the moves together. -/
structure Kept (slots : List Nat) (s : CycleState) (log : List Entry) : Prop where
  accounted : Accounted slots s log
  order : InOrder s log
  single : OneAtATime s log

theorem Kept.move (hmove : Move view now s es s') (h : Kept slots s log) :
    Kept slots s' (log ++ es) :=
  ⟨h.accounted.move hmove, h.order.move hmove, h.single.move hmove⟩

section

variable (hnodup : slots.Nodup)

include hnodup

theorem Kept.manual (h : Kept slots s log) :
    Kept slots (handleManualRestartDuringCycle s slot).1 log :=
  ⟨h.accounted.manual hnodup, h.order.manual, h.single.manual⟩

theorem Kept.start (id t₀ : Nat) : Throughout (Kept slots) (Restarts.start id slots t₀) := by
  refine ⟨startCycle id slots t₀, ⟨⟨?_, ?_⟩, ?_, ?_, ?_⟩, .inl ⟨rfl, CyclePhase.noConfusion⟩⟩
  · intro slot
    have hcount := (perm_insertionSort (· ≤ ·) slots).count_eq slot
    simp only [startCycle, finals, countP_nil, queued, count_nil,
      underWay, Option.map_none, Option.toList_none]
    omega
  · intro slot
    have hcount := (perm_insertionSort (· ≤ ·) slots).count_eq slot
    simp only [Restarts.start, rebooted, filterMap_nil, count_nil, startCycle, queued]
    omega
  · exact {
      pendingEmpty := fun hne => absurd rfl hne
      deferredEmpty := fun hc => CyclePhase.noConfusion hc
      idle := fun hc => CyclePhase.noConfusion hc
      ascending := by
        have hsorted := pairwise_insertionSort (· ≤ ·) slots
        have hdist := ((perm_insertionSort (· ≤ ·) slots).nodup_iff.2 hnodup)
        exact (hsorted.and hdist).imp fun hle => Nat.lt_of_le_of_ne hle.1 hle.2
      turns := Pairwise.nil
      next := fun _ _ _ ht => by cases ht }
  · exact Interleave.Fits.nil
  · rfl

theorem Kept.everyCardOnce (h : Throughout (Kept slots) r) : EveryCardOnce slots r := by
  obtain ⟨s, hs, hwhere⟩ := h
  refine ⟨?_, hs.single.serial, hs.order.turns, ?_⟩
  · rw [nodup_iff_count_le_one]
    intro slot
    have honce := nodup_iff_count_le_one.1 hnodup slot
    have hreboots := hs.accounted.reboots slot
    omega
  · intro hnone
    obtain ⟨hcycle, -⟩ | ⟨-, hcompleted, hphase⟩ := hwhere
    · cases hcycle.symm.trans hnone
    refine ⟨s, hcompleted, fun slot => ?_⟩
    have hslot := hs.accounted.outcomes slot
    rw [underWay_of_none (hs.order.idle hphase), queued,
      hs.order.pendingEmpty (hphase ▸ CyclePhase.noConfusion), hs.order.deferredEmpty hphase]
      at hslot
    rw [← hnodup.count]
    exact hslot

end

/-- A cycle restarts every card at most once, one at a time and only when it is fit, gives
each of its slots one final outcome in the order of the slots, and ends: with ticks at most
`δ` late within a minute and `δ` a slot and `δ`. -/
theorem restart_cycle_visits_every_card (gapBase gapJitter id t₀ : Nat) (slots : List Nat)
    (hnodup : slots.Nodup) (events : List Event) :
    Trace.Always (Restarts.step gapBase gapJitter) (EveryCardOnce slots)
      (Restarts.start id slots t₀) events ∧
    Trace.Each (Restarts.step gapBase gapJitter) (RebootsFit gapBase gapJitter)
      (Restarts.start id slots t₀) events ∧
    ∀ δ, Trace.Each (Restarts.step gapBase gapJitter) (Prompt δ) (Restarts.start id slots t₀)
        events →
      Trace.Always (Restarts.step gapBase gapJitter)
        (fun r => t₀ + slots.length * (secs 60 + δ) + δ < r.clock → r.cycle = none)
        (Restarts.start id slots t₀) events := by
  refine ⟨?_, ?_, fun δ hprompt => ?_⟩
  · have hkept : Trace.Always (Restarts.step gapBase gapJitter) (Throughout (Kept slots))
        (Restarts.start id slots t₀) events :=
      Trace.always_of_invariant
        (fun r e h => h.step (Kept.move ·  ·) (Kept.manual hnodup ·) gapBase gapJitter e)
        (Kept.start hnodup id t₀) events
    exact hkept.imp fun r h => Kept.everyCardOnce hnodup h
  · exact Trace.each_of_invariant (I := Restarts.On) (fun r e h => h.step gapBase gapJitter e)
      (fun r e h => h.rebootsFit gapBase gapJitter e) (Restarts.On.start id slots t₀) events
  · refine hprompt.always (I := OnSchedule t₀ δ slots.length) ?_
      (fun r e h hp => h.step gapBase gapJitter hp) (OnSchedule.start id t₀ δ slots)
    intro r h hlate
    rw [Option.eq_none_iff_forall_ne_some]
    intro s hs
    exact Nat.not_le.2 hlate (h.clock (Option.isSome_iff_exists.2 ⟨s, hs⟩))

/-- Every card is ready and without a call. -/
def readyView (progress : RestartProgress) : SlotView where
  isReady _ := true
  nonReadySkipReason _ := none
  hasActiveCall _ := false
  restartProgress _ := progress

/-- Two cards, restarted one after the other. -/
theorem restart_cycle_visits_two_cards :
    Trace.Always (Restarts.step 30 0) (EveryCardOnce [4, 3]) (Restarts.start 1 [4, 3] 0)
      [.advance 0 (readyView .inFlight) 0, .advance (secs 10) (readyView .succeeded) 0,
        .advance (secs 10) (readyView .succeeded) 0] :=
  (restart_cycle_visits_every_card 30 0 1 0 [4, 3] (by decide) _).1

/-! ## The gap between two cards

The tick that records how a restart ended writes the gap into the time of the next
action. The same tick goes on to pick the next card, sends its reboot and writes the settle
delay over the gap. -/

/-- A reboot of another card after the end of a restart comes no sooner than the gap. -/
def SpacedBy (gap : Nat) (a b : Entry) : Prop :=
  ∀ first attempt second t t', a = .resolved first t → b = .reboot attempt second t' →
    first ≠ second → gap ≤ t' - t

def Spaced (gapBase gapJitter : Nat) (r : Restarts) : Prop :=
  r.log.Pairwise (SpacedBy (secs (gapBase - gapJitter)))

/-- The tick that finds a restart ended finds no other card in the queues that could be
restarted now. -/
def NoneLeft (r : Restarts) : Event → Prop
  | .advance delay view _ => ∀ s c, r.cycle = some s → s.nextActionAt ≤ r.clock + delay →
      s.current = some c →
      (view.restartProgress c.slot ≠ .inFlight ∨ c.deadline ≤ r.clock + delay) →
      ∀ slot, slot ∈ s.pending ∨ slot ∈ s.deferred → ¬ Fit view slot
  | .manualRestart _ => True

/-! ### The cards a tick can restart -/

def Entry.isResolved : Entry → Bool
  | resolved _ _ => true
  | turn _ _ _ | reboot _ _ _ => false

/-- With no fit slot in the queues a pick restarts none, and so completes the cycle. -/
theorem Picked.none_left {r : CycleState × List SchedulerAction} (h : Picked view now s r)
    (hnone : ∀ slot, 0 < s.queued slot → ¬ Fit view slot) :
    rebooted (r.2.filterMap (entry r.1 now)) = [] ∧ r.1.phase = .complete := by
  have hno : ∀ slot, slot ∉ rebooted (r.2.filterMap (entry r.1 now)) := by
    intro slot hmem
    obtain ⟨hqueued, hfit⟩ := h.moves.of_rebooted hmem
    exact hnone slot hqueued hfit
  refine ⟨eq_nil_iff_forall_not_mem.2 hno, Classical.byContradiction fun hphase => ?_⟩
  obtain ⟨-, -, c, -, -, hsent⟩ := h.begun hphase
  exact hno c.slot (mem_filterMap.2 ⟨_, mem_filterMap.2 ⟨_, hsent, rfl⟩, rfl⟩)

/-- What a pick records is no end of a restart. -/
theorem Picked.not_resolved {r : CycleState × List SchedulerAction} (h : Picked view now s r) :
    ∀ e ∈ r.2.filterMap (entry r.1 now), e.isResolved = false := by
  intro e he
  obtain ⟨a, ha, hentry⟩ := mem_filterMap.1 he
  cases a with
  | sendReboot =>
    cases hentry
    rfl
  | complete => cases hentry
  | recordOutcome other o =>
    simp only [entry, h.turns other o ha, Bool.false_eq_true, if_false] at hentry
    cases hentry
    rfl

/-! ### Runs -/

/-- As long as the cycle is on no restart has ended, and none is sent after one has. -/
structure EndsAtOnce (r : Restarts) : Prop where
  on : r.On
  last : r.log.Pairwise fun a b => a.isResolved = true → b.rebootSlot = none
  running : r.cycle.isSome → ∀ e ∈ r.log, e.isResolved = false

/-- Entries after a log without the end of a restart. -/
theorem EndsAtOnce.append {r' : Restarts} (h : EndsAtOnce r) (hon : r'.On)
    (hlog : r'.log = r.log ++ es)
    (hes : es.Pairwise fun a b => a.isResolved = true → b.rebootSlot = none)
    (hsome : r.cycle.isSome) (hruns : r'.cycle.isSome → ∀ e ∈ es, e.isResolved = false) :
    EndsAtOnce r' := by
  have hnone := h.running hsome
  refine ⟨hon, ?_, ?_⟩
  · rw [hlog]
    refine pairwise_append.2 ⟨h.last, hes, fun a ha _ _ hend => ?_⟩
    cases (hnone a ha).symm.trans hend
  · intro hsome' e he
    rw [hlog, mem_append] at he
    exact he.elim (hnone e) (hruns hsome' e)

theorem pairwise_of_not_resolved (h : ∀ e ∈ es, e.isResolved = false) :
    es.Pairwise fun a b => a.isResolved = true → b.rebootSlot = none :=
  pairwise_of_forall_mem_list fun a ha _ _ hend => by cases (h a ha).symm.trans hend

theorem EndsAtOnce.step (h : EndsAtOnce r) (gapBase gapJitter : Nat) {e : Event}
    (hnone : NoneLeft r e) : EndsAtOnce (r.step gapBase gapJitter e) := by
  have hon := h.on.step gapBase gapJitter e
  revert hon hnone
  refine Restarts.step_cases ?early ?tick ?manual e
  case early => exact fun _ _ _ _ _ hon => ⟨hon, h.last, h.running⟩
  case manual =>
    intro slot _ hon
    exact ⟨hon, h.last, fun hsome => h.running (Option.isSome_map.symm.trans hsome)⟩
  case tick =>
    intro delay view draw s hs hdue hnone
    have hphase := h.on s hs
    have hsome : r.cycle.isSome := Option.isSome_iff_exists.2 ⟨s, hs⟩
    refine tickScheduler_cases ?idle ?poll ?resolve
    case idle =>
      intro hcur hon
      have hpicked : Picked view (r.wait delay).clock s _ := Picked.pickNext hcur hphase
      have hnot := hpicked.not_resolved
      exact h.append hon rfl (pairwise_of_not_resolved hnot) hsome fun _ => hnot
    case poll =>
      intro c hcur hwait hon
      exact h.append hon rfl Pairwise.nil hsome fun _ => forall_mem_nil _
    case resolve =>
      intro c outcome gap hcur hsettle hon
      have hpicked : Picked view (r.wait delay).clock (s.resolve c outcome (r.wait delay).clock gap) _ :=
        Picked.pickNext rfl hphase
      obtain ⟨hno, hdone⟩ := hpicked.none_left fun slot hslot =>
        hnone s c hs hdue hcur (c.settled_eq_some hsettle).2 slot (queued_pos.2 hslot)
      have hmem := mem_cons_of_mem (recordOutcome c.slot
        ⟨c.slot, c.attempt, outcome, (r.wait delay).clock - c.startedAt⟩)
        (hpicked.complete.2 hdone)
      refine h.append hon rfl ?_ hsome fun hstill => ?_
      rotate_left
      · simp only [Restarts.apply, if_pos hmem, Option.isSome_none, Bool.false_eq_true] at hstill
      simp only [filterMap_cons, entry, (c.settled_eq_some hsettle).1,
        if_true]
      refine pairwise_cons.2 ⟨fun b hb _ => ?_, pairwise_of_not_resolved hpicked.not_resolved⟩
      exact filterMap_eq_nil_iff.1 hno b hb

theorem EndsAtOnce.start (id : Nat) (slots : List Nat) (t₀ : Nat) :
    EndsAtOnce (Restarts.start id slots t₀) :=
  ⟨Restarts.On.start id slots t₀, Pairwise.nil, fun _ => forall_mem_nil _⟩

theorem EndsAtOnce.spaced (h : EndsAtOnce r) (gapBase gapJitter : Nat) :
    Spaced gapBase gapJitter r := by
  refine h.last.imp ?_
  rintro a b hlast first attempt second t t' rfl rfl -
  cases hlast rfl

/-- The restarts of a cycle are spaced where no gap is asked for, and where each restart that
ends leaves no card in the queues that could be restarted. -/
theorem restarts_spaced (gapBase gapJitter id t₀ : Nat) (slots : List Nat) (events : List Event)
    (h : gapBase ≤ gapJitter ∨
      Trace.Each (Restarts.step gapBase gapJitter) NoneLeft (Restarts.start id slots t₀) events) :
    Trace.Always (Restarts.step gapBase gapJitter) (Spaced gapBase gapJitter)
      (Restarts.start id slots t₀) events := by
  obtain hgap | hnone := h
  · have hall : ∀ r : Restarts, Spaced gapBase gapJitter r := by
      refine fun r => pairwise_of_forall fun _ _ _ _ _ _ _ _ _ _ => ?_
      rw [Nat.sub_eq_zero_of_le hgap, secs]
      exact Nat.zero_le _
    exact Trace.always_of_invariant (fun r _ _ => hall _) (hall _) events
  · exact hnone.always (I := EndsAtOnce) (fun r h => h.spaced gapBase gapJitter)
      (fun r e h hn => h.step gapBase gapJitter hn) (EndsAtOnce.start id slots t₀)

/-- Two cards; when the first is back, ten seconds later, the second has a call. -/
theorem restarts_spaced_other_busy :
    Trace.Always (Restarts.step 30 0) (Spaced 30 0) (Restarts.start 1 [3, 4] 0)
      [.advance 0 (readyView .inFlight) 0,
        .advance (secs 10) { readyView .succeeded with hasActiveCall := (· == 4) } 0] := by
  refine restarts_spaced 30 0 1 0 [3, 4] _ (.inr ⟨?_, ?_, trivial⟩)
  · intro s c hs _ hcur
    cases hs
    cases hcur
  · intro s c hs _ _ _ slot hmem hfit
    cases hs
    obtain hmem | hmem := hmem
    · obtain rfl : slot = 4 := mem_singleton.1 hmem
      cases hfit.noCall
    · cases hmem

/-- Two cards: the second is sent its reboot at the moment the first is back. -/
theorem second_reboot_at_once :
    ¬ Trace.Always (Restarts.step 30 0) (Spaced 30 0) (Restarts.start 1 [3, 4] 0)
      [.advance 0 (readyView .inFlight) 0, .advance (secs 10) (readyView .succeeded) 0] := by
  intro h
  have hspaced : Pairwise (SpacedBy (secs 30))
      [.reboot .initial 3 0, .resolved 3 (secs 10), .reboot .initial 4 (secs 10)] := h.2.2
  have hlate := (pairwise_cons.1 (pairwise_cons.1 hspaced).2).1 _ mem_cons_self
    3 .initial 4 _ _ rfl rfl (by decide)
  exact absurd hlate (by decide)

end Modules.Scheduler
