-- SUMMARY: The scheduled restart of the cards, and manual restarts during it.
import Mathlib.Data.List.Sort
import GsmSipBridge.Lib.Text
import GsmSipBridge.Lib.Trace

/-!
# Scheduled restarts

A cycle takes the cards in ascending order of their slots, one at a time. A card with a
call is put off to the end. The pool ticks the cycle when its next action is due, sends
the reboots it asks for and takes it down when it is complete.
-/

namespace Modules.Scheduler

open Clock

/-! ## The state of a cycle -/

inductive CyclePhase where
  | initial
  | deferredRetry
  | complete
  deriving DecidableEq, Repr

inductive AttemptType where
  | initial
  | deferredRetry
  deriving DecidableEq, Repr

inductive SkipReason where
  | nonReady (reason : Text)
  | activeCall
  | slotDisappeared
  deriving DecidableEq

inductive Outcome where
  | success
  | failed (reason : Text)
  | deferred (reason : Text)
  | skipped (reason : SkipReason)
  | timedOut
  | alreadyRestartedByManual
  deriving DecidableEq

structure CycleOutcome where
  slot : Nat
  attempt : AttemptType
  outcome : Outcome
  duration : Nat
  deriving DecidableEq

structure CurrentCard where
  slot : Nat
  attempt : AttemptType
  startedAt : Nat
  deadline : Nat
  deriving DecidableEq

structure CycleState where
  id : Nat
  phase : CyclePhase
  pending : List Nat
  deferred : List Nat
  current : Option CurrentCard
  nextActionAt : Nat
  outcomes : List CycleOutcome
  deriving DecidableEq

inductive RestartProgress where
  | inFlight
  | succeeded
  | failed
  /-- The slot is no longer in the slot map. -/
  | gone
  deriving DecidableEq

/-- What the cycle sees of the slots at one moment. -/
structure SlotView where
  isReady : Nat → Bool
  nonReadySkipReason : Nat → Option Text
  hasActiveCall : Nat → Bool
  restartProgress : Nat → RestartProgress

inductive SchedulerAction where
  | sendReboot (slot : Nat)
  | recordOutcome (slot : Nat) (outcome : CycleOutcome)
  | complete
  deriving DecidableEq

/-! ## Delays -/

def perCardTimeout : Nat := secs 60

def rebootSettleDelay : Nat := secs 10

/-- A draw of the random generator, brought into the range from `-max` to `max` seconds. -/
def jitterOffset (draw maxSeconds : Nat) : Int :=
  if maxSeconds = 0 then 0 else (draw % (2 * maxSeconds + 1) : Nat) - (maxSeconds : Int)

def gapWithJitter (draw base jitter : Nat) : Nat :=
  secs (max (base + jitterOffset draw jitter) 0).toNat

/-! ## One tick -/

/-- What the turn of a slot comes to at once; nothing if it is to be restarted. -/
def inspect (view : SlotView) (attempt : AttemptType) (slot : Nat) : Option Outcome :=
  match view.nonReadySkipReason slot with
  | some reason => some (.skipped (.nonReady reason))
  | none =>
    if view.hasActiveCall slot then
      match attempt with
      | .initial => some (.deferred "active call")
      | .deferredRetry => some (.skipped .activeCall)
    else if !view.isReady slot then some (.skipped (.nonReady "not ready at turn"))
    else none

/-- How the restart of the current card has ended, if it has. -/
def CurrentCard.settled (c : CurrentCard) (progress : RestartProgress) (now : Nat) :
    Option Outcome :=
  match progress with
  | .succeeded => some .success
  | .failed => some (.failed "slot reached GivenUp during restart")
  | .gone => some (.skipped .slotDisappeared)
  | .inFlight => if c.deadline ≤ now then some .timedOut else none

namespace CycleState

def queue (s : CycleState) : AttemptType → List Nat
  | .initial => s.pending
  | .deferredRetry => s.deferred

def setQueue (s : CycleState) (attempt : AttemptType) (rest : List Nat) : CycleState :=
  match attempt with
  | .initial => { s with pending := rest }
  | .deferredRetry => { s with deferred := rest }

/-- The turn of a slot that is not restarted: it is recorded, and put off if it has a call. -/
def passOver (s : CycleState) (attempt : AttemptType) (slot : Nat) (rest : List Nat)
    (outcome : Outcome) : CycleState :=
  let s := s.setQueue attempt rest
  { s with
    deferred := match outcome with
      | .deferred _ => s.deferred ++ [slot]
      | _ => s.deferred
    outcomes := s.outcomes ++ [⟨slot, attempt, outcome, 0⟩] }

/-- The turn of a slot that is restarted. -/
def beginRestart (s : CycleState) (attempt : AttemptType) (slot : Nat) (rest : List Nat)
    (now : Nat) : CycleState :=
  { s.setQueue attempt rest with
    current := some ⟨slot, attempt, now, perCardTimeout + now⟩
    nextActionAt := rebootSettleDelay + now }

/-- The restart of the current card is over. -/
def resolve (s : CycleState) (c : CurrentCard) (outcome : Outcome) (now gap : Nat) : CycleState :=
  { s with
    outcomes := s.outcomes ++ [⟨c.slot, c.attempt, outcome, now - c.startedAt⟩]
    current := none
    nextActionAt := now + gap }

def finish (s : CycleState) : CycleState := { s with phase := .complete }

end CycleState

section Tick

variable (view : SlotView) (now : Nat)

/-- The turns of one pass: its slots are taken from the front until one is restarted. With
none left it is `done`. -/
def pass (attempt : AttemptType) (done : CycleState → CycleState × List SchedulerAction) :
    List Nat → CycleState → CycleState × List SchedulerAction
  | [], s => done s
  | slot :: rest, s =>
    match inspect view attempt slot with
    | some outcome =>
      let r := pass attempt done rest (s.passOver attempt slot rest outcome)
      (r.1, .recordOutcome slot ⟨slot, attempt, outcome, 0⟩ :: r.2)
    | none => (s.beginRestart attempt slot rest now, [.sendReboot slot])

def complete (s : CycleState) : CycleState × List SchedulerAction :=
  (s.finish, [.complete])

/-- After the initial pass the slots that were put off are tried again. -/
def endInitial (s : CycleState) : CycleState × List SchedulerAction :=
  if s.deferred.isEmpty then complete s
  else pass view now .deferredRetry complete s.deferred { s with phase := .deferredRetry }

/-- The next card, with none under way. -/
def pickNext (s : CycleState) : CycleState × List SchedulerAction :=
  match s.phase with
  | .initial => pass view now .initial (endInitial view now) s.pending s
  | .deferredRetry => pass view now .deferredRetry complete s.deferred s
  | .complete => (s, [])

def tickScheduler (draw gapBase gapJitter : Nat) (s : CycleState) :
    CycleState × List SchedulerAction :=
  match s.current with
  | none => pickNext view now s
  | some c =>
    match c.settled (view.restartProgress c.slot) now with
    | none => ({ s with nextActionAt := min (secs 1 + now) c.deadline }, [])
    | some outcome =>
      -- The gap stands only until the next card is picked, in this very tick.
      let r := pickNext view now
        (s.resolve c outcome now (gapWithJitter draw gapBase gapJitter))
      (r.1, .recordOutcome c.slot ⟨c.slot, c.attempt, outcome, now - c.startedAt⟩ :: r.2)

end Tick

/-! ## Manual restarts -/

inductive ManualRestartCycleAdvice where
  | proceed
  | reject (error : Text)
  | preemptAndProceed
  deriving DecidableEq

def handleManualRestartDuringCycle (s : CycleState) (slot : Nat) :
    CycleState × ManualRestartCycleAdvice :=
  if s.current.any (·.slot == slot) then
    (s, .reject s!"slot {slot} is currently being restarted by the scheduled cycle (cycle id={s.id})")
  else if slot ∈ s.pending ∨ slot ∈ s.deferred then
    ({ s with
        pending := s.pending.erase slot
        deferred := s.deferred.erase slot
        outcomes := s.outcomes ++ [⟨slot, .initial, .alreadyRestartedByManual, 0⟩] },
      .preemptAndProceed)
  else (s, .proceed)

/-! ## The pool and one cycle -/

/-- What the log says of a cycle, with the time. -/
inductive Entry where
  /-- The turn of a slot that is not restarted. -/
  | turn (attempt : AttemptType) (slot now : Nat)
  | reboot (attempt : AttemptType) (slot now : Nat)
  | resolved (slot now : Nat)
  deriving DecidableEq

/-- The outcomes a restart can have, as against those of a turn. -/
def Outcome.ofRestart : Outcome → Bool
  | success | failed _ | timedOut | skipped .slotDisappeared => true
  | deferred _ | skipped (.nonReady _) | skipped .activeCall | alreadyRestartedByManual => false

/-- An action as the log has it; `s` is the state the tick left. -/
def SchedulerAction.entry (s : CycleState) (now : Nat) : SchedulerAction → Option Entry
  | sendReboot slot => some (.reboot ((s.current.map (·.attempt)).getD .initial) slot now)
  | recordOutcome slot o =>
    if o.outcome.ofRestart then some (.resolved slot now) else some (.turn o.attempt slot now)
  | complete => none

/-- The pool, as far as one cycle is concerned. -/
structure Restarts where
  clock : Nat
  cycle : Option CycleState
  /-- The cycle as `complete_cycle` took it down. -/
  completed : Option CycleState
  log : List Entry

inductive Event where
  /-- The pool gets round to the scheduler some time later. -/
  | advance (delay : Nat) (view : SlotView) (draw : Nat)
  | manualRestart (slot : Nat)

/-- The slots of the map, in whatever order it gives them, sorted. -/
def startCycle (id : Nat) (slots : List Nat) (now : Nat) : CycleState where
  id := id
  phase := .initial
  pending := slots.insertionSort (· ≤ ·)
  deferred := []
  current := none
  nextActionAt := now
  outcomes := []

namespace Restarts

def start (id : Nat) (slots : List Nat) (now : Nat) : Restarts where
  clock := now
  cycle := some (startCycle id slots now)
  completed := none
  log := []

/-- The actions of a tick are applied; with `Complete` among them the cycle is taken down. -/
def apply (r : Restarts) (tick : CycleState × List SchedulerAction) : Restarts :=
  { r with
    cycle := if .complete ∈ tick.2 then none else some tick.1
    completed := if .complete ∈ tick.2 then some tick.1 else r.completed
    log := r.log ++ tick.2.filterMap (SchedulerAction.entry tick.1 r.clock) }

def advanceScheduler (gapBase gapJitter : Nat) (view : SlotView) (draw : Nat) (r : Restarts) :
    Restarts :=
  match r.cycle with
  | none => r
  | some s =>
    if r.clock < s.nextActionAt then r
    else r.apply (tickScheduler view r.clock draw gapBase gapJitter s)

def wait (r : Restarts) (delay : Nat) : Restarts := { r with clock := r.clock + delay }

def step (gapBase gapJitter : Nat) (r : Restarts) : Event → Restarts
  | .advance delay view draw => (r.wait delay).advanceScheduler gapBase gapJitter view draw
  | .manualRestart slot =>
    { r with cycle := r.cycle.map fun s => (handleManualRestartDuringCycle s slot).1 }

end Restarts

/-! ## Moves of a cycle

A tick polls the card under way, or records how its restart ended and then takes turns
until a card is restarted or none is left. Each of these moves is said once; what they and
manual restarts keep holds at every point of a run. -/

open List

/-- The slot is ready and has no call. -/
structure Fit (view : SlotView) (slot : Nat) : Prop where
  noReason : view.nonReadySkipReason slot = none
  noCall : view.hasActiveCall slot = false
  ready : view.isReady slot = true

variable {attempt : AttemptType} {s : CycleState} {view : SlotView} {now : Nat} {rest : List Nat}
  {outcome : Outcome} {s' : CycleState} {M : CycleState → List Entry → Prop} {r : Restarts}
  {c : CurrentCard} {p : RestartProgress} {es : List Entry} {slot gapBase gapJitter : Nat}

theorem inspect_eq_none_iff : inspect view attempt slot = none ↔ Fit view slot := by
  constructor
  · intro h
    unfold inspect at h
    split at h
    · cases h
    next hreason =>
    split at h
    · cases attempt with
      | initial | deferredRetry => cases h
    next hcall =>
    split at h
    · cases h
    · next hready => exact ⟨hreason, by simpa using hcall, by simpa using hready⟩
  · intro h
    simp [inspect, h.noReason, h.noCall, h.ready]

/-- A turn has an outcome that no restart has, and only the initial pass puts a slot off. -/
theorem inspect_eq_some (h : inspect view attempt slot = some outcome) :
    outcome.ofRestart = false ∧
      ((∃ reason, outcome = .skipped reason) ∨
        (∃ reason, outcome = .deferred reason) ∧ attempt = .initial) := by
  unfold inspect at h
  split at h
  · cases h
    exact ⟨rfl, .inl ⟨_, rfl⟩⟩
  split at h
  · cases attempt with
    | initial =>
      cases h
      exact ⟨rfl, .inr ⟨⟨_, rfl⟩, rfl⟩⟩
    | deferredRetry =>
      cases h
      exact ⟨rfl, .inl ⟨_, rfl⟩⟩
  · split at h
    · cases h
      exact ⟨rfl, .inl ⟨_, rfl⟩⟩
    · cases h

theorem CurrentCard.settled_eq_some (h : c.settled p now = some outcome) :
    outcome.ofRestart = true ∧ (p ≠ .inFlight ∨ c.deadline ≤ now) := by
  cases p with
  | succeeded | failed | gone =>
    cases h
    exact ⟨rfl, .inl RestartProgress.noConfusion⟩
  | inFlight =>
    simp only [settled] at h
    split at h
    · next hlate =>
      cases h
      exact ⟨rfl, .inr hlate⟩
    · cases h

theorem CurrentCard.settled_eq_none (h : c.settled p now = none) : now < c.deadline := by
  cases p with
  | succeeded | failed | gone => cases h
  | inFlight =>
    simp only [settled] at h
    split at h
    · cases h
    · next hnot => exact Nat.not_le.1 hnot

/-- The phase in which attempts of a kind are made. -/
def AttemptType.phase : AttemptType → CyclePhase
  | initial => .initial
  | deferredRetry => .deferredRetry

/-! ### Moves -/

inductive Move (view : SlotView) (now : Nat) : CycleState → List Entry → CycleState → Prop
  | resolve {s : CycleState} {c : CurrentCard} {outcome : Outcome} (gap : Nat)
      (hcur : s.current = some c) (hout : outcome.ofRestart = true) :
      Move view now s [.resolved c.slot now] (s.resolve c outcome now gap)
  | poll {s : CycleState} {c : CurrentCard} (hcur : s.current = some c)
      (hwait : now < c.deadline) :
      Move view now s [] { s with nextActionAt := min (secs 1 + now) c.deadline }
  | passOver {s : CycleState} {attempt : AttemptType} {slot : Nat} {rest : List Nat}
      {outcome : Outcome} (hcur : s.current = none) (hphase : s.phase = attempt.phase)
      (hqueue : s.queue attempt = slot :: rest)
      (hinspect : inspect view attempt slot = some outcome) :
      Move view now s [.turn attempt slot now] (s.passOver attempt slot rest outcome)
  | retry {s : CycleState} (hcur : s.current = none) (hphase : s.phase = .initial)
      (hpending : s.pending = []) : Move view now s [] { s with phase := .deferredRetry }
  | beginRestart {s : CycleState} {attempt : AttemptType} {slot : Nat} {rest : List Nat}
      (hcur : s.current = none) (hphase : s.phase = attempt.phase)
      (hqueue : s.queue attempt = slot :: rest) (hfit : Fit view slot) :
      Move view now s [.reboot attempt slot now] (s.beginRestart attempt slot rest now)
  | finish {s : CycleState} (hcur : s.current = none) (hphase : s.phase ≠ .complete)
      (hpending : s.phase = .initial → s.pending = []) (hdeferred : s.deferred = []) :
      Move view now s [] s.finish

inductive Moves (view : SlotView) (now : Nat) : CycleState → List Entry → CycleState → Prop
  | refl (s : CycleState) : Moves view now s [] s
  | step {s s₁ s' : CycleState} {es es' : List Entry} (head : Move view now s es s₁)
      (tail : Moves view now s₁ es' s') : Moves view now s (es ++ es') s'

theorem Moves.single (h : Move view now s es s') : Moves view now s es s' := by
  have htwo := Moves.step h (.refl s')
  rwa [append_nil] at htwo

/-- What a tick does, seen as moves: it leaves the cycle complete or with a card under way,
and says so when it is complete. -/
structure Ticked (view : SlotView) (now : Nat) (s : CycleState)
    (r : CycleState × List SchedulerAction) : Prop where
  moves : Moves view now s (r.2.filterMap (SchedulerAction.entry r.1 now)) r.1
  complete : .complete ∈ r.2 ↔ r.1.phase = .complete
  busy : r.1.phase = .complete ∨ r.1.current.isSome

/-- How many slots are left in the queues. -/
def CycleState.left (s : CycleState) : Nat := s.pending.length + s.deferred.length

/-- A tick with no card under way takes one from the queues, unless it completes the cycle. -/
structure Picked (view : SlotView) (now : Nat) (s : CycleState)
    (r : CycleState × List SchedulerAction) : Prop extends Ticked view now s r where
  begun : r.1.phase ≠ .complete → r.1.left < s.left ∧
    r.1.nextActionAt = rebootSettleDelay + now ∧
    ∃ c, r.1.current = some c ∧ c.deadline = perCardTimeout + now ∧ .sendReboot c.slot ∈ r.2
  turns : ∀ slot o, .recordOutcome slot o ∈ r.2 → o.outcome.ofRestart = false

theorem phase_setQueue : (s.setQueue attempt rest).phase = s.phase := by
  cases attempt <;> rfl

theorem current_setQueue : (s.setQueue attempt rest).current = s.current := by
  cases attempt <;> rfl

theorem phase_passOver (slot : Nat) : (s.passOver attempt slot rest outcome).phase = s.phase :=
  phase_setQueue

theorem current_passOver (s : CycleState) (attempt : AttemptType) (slot : Nat)
    (rest : List Nat) (outcome : Outcome) :
    (s.passOver attempt slot rest outcome).current = s.current :=
  current_setQueue

/-- The queue of the pass loses the slot; only the other queue can gain it. -/
theorem queue_passOver (h : inspect view attempt slot = some outcome) :
    (s.passOver attempt slot rest outcome).queue attempt = rest := by
  cases attempt with
  | initial => rfl
  | deferredRetry =>
    obtain ⟨-, ⟨reason, rfl⟩ | ⟨-, hatt⟩⟩ := inspect_eq_some h
    · rfl
    · cases hatt

theorem AttemptType.phase_ne_complete : attempt.phase ≠ .complete := by
  cases attempt <;> exact CyclePhase.noConfusion

theorem CycleState.left_setQueue (hqueue : s.queue attempt = slot :: rest) :
    s.left = (s.setQueue attempt rest).left + 1 := by
  unfold left
  cases attempt with
  | initial | deferredRetry =>
    simp only [queue] at hqueue
    simp only [setQueue, hqueue, length_cons]
    omega

theorem CycleState.left_passOver_le (hqueue : s.queue attempt = slot :: rest) :
    (s.passOver attempt slot rest outcome).left ≤ s.left := by
  rw [left_setQueue hqueue]
  unfold left passOver
  simp only
  split
  · rw [length_append, length_singleton]
    omega
  · omega

theorem Picked.pass {done : CycleState → CycleState × List SchedulerAction}
    (hdone : ∀ s : CycleState, s.current = none → s.phase = attempt.phase → s.queue attempt = [] →
      Picked view now s (done s))
    (queue : List Nat) (hcur : s.current = none) (hphase : s.phase = attempt.phase)
    (hqueue : s.queue attempt = queue) :
    Picked view now s (pass view now attempt done queue s) := by
  induction queue generalizing s with
  | nil => exact hdone s hcur hphase hqueue
  | cons slot rest ih =>
    unfold Scheduler.pass
    split
    · next outcome hinsp =>
      have hrest := ih ((current_passOver s attempt slot rest outcome).trans hcur)
        ((phase_passOver slot).trans hphase) (queue_passOver hinsp)
      have hout := (inspect_eq_some hinsp).1
      refine ⟨⟨?_, ?_, hrest.busy⟩, ?_, ?_⟩
      · simp only [filterMap_cons, SchedulerAction.entry, hout, Bool.false_eq_true, if_false]
        exact Moves.step (.passOver hcur hphase hqueue hinsp) hrest.moves
      · simpa using hrest.complete
      · intro hnot
        obtain ⟨hleft, hnext, c, hc, hdead, hsent⟩ := hrest.begun hnot
        exact ⟨Nat.lt_of_lt_of_le hleft (CycleState.left_passOver_le hqueue), hnext, c, hc,
          hdead, mem_cons_of_mem _ hsent⟩
      · intro other o ho
        obtain ho | ho := mem_cons.1 ho
        · cases ho
          exact hout
        · exact hrest.turns other o ho
    · next hinsp =>
      have hnot : (s.beginRestart attempt slot rest now).phase ≠ .complete := by
        intro h
        exact attempt.phase_ne_complete
          (hphase.symm.trans (phase_setQueue.symm.trans h))
      refine ⟨⟨.single (.beginRestart hcur hphase hqueue (inspect_eq_none_iff.1 hinsp)), ?_,
        .inr rfl⟩, fun _ => ⟨?_, rfl, _, rfl, rfl, mem_cons_self⟩, ?_⟩
      · simp [hnot]
      · rw [CycleState.left_setQueue hqueue]
        exact Nat.lt_succ_self _
      · intro other o ho
        cases mem_singleton.1 ho

section

variable (hcur : s.current = none)

include hcur

theorem Picked.done (hphase : s.phase ≠ .complete) (hpend : s.phase = .initial → s.pending = [])
    (hdefer : s.deferred = []) : Picked view now s (Scheduler.complete s) where
  moves := .single (.finish hcur hphase hpend hdefer)
  complete := by simp [Scheduler.complete, CycleState.finish]
  busy := .inl rfl
  begun hnot := absurd rfl hnot
  turns slot o ho := by cases mem_singleton.1 ho

theorem Picked.retryPass (hphase : s.phase = .deferredRetry) :
    Picked view now s (Scheduler.pass view now .deferredRetry Scheduler.complete s.deferred s) := by
  refine Picked.pass ?_ s.deferred hcur hphase rfl
  intro s hcur hphase hqueue
  refine Picked.done hcur ?_ ?_ hqueue
  · exact fun h => CyclePhase.noConfusion (hphase.symm.trans h)
  · exact fun h => CyclePhase.noConfusion (hphase.symm.trans h)

theorem Picked.endInitial (hphase : s.phase = .initial) (hpend : s.pending = []) :
    Picked view now s (endInitial view now s) := by
  unfold Scheduler.endInitial
  split
  · next hempty =>
    refine Picked.done hcur ?_ (fun _ => hpend) (isEmpty_iff.1 hempty)
    exact fun h => CyclePhase.noConfusion (hphase.symm.trans h)
  · have hretry : Picked view now { s with phase := .deferredRetry } _ := Picked.retryPass hcur rfl
    exact ⟨⟨Moves.step (.retry hcur hphase hpend) hretry.moves, hretry.complete, hretry.busy⟩,
      hretry.begun, hretry.turns⟩

theorem Picked.pickNext (hphase : s.phase ≠ .complete) :
    Picked view now s (pickNext view now s) := by
  unfold Scheduler.pickNext
  cases h : s.phase with
  | initial =>
    have hinit : s.phase = AttemptType.initial.phase := h
    refine Picked.pass ?_ s.pending hcur hinit rfl
    exact fun _ hcur hphase hqueue => .endInitial hcur hphase hqueue
  | deferredRetry => exact Picked.retryPass hcur h
  | complete => exact absurd h hphase

end

/-- A tick is a poll of the card under way, or the end of its restart and the pick of the
next one. -/
@[elab_as_elim]
theorem tickScheduler_cases {draw : Nat}
    {motive : CycleState × List SchedulerAction → Prop}
    (idle : s.current = none → motive (pickNext view now s))
    (poll : ∀ c, s.current = some c → now < c.deadline →
      motive ({ s with nextActionAt := min (secs 1 + now) c.deadline }, []))
    (resolve : ∀ c outcome gap, s.current = some c →
      c.settled (view.restartProgress c.slot) now = some outcome →
      motive ((pickNext view now (s.resolve c outcome now gap)).1,
        .recordOutcome c.slot ⟨c.slot, c.attempt, outcome, now - c.startedAt⟩ ::
        (pickNext view now (s.resolve c outcome now gap)).2)) :
    motive (tickScheduler view now draw gapBase gapJitter s) := by
  unfold tickScheduler
  split
  · next hcur => exact idle hcur
  next c hcur =>
  split
  · next hsettle => exact poll c hcur (c.settled_eq_none hsettle)
  · next outcome hsettle => exact resolve c outcome _ hcur hsettle

theorem Ticked.tick (draw gapBase gapJitter : Nat) (hphase : s.phase ≠ .complete) :
    Ticked view now s (tickScheduler view now draw gapBase gapJitter s) := by
  refine tickScheduler_cases ?idle ?poll ?resolve
  case idle => exact fun hcur => (Picked.pickNext hcur hphase).toTicked
  case poll =>
    intro c hcur hwait
    refine ⟨.single (.poll hcur hwait), ?_, .inr ?_⟩
    · simp [hphase]
    · exact Option.isSome_iff_exists.2 ⟨c, hcur⟩
  case resolve =>
    intro c outcome gap hcur hsettle
    have hout := (c.settled_eq_some hsettle).1
    have hrest : Picked view now (s.resolve c outcome now gap) _ := Picked.pickNext rfl hphase
    refine ⟨?_, ?_, hrest.busy⟩
    · simp only [filterMap_cons, SchedulerAction.entry, hout, if_true]
      exact Moves.step (.resolve gap hcur hout) hrest.moves
    · simpa using hrest.complete

/-! ### Runs -/

/-- What the log and the state of the cycle have in common, whether it is still on or was
taken down. -/
def Throughout (M : CycleState → List Entry → Prop) (r : Restarts) : Prop :=
  ∃ s, M s r.log ∧
    (r.cycle = some s ∧ s.phase ≠ .complete ∨
      r.cycle = none ∧ r.completed = some s ∧ s.phase = .complete)

theorem Moves.keeps (hmove : ∀ {s es s' log}, Move view now s es s' → M s log → M s' (log ++ es))
    {log : List Entry} (h : Moves view now s es s') (hs : M s log) : M s' (log ++ es) := by
  induction h generalizing log with
  | refl s => rwa [append_nil]
  | step head _ ih =>
    rw [← append_assoc]
    exact ih (hmove head hs)

/-- A manual restart takes its slot out of the queues, or leaves the cycle as it is. -/
@[elab_as_elim]
theorem handleManualRestart_cases {motive : CycleState → Prop} (same : motive s)
    (preempt : slot ∈ s.pending ∨ slot ∈ s.deferred →
      motive { s with
        pending := s.pending.erase slot
        deferred := s.deferred.erase slot
        outcomes := s.outcomes ++ [⟨slot, .initial, .alreadyRestartedByManual, 0⟩] }) :
    motive (handleManualRestartDuringCycle s slot).1 := by
  unfold handleManualRestartDuringCycle
  split
  · exact same
  · split
    · next hmem => exact preempt hmem
    · exact same

/-- Neither the phase, the card under way nor the time of the next tick is touched. -/
theorem handleManualRestart_frame (s : CycleState) (slot : Nat) :
    let t := (handleManualRestartDuringCycle s slot).1
    t.phase = s.phase ∧ t.current = s.current ∧ t.nextActionAt = s.nextActionAt :=
  handleManualRestart_cases ⟨rfl, rfl, rfl⟩ fun _ => ⟨rfl, rfl, rfl⟩

/-- A step of the pool: nothing is due, the cycle is ticked, or a manual restart comes in. -/
@[elab_as_elim]
theorem Restarts.step_cases {motive : Event → Restarts → Prop}
    (early : ∀ delay view draw, (∀ s, r.cycle = some s → r.clock + delay < s.nextActionAt) →
      motive (.advance delay view draw) (r.wait delay))
    (tick : ∀ delay view draw s, r.cycle = some s → s.nextActionAt ≤ r.clock + delay →
      motive (.advance delay view draw) ((r.wait delay).apply
        (tickScheduler view (r.wait delay).clock draw gapBase gapJitter s)))
    (manual : ∀ slot, motive (.manualRestart slot)
      { r with cycle := r.cycle.map fun s => (handleManualRestartDuringCycle s slot).1 })
    (e : Event) : motive e (r.step gapBase gapJitter e) := by
  cases e with
  | manualRestart slot => exact manual slot
  | advance delay view draw =>
    change motive _ ((r.wait delay).advanceScheduler gapBase gapJitter view draw)
    have hwait : (r.wait delay).cycle = r.cycle := rfl
    unfold advanceScheduler
    rw [hwait]
    cases hcycle : r.cycle with
    | none => exact early delay view draw fun s hs => by cases hcycle.symm.trans hs
    | some s =>
      simp only
      split
      · next hearly =>
        refine early delay view draw fun s' hs' => ?_
        cases hcycle.symm.trans hs'
        exact hearly
      · next hdue => exact tick delay view draw s hcycle (Nat.not_lt.1 hdue)

/-- A cycle that is still on after a tick is not complete. -/
theorem Ticked.of_apply {tick : CycleState × List SchedulerAction} (h : Ticked view now s tick)
    (hcycle : (r.apply tick).cycle = some s') : s' = tick.1 ∧ tick.1.phase ≠ .complete := by
  simp only [Restarts.apply] at hcycle
  split at hcycle
  · cases hcycle
  · next hnot =>
    cases hcycle
    exact ⟨rfl, fun hc => hnot (h.complete.2 hc)⟩

/-- A tick that is applied. -/
theorem Throughout.apply {tick : CycleState × List SchedulerAction}
    (hticked : Ticked view r.clock s tick)
    (h : M tick.1 (r.log ++ tick.2.filterMap (SchedulerAction.entry tick.1 r.clock))) :
    Throughout M (r.apply tick) := by
  refine ⟨tick.1, h, ?_⟩
  unfold Restarts.apply
  by_cases hdone : tick.1.phase = .complete
  · have hmem := hticked.complete.2 hdone
    rw [if_pos hmem, if_pos hmem]
    exact .inr ⟨rfl, rfl, hdone⟩
  · have hmem : .complete ∉ tick.2 := fun hmem => hdone (hticked.complete.1 hmem)
    rw [if_neg hmem]
    exact .inl ⟨rfl, hdone⟩

/-- What the moves and manual restarts keep, every step of a run keeps. -/
theorem Throughout.step
    (hmove : ∀ {view now s es s' log}, Move view now s es s' → M s log → M s' (log ++ es))
    (hmanual : ∀ {s slot log}, M s log → M (handleManualRestartDuringCycle s slot).1 log)
    (h : Throughout M r) (gapBase gapJitter : Nat) (e : Event) :
    Throughout M (r.step gapBase gapJitter e) := by
  obtain ⟨s, hs, hwhere⟩ := h
  refine Restarts.step_cases ?early ?tick ?manual e
  case early => exact fun _ _ _ _ => ⟨s, hs, hwhere⟩
  case tick =>
    intro delay view draw s' hs' _
    obtain ⟨hcycle, hphase⟩ | ⟨hnone, -⟩ := hwhere
    · cases hcycle.symm.trans hs'
      have hticked : Ticked view (r.wait delay).clock s _ :=
        Ticked.tick draw gapBase gapJitter hphase
      exact Throughout.apply hticked (hticked.moves.keeps hmove hs)
    · cases hnone.symm.trans hs'
  case manual =>
    intro slot
    obtain ⟨hcycle, hphase⟩ | ⟨hnone, hcompleted, hphase⟩ := hwhere
    · refine ⟨(handleManualRestartDuringCycle s slot).1, hmanual hs, .inl ⟨?_, ?_⟩⟩
      · simp [hcycle]
      · rwa [(handleManualRestart_frame s slot).1]
    · refine ⟨s, hs, .inr ⟨?_, hcompleted, hphase⟩⟩
      simp [hnone]

/-! ### The end of a cycle

A card is under way for a minute at most. The tick after it takes a card from the queues or
completes the cycle. -/

open Nat

variable {n t₀ δ : Nat}

theorem left_handleManualRestart_le (s : CycleState) (slot : Nat) :
    (handleManualRestartDuringCycle s slot).1.left ≤ s.left :=
  handleManualRestart_cases (le_refl _) fun _ =>
    Nat.add_le_add List.length_erase_le List.length_erase_le

namespace Restarts

/-- A cycle that is on is not complete. -/
def On (r : Restarts) : Prop := ∀ s, r.cycle = some s → s.phase ≠ .complete

theorem On.step (h : r.On) (gapBase gapJitter : Nat) (e : Event) :
    (r.step gapBase gapJitter e).On := by
  refine step_cases ?early ?tick ?manual e
  case early => exact fun _ _ _ _ => h
  case tick =>
    intro delay view draw s hs _ s' hs'
    have hticked : Ticked view (r.wait delay).clock s _ :=
      Ticked.tick draw gapBase gapJitter (h s hs)
    obtain ⟨rfl, hnot⟩ := hticked.of_apply hs'
    exact hnot
  case manual =>
    intro slot s hs
    obtain ⟨s', hs', rfl⟩ := Option.map_eq_some_iff.1 hs
    rw [(handleManualRestart_frame s' slot).1]
    exact h s' hs'

theorem On.start (id : Nat) (slots : List Nat) (t₀ : Nat) : (start id slots t₀).On := by
  intro s hs
  cases hs
  exact CyclePhase.noConfusion

end Restarts

theorem length_startCycle (id : Nat) (slots : List Nat) (t₀ : Nat) :
    (startCycle id slots t₀).left = slots.length :=
  List.length_insertionSort _ _

/-- The pool gets round to the scheduler at most `δ` after an action is due. -/
def Prompt (δ : Nat) (r : Restarts) : Event → Prop
  | .advance delay _ _ => ∀ s, r.cycle = some s → r.clock + delay ≤ s.nextActionAt + δ
  | .manualRestart _ => True

/-- A card takes a minute and the lateness of one tick. -/
def cardTime (δ : Nat) : Nat := perCardTimeout + δ

/-- With `n - left` cards taken from the queues, the next action and the deadline of the card
under way are within as many card times. -/
structure InTime (t₀ δ n : Nat) (s : CycleState) : Prop where
  left : s.left ≤ n
  next : s.nextActionAt ≤ t₀ + (n - s.left) * cardTime δ
  deadline : ∀ c, s.current = some c → c.deadline ≤ t₀ + (n - s.left) * cardTime δ

structure OnSchedule (t₀ δ n : Nat) (r : Restarts) : Prop where
  cycle : ∀ s, r.cycle = some s → s.phase ≠ .complete ∧ InTime t₀ δ n s
  clock : r.cycle.isSome → r.clock ≤ t₀ + n * cardTime δ + δ

theorem InTime.picked {r : CycleState × List SchedulerAction} (hn : s.left ≤ n)
    (hpicked : Picked view now s r) (hlate : now ≤ t₀ + (n - s.left) * cardTime δ + δ)
    (hnot : r.1.phase ≠ .complete) : InTime t₀ δ n r.1 := by
  obtain ⟨hleft, hnext, c, hc, hdead, -⟩ := hpicked.begun hnot
  have htaken : (n - s.left + 1) * cardTime δ ≤ (n - r.1.left) * cardTime δ :=
    mul_le_mul_right _ (by omega)
  rw [Nat.add_mul] at htaken
  have hcard : cardTime δ = perCardTimeout + δ := rfl
  have hsettle : rebootSettleDelay ≤ perCardTimeout := by decide
  constructor
  · omega
  · omega
  · intro c' hc'
    cases hc.symm.trans hc'
    omega

theorem InTime.tick (h : InTime t₀ δ n s) (draw gapBase gapJitter : Nat)
    (hphase : s.phase ≠ .complete) (hprompt : now ≤ s.nextActionAt + δ)
    (hnot : (tickScheduler view now draw gapBase gapJitter s).1.phase ≠ .complete) :
    InTime t₀ δ n (tickScheduler view now draw gapBase gapJitter s).1 := by
  have hlate : now ≤ t₀ + (n - s.left) * cardTime δ + δ :=
    Nat.le_trans hprompt (Nat.add_le_add_right h.next δ)
  revert hnot
  refine tickScheduler_cases ?idle ?poll ?resolve
  case idle => exact fun hcur hnot => .picked h.left (Picked.pickNext hcur hphase) hlate hnot
  case poll =>
    intro c hcur hwait _
    exact ⟨h.left, Nat.le_trans (min_le_right _ _) (h.deadline c hcur), h.deadline⟩
  case resolve =>
    intro c outcome gap hcur _ hnot
    have hpicked : Picked view now (s.resolve c outcome now gap) _ := Picked.pickNext rfl hphase
    have hleft : (s.resolve c outcome now gap).left ≤ n := h.left
    have hin := InTime.picked hleft hpicked hlate hnot
    exact hin

theorem InTime.manual (h : InTime t₀ δ n s) (slot : Nat) :
    InTime t₀ δ n (handleManualRestartDuringCycle s slot).1 := by
  have hleft := left_handleManualRestart_le s slot
  obtain ⟨-, hcur, hnext⟩ := handleManualRestart_frame s slot
  have hmore : (n - s.left) * cardTime δ ≤
      (n - (handleManualRestartDuringCycle s slot).1.left) * cardTime δ :=
    Nat.mul_le_mul_right _ (Nat.sub_le_sub_left hleft n)
  constructor
  · exact Nat.le_trans hleft h.left
  · rw [hnext]
    exact Nat.le_trans h.next (Nat.add_le_add_left hmore t₀)
  · rw [hcur]
    exact fun c hc => Nat.le_trans (h.deadline c hc) (Nat.add_le_add_left hmore t₀)

theorem OnSchedule.step {r : Restarts} (h : OnSchedule t₀ δ n r) (gapBase gapJitter : Nat)
    {e : Event} (hprompt : Prompt δ r e) : OnSchedule t₀ δ n (r.step gapBase gapJitter e) := by
  have hlate : ∀ s now, r.cycle = some s → now ≤ s.nextActionAt + δ →
      now ≤ t₀ + n * cardTime δ + δ := by
    intro s now hs hnow
    refine Nat.le_trans hnow (Nat.add_le_add_right ?_ δ)
    refine Nat.le_trans (h.cycle s hs).2.next (Nat.add_le_add_left ?_ t₀)
    exact mul_le_mul_right _ (sub_le n s.left)
  revert hprompt
  refine Restarts.step_cases ?early ?tick ?manual e
  case early =>
    intro delay view draw _ hprompt
    refine ⟨h.cycle, fun hsome => ?_⟩
    obtain ⟨s, hs⟩ := Option.isSome_iff_exists.1 hsome
    exact hlate s _ hs (hprompt s hs)
  case tick =>
    intro delay view draw s hs _ hprompt
    obtain ⟨hphase, hin⟩ := h.cycle s hs
    have hticked : Ticked view (r.wait delay).clock s _ :=
      Ticked.tick draw gapBase gapJitter hphase
    refine ⟨?_, fun _ => hlate s _ hs (hprompt s hs)⟩
    intro s' hs'
    obtain ⟨rfl, hnot⟩ := hticked.of_apply hs'
    exact ⟨hnot, hin.tick draw gapBase gapJitter hphase (hprompt s hs) hnot⟩
  case manual =>
    intro slot _
    refine ⟨?_, fun hsome => h.clock (Option.isSome_map.symm.trans hsome)⟩
    intro s hs
    obtain ⟨s', hs', rfl⟩ := Option.map_eq_some_iff.1 hs
    obtain ⟨hphase, hin⟩ := h.cycle s' hs'
    rw [(handleManualRestart_frame s' slot).1]
    exact ⟨hphase, hin.manual slot⟩

theorem OnSchedule.start (id t₀ δ : Nat) (slots : List Nat) :
    OnSchedule t₀ δ slots.length (Restarts.start id slots t₀) := by
  constructor
  · intro s hs
    cases hs
    refine ⟨CyclePhase.noConfusion, ?_, ?_, ?_⟩
    · exact le_of_eq (length_startCycle id slots t₀)
    · exact le_add_right _ _
    · exact fun c hc => by cases hc
  · intro _
    rw [add_assoc]
    exact le_add_right _ _

end Modules.Scheduler
