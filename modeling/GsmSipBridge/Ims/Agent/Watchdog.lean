-- SUMMARY: The stall watchdog: phases and budgets, and the verdict on a sample.
import Mathlib.Algebra.Order.Group.Nat
import GsmSipBridge.Lib.Trace

/-!
# The stall watchdog

An activity stores the phase it is in and when it entered it. A thread of its own wakes
every five seconds, takes one snapshot of every registered activity and ends the process
when a phase is stalled. The reporter judges the snapshots it takes itself by the same
verdict, and holds back its heartbeat.
-/

namespace Ims.Agent.Watchdog

open Clock Function

def sampleInterval : Nat := secs 5

/-- How long recovery may be held off while a call is in progress. -/
def deferCeiling : Nat := secs 600

/-! ## Phases -/

inductive Phase where
  | idle
  /-- Asleep until the next scheduled pass: never a stall. -/
  | dormant
  | startup
  | gmProbe
  | renewal
  | inboundCall
  | origination
  | smsSweep
  deriving DecidableEq, Repr

namespace Phase

def asU8 : Phase → UInt8
  | idle => 0
  | dormant => 7
  | startup => 1
  | gmProbe => 2
  | renewal => 3
  | inboundCall => 4
  | origination => 5
  | smsSweep => 6

def fromU8 (v : UInt8) : Phase :=
  match v with
  | 1 => startup
  | 2 => gmProbe
  | 3 => renewal
  | 4 => inboundCall
  | 5 => origination
  | 6 => smsSweep
  | 7 => dormant
  | _ => idle

/-- How long the phase may take; nothing for one that is no stall however long it takes. -/
def budget : Phase → Option Nat
  | dormant => none
  | idle => some (secs 15)
  | startup => some (secs 420)
  | gmProbe => some (secs 30)
  | renewal => some (secs 360)
  | inboundCall => some (secs 180)
  | origination => some (secs 60)
  | smsSweep => some (secs 90)

end Phase

/-! ## Progress -/

/-- A point-in-time read of an activity's progress. -/
structure ProgressSnapshot where
  phase : Phase
  since : Nat
  busy : Bool
  deriving DecidableEq, Repr

/-- The elapsed time and the budget it exceeds. -/
def ProgressSnapshot.overrun (s : ProgressSnapshot) (now : Nat) : Option (Nat × Nat) :=
  match s.phase.budget with
  | none => none
  | some budget =>
    let elapsed := now - s.since
    if budget < elapsed then some (elapsed, budget) else none

/-- What an activity shares: the phase as a byte, and the milliseconds after `base` at which
it was entered. -/
structure Progress where
  base : Nat
  phase : UInt8
  phaseStartedMs : Nat
  busy : Bool

namespace Progress

def new (now : Nat) : Progress where
  base := now
  phase := Phase.idle.asU8
  phaseStartedMs := 0
  busy := false

def enter (p : Progress) (phase : Phase) (now : Nat) : Progress :=
  { p with
    phaseStartedMs := min ((now - p.base) / 1000000) (2 ^ 64 - 1)
    phase := phase.asU8 }

def leave (p : Progress) (now : Nat) : Progress :=
  p.enter .idle now

def setBusy (p : Progress) (busy : Bool) : Progress :=
  { p with busy := busy }

def snapshot (p : Progress) : ProgressSnapshot where
  phase := Phase.fromU8 p.phase
  since := p.base + p.phaseStartedMs * 1000000
  busy := p.busy

end Progress

/-! ## The verdict on one sample -/

inductive StallVerdict where
  | healthy
  | suspected (phase : Phase) (elapsed : Nat)
  | confirmed (phase : Phase) (elapsed : Nat)
  /-- Confirmed, but held back because a call is in progress. -/
  | deferred (phase : Phase) (elapsed : Nat)
  /-- Confirmed, with the deferral ceiling reached. -/
  | forced (phase : Phase) (elapsed : Nat)
  deriving DecidableEq, Repr

def stallVerdict (current : ProgressSnapshot) (previous : Option ProgressSnapshot)
    (now deferCeiling : Nat) : StallVerdict :=
  match current.overrun now with
  | none => .healthy
  | some (elapsed, budget) =>
    -- The earlier snapshot is held against the clock of this sample, not of its own.
    if !previous.any (fun prev => prev.phase == current.phase && prev.since == current.since &&
        (prev.overrun now).isSome) then
      .suspected current.phase elapsed
    else if current.busy then
      if deferCeiling ≤ elapsed - budget then .forced current.phase elapsed
      else .deferred current.phase elapsed
    else .confirmed current.phase elapsed

inductive WatchdogAction where
  | nothing
  | reportDeferral
  | reportOnly
  | terminate
  deriving DecidableEq, Repr

def actionFor (verdict : StallVerdict) (recoveryEnabled : Bool) : WatchdogAction :=
  match verdict with
  | .healthy | .suspected _ _ => .nothing
  | .deferred _ _ => .reportDeferral
  | .confirmed _ _ | .forced _ _ => if recoveryEnabled then .terminate else .reportOnly

/-- The reporter's use of the verdict: whether it sends the heartbeat, and the observation
for the next time. An agent that is not monitored always sends it. -/
def shouldHeartbeat (progress : Option Progress) (previous : Option ProgressSnapshot)
    (now : Nat) : Bool × Option ProgressSnapshot :=
  match progress with
  | none => (true, none)
  | some p =>
    let current := p.snapshot
    match stallVerdict current previous now deferCeiling with
    | .healthy | .suspected _ _ => (true, some current)
    | .confirmed _ _ | .deferred _ _ | .forced _ _ => (false, some current)

/-! ## The sampling loop -/

/-- What the loop keeps of one activity between samples. -/
structure Tracked where
  previous : Option ProgressSnapshot := none
  deferralReported : Bool := false
  stallReported : Bool := false

/-- The once-per-episode latches after a verdict. -/
def Tracked.noted (t : Tracked) (current : ProgressSnapshot) (verdict : StallVerdict)
    (recoveryEnabled : Bool) : Tracked :=
  let t := { t with previous := some current }
  match verdict with
  | .healthy => { t with deferralReported := false, stallReported := false }
  | _ =>
    match actionFor verdict recoveryEnabled with
    | .nothing | .terminate => t
    | .reportDeferral => { t with deferralReported := true }
    | .reportOnly => { t with stallReported := true }

/-- One agent process: its activities under their registration ids, the watchdog thread and the
reporter's thread. -/
structure Process where
  clock : Nat
  /-- The progress of an activity outlives its registration as long as a pass holds it. -/
  progress : Nat → Progress
  registry : List Nat
  nextRegistrationId : Nat
  recoveryEnabled : Bool
  tracked : Nat → Option Tracked
  /-- The time of the pass under way and the activities it has still to sample. -/
  pass : Option (Nat × List Nat)
  asleepSince : Nat
  /-- The activity the reporter was given, and what it last saw of it. -/
  reporter : Option Nat
  lastProgress : Option ProgressSnapshot
  exited : Bool

inductive Event where
  | elapse (d : Nat)
  | register
  | deregister (id : Nat)
  | enter (id : Nat) (phase : Phase)
  | leave (id : Nat)
  | setBusy (id : Nat) (busy : Bool)
  /-- The watchdog thread wakes: it reads the clock and the registry. -/
  | wake
  /-- It samples the next activity of the pass. -/
  | sample
  /-- The reporter has waited for a whole report interval. -/
  | heartbeat

namespace Process

def start (now : Nat) (recoveryEnabled : Bool) (reporter : Option Nat) : Process where
  clock := now
  progress := fun _ => Progress.new now
  registry := []
  nextRegistrationId := 0
  recoveryEnabled := recoveryEnabled
  tracked := fun _ => none
  pass := none
  asleepSince := now
  reporter := reporter
  lastProgress := none
  exited := false

def modify (w : Process) (id : Nat) (f : Progress → Progress) : Process :=
  { w with progress := update w.progress id (f (w.progress id)) }

/-- A pass goes on with what is left of it; with nothing left the thread sleeps. -/
def goOn (w : Process) (now : Nat) (rest : List Nat) : Process :=
  if rest.isEmpty then { w with pass := none, asleepSince := w.clock }
  else { w with pass := some (now, rest) }

/-- The verdict on an activity, against what the loop kept of it. -/
def verdict (w : Process) (now id : Nat) : StallVerdict :=
  stallVerdict (w.progress id).snapshot ((w.tracked id).getD {}).previous now deferCeiling

/-- State is kept only for the activities that are still registered. -/
def retainTracked (w : Process) : Process :=
  { w with tracked := fun id => if id ∈ w.registry then w.tracked id else none }

def wake (w : Process) : Process :=
  if w.pass.isNone && decide (w.asleepSince + sampleInterval ≤ w.clock) then
    w.retainTracked.goOn w.clock w.registry
  else w

/-- The verdict on an activity is noted and acted on. -/
def judge (w : Process) (now id : Nat) : Process :=
  { w with
    tracked := update w.tracked id (some (((w.tracked id).getD {}).noted
      (w.progress id).snapshot (w.verdict now id) w.recoveryEnabled))
    exited := decide (actionFor (w.verdict now id) w.recoveryEnabled = .terminate) }

def sample (w : Process) : Process :=
  match w.pass with
  | some (now, id :: rest) => (w.judge now id).goOn now rest
  | _ => w

/-- Whether the reporter sends its heartbeat, and what it saw. -/
def heartbeat (w : Process) : Bool × Option ProgressSnapshot :=
  shouldHeartbeat (w.reporter.map w.progress) w.lastProgress w.clock

/-- One step of the process; after the exit there is none. -/
def step (w : Process) (e : Event) : Process :=
  if w.exited then w
  else
    match e with
    | .elapse d => { w with clock := w.clock + d }
    | .register =>
      { w with
        progress := update w.progress w.nextRegistrationId (Progress.new w.clock)
        registry := w.registry ++ [w.nextRegistrationId]
        nextRegistrationId := w.nextRegistrationId + 1 }
    | .deregister id => { w with registry := w.registry.filter (· != id) }
    | .enter id phase => w.modify id (·.enter phase w.clock)
    | .leave id => w.modify id (·.leave w.clock)
    | .setBusy id busy => w.modify id (·.setBusy busy)
    | .wake => w.wake
    | .sample => w.sample
    | .heartbeat => { w with lastProgress := w.heartbeat.2 }

end Process

/-! ## When a verdict is acted on -/

/-- The phase is over its budget at the time. -/
def ProgressSnapshot.OverBudget (s : ProgressSnapshot) (now : Nat) : Prop :=
  ∃ budget, s.phase.budget = some budget ∧ budget < now - s.since

/-- The phase is past its budget by the deferral ceiling. -/
def ProgressSnapshot.PastCeiling (s : ProgressSnapshot) (now : Nat) : Prop :=
  ∃ budget, s.phase.budget = some budget ∧ deferCeiling ≤ now - s.since - budget

/-- The same phase, entered at the same time. -/
def SameInstance (a b : ProgressSnapshot) : Prop :=
  a.phase = b.phase ∧ a.since = b.since

variable {now : Nat} {previous : Option ProgressSnapshot}

theorem ProgressSnapshot.isSome_overrun_iff (s : ProgressSnapshot) :
    (s.overrun now).isSome ↔ s.OverBudget now := by
  unfold overrun OverBudget
  cases s.phase.budget with
  | none => simp
  | some budget =>
    by_cases h : budget < now - s.since <;> simp [h]

theorem ProgressSnapshot.overrun_eq_some {s : ProgressSnapshot} {elapsed budget : Nat}
    (h : s.overrun now = some (elapsed, budget)) :
    s.phase.budget = some budget ∧ elapsed = now - s.since := by
  unfold overrun at h
  split at h
  · cases h
  next b hb =>
  simp only at h
  split at h
  · cases h
    exact ⟨hb, rfl⟩
  · cases h

open ProgressSnapshot

/-- Of the same phase instance both snapshots are over the budget at a time, or neither is. -/
theorem SameInstance.overrun_eq {a b : ProgressSnapshot} (h : SameInstance a b) :
    a.overrun now = b.overrun now := by
  unfold overrun
  rw [h.1, h.2]

/-- The check of the earlier snapshot asks for no more than the same phase instance. -/
theorem any_sameInstance_iff {current : ProgressSnapshot} (hover : (current.overrun now).isSome) :
    previous.any (fun prev => prev.phase == current.phase && prev.since == current.since &&
        (prev.overrun now).isSome) = true ↔
      ∃ prev, previous = some prev ∧ SameInstance prev current := by
  rw [Option.any_eq_true]
  constructor
  · rintro ⟨prev, hprev, h⟩
    simp only [Bool.and_eq_true, beq_iff_eq] at h
    exact ⟨prev, hprev, h.1.1, h.1.2⟩
  · rintro ⟨prev, hprev, hsame⟩
    refine ⟨prev, hprev, ?_⟩
    rw [hsame.overrun_eq, hover, hsame.1, hsame.2]
    simp

/-- The process is ended exactly for the second snapshot of a phase instance that is over its
budget now, with recovery enabled and no call to wait for. -/
theorem actionFor_eq_terminate_iff (current : ProgressSnapshot) (recoveryEnabled : Bool) :
    actionFor (stallVerdict current previous now deferCeiling) recoveryEnabled = .terminate ↔
      recoveryEnabled = true ∧ current.OverBudget now ∧
      (∃ prev, previous = some prev ∧ SameInstance prev current) ∧
      (current.busy = true → current.PastCeiling now) := by
  rw [← isSome_overrun_iff]
  unfold stallVerdict
  split
  · next hnone => simp [actionFor, hnone]
  next elapsed budget hsome =>
  obtain ⟨hbudget, helapsed⟩ := overrun_eq_some hsome
  have hover : (current.overrun now).isSome = true := by rw [hsome]; rfl
  rw [← any_sameInstance_iff hover]
  cases previous.any _ with
  | false => simp [actionFor]
  | true =>
    cases hbusy : current.busy with
    | false => simp [actionFor, hover]
    | true =>
      have hpast : current.PastCeiling now ↔ deferCeiling ≤ elapsed - budget := by
        rw [helapsed]
        constructor
        · rintro ⟨b, hb, hle⟩
          cases hb.symm.trans hbudget
          exact hle
        · exact fun hle => ⟨budget, hbudget, hle⟩
      by_cases hle : deferCeiling ≤ elapsed - budget
      · simp [actionFor, hover, hle, hpast]
      · simp [actionFor, hle, hpast]

/-- The heartbeat is held back for the second observation of a phase instance that is over its
budget now, whatever the call and the configuration. -/
theorem shouldHeartbeat_eq_false_iff (p : Progress) :
    (shouldHeartbeat (some p) previous now).1 = false ↔
      p.snapshot.OverBudget now ∧ ∃ prev, previous = some prev ∧ SameInstance prev p.snapshot := by
  rw [← isSome_overrun_iff]
  unfold shouldHeartbeat stallVerdict
  simp only
  cases hsome : p.snapshot.overrun now with
  | none => simp
  | some e =>
    have hover : (p.snapshot.overrun now).isSome = true := by rw [hsome]; rfl
    rw [← any_sameInstance_iff hover]
    cases previous.any _ with
    | false => simp
    | true =>
      cases p.snapshot.busy with
      | false => simp
      | true =>
        by_cases hle : deferCeiling ≤ e.1 - e.2 <;> simp [hle]

theorem shouldHeartbeat_snd (progress : Option Progress) : (shouldHeartbeat progress previous now).2
    = progress.map (·.snapshot) := by
  cases progress with
  | none => rfl
  | some p =>
    simp only [shouldHeartbeat]
    split <;> rfl

/-! ## Two samples

What was seen of an activity is recorded with the time of the sample. The loop keeps the
last snapshot but not its time, and holds it against the time of the next sample: a phase
instance that was within its budget then is confirmed by the first sample that finds it
over. -/

open List

/-- A snapshot and the time it was judged at. -/
structure Observation where
  time : Nat
  snapshot : ProgressSnapshot

def Observation.OverBudget (o : Observation) : Prop := o.snapshot.OverBudget o.time

/-- The process with a record of what was last seen of each activity, and by the reporter. -/
structure Watched where
  process : Process
  sampled : Nat → Option Observation
  observed : Option Observation

/-- What the next sample sees, and of which activity. -/
def Process.sampling (w : Process) : Option (Nat × Observation) :=
  match w.pass with
  | some (now, id :: _) => some (id, ⟨now, (w.progress id).snapshot⟩)
  | _ => none

/-- What the reporter sees now. -/
def Process.observing (w : Process) : Option Observation :=
  w.reporter.map fun id => ⟨w.clock, (w.progress id).snapshot⟩

namespace Watched

def start (now : Nat) (recoveryEnabled : Bool) (reporter : Option Nat) : Watched where
  process := Process.start now recoveryEnabled reporter
  sampled := fun _ => none
  observed := none

def recorded (w : Watched) : Nat → Option Observation :=
  match w.process.sampling with
  | some (id, o) => update w.sampled id (some o)
  | none => w.sampled

def step (w : Watched) (e : Event) : Watched :=
  if w.process.exited then w
  else
    match e with
    | .sample => { w with process := w.process.step e, sampled := w.recorded }
    | .heartbeat => { w with process := w.process.step e, observed := w.process.observing }
    | _ => { w with process := w.process.step e }

end Watched

/-! ### The property and the condition -/

/-- The same phase instance, over its budget both times. -/
structure TwiceOver (prev cur : Observation) : Prop where
  same : SameInstance prev.snapshot cur.snapshot
  prev : prev.OverBudget
  cur : cur.OverBudget

/-- A phase instance is over its budget that the observation before found within it. -/
structure NewlyOver (prev cur : Observation) : Prop where
  same : SameInstance prev.snapshot cur.snapshot
  prev : ¬ prev.OverBudget
  cur : cur.OverBudget

/-- The process ends only for a phase instance that was over its budget at two consecutive
samples of the activity, and with a call in progress only past the ceiling. The heartbeat is
held back only after two consecutive observations over budget. -/
structure Confirmed (w : Watched) (e : Event) : Prop where
  terminate : w.process.exited = false → (w.step e).process.exited = true →
    ∃ id prev cur, w.process.sampling = some (id, cur) ∧ w.sampled id = some prev ∧
      prev.time < cur.time ∧ TwiceOver prev cur ∧ cur.snapshot.phase.budget.isSome ∧
      (cur.snapshot.busy = true → cur.snapshot.PastCeiling cur.time)
  heartbeat : w.process.exited = false → e = .heartbeat → w.process.heartbeat.1 = false →
    ∃ prev cur, w.process.observing = some cur ∧ w.observed = some prev ∧ TwiceOver prev cur

/-- No phase is found over its budget by the observation right after one within it, except by
a sample that does not end the process: recovery is off, or a call is waited for. -/
def NoneNewlyOver (w : Watched) : Event → Prop
  | .sample => ∀ id prev cur, w.process.exited = false → w.process.sampling = some (id, cur) →
      w.sampled id = some prev → NewlyOver prev cur → w.process.recoveryEnabled = true →
      cur.snapshot.busy = true ∧ ¬ cur.snapshot.PastCeiling cur.time
  | .heartbeat => ∀ prev cur, w.process.exited = false → w.process.observing = some cur →
      w.observed = some prev → ¬ NewlyOver prev cur
  | _ => True

/-! ### What the loop remembers -/

/-- The time of the pass under way, else the time the thread went to sleep. -/
def Process.passTime (w : Process) : Nat :=
  match w.pass with
  | some (now, _) => now
  | none => w.asleepSince

def Process.queue (w : Process) : List Nat :=
  match w.pass with
  | some (_, rest) => rest
  | none => []

/-- The loop remembers the last snapshot of every activity it will sample again, the samples
left in a pass are later than the last ones, and the reporter remembers what it saw. -/
structure Remembers (w : Watched) : Prop where
  fresh : ∀ id, w.process.nextRegistrationId ≤ id →
    w.sampled id = none ∧ w.process.tracked id = none
  numbered : ∀ id ∈ w.process.registry ++ w.process.queue, id < w.process.nextRegistrationId
  nodup : w.process.registry.Nodup
  queueNodup : w.process.queue.Nodup
  tracked : ∀ id ∈ w.process.registry ++ w.process.queue,
    ((w.process.tracked id).getD {}).previous = (w.sampled id).map (·.snapshot)
  earlier : ∀ id ∈ w.process.queue, ∀ o, w.sampled id = some o → o.time < w.process.passTime
  sampledBy : ∀ id o, w.sampled id = some o → o.time ≤ w.process.passTime
  passTime : w.process.passTime ≤ w.process.clock
  reporter : w.process.lastProgress = w.observed.map (·.snapshot)

theorem Tracked.previous_noted (t : Tracked) (current : ProgressSnapshot) (v : StallVerdict)
    (recoveryEnabled : Bool) : (t.noted current v recoveryEnabled).previous = some current := by
  unfold noted
  split
  · rfl
  · split <;> rfl

theorem Remembers.start (now : Nat) (recoveryEnabled : Bool) (reporter : Option Nat) :
    Remembers (Watched.start now recoveryEnabled reporter) where
  fresh _ _ := ⟨rfl, rfl⟩
  numbered _ h := by cases h
  nodup := nodup_nil
  queueNodup := nodup_nil
  tracked _ h := by cases h
  earlier _ h := by cases h
  sampledBy _ _ h := by cases h
  passTime := Nat.le_refl _
  reporter := rfl

variable {w : Watched} {p : Process} {cur : Observation}

/-- The record does not depend on the phases, nor on how late it is. -/
theorem Remembers.later (h : Remembers w) {clock : Nat} (hclock : w.process.clock ≤ clock)
    (progress : Nat → Progress) :
    Remembers { w with process := { w.process with clock, progress } } :=
  { h with passTime := Nat.le_trans h.passTime hclock }

/-- With nothing left of it a pass is as good as over. -/
theorem Remembers.goOn {now : Nat} {rest : List Nat} {sampled : Nat → Option Observation}
    {observed : Option Observation}
    (h : Remembers ⟨{ p with pass := some (now, rest) }, sampled, observed⟩) :
    Remembers ⟨p.goOn now rest, sampled, observed⟩ := by
  cases rest with
  | cons id rest => exact h
  | nil =>
    exact { h with
      earlier := fun _ hid => absurd hid not_mem_nil
      sampledBy := fun id o ho => Nat.le_trans (h.sampledBy id o ho) h.passTime
      passTime := Nat.le_refl _ }

theorem Remembers.register (h : Remembers w) :
    Remembers { w with process := { w.process with
      progress := update w.process.progress w.process.nextRegistrationId
        (Progress.new w.process.clock)
      registry := w.process.registry ++ [w.process.nextRegistrationId]
      nextRegistrationId := w.process.nextRegistrationId + 1 } } := by
  have hlt : ∀ id ∈ w.process.registry ++ [w.process.nextRegistrationId] ++ w.process.queue,
      id ∈ w.process.registry ++ w.process.queue ∨ id = w.process.nextRegistrationId := by
    intro id hid
    simp only [mem_append, mem_singleton] at hid ⊢
    tauto
  refine { h with
    fresh := fun id hid => h.fresh id (Nat.le_of_succ_le hid), numbered := ?_, nodup := ?_
    tracked := ?_ }
  · intro id hid
    rcases hlt id hid with hmem | rfl
    · exact Nat.lt_succ_of_lt (h.numbered id hmem)
    · exact Nat.lt_succ_self _
  · refine nodup_append.2 ⟨h.nodup, nodup_cons.2 ⟨not_mem_nil, nodup_nil⟩, ?_⟩
    rintro id hid next hnext rfl
    rw [mem_singleton.1 hnext] at hid
    exact Nat.lt_irrefl _ (h.numbered _ (mem_append_left _ hid))
  · intro id hid
    rcases hlt id hid with hmem | rfl
    · exact h.tracked id hmem
    · obtain ⟨hsampled, htracked⟩ := h.fresh _ (Nat.le_refl _)
      simp only [hsampled, htracked]
      rfl

theorem Remembers.deregister (h : Remembers w) (id : Nat) :
    Remembers { w with process := { w.process with
      registry := w.process.registry.filter (· != id) } } := by
  have hsub : w.process.registry.filter (· != id) ++ w.process.queue <+
      w.process.registry ++ w.process.queue := filter_sublist.append_right _
  exact { h with
    numbered := fun i hi => h.numbered i (hsub.subset hi)
    nodup := h.nodup.filter _
    tracked := fun i hi => h.tracked i (hsub.subset hi) }

theorem Remembers.wake (h : Remembers w) : Remembers { w with process := w.process.wake } := by
  unfold Process.wake
  split
  · next hdue =>
    simp only [Bool.and_eq_true, Option.isNone_iff_eq_none, decide_eq_true_eq] at hdue
    -- The last samples are older than the time the thread went to sleep.
    have hold : ∀ id o, w.sampled id = some o → o.time < w.process.clock := by
      intro id o ho
      have htime := h.sampledBy id o ho
      simp only [Process.passTime, hdue.1] at htime
      have hpos : 0 < sampleInterval := secs_pos (by decide)
      omega
    have hmem : ∀ i ∈ w.process.registry ++ w.process.registry, i ∈ w.process.registry :=
      fun i hi => (mem_append.1 hi).elim id id
    apply Remembers.goOn
    constructor
    case fresh =>
      intro id hid
      refine ⟨(h.fresh id hid).1, ?_⟩
      simp only [Process.retainTracked]
      split
      · exact (h.fresh id hid).2
      · rfl
    case numbered => exact fun id hid => h.numbered id (mem_append_left _ (hmem id hid))
    case nodup => exact h.nodup
    case queueNodup => exact h.nodup
    case tracked =>
      intro id hid
      have hreg := hmem id hid
      simp only [Process.retainTracked, if_pos hreg]
      exact h.tracked id (mem_append_left _ hreg)
    case earlier => exact fun id _ o ho => hold id o ho
    case sampledBy => exact fun id o ho => Nat.le_of_lt (hold id o ho)
    case passTime => exact Nat.le_refl _
    case reporter => exact h.reporter
  · exact h

/-- A pass with an activity left samples it; else nothing happens. -/
theorem Process.sample_cases (p : Process) :
    (p.sampling = none ∧ p.sample = p) ∨
    ∃ now id rest, p.passTime = now ∧ p.queue = id :: rest ∧
      p.sampling = some (id, ⟨now, (p.progress id).snapshot⟩) ∧
      p.sample = (p.judge now id).goOn now rest := by
  unfold sampling sample passTime queue
  cases hpass : p.pass with
  | none => exact .inl ⟨rfl, rfl⟩
  | some pass =>
    obtain ⟨now, queue⟩ := pass
    cases queue with
    | nil => exact .inl ⟨rfl, rfl⟩
    | cons id rest => exact .inr ⟨now, id, rest, rfl, rfl, rfl, rfl⟩

theorem Remembers.sample (h : Remembers w) :
    Remembers { w with process := w.process.sample, sampled := w.recorded } := by
  unfold Watched.recorded
  obtain ⟨hnone, hsame⟩ | ⟨now, id, rest, htime, hqueue, hsamp, hsample⟩ := w.process.sample_cases
  · rw [hnone, hsame]
    exact h
  rw [hsamp, hsample]
  have hnodup := h.queueNodup
  rw [hqueue, nodup_cons] at hnodup
  have hin : w.process.registry ++ rest <+ w.process.registry ++ w.process.queue :=
    hqueue ▸ (sublist_cons_self id rest).append_left _
  have hidin : id ∈ w.process.registry ++ w.process.queue :=
    hqueue ▸ mem_append_right _ mem_cons_self
  apply Remembers.goOn
  constructor
  case fresh =>
    intro i hi
    have hne : i ≠ id := by
      rintro rfl
      exact Nat.not_lt.2 hi (h.numbered i hidin)
    simp only [Process.judge, update_of_ne hne]
    exact h.fresh i hi
  case numbered => exact fun i hi => h.numbered i (hin.subset hi)
  case nodup => exact h.nodup
  case queueNodup => exact hnodup.2
  case tracked =>
    intro i hi
    simp only [Process.judge]
    by_cases hid : i = id
    · rw [hid, update_self, update_self, Option.getD_some, Tracked.previous_noted]
      rfl
    · rw [update_of_ne hid, update_of_ne hid]
      exact h.tracked i (hin.subset hi)
  case earlier =>
    intro i hi o ho
    have hid : i ≠ id := by
      rintro rfl
      exact hnodup.1 hi
    simp only [update_of_ne hid] at ho
    exact htime ▸ h.earlier i (hqueue ▸ mem_cons_of_mem id hi) o ho
  case sampledBy =>
    intro i o ho
    by_cases hid : i = id
    · simp only [hid, update_self] at ho
      cases ho
      exact Nat.le_refl _
    · simp only [update_of_ne hid] at ho
      exact htime ▸ h.sampledBy i o ho
  case passTime => exact htime ▸ h.passTime
  case reporter => exact h.reporter

theorem Process.heartbeat_snd (p : Process) : p.heartbeat.2 = p.observing.map (·.snapshot) := by
  unfold heartbeat observing
  rw [shouldHeartbeat_snd, Option.map_map, Option.map_map]
  rfl

theorem Remembers.heartbeat (h : Remembers w) :
    Remembers { w with
      process := { w.process with lastProgress := w.process.heartbeat.2 }
      observed := w.process.observing } :=
  { h with reporter := w.process.heartbeat_snd }

/-- The record is kept by every step. -/
theorem Remembers.step (h : Remembers w) (e : Event) : Remembers (w.step e) := by
  unfold Watched.step
  split
  · exact h
  next hgoes =>
  have hstep : ∀ e, w.process.step e = _ := fun e => by unfold Process.step; rw [if_neg hgoes]
  cases e <;> simp only [hstep]
  case elapse => exact h.later (Nat.le_add_right _ _) _
  case register => exact h.register
  case deregister id => exact h.deregister id
  case enter | leave | setBusy => exact h.later (Nat.le_refl _) _
  case wake => exact h.wake
  case sample => exact h.sample
  case heartbeat => exact h.heartbeat

/-! ### Exits and heartbeats -/

theorem Watched.process_step (w : Watched) (e : Event) : (w.step e).process = w.process.step e := by
  unfold step
  split
  · next hexited =>
    unfold Process.step
    rw [if_pos hexited]
  · cases e <;> rfl

theorem Process.exited_goOn (p : Process) (now : Nat) (rest : List Nat) :
    (p.goOn now rest).exited = p.exited := by
  unfold goOn
  split <;> rfl

/-- Only a sample ends the process, by what the loop remembers of its activity. -/
theorem Process.exited_step_iff (hgoes : p.exited = false) (e : Event) :
    (p.step e).exited = true ↔
      e = .sample ∧ ∃ id cur, p.sampling = some (id, cur) ∧
        actionFor (stallVerdict cur.snapshot ((p.tracked id).getD {}).previous cur.time
          deferCeiling) p.recoveryEnabled = .terminate := by
  have hgoes' : ¬ p.exited = true := by rw [hgoes]; exact Bool.false_ne_true
  unfold step
  rw [if_neg hgoes']
  cases e with
  | elapse d | register | deregister id | enter id phase | leave id | setBusy id busy
  | heartbeat => simp [hgoes, Process.modify]
  | wake =>
    simp only [reduceCtorEq, false_and, iff_false, wake]
    split
    · rwa [exited_goOn]
    · exact hgoes'
  | sample =>
    obtain ⟨hnone, hsame⟩ | ⟨now, id, rest, -, -, hsamp, hsample⟩ := p.sample_cases
    · simp [hnone, hsame, hgoes]
    simp only [hsample, hsamp, exited_goOn, judge, decide_eq_true_eq, true_and]
    constructor
    · exact fun h => ⟨id, _, rfl, h⟩
    · rintro ⟨id', cur, heq, h⟩
      cases heq
      exact h

theorem Process.heartbeat_eq_false_iff (p : Process) :
    p.heartbeat.1 = false ↔
      ∃ cur, p.observing = some cur ∧ cur.OverBudget ∧
        ∃ prev, p.lastProgress = some prev ∧ SameInstance prev cur.snapshot := by
  unfold heartbeat observing
  cases p.reporter with
  | none => simp [shouldHeartbeat]
  | some id =>
    rw [Option.map_some, shouldHeartbeat_eq_false_iff]
    constructor
    · exact fun h => ⟨_, rfl, h⟩
    · rintro ⟨cur, hcur, h⟩
      cases hcur
      exact h

theorem TwiceOver.of_not_newlyOver {prev : Observation}
    (hsame : SameInstance prev.snapshot cur.snapshot) (hover : cur.OverBudget)
    (hnew : ¬ NewlyOver prev cur) : TwiceOver prev cur where
  same := hsame
  prev := by
    by_contra hprev
    exact hnew ⟨hsame, hprev, hover⟩
  cur := hover

section

variable (h : Remembers w)

include h

/-- What the loop remembers of the activity it samples is the sample before, at an earlier
time. -/
theorem Remembers.of_sampling {id : Nat} (hsamp : w.process.sampling = some (id, cur)) :
    ((w.process.tracked id).getD {}).previous = (w.sampled id).map (·.snapshot) ∧
      ∀ o, w.sampled id = some o → o.time < cur.time := by
  obtain ⟨hnone, -⟩ | ⟨now, id', rest, htime, hqueue, hsamp', -⟩ := w.process.sample_cases
  · cases hnone.symm.trans hsamp
  cases hsamp.symm.trans hsamp'
  have hmem : id ∈ w.process.queue := hqueue ▸ mem_cons_self
  exact ⟨h.tracked id (mem_append_right _ hmem), htime ▸ h.earlier id hmem⟩

/-- A sample that ends the process has another one before it, of the same phase instance. -/
theorem Remembers.exited_iff {e : Event} (hgoes : w.process.exited = false) :
    (w.step e).process.exited = true ↔
      e = .sample ∧ ∃ id cur, w.process.sampling = some (id, cur) ∧
        w.process.recoveryEnabled = true ∧ cur.OverBudget ∧
        (∃ prev, w.sampled id = some prev ∧ SameInstance prev.snapshot cur.snapshot) ∧
        (cur.snapshot.busy = true → cur.snapshot.PastCeiling cur.time) := by
  rw [Watched.process_step, Process.exited_step_iff hgoes]
  refine and_congr_right fun _ => exists_congr fun id => exists_congr fun cur =>
    and_congr_right fun hsamp => ?_
  rw [actionFor_eq_terminate_iff, (h.of_sampling hsamp).1]
  simp [Observation.OverBudget]

/-- A heartbeat that is held back follows an observation of the same phase instance. -/
theorem Remembers.heartbeat_iff :
    w.process.heartbeat.1 = false ↔
      ∃ cur, w.process.observing = some cur ∧ cur.OverBudget ∧
        ∃ prev, w.observed = some prev ∧ SameInstance prev.snapshot cur.snapshot := by
  rw [Process.heartbeat_eq_false_iff, h.reporter]
  simp

/-- A step is confirmed by two samples exactly if it does not act on a phase that is newly over
its budget. -/
theorem Remembers.confirmed_iff (e : Event) : Confirmed w e ↔ NoneNewlyOver w e := by
  constructor
  · intro hconf
    cases e with
    | sample =>
      intro id prev cur hgoes hsamp hprev hnew hrecovery
      by_contra hact
      have hbusy : cur.snapshot.busy = true → cur.snapshot.PastCeiling cur.time := by
        intro hbusy
        by_contra hpast
        exact hact ⟨hbusy, hpast⟩
      -- The sample ends the process, and the two samples are the ones at hand.
      have hexit := (h.exited_iff hgoes).2
        ⟨rfl, id, cur, hsamp, hrecovery, hnew.cur, ⟨prev, hprev, hnew.same⟩, hbusy⟩
      obtain ⟨id', prev', cur', hsamp', hprev', -, htwice, -⟩ := hconf.terminate hgoes hexit
      cases hsamp.symm.trans hsamp'
      cases hprev.symm.trans hprev'
      exact hnew.prev htwice.prev
    | heartbeat =>
      intro prev cur hgoes hcur hprev hnew
      have hheld := h.heartbeat_iff.2 ⟨cur, hcur, hnew.cur, prev, hprev, hnew.same⟩
      obtain ⟨prev', cur', hcur', hprev', htwice⟩ := hconf.heartbeat hgoes rfl hheld
      cases hprev.symm.trans hprev'
      exact hnew.prev htwice.prev
    | elapse d | register | deregister id | enter id phase | leave id | setBusy id busy | wake =>
      trivial
  · intro hnone
    constructor
    case terminate =>
      intro hgoes hexit
      obtain ⟨rfl, id, cur, hsamp, hrecovery, hover, ⟨prev, hprev, hsame⟩, hbusy⟩ :=
        (h.exited_iff hgoes).1 hexit
      have hnew : ¬ NewlyOver prev cur := by
        intro hnew
        obtain ⟨hcall, hpast⟩ := hnone id prev cur hgoes hsamp hprev hnew hrecovery
        exact hpast (hbusy hcall)
      exact ⟨id, prev, cur, hsamp, hprev, (h.of_sampling hsamp).2 prev hprev,
        TwiceOver.of_not_newlyOver hsame hover hnew,
        Option.isSome_iff_exists.2 (hover.imp fun _ => And.left), hbusy⟩
    case heartbeat =>
      rintro hgoes rfl hheld
      obtain ⟨cur, hcur, hover, prev, hprev, hsame⟩ := h.heartbeat_iff.1 hheld
      exact ⟨prev, cur, hcur, hprev,
        TwiceOver.of_not_newlyOver hsame hover (hnone prev cur hgoes hcur hprev)⟩

end

/-- In a run two samples over budget stand behind every exit and every heartbeat that is held
back exactly if no step acts on a phase that the observation before found within its
budget. -/
theorem stall_confirmed_iff (now : Nat) (recoveryEnabled : Bool) (reporter : Option Nat)
    (events : List Event) :
    Trace.Each Watched.step Confirmed (Watched.start now recoveryEnabled reporter) events ↔
      Trace.Each Watched.step NoneNewlyOver (Watched.start now recoveryEnabled reporter) events :=
  Trace.each_iff_each (I := Remembers) (fun _ e h _ => h.step e)
    (fun _ e h => h.confirmed_iff e) (Remembers.start now recoveryEnabled reporter)

/-- An activity is idle from the start and sampled every five seconds. -/
def idleForTwenty : List Event :=
  .register :: [Event.elapse (secs 5), .wake, .sample, .elapse (secs 5), .wake, .sample,
    .elapse (secs 5), .wake, .sample, .elapse (secs 5), .wake]

/-- At 15 s it is within its budget, at 20 s over it: the one sample that finds it over ends
the process. -/
theorem stalled_on_one_sample :
    ¬ Trace.Each Watched.step Confirmed (Watched.start 0 true none)
      (idleForTwenty ++ [.sample]) := by
  intro h
  obtain ⟨id, prev, cur, hcur, hprev, -, htwice, -⟩ := h.last.terminate rfl rfl
  have hcur' : (idleForTwenty.foldl Watched.step (Watched.start 0 true none)).process.sampling =
      some (0, ⟨secs 20, ⟨.idle, 0, false⟩⟩) := rfl
  cases hcur'.symm.trans hcur
  have hprev' : (idleForTwenty.foldl Watched.step (Watched.start 0 true none)).sampled 0 =
      some ⟨secs 15, ⟨.idle, 0, false⟩⟩ := rfl
  cases hprev'.symm.trans hprev
  obtain ⟨budget, hbudget, hlt⟩ := htwice.prev
  cases hbudget
  exact Nat.lt_irrefl _ hlt

end Ims.Agent.Watchdog
