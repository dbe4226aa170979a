-- SUMMARY: When the reg-event subscription comes up with an action, and when it may not send.
import GsmSipBridge.Ims.Agent.RegSubscription.Alive
import GsmSipBridge.Ims.Agent.RegSubscription.Verdict

/-!
# Progress

A line that is neither stopped nor busy with an action has a timer running: of the probe, of the
retry, or one of the timers of the current subscription. The one way to lose them all is a NOTIFY
that names no expiry to a subscription that has none yet.
-/

namespace Ims.RegSubscription

open Text SipClient

/-! ## Ticks -/

structure Tick where
  now : Nat
  wall : Nat
  force : Bool

def Tick.poll (tick : Tick) (s : RegSubscription) : RegSubscription × Option SubAction :=
  s.poll tick.now tick.wall tick.force

/-- The state before the `n`-th tick, with nothing but ticks. -/
def polled (s : RegSubscription) (ticks : Nat → Tick) : Nat → RegSubscription
  | 0 => s
  | n + 1 => ((ticks n).poll (polled s ticks n)).1

/-- The first action that the ticks come up with is one of `P`. -/
def Emits (P : SubAction → Prop) (s : RegSubscription) (ticks : Nat → Tick) : Prop :=
  ∃ n action, (∀ m < n, ((ticks m).poll (polled s ticks m)).2 = none) ∧
    ((ticks n).poll (polled s ticks n)).2 = some action ∧ P action

/-- Whatever ticks follow, as long as time goes on. -/
def Progresses (P : SubAction → Prop) (s : RegSubscription) : Prop :=
  ∀ ticks : Nat → Tick, (∀ t, ∃ n, t ≤ (ticks n).now) → Emits P s ticks

variable {s : RegSubscription} {ticks : Nat → Tick} {P : SubAction → Prop}
  {W : RegSubscription → Prop} {l : Line} {turn : Turn}

theorem polled_tail (n : Nat) :
    polled ((ticks 0).poll s).1 (fun m => ticks (m + 1)) n = polled s ticks (n + 1) := by
  induction n with
  | zero => rfl
  | succ n ih =>
    rw [polled, ih]
    rfl

theorem emits_of_tail (hsilent : ((ticks 0).poll s).2 = none)
    (h : Emits P ((ticks 0).poll s).1 fun n => ticks (n + 1)) : Emits P s ticks := by
  obtain ⟨n, action, hbefore, hn, haction⟩ := h
  rw [polled_tail] at hn
  refine ⟨n + 1, action, fun m hm => ?_, hn, haction⟩
  cases m with
  | zero => exact hsilent
  | succ m =>
    have hm := hbefore m (Nat.lt_of_succ_lt_succ hm)
    rwa [polled_tail] at hm

/-- Time goes on after the first tick as well. -/
theorem unbounded_tail (h : ∀ t, ∃ n, t ≤ (ticks n).now) (t : Nat) :
    ∃ n, t ≤ (ticks (n + 1)).now := by
  obtain ⟨n, hn⟩ := h (max t ((ticks 0).now + 1))
  cases n with
  | zero => omega
  | succ n => exact ⟨n, by omega⟩

/-- A tick that comes up with an action of `P`, or is silent and leaves a state of `W`. -/
def Leads (P : SubAction → Prop) (W : RegSubscription → Prop)
    (r : RegSubscription × Option SubAction) : Prop :=
  (∃ action, r.2 = some action ∧ P action) ∨ r.2 = none ∧ W r.1

theorem Leads.imp {Q : SubAction → Prop} {V : RegSubscription → Prop}
    {r : RegSubscription × Option SubAction} (h : Leads P V r) (hP : ∀ action, P action → Q action)
    (hV : ∀ s, V s → W s) : Leads Q W r := by
  rcases h with ⟨action, heq, haction⟩ | ⟨heq, hstate⟩
  · exact .inl ⟨action, heq, hP action haction⟩
  · exact .inr ⟨heq, hV _ hstate⟩

/-- A state whose timer is out by `t`: a tick acts then, and before that it acts or the state
stays one. -/
theorem emits_by {t : Nat}
    (hstep : ∀ s now wall force, W s →
      Leads P (fun s' => W s' ∧ now < t ∨ Progresses P s') (s.poll now wall force))
    (hs : W s) : Progresses P s := by
  intro ticks hticks
  obtain ⟨n, hn⟩ := hticks t
  induction n generalizing s ticks with
  | zero =>
    rcases hstep s (ticks 0).now (ticks 0).wall (ticks 0).force hs with
      ⟨action, heq, haction⟩ | ⟨heq, ⟨-, hearly⟩ | hnext⟩
    · exact ⟨0, action, nofun, heq, haction⟩
    · omega
    · exact emits_of_tail heq (hnext _ (unbounded_tail hticks))
  | succ n ih =>
    rcases hstep s (ticks 0).now (ticks 0).wall (ticks 0).force hs with
      ⟨action, heq, haction⟩ | ⟨heq, ⟨hsame, -⟩ | hnext⟩
    · exact ⟨0, action, nofun, heq, haction⟩
    · exact emits_of_tail heq (ih hsame _ (unbounded_tail hticks) hn)
    · exact emits_of_tail heq (hnext _ (unbounded_tail hticks))

/-! ## The timers -/

/-- The probe is answered in time, or a tick has the verdict. -/
theorem progresses_probed {p : Probing} {cseq sentAt : Nat} (hP : ∀ action, P action)
    (hprobe : s.probing = some p) (hsent : p.sent = some (cseq, sentAt)) : Progresses P s := by
  apply emits_by (W := fun s => s.probing = some p) (t := sentAt + pingResponseTimeout) _ hprobe
  intro s now wall force hp
  rw [poll_of_probing now wall force hp]
  split
  case isTrue => exact .inl ⟨_, rfl, hP _⟩
  case isFalse hearly => exact .inr ⟨rfl, .inl ⟨hp, by simpa [hsent] using hearly⟩⟩

theorem spaced_of_le {now : Nat}
    (h : ∀ last, s.lastSentAt = some last → last + subInitialBackoff ≤ now) :
    s.spaced now = true := by
  unfold spaced
  cases hlast : s.lastSentAt with
  | none => rfl
  | some last => simp [h last hlast]

section Subscribing

variable (hP : ∀ action : SubAction, action.subscribes = true → P action)

include hP

/-- A retry comes up with a SUBSCRIBE, or nothing changes. -/
theorem leads_pollRetry (h : W s) (now : Nat) : Leads P W (s.pollRetry now) := by
  rcases pollRetry_cases s now with heq | ⟨-, -, action, heq, haction⟩
  · rw [heq]
    exact .inr ⟨rfl, h⟩
  rw [heq]
  refine .inl ⟨action, rfl, hP action ?_⟩
  rcases haction with ⟨-, rfl⟩ | ⟨c, -, -, rfl⟩ <;> rfl

/-- A retry that is scheduled goes out. -/
theorem Retrying.progresses (h : Retrying s) : Progresses P s := by
  obtain ⟨due, hdue⟩ := Option.isSome_iff_exists.1 h.retry
  apply emits_by
    (W := fun t => Retrying t ∧ t.retryAt = some due ∧ t.lastSentAt = s.lastSentAt)
  · rintro t now wall force ⟨hretrying, hretry, hlast⟩
    rw [poll_of_none now wall force hretrying.probing hretrying.stopped hretrying.current]
    by_cases hearly : now < max due (s.lastSentAt.getD 0 + subInitialBackoff)
    · exact leads_pollRetry hP (.inl ⟨⟨{ hretrying with }, hretry, hlast⟩, hearly⟩) now
    have hnow := Nat.max_le.1 (Nat.le_of_not_lt hearly)
    rw [pollRetry_of_none (s := t.prune now) hretrying.current]
    · exact .inl ⟨_, rfl, hP _ rfl⟩
    · simp [hretry, hnow.1]
    · apply spaced_of_le
      intro last hsent
      rw [prune_lastSentAt, hlast] at hsent
      simpa [hsent] using hnow.2
  · exact ⟨h, hdue, rfl⟩

end Subscribing

/-- A timer is out by `t`, and what Timer F comes up with is in `P` if it runs. -/
structure Ticking (P : SubAction → Prop) (t : Nat) (s : RegSubscription) : Prop where
  probing : s.probing = none
  stopped : s.stopped = none
  current : ∃ c, s.current = some c ∧ c.Ticks t ∧
    (c.notifiedSinceSend = true ∨ ∀ action, P action)

section Ticking

variable {t now wall : Nat} {force : Bool} {c : Subscription}

/-- Timer F does not run once a NOTIFY has come. -/
theorem timerF_action (hnoted : c.notifiedSinceSend = true ∨ ∀ action, P action)
    (h : c.timerFExpired now = true) (action : SubAction) : P action := by
  rcases hnoted with hnoted | hany
  · simp [timerFExpired_iff, hnoted] at h
  · exact hany action

variable (hP : ∀ action : SubAction, action.subscribes = true → P action)

include hP

/-- A tick of a line with a subscription acts, or drops it and waits for a retry, or leaves it as
it is while no timer is out. -/
theorem leads_pollCurrent (hprobe : s.probing = none) (hstop : s.stopped = none)
    (hnoted : c.notifiedSinceSend = true ∨ ∀ action, P action) :
    Leads P (fun s' => Retrying s' ∨ s' = s ∧ ¬ c.TimerOut now)
      (s.pollCurrent c now wall force) := by
  refine pollCurrent_cases ?unanswered ?expired ?unconfirmed ?refreshes ?replaced ?waits
  case unanswered => exact fun htimerF => .inl ⟨_, rfl, timerF_action hnoted htimerF _⟩
  case expired =>
    exact fun _ => leads_pollRetry hP (.inl (retrying_supersede hprobe hstop ..)) now
  case unconfirmed =>
    exact fun _ => .inr ⟨rfl, .inl (retrying_supersede hprobe hstop ..)⟩
  case refreshes => exact fun _ _ _ _ => .inl ⟨_, rfl, hP _ rfl⟩
  case replaced =>
    exact fun _ _ _ => leads_pollRetry hP (.inl (retrying_supersede hprobe hstop ..)) now
  case waits => exact fun hquiet => leads_pollRetry hP (.inr ⟨rfl, hquiet⟩) now

theorem Ticking.progresses (h : Ticking P t s) : Progresses P s := by
  apply emits_by (t := t) _ h
  intro s now wall force hs
  obtain ⟨c, hcur, hticks, hnoted⟩ := hs.current
  -- the end of a transaction stops no timer
  have hticks := hticks.closeNotified now
  have hnoted := hnoted.imp_left (closeNotified_frame c now).2.2.1.trans
  rw [poll_of_some now wall force hs.probing hs.stopped hcur]
  apply (leads_pollCurrent hP (s := { s.prune now with current := some _ }) hs.probing
    hs.stopped hnoted).imp fun _ => id
  rintro s' (hretry | ⟨rfl, hquiet⟩)
  · exact .inr (hretry.progresses hP)
  · exact .inl ⟨⟨hs.probing, hs.stopped, _, rfl, hticks, hnoted⟩,
      Nat.lt_of_not_le fun hnow => hquiet (hticks.timerOut hnow)⟩

end Ticking

theorem Live.progresses (h : Live Subscription.Timed s) : Progresses (fun _ => True) s := by
  cases h with
  | probing p cseq sentAt hprobe hsent => exact progresses_probed (fun _ => trivial) hprobe hsent
  | retrying h => exact h.progresses fun _ _ => trivial
  | subscribed c hkept htimed =>
    obtain ⟨t, hticks⟩ := htimed
    exact Ticking.progresses (fun _ _ => trivial)
      ⟨hkept.probing, hkept.stopped, c, hkept.current, hticks, .inr fun _ => trivial⟩

/-- Once a NOTIFY has come for it, the subscription is refreshed or replaced. -/
theorem Live.renews (h : Live Subscription.Timed s) {c : Subscription} (hcur : s.current = some c)
    (hnoted : c.notifiedSinceSend = true) :
    Progresses (fun action => action.subscribes = true) s := by
  cases h with
  | probing p _ _ _ _ hnone => simp [hnone] at hcur
  | retrying h => exact h.progresses fun _ => id
  | subscribed d hkept htimed =>
    obtain rfl : d = c := Option.some.inj (hkept.current.symm.trans hcur)
    obtain ⟨t, hticks⟩ := htimed
    exact Ticking.progresses (fun _ => id)
      ⟨hkept.probing, hkept.stopped, d, hcur, hticks, .inl hnoted⟩

/-- A NOTIFY to a subscription without an expiry names one, or ends the subscription. -/
def Lasting (l : Line) (turn : Turn) : Prop :=
  ∀ state c, turn.entry = .applyState state → l.sub.current = some c →
    c.expiresAt.isSome = true ∨ state.state = .terminated ∨
      (state.state ≠ .missing ∧ state.expires.isSome = true)

theorem Lasting.leaves (h : Lasting l turn) : Leaves Subscription.Timed l turn := by
  intro state c hentry hcur hnothing
  rcases h state c hentry hcur with hexp | hterm | ⟨hstate, hexp⟩
  · exact timed_of_expires hexp
  · simp [hterm] at hnothing
  · rcases hnothing with hmissing | ⟨-, hnone⟩
    · exact absurd hmissing hstate
    · simp [hnone] at hexp

/-! ## Every run -/

/-- A turn of the dispatch loop whose NOTIFY, if it is one, leaves the subscription an expiry. -/
def FollowsLasting (l : Line) (turn : Turn) : Prop := Follows l turn ∧ Lasting l turn

/-- In every state that the dispatch loop reaches after a registration, the line is stopped or
ticks alone will come up with an action, and with a SUBSCRIBE if a NOTIFY has come for the
subscription. -/
theorem progress_after_registration (past : List Turn)
    (h : History.Met step {} FollowsLasting past) (hregistered : ∃ t ∈ past, t.registers = true)
    (howes : (run past).returned.owes = none) (hstopped : (run past).sub.stopped = none) :
    Progresses (fun _ => True) (run past).sub ∧
      ∀ c, (run past).sub.current = some c → c.notifiedSinceSend = true →
        Progresses (fun action => action.subscribes = true) (run past).sub := by
  have hlive : Live Subscription.Timed (run past).sub := by
    rcases alive_of_met timing_timed (h.imp fun _ _ ht => ⟨ht.1, ht.2.leaves⟩) with halive | ⟨hnone, -⟩
    · cases halive with
      | rests _ h => exact h.resolve_right fun h => by simpa [hstopped] using h.stopped
      | sendsInitial hsome | sendsRefresh hsome | probes hsome | applies _ hsome =>
        simp [hsome] at howes
    · obtain ⟨t, ht, hregisters⟩ := hregistered
      simp [hnone t ht] at hregisters
  exact ⟨hlive.progresses, fun c => hlive.renews⟩

/-- The first SUBSCRIBE is never answered, and a NOTIFY confirms the subscription. -/
def confirmedRun : List Turn :=
  [{ now := 1000, entry := .applyState { state := .active, expires := some 600 } },
    { now := 1000, entry := .notify lateNotify }, { now := 0, entry := .sent firstSent .initial },
    { now := 0, entry := .newRegistration }]

theorem lasting_of_ne (h : ∀ state, turn.entry ≠ .applyState state) : Lasting l turn :=
  fun state _ hentry => absurd hentry (h state)

theorem confirmedRun_met : History.Met step {} FollowsLasting confirmedRun := by
  refine ⟨⟨⟨⟨trivial, ?_, lasting_of_ne nofun⟩, ?_, lasting_of_ne nofun⟩, ?_, lasting_of_ne nofun⟩,
    ?_, ?_⟩
  · exact follows_input (by decide) (by decide) rfl
  · exact follows_owed (o := .send .initial) (by decide) (by decide) (.inl ⟨firstSent, rfl⟩)
  · exact follows_input (by decide) (by decide) rfl
  · exact follows_owed (o := .state { state := .active, expires := some 600 }) (by decide)
      (by decide) rfl
  · rintro state c hentry -
    cases hentry
    exact .inr (.inr ⟨nofun, rfl⟩)

theorem progress_after_registration_confirmed :
    Progresses (fun _ => True) (run confirmedRun).sub ∧
      ∀ c, (run confirmedRun).sub.current = some c → c.notifiedSinceSend = true →
        Progresses (fun action => action.subscribes = true) (run confirmedRun).sub :=
  progress_after_registration confirmedRun confirmedRun_met
    ⟨{ now := 0, entry := .newRegistration }, by simp [confirmedRun], rfl⟩ (by decide) (by decide)

/-! ### A subscription without a timer -/

/-- Confirmed by a NOTIFY, and without an expiry. -/
structure Stuck (s : RegSubscription) : Prop where
  probing : s.probing = none
  stopped : s.stopped = none
  retry : s.retryAt = none
  current : ∃ c, s.current = some c ∧ c.expiresAt = none ∧ c.timerN = none ∧
    c.notifiedSinceSend = true

theorem Stuck.poll (h : Stuck s) (now wall : Nat) (force : Bool) :
    (s.poll now wall force).2 = none ∧ Stuck (s.poll now wall force).1 := by
  obtain ⟨c, hcur, hexp, htimer, hnoted⟩ := h.current
  obtain ⟨-, -, hnoted', hexp', htimer', -⟩ := closeNotified_frame c now
  have heq : s.poll now wall force =
      ({ s.prune now with current := some (c.closeNotified now) }, none) := by
    have htimerF : ¬ (c.closeNotified now).timerFExpired now := by
      simp [timerFExpired_iff, hnoted', hnoted]
    have hdue : (c.closeNotified now).refreshDue now = false := by
      simp [Subscription.refreshDue, hexp', hexp]
    rw [poll_of_some now wall force h.probing h.stopped hcur]
    simp [pollCurrent, htimerF, Subscription.expired, hexp', hexp,
      Subscription.timerNExpired, htimer', htimer, hdue, pollRetry, h.retry]
  rw [heq]
  exact ⟨rfl, h.probing, h.stopped, h.retry, _, rfl, hexp'.trans hexp,
    htimer'.trans htimer, hnoted'.trans hnoted⟩

theorem Stuck.polled (h : Stuck s) (ticks : Nat → Tick) (n : Nat) : Stuck (polled s ticks n) := by
  induction n with
  | zero => exact h
  | succ n ih => exact (ih.poll _ _ _).2

theorem Stuck.not_progresses (h : Stuck s) : ¬ Progresses P s := by
  intro hprogress
  obtain ⟨n, action, -, hacts, -⟩ := hprogress (fun n => ⟨n, 0, false⟩) fun t => ⟨t, Nat.le_refl t⟩
  have hsilent := ((h.polled (fun n => ⟨n, 0, false⟩) n).poll n 0 false).1
  exact absurd (hsilent.symm.trans hacts) nofun

/-- A NOTIFY in the dialog that names no expiry. -/
def openEndedNotify : SipRequest :=
  { lateNotify with
    headers := [("Event", "reg"), ("Call-ID", "sub-a"),
      ("To", "<sip:ue@192.0.2.1>;tag=ltag-a"),
      ("Subscription-State", "active")] }

def openEndedRun : List Turn :=
  [{ now := 1000, entry := .applyState { state := .active } },
    { now := 1000, entry := .notify openEndedNotify },
    { now := 0, entry := .sent firstSent .initial }, { now := 0, entry := .newRegistration }]

theorem stuck_openEnded : Stuck (run openEndedRun).sub := by
  refine ⟨by decide, by decide, by decide, ?_⟩
  have hcur : ((run openEndedRun).sub.current.any fun c =>
      c.expiresAt.isNone && c.timerN.isNone && c.notifiedSinceSend) = true := by decide
  obtain ⟨c, hc, hnone⟩ := (Option.any_eq_true ..).1 hcur
  simp only [Bool.and_eq_true, Option.isNone_iff_eq_none] at hnone
  exact ⟨c, hc, hnone.1.1, hnone.1.2, hnone.2⟩

/-- It stops the last timer, and no tick does anything from then on. -/
theorem open_ended_notify_wedges :
    ¬ ∀ past, History.Met step {} Follows past → (∃ t ∈ past, t.registers = true) →
      (run past).returned.owes = none → (run past).sub.stopped = none →
        Progresses (fun _ => True) (run past).sub := by
  intro h
  apply stuck_openEnded.not_progresses
  apply h openEndedRun
  · refine ⟨⟨⟨⟨trivial, ?_⟩, ?_⟩, ?_⟩, ?_⟩
    · exact follows_input (by decide) (by decide) rfl
    · exact follows_owed (o := .send .initial) (by decide) (by decide) (.inl ⟨firstSent, rfl⟩)
    · exact follows_input (by decide) (by decide) rfl
    · exact follows_owed (o := .state { state := .active }) (by decide) (by decide) rfl
  · exact ⟨{ now := 0, entry := .newRegistration }, by simp [openEndedRun], rfl⟩
  · decide
  · decide

/-! ## The floor under a retry

A refusal with a `Retry-After` schedules the only SUBSCRIBE that can follow: nothing is in flight,
a refresh waits for the retry, and an expiry keeps it. What can move the retry is a new
registration, a NOTIFY that ends the subscription, and Timer N of one that no NOTIFY has confirmed. -/

variable {now wall : Nat} {T : Nat} {c : Subscription} {r : Nat} {due : Nat} {kind : SubKind}
  {resp : SipResponse}

/-- A SUBSCRIBE is to be sent. -/
def Returned.sends : Returned → Bool
  | .action a => a.subscribes
  | .nothing => false
  | .responseMatch _ => false
  | .notifyMatch _ => false
  | .answered _ => false

/-! ### Held back -/

/-- No SUBSCRIBE is in flight, and none goes out before `T`. -/
structure Held (T : Nat) (s : RegSubscription) : Prop where
  probing : s.probing = none
  idle : ∀ c, s.current = some c → c.txn = .idle
  floor : s.stopped.isSome = true ∧ s.current = none ∨ ∃ due, s.retryAt = some due ∧ T ≤ due

theorem Held.prune (h : Held T s) (now : Nat) : Held T (s.prune now) :=
  { h with }

/-- A retry before its time. -/
theorem pollRetry_early (hretry : s.retryAt = some due) (hnow : now < due) :
    s.pollRetry now = (s, none) := by
  have hnot : s.retryAt.any (· ≤ now) = false := by simp [hretry, hnow]
  simp [pollRetry, hnot]

/-- A tick before `T` is silent, and only Timer N moves the retry. -/
theorem Held.pollCurrent (h : Held T s) (hcur : s.current = some c) (hretry : s.retryAt = some due)
    (hdue : T ≤ due) (hnow : now < T) (wall : Nat) (force : Bool) :
    (s.pollCurrent c now wall force).2 = none ∧
      (c.timerNExpired now = true ∨ Held T (s.pollCurrent c now wall force).1) := by
  have htxn := h.idle c hcur
  have htimerF : c.timerFExpired now = false := by simp [Subscription.timerFExpired, htxn]
  refine pollCurrent_cases ?unanswered ?expired ?unconfirmed ?refreshes ?replaced ?waits
  case unanswered =>
    intro hexpired
    cases htimerF.symm.trans hexpired
  case expired =>
    intro _
    have hrepl : (s.replaceExpired now wall).retryAt = some (max due now) := by
      simp [replaceExpired, hretry]
    have hcur' : (s.replaceExpired now wall).current = none := supersede_current now
    rw [pollRetry_early hrepl (by omega)]
    refine ⟨rfl, .inr ⟨(supersede_probing now).trans h.probing, ?_, .inr ⟨_, hrepl, by omega⟩⟩⟩
    intro d hd
    cases hcur'.symm.trans hd
  case unconfirmed => exact fun htimerN => ⟨rfl, .inl htimerN⟩
  case refreshes =>
    intro _ _ hnone
    cases hretry.symm.trans hnone
  case replaced =>
    intro _ hnone
    cases hretry.symm.trans hnone
  case waits =>
    intro _
    rw [pollRetry_early hretry (by omega)]
    exact ⟨rfl, .inr h⟩

theorem Held.poll (h : Held T s) (hnow : now < T) (wall : Nat) (force : Bool) :
    (s.poll now wall force).2 = none ∧
      ((∃ c, s.current = some c ∧ c.timerNExpired now = true) ∨
        Held T (s.poll now wall force).1) := by
  cases hstop : s.stopped with
  | some reason =>
    rw [poll_of_stopped now wall force h.probing (by simp [hstop])]
    exact ⟨rfl, .inr (h.prune now)⟩
  | none =>
    obtain ⟨due, hretry, hdue⟩ := h.floor.resolve_left (by simp [hstop])
    cases hcur : s.current with
    | none =>
      rw [poll_of_none now wall force h.probing hstop hcur,
        pollRetry_early (s := s.prune now) hretry (by omega)]
      exact ⟨rfl, .inr (h.prune now)⟩
    | some c =>
      have hclosed : c.closeNotified now = c := by
        simp [Subscription.closeNotified, h.idle c hcur]
      have hheld : Held T { s.prune now with current := some c } := by
        refine ⟨h.probing, fun d hd => ?_, .inr ⟨due, hretry, hdue⟩⟩
        cases hd
        exact h.idle c hcur
      rw [poll_of_some now wall force h.probing hstop hcur, hclosed]
      obtain ⟨hsilent, hnext⟩ := hheld.pollCurrent rfl hretry hdue hnow wall force
      exact ⟨hsilent, hnext.imp (fun htimerN => ⟨c, rfl, htimerN⟩) id⟩

/-- What may move the retry. -/
inductive Lifts (l : Line) (turn : Turn) : Prop where
  | registers (h : turn.registers = true)
  | terminated (state : SubState) (hentry : turn.entry = .applyState state)
      (hstate : state.state = .terminated) (hstops : ¬ state.stops)
  | unconfirmed (force : Bool) (hentry : turn.entry = .poll force) (c : Subscription)
      (hcurrent : l.sub.current = some c) (htimerN : c.timerNExpired turn.now = true)

/-- The loop has no action of such a line to perform. -/
structure Waits (T : Nat) (l : Line) : Prop where
  held : Held T l.sub
  owes : l.returned.owes = none ∨ ∃ state, l.returned.owes = some (.state state)

theorem Held.onNotify (h : Held T s) (req : SipRequest) (now : Nat) :
    Waits T ⟨(s.onNotify req now).1, .notifyMatch (s.onNotify req now).2, now⟩ := by
  rcases onNotify_cases s req now with ⟨-, heq, hmatch⟩ | ⟨c, hcur, -, heq⟩
  · rw [heq]
    exact ⟨h.prune now, .inl (owes_outside hmatch)⟩
  obtain ⟨⟨c', hc', hnoted⟩, hretry, hstop, hprobe, -⟩ :=
    confirmCurrent_spec (s.prune now) req (subStateOf req) c
  rw [heq]
  refine ⟨⟨hprobe.trans h.probing, fun d hd => ?_, ?_⟩, .inr ⟨_, rfl⟩⟩
  · obtain rfl : c' = d := Option.some.inj (hc'.symm.trans hd)
    exact hnoted.txn.trans (h.idle c hcur)
  · obtain ⟨due, hdue, hT⟩ := h.floor.resolve_left fun hnone => by simp [hcur] at hnone
    exact .inr ⟨due, hretry.trans hdue, hT⟩

theorem Held.applyState (h : Held T s) {state : SubState}
    (hstate : state.state = .terminated → state.stops) (now wall : Nat) :
    Held T (s.applySubscriptionState state now wall) := by
  cases hcur : s.current with
  | none =>
    rw [applyState_of_none hcur]
    exact h
  | some c =>
    cases applySubscriptionState_cases hcur state now wall with
    | unchanged _ heq =>
      rw [heq]
      exact h
    | renewed e _ _ heq =>
      rw [heq]
      refine ⟨h.probing, fun d hd => ?_, ?_⟩
      · cases hd
        exact h.idle c hcur
      · exact .inr (h.floor.resolve_left fun hnone => by simp [hcur] at hnone)
    | retried hterm _ _ _ hstops => exact absurd (hstate hterm) hstops
    | stopped _ hnone _ hstop =>
      refine ⟨(applySubscriptionState_frame ..).1.trans h.probing, fun d hd => ?_,
        .inl ⟨hstop, hnone⟩⟩
      cases hnone.symm.trans hd

theorem Waits.step (h : Waits T l) (hfollows : Follows l turn) (hlifts : ¬ Lifts l turn)
    (hnow : turn.now < T) : Waits T (step l turn) := by
  have hinput : turn.entry.isInput = true := by
    rcases h.owes with howes | ⟨state, howes⟩
    · exact hfollows.input howes
    · rw [show turn.entry = .applyState state from hfollows.settles _ howes]
      rfl
  obtain ⟨now, wall, entry⟩ := turn
  cases entry with
  | newRegistration => exact absurd (.registers rfl) hlifts
  | sent | sendFailed | probeSent | probeSendFailed => cases hinput
  | probeResponse cseq =>
    have heq : (RegSubscription.step l ⟨now, wall, .probeResponse cseq⟩).sub = l.sub := by
      simp [RegSubscription.step, enter, onProbeResponse, h.held.probing]
    exact ⟨heq ▸ h.held, .inl rfl⟩
  | response resp =>
    rcases onResponse_cases l.sub resp now wall with ⟨-, heq⟩ | ⟨c, kind, hpend, -⟩
    · exact ⟨(show (RegSubscription.step l ⟨now, wall, .response resp⟩).sub = l.sub from heq) ▸ h.held,
        .inl rfl⟩
    · obtain ⟨hcur, cseq, sentAt, htxn, -⟩ := pendingFor_spec hpend
      cases (h.held.idle c hcur).symm.trans htxn
  | notify req => exact h.held.onNotify req now
  | applyState state =>
    refine ⟨h.held.applyState (fun hterm => ?_) now wall, .inl rfl⟩
    exact not_not.1 fun hstops => hlifts (.terminated state rfl hterm hstops)
  | poll force =>
    obtain ⟨hsilent, ⟨c, hcur, htimerN⟩ | hheld⟩ := h.held.poll hnow wall force
    · exact absurd (.unconfirmed force rfl c hcur htimerN) hlifts
    · refine ⟨hheld, .inl ?_⟩
      simp only [RegSubscription.step, enter, Prod.map, hsilent]
      rfl

/-! ### A refusal -/

/-- A refusal that the network's `Retry-After` applies to: a longer interval is asked for at once,
and so is a new subscription for one that the network has forgotten. -/
structure Refusal (s : RegSubscription) (resp : SipResponse) (kind : SubKind) (r : Nat) : Prop where
  final : ¬ resp.status < 300
  interval : s.raisesMinExpires resp = false
  forgotten : ¬ (resp.status = 481 ∧ kind = .refresh)
  retryAfter : (headerOf resp "Retry-After").bind retryAfterSecs = some r

/-- The retry is not before the floor. -/
theorem le_scheduleRetry {floor : Nat} (hle : floor ≤ secs maxNetworkDelaySecs) :
    now + floor ≤ after now (max s.backoff floor) := by
  unfold after
  omega

theorem held_of_refused (hprobe : s.probing = none) (hrefuse : Refusal s resp kind r) :
    Held (now + secs r) (s.onCurrentResponse resp c kind now wall) := by
  have hr : r ≤ maxNetworkDelaySecs := by
    obtain ⟨value, -, hvalue⟩ := Option.bind_eq_some_iff.1 hrefuse.retryAfter
    obtain ⟨n, -, rfl⟩ := Option.map_eq_some_iff.1 hvalue
    exact Nat.min_le_right n maxNetworkDelaySecs
  have hfloor : secs r ≤ secs maxNetworkDelaySecs := Nat.mul_le_mul_right 1000 hr
  have hfinal : ¬ resp.status < 200 := fun h => hrefuse.final (UInt16.lt_trans h (by decide))
  have hinterval : { s with current := some { c with txn := .idle } }.raisesMinExpires resp = false :=
    hrefuse.interval
  simp only [onCurrentResponse, hfinal, hrefuse.final, hinterval, hrefuse.forgotten, if_false,
    Bool.false_eq_true]
  split
  · refine ⟨(supersede_probing now).trans hprobe, fun d hd => ?_, .inl ⟨rfl, supersede_current now⟩⟩
    cases (supersede_current now).symm.trans hd
  simp only [onRefused, hrefuse.retryAfter, Option.map_some]
  split
  · refine ⟨(supersede_probing now).trans hprobe, fun d hd => ?_,
      .inr ⟨_, rfl, le_scheduleRetry hfloor⟩⟩
    cases (supersede_current now).symm.trans hd
  · refine ⟨hprobe, fun d hd => ?_, .inr ⟨_, rfl, le_scheduleRetry hfloor⟩⟩
    cases hd
    rfl

/-- The wait is over once the time has come. -/
theorem waits_since (h : Waits T l) {since : List Turn}
    (hsince : History.Met step l (fun l turn => Follows l turn ∧ ¬ Lifts l turn) since) :
    Waits T (History.after step l since) ∨ T ≤ (History.after step l since).clock := by
  induction since with
  | nil => exact .inl h
  | cons turn since ih =>
    obtain ⟨hbefore, hfollows, hlifts⟩ := hsince
    by_cases hnow : turn.now < T
    · rcases ih hbefore with hwaits | hpast
      · exact .inl (hwaits.step hfollows hlifts hnow)
      · have := hfollows.clock
        omega
    · exact .inr (Nat.le_of_not_lt hnow)

/-- A response that refuses a SUBSCRIBE comes to a line that does nothing else. -/
theorem waits_of_refused {older : List Turn} (hmet : History.Met step {} Follows older)
    {refusal : Turn} (hentry : refusal.entry = .response resp)
    (hpend : (run older).sub.pendingFor resp = some (c, kind))
    (hrefuse : Refusal (run older).sub resp kind r) :
    Waits (refusal.now + secs r) (run (refusal :: older)) := by
  have hcur := (pendingFor_spec hpend).1
  have hprobe : (run older).sub.probing = none := by
    rcases alive_of_met timing_true (hmet.imp fun _ _ h => ⟨h, fun _ _ _ _ _ => trivial⟩) with
      halive | ⟨-, hstill, -⟩
    · cases halive with
      | rests _ h =>
        rcases h with hlive | hstop
        · exact (hlive.kept hcur).1.probing
        · exact hstop.probing
      | sendsInitial _ hnone | probes _ _ _ hnone => exact absurd (hcur.symm.trans hnone) nofun
      | sendsRefresh _ d hkept | applies _ _ d hkept => exact hkept.probing
    · exact hstill.probing
  obtain ⟨now, wall, entry⟩ := refusal
  subst hentry
  have heq : (run (⟨now, wall, .response resp⟩ :: older)).sub =
      (run older).sub.onCurrentResponse resp c kind now wall := by
    show ((run older).sub.onResponse resp now wall).1 = _
    simp [onResponse, hpend]
  refine ⟨?_, .inl rfl⟩
  rw [heq]
  exact held_of_refused hprobe hrefuse

/-! ### The distance between two SUBSCRIBEs -/

def Turn.reportsSent (turn : Turn) : Bool :=
  match turn.entry with
  | .sent _ _ => true
  | _ => false

/-- When a SUBSCRIBE of this registration was last reported sent. -/
def lastReported : List Turn → Option Nat
  | [] => none
  | turn :: past =>
    if turn.registers then none else if turn.reportsSent then some turn.now else lastReported past

/-- A tick reports nothing, and asks for a SUBSCRIBE only if it is far enough from the last. -/
structure Spaces (s : RegSubscription) (now : Nat) (r : RegSubscription × Option SubAction) :
    Prop where
  lastSentAt : r.1.lastSentAt = s.lastSentAt
  spaced : (Returned.ofAction r.2).sends = true → s.spaced now = true

theorem spaces_pollRetry {t : RegSubscription} (hlast : t.lastSentAt = s.lastSentAt) :
    Spaces s now (t.pollRetry now) := by
  rcases pollRetry_cases t now with heq | ⟨-, hspaced, action, heq, -⟩
  · rw [heq]
    exact ⟨hlast, nofun⟩
  rw [heq]
  unfold spaced at hspaced
  rw [hlast] at hspaced
  exact ⟨hlast, fun _ => hspaced⟩

theorem spaces_pollCurrent (s : RegSubscription) (c : Subscription) (force : Bool) :
    Spaces s now (s.pollCurrent c now wall force) := by
  refine pollCurrent_cases ?unanswered ?expired ?unconfirmed ?refreshes ?replaced ?waits
  case unanswered =>
    intro _
    cases force with
    | true | false => exact ⟨supersede_lastSentAt now, nofun⟩
  case expired => exact fun _ => spaces_pollRetry (supersede_lastSentAt now)
  case unconfirmed => exact fun _ => ⟨supersede_lastSentAt now, nofun⟩
  case refreshes => exact fun _ _ _ hspaced => ⟨rfl, fun _ => hspaced⟩
  case replaced => exact fun _ _ _ => spaces_pollRetry (supersede_lastSentAt now)
  case waits => exact fun _ => spaces_pollRetry rfl

theorem spaces_poll (force : Bool) : Spaces s now (s.poll now wall force) := by
  refine poll_cases ?verdict ?probing ?stopped ?retries ?ticks
  case verdict => exact fun _ _ => ⟨rfl, nofun⟩
  case probing => exact fun _ => ⟨rfl, nofun⟩
  case stopped => exact fun _ _ => ⟨rfl, nofun⟩
  case retries => exact fun _ _ _ => spaces_pollRetry rfl
  case ticks =>
    intro c _ _ _
    obtain ⟨hlast, hspaced⟩ := spaces_pollCurrent
      { s.prune now with current := some (c.closeNotified now) } (c.closeNotified now) force
    exact ⟨hlast, hspaced⟩

theorem enter_lastSentAt :
    (s.enter turn).1.lastSentAt =
      if turn.registers then none else if turn.reportsSent then some turn.now else s.lastSentAt := by
  obtain ⟨now, wall, entry⟩ := turn
  cases entry with
  | newRegistration | probeSent => rfl
  | sent sent kind =>
    cases kind with
    | initial => exact supersede_lastSentAt now
    | refresh => rfl
  | sendFailed kind force =>
    cases kind with
    | initial => cases force <;> rfl
    | refresh =>
      cases force with
      | true | false => exact supersede_lastSentAt now
  | probeSendFailed =>
    show (s.onProbeSendFailed now wall).1.lastSentAt = _
    unfold onProbeSendFailed
    split <;> rfl
  | probeResponse cseq =>
    show (s.onProbeResponse cseq now wall).1.lastSentAt = _
    unfold onProbeResponse
    split <;> rfl
  | response resp => exact (onResponse_frame s resp now wall).2
  | notify req => exact (onNotify_frame s req now).2.2
  | applyState state => exact (applySubscriptionState_frame s state now wall).2
  | poll force => exact (spaces_poll force).lastSentAt

theorem lastSentAt_run (past : List Turn) : (run past).sub.lastSentAt = lastReported past := by
  induction past with
  | nil => rfl
  | cons turn past ih =>
    rw [lastReported, ← ih]
    exact enter_lastSentAt

/-- A SUBSCRIBE is asked for by a registration, or by a tick that is far enough from the last. -/
theorem sends_cases (h : (step l turn).returned.sends = true) :
    turn.registers = true ∨ l.sub.spaced turn.now = true := by
  obtain ⟨now, wall, entry⟩ := turn
  cases entry with
  | newRegistration => exact .inl rfl
  | sent | probeSent | probeResponse | response | notify | applyState => cases h
  | sendFailed kind force => cases kind <;> cases force <;> cases h
  | probeSendFailed =>
    simp only [step, enter, onProbeSendFailed] at h
    split at h <;> cases h
  | poll force => exact .inr ((spaces_poll force).spaced h)

section Spacing

variable {later earlier : List Turn} {t : Turn}

theorem clock_since (h : History.Met step {} Follows (later ++ t :: earlier)) :
    t.now ≤ (run (later ++ t :: earlier)).clock := by
  induction later with
  | nil => exact Nat.le_refl t.now
  | cons u later ih =>
    exact Nat.le_trans (ih h.1) h.2.clock

/-- The last report is not before any other of the registration. -/
theorem le_lastReported (h : History.Met step {} Follows (later ++ t :: earlier))
    (hsame : ∀ u ∈ later, u.registers = false) (hreg : t.registers = false)
    (hsent : t.reportsSent = true) :
    ∃ last, lastReported (later ++ t :: earlier) = some last ∧ t.now ≤ last := by
  induction later with
  | nil => exact ⟨t.now, by simp [lastReported, hreg, hsent], Nat.le_refl _⟩
  | cons u later ih =>
    have hu := hsame u List.mem_cons_self
    cases hreport : u.reportsSent with
    | true =>
      refine ⟨u.now, by simp [lastReported, hu, hreport], ?_⟩
      exact Nat.le_trans (clock_since h.1) h.2.clock
    | false =>
      obtain ⟨last, hlast, hle⟩ := ih h.1 fun v hv => hsame v (List.mem_cons_of_mem u hv)
      exact ⟨last, by simp [lastReported, hu, hreport, hlast], hle⟩

theorem registers_of_reportsSent (h : t.reportsSent = true) : t.registers = false := by
  obtain ⟨now, wall, entry⟩ := t
  cases entry with
  | newRegistration => cases h
  | _ => rfl

/-- A tick that asks for a SUBSCRIBE is far enough from every report before it. -/
theorem asked_spaced (h : History.Met step {} Follows (later ++ t :: earlier))
    (hsame : ∀ u ∈ turn :: later, u.registers = false) (hsent : t.reportsSent = true)
    (hsends : (run (turn :: (later ++ t :: earlier))).returned.sends = true) :
    t.now + subInitialBackoff ≤ turn.now := by
  obtain ⟨last, hlast, hle⟩ := le_lastReported h (fun u hu => hsame u (List.mem_cons_of_mem _ hu))
    (registers_of_reportsSent hsent) hsent
  rcases sends_cases hsends with hreg | hspaced
  · simp [hsame turn List.mem_cons_self] at hreg
  · rw [← lastSentAt_run] at hlast
    simp only [spaced, hlast, Option.all_some, decide_eq_true_eq] at hspaced
    omega

/-- Only what was asked for is reported. -/
theorem sends_of_reportsSent (h : Follows l turn) (hreport : turn.reportsSent = true) :
    l.returned.sends = true := by
  obtain ⟨now, wall, entry⟩ := turn
  cases entry with
  | sent sent kind =>
    cases howes : l.returned.owes with
    | none => exact absurd (h.input howes) nofun
    | some o =>
      have hsettle := h.settles o howes
      cases o with
      | probe =>
        rcases hsettle with ⟨cseq, hentry⟩ | hentry <;> cases hentry
      | state told => cases hsettle
      | send k =>
        unfold Returned.owes at howes
        split at howes
        case h_1 heq => rw [heq]; rfl
        case h_2 heq => rw [heq]; rfl
        all_goals cases howes
  | _ => cases hreport

/-- So is the report that the tick is followed by. -/
theorem reported_spaced (h : History.Met step {} Follows (turn :: (later ++ t :: earlier)))
    (hsame : ∀ u ∈ turn :: later, u.registers = false) (hsent : t.reportsSent = true)
    (hreport : turn.reportsSent = true) : t.now + subInitialBackoff ≤ turn.now := by
  have hsends := sends_of_reportsSent h.2 hreport
  cases later with
  | nil =>
    obtain ⟨now, wall, entry⟩ := t
    cases entry with
    | sent sent kind => cases hsends
    | _ => cases hsent
  | cons u later =>
    have hle := asked_spaced h.1.1 (fun v hv => hsame v (List.mem_cons_of_mem _ hv)) hsent hsends
    exact Nat.le_trans hle h.2.clock

end Spacing

/-- A `Retry-After` is a floor for the next SUBSCRIBE, and two SUBSCRIBEs of a registration are
never closer than the initial backoff. -/
theorem subscribe_not_before_floor :
    (∀ (older : List Turn) (refusal : Turn) (resp : SipResponse) (c : Subscription) (kind : SubKind)
      (r : Nat) (since : List Turn) (turn : Turn) (force : Bool),
      History.Met step {} Follows (refusal :: older) → refusal.entry = .response resp →
      (run older).sub.pendingFor resp = some (c, kind) → Refusal (run older).sub resp kind r →
      History.Met step (run (refusal :: older)) (fun l t => Follows l t ∧ ¬ Lifts l t) since →
      Follows (History.after step (run (refusal :: older)) since) turn → turn.entry = .poll force →
      turn.now < refusal.now + secs r →
        (step (History.after step (run (refusal :: older)) since) turn).returned.sends = false) ∧
    ∀ (turn : Turn) (later : List Turn) (t : Turn) (earlier : List Turn),
      History.Met step {} Follows (turn :: (later ++ t :: earlier)) →
      (∀ u ∈ turn :: later, u.registers = false) → t.reportsSent = true →
      (turn.reportsSent = true ∨ (run (turn :: (later ++ t :: earlier))).returned.sends = true) →
        t.now + subInitialBackoff ≤ turn.now := by
  refine ⟨?_, ?_⟩
  · intro older refusal resp c kind r since turn force hmet hentry hpending hrefusal hsince hfollows
      hpoll hnow
    rcases waits_since (waits_of_refused hmet.1 hentry hpending hrefusal) hsince with hwaits | hpast
    · obtain ⟨hsilent, -⟩ := hwaits.held.poll hnow turn.wall force
      simp only [step, enter, hpoll, Prod.map, hsilent]
      rfl
    · have := hfollows.clock
      omega
  · intro turn later t earlier h hsame hsent hturn
    rcases hturn with hreports | hsends
    · exact reported_spaced h hsame hsent hreports
    · exact asked_spaced h.1 hsame hsent hsends

/-- The first SUBSCRIBE is granted for a minute. -/
def grantedMinute : SipResponse where
  status := 200
  reason := "OK"
  headers := [("Call-ID", "sub-a"), ("CSeq", "7 SUBSCRIBE"),
    ("To", "<sip:ue@192.0.2.1>;tag=rt"), ("Expires", "60")]
  body := []

/-- And refreshed after half of that. -/
def refreshedRun : List Turn :=
  [{ now := secs 30, entry := .sent { firstSent with cseq := 8 } .refresh },
    { now := secs 30, entry := .poll false }, { now := 0, entry := .response grantedMinute },
    { now := 0, entry := .sent firstSent .initial }, { now := 0, entry := .newRegistration }]

/-- The refresh is refused, and the network asks for a minute. -/
def refusedRefresh (status : UInt16) : SipResponse where
  status := status
  reason := "Refused"
  headers := [("Call-ID", "sub-a"), ("CSeq", "8 SUBSCRIBE"),
    ("Retry-After", "60")]
  body := []

def refusedTurn (status : UInt16) : Turn where
  now := secs 31
  entry := .response (refusedRefresh status)

theorem refreshedRun_met : History.Met step {} Follows refreshedRun := by
  refine ⟨⟨⟨⟨⟨trivial, ?_⟩, ?_⟩, ?_⟩, ?_⟩, ?_⟩
  · exact follows_input (by decide) (by decide) rfl
  · exact follows_owed (o := .send .initial) (by decide) (by decide) (.inl ⟨_, rfl⟩)
  · exact follows_input (by decide) (by decide) rfl
  · exact follows_input (by decide) (by decide) rfl
  · exact follows_owed (o := .send .refresh) (by decide) (by decide) (.inl ⟨_, rfl⟩)

theorem refusedTurn_follows (status : UInt16) :
    History.Met step {} Follows (refusedTurn status :: refreshedRun) :=
  ⟨refreshedRun_met, follows_input (show (run refreshedRun).clock ≤ secs 31 by decide) (by decide) rfl⟩

theorem subscribe_not_before_floor_refused :
    (step (run (refusedTurn 503 :: refreshedRun))
      { now := secs 90, entry := .poll false }).returned.sends = false := by
  apply subscribe_not_before_floor.1 refreshedRun (refusedTurn 503) (refusedRefresh 503)
    ((run refreshedRun).sub.current.get (by decide)) .refresh 60 [] { now := secs 90, entry := .poll false }
    false (refusedTurn_follows 503) rfl
  · decide
  · exact ⟨by decide, by decide, by decide, by decide⟩
  · trivial
  · exact follows_input (by decide) (by decide) rfl
  · rfl
  · decide

/-- What may come between by the letter of the rule. -/
inductive Excused (l : Line) (turn : Turn) : Prop where
  | registers (h : turn.registers = true)
  | accepted (resp : SipResponse) (hentry : turn.entry = .response resp)
      (hpending : (l.sub.pendingFor resp).isSome = true)
      (hstatus : 200 ≤ resp.status ∧ resp.status < 300)
  | terminated (state : SubState) (hentry : turn.entry = .applyState state)
      (hstate : state.state = .terminated)
      (hreason : state.reason = some "deactivated".toList ∨ state.reason = some "timeout".toList)

/-- A subscription that the network has forgotten is replaced at once, whatever it asks for. -/
theorem forgotten_subscription_ignores_retry_after :
    ¬ ∀ (older : List Turn) (refusal : Turn) (resp : SipResponse) (c : Subscription)
      (kind : SubKind) (r : Nat) (since : List Turn) (turn : Turn) (force : Bool),
      History.Met step {} Follows (refusal :: older) → refusal.entry = .response resp →
      (run older).sub.pendingFor resp = some (c, kind) → ¬ resp.status < 300 →
      (headerOf resp "Retry-After").bind retryAfterSecs = some r →
      History.Met step (run (refusal :: older)) (fun l t => Follows l t ∧ ¬ Excused l t) since →
      Follows (History.after step (run (refusal :: older)) since) turn → turn.entry = .poll force →
      turn.now < refusal.now + secs r →
        (step (History.after step (run (refusal :: older)) since) turn).returned.sends = false := by
  intro h
  have hnot : (step (History.after step (run (refusedTurn 481 :: refreshedRun)) [])
      { now := secs 36, entry := .poll false }).returned.sends = false := by
    apply h refreshedRun (refusedTurn 481) (refusedRefresh 481)
      ((run refreshedRun).sub.current.get (by decide)) .refresh 60 []
      { now := secs 36, entry := .poll false } false (refusedTurn_follows 481) rfl
    · decide
    · decide
    · decide
    · trivial
    · exact follows_input (by decide) (by decide) rfl
    · rfl
    · decide
  exact absurd hnot (by decide)

end Ims.RegSubscription
