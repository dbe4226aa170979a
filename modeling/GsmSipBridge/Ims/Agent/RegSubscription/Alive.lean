-- SUMMARY: From its first registration on, some timer runs for the reg-event subscription.
import GsmSipBridge.Ims.Agent.RegSubscription

/-!
# Lines that are alive

From the first registration on, a line that owes the loop nothing is stopped, or it probes, or it
waits for its retry, or it has a current subscription. What is kept of the current subscription
beyond that is a parameter.
-/

/-! ## Runs of the dispatch loop

The loop performs an action as soon as it is returned and reports how that went, and it applies
the state in a NOTIFY of the current subscription once it has answered it. Nothing comes between,
and the clock does not go back. -/

namespace Ims.RegSubscription

variable {l : Line} {turn : Turn}

/-- A SUBSCRIBE. -/
def SubAction.subscribes : SubAction → Bool
  | .sendInitial _ => true
  | .sendRefresh _ => true
  | .probe _ _ => false
  | .endpointFailure _ _ => false

/-- What the loop has to do next. -/
inductive Owed where
  | send (kind : SubKind)
  | probe
  | state (state : SubState)
  deriving DecidableEq

def Returned.owes : Returned → Option Owed
  | .action (.sendInitial _) => some (.send .initial)
  | .action (.sendRefresh _) => some (.send .refresh)
  | .action (.probe _ _) => some .probe
  | .action (.endpointFailure _ _) => none
  | .notifyMatch (.current state) => some (.state state)
  | .notifyMatch .superseded => none
  | .notifyMatch .unknown => none
  | .nothing => none
  | .responseMatch _ => none
  | .answered _ => none

/-- What happens without an action before it. A state may be applied at any time. -/
def Entry.isInput : Entry → Bool
  | .newRegistration => true
  | .probeResponse _ => true
  | .response _ => true
  | .notify _ => true
  | .poll _ => true
  | .sent _ _ => false
  | .sendFailed _ _ => false
  | .probeSent _ => false
  | .probeSendFailed => false
  | .applyState _ => true

/-- How the loop settles what it owes. -/
def Owed.settledBy : Owed → Entry → Prop
  | .send kind, entry => (∃ sent, entry = .sent sent kind) ∨ ∃ force, entry = .sendFailed kind force
  | .probe, entry => (∃ cseq, entry = .probeSent cseq) ∨ entry = .probeSendFailed
  | .state told, entry => entry = .applyState told

structure Follows (l : Line) (turn : Turn) : Prop where
  clock : l.clock ≤ turn.now
  settles : ∀ owed, l.returned.owes = some owed → owed.settledBy turn.entry
  input : l.returned.owes = none → turn.entry.isInput = true

theorem follows_owed {o : Owed} (hclock : l.clock ≤ turn.now) (howes : l.returned.owes = some o)
    (hsettle : o.settledBy turn.entry) : Follows l turn where
  clock := hclock
  settles _ h := Option.some.inj (howes.symm.trans h) ▸ hsettle
  input h := by simp [howes] at h

theorem follows_input (hclock : l.clock ≤ turn.now) (howes : l.returned.owes = none)
    (hinput : turn.entry.isInput = true) : Follows l turn where
  clock := hclock
  settles _ h := by simp [howes] at h
  input _ := hinput

open Text SipClient RegSubscription

variable {s : RegSubscription} {now wall : Nat} {force : Bool} {c : Subscription} {t : Nat}

/-! ## Timers -/

/-- One of the timers of the subscription runs, and is out by `t`. -/
inductive Subscription.Ticks (c : Subscription) (t : Nat) : Prop where
  | expires (e : Nat) (hexpires : c.expiresAt = some e) (hle : e ≤ t)
  | unanswered (cseq sentAt : Nat) (kind : SubKind) (htxn : c.txn = .pending cseq sentAt kind)
      (hunnotified : c.notifiedSinceSend = false) (hle : sentAt + timerF ≤ t)
  | unconfirmed (n : Nat) (hunconfirmed : c.confirmed = false) (htimer : c.timerN = some n)
      (hle : n ≤ t)

/-- By that time one of the timers is out. -/
theorem Subscription.Ticks.timerOut (h : c.Ticks t) (hnow : t ≤ now) : c.TimerOut now := by
  cases h with
  | expires e hexp hle =>
    exact .inr (.inl (by simp [Subscription.expired, hexp, Nat.le_trans hle hnow]))
  | unanswered cseq sentAt kind htxn hunnotified hle =>
    exact .inl (by simp [Subscription.timerFExpired, htxn, hunnotified, Nat.le_trans hle hnow])
  | unconfirmed n hunconf htimer hle =>
    exact .inr (.inr (by simp [Subscription.timerNExpired, hunconf, htimer, Nat.le_trans hle hnow]))

theorem Subscription.Ticks.closeNotified (h : c.Ticks t) (now : Nat) :
    (c.closeNotified now).Ticks t := by
  obtain ⟨-, -, -, hexpAt, htimerN, hconf⟩ := closeNotified_frame c now
  cases h with
  | expires e hexp hle => exact .expires e (hexpAt.trans hexp) hle
  | unanswered cseq sentAt kind htxn hunnotified hle =>
    rw [closeNotified_eq hunnotified]
    exact .unanswered cseq sentAt kind htxn hunnotified hle
  | unconfirmed n hunconf htimer hle =>
    exact .unconfirmed n (hconf.trans hunconf) (htimerN.trans htimer) hle

/-- A timer of the subscription runs. -/
def Subscription.Timed (c : Subscription) : Prop := ∃ t, c.Ticks t

theorem timed_of_expires (h : c.expiresAt.isSome = true) : c.Timed := by
  obtain ⟨e, he⟩ := Option.isSome_iff_exists.1 h
  exact ⟨e, .expires e he (Nat.le_refl e)⟩

/-- What is known of the current subscription, if it follows from a timer and outlives the end of
a transaction. -/
structure Timing (T : Subscription → Prop) : Prop where
  ofTimed : ∀ c : Subscription, c.Timed → T c
  closes : ∀ (c : Subscription) (now : Nat), T c → T (c.closeNotified now)

theorem timing_timed : Timing Subscription.Timed where
  ofTimed _ := id
  closes _ now := fun ⟨t, hticks⟩ => ⟨t, hticks.closeNotified now⟩

theorem timing_true : Timing fun _ => True := ⟨fun _ _ => trivial, fun _ _ _ => trivial⟩

/-! ## The line -/

/-- A line without a subscription waits for its retry. -/
structure Retrying (s : RegSubscription) : Prop where
  probing : s.probing = none
  stopped : s.stopped = none
  current : s.current = none
  retry : s.retryAt.isSome = true

/-- The subscription is gone and its successor waits. -/
theorem retrying_supersede (hprobe : s.probing = none) (hstop : s.stopped = none)
    (due backoff : Nat) (lastFailure : Option (Nat × Text)) (unconfirmedSince : Option Nat) :
    Retrying { s.supersede now with
      retryAt := some due, backoff, lastFailure, unconfirmedSince } where
  probing := (supersede_probing now).trans hprobe
  stopped := (supersede_stopped now).trans hstop
  current := supersede_current now
  retry := rfl

/-- Whatever runs for it, a subscription that a retry may be in the dialog of, or that a refresh
is in flight for, has an expiry. -/
structure Kept (s : RegSubscription) (c : Subscription) : Prop where
  probing : s.probing = none
  stopped : s.stopped = none
  current : s.current = some c
  retry : s.retryAt.isSome = true → c.expiresAt.isSome = true
  refresh : ∀ cseq sentAt, c.txn = .pending cseq sentAt .refresh → c.expiresAt.isSome = true

/-- A timer of the line runs, of a current subscription with `T`. -/
inductive Live (T : Subscription → Prop) (s : RegSubscription) : Prop where
  | probing (p : Probing) (cseq sentAt : Nat) (hprobing : s.probing = some p)
      (hsent : p.sent = some (cseq, sentAt)) (hcurrent : s.current = none)
      (hstopped : s.stopped = none)
  | retrying (h : Retrying s)
  | subscribed (c : Subscription) (hkept : Kept s c) (htimed : T c)

/-- Nothing is sent until the next registration. -/
structure Stopped (s : RegSubscription) : Prop where
  stopped : s.stopped.isSome = true
  current : s.current = none
  probing : s.probing = none

/-- What is known of a line, by what the loop owes it. -/
inductive Alive (T : Subscription → Prop) (l : Line) : Prop where
  | rests (howes : l.returned.owes = none) (h : Live T l.sub ∨ Stopped l.sub)
  | sendsInitial (howes : l.returned.owes = some (.send .initial)) (hcurrent : l.sub.current = none)
      (hprobing : l.sub.probing = none) (hstopped : l.sub.stopped = none)
      (hretry : l.sub.retryAt = none)
  | sendsRefresh (howes : l.returned.owes = some (.send .refresh)) (c : Subscription)
      (hkept : Kept l.sub c) (hexpires : c.expiresAt.isSome = true)
  | probes (howes : l.returned.owes = some .probe) (p : Probing) (hprobing : l.sub.probing = some p)
      (hcurrent : l.sub.current = none) (hstopped : l.sub.stopped = none)
  | applies (state : SubState) (howes : l.returned.owes = some (.state state)) (c : Subscription)
      (hkept : Kept l.sub c)

section Steps

variable {T : Subscription → Prop}

/-- A state that is applied leaves `T`, or says nothing new. -/
def Leaves (T : Subscription → Prop) (l : Line) (turn : Turn) : Prop :=
  ∀ state c, turn.entry = .applyState state → l.sub.current = some c →
    state.state = .missing ∨ state.state ≠ .terminated ∧ state.expires = none → T c

theorem Live.kept (h : Live T s) (hcur : s.current = some c) : Kept s c ∧ T c := by
  cases h with
  | probing p _ _ _ _ hnone => simp [hnone] at hcur
  | retrying h => simp [h.current] at hcur
  | subscribed d hkept htimed =>
    obtain rfl : d = c := Option.some.inj (hkept.current.symm.trans hcur)
    exact ⟨hkept, htimed⟩

theorem Live.prune (h : Live T s) (now : Nat) : Live T (s.prune now) := by
  cases h with
  | probing p cseq sentAt hprobe hsent hcur hstop =>
    exact .probing p cseq sentAt hprobe hsent hcur hstop
  | retrying h => exact .retrying { h with }
  | subscribed c hkept htimed =>
    exact .subscribed c { hkept with } htimed

theorem Stopped.prune (h : Stopped s) (now : Nat) : Stopped (s.prune now) :=
  { h with }

theorem alive_registers (hreg : turn.registers = true) : Alive T (step l turn) := by
  obtain ⟨now, wall, entry⟩ := turn
  cases entry with
  | newRegistration => exact .sendsInitial rfl (supersede_current now) rfl rfl rfl
  | _ => cases hreg

theorem live_onProbeResponse (h : Live T s) (cseq now wall : Nat) :
    Live T (s.onProbeResponse cseq now wall).1 := by
  unfold onProbeResponse
  split
  · exact h
  rename_i p hfound
  cases h with
  | probing _ _ _ _ _ hcur hstop => exact .retrying ⟨rfl, hstop, hcur, rfl⟩
  | retrying h => simp [h.probing] at hfound
  | subscribed c hkept _ => simp [hkept.probing] at hfound

theorem live_onResponse (hT : Timing T) (h : Live T s) (resp : SipResponse) :
    Live T (s.onResponse resp now wall).1 ∨ Stopped (s.onResponse resp now wall).1 := by
  rcases onResponse_cases s resp now wall with ⟨-, heq⟩ | ⟨c, kind, hpend, heq⟩
  · rw [heq]
    exact .inl h
  rw [heq]
  obtain ⟨hcur, cseq, sentAt, htxn, -⟩ := pendingFor_spec hpend
  obtain ⟨hkept, -⟩ := h.kept hcur
  by_cases hprov : resp.status < 200
  · simp only [onCurrentResponse, hprov, if_true]
    exact .inl h
  have hprobe := (onCurrentResponse_frame resp c kind now wall).1.trans hkept.probing
  cases onCurrentResponse_final hprov c kind now wall with
  | accepted c' hc' hidle hexp hretry hstop =>
    refine .inl (.subscribed c' ⟨hprobe, hstop.trans hkept.stopped, hc', ?_, ?_⟩
      (hT.ofTimed _ (timed_of_expires hexp)))
    · exact fun _ => hexp
    · exact fun _ _ _ => hexp
  | kept hkind hc' hretry hstop =>
    -- A refresh was in flight, so that the subscription has an expiry.
    have hexp : c.expiresAt.isSome = true := by
      subst hkind
      exact hkept.refresh cseq sentAt htxn
    exact .inl (.subscribed _ ⟨hprobe, hstop.trans hkept.stopped, hc', fun _ => hexp,
      fun _ _ _ => hexp⟩ (hT.ofTimed _ (timed_of_expires hexp)))
  | gone hnone hretry hstop =>
    exact .inl (.retrying ⟨hprobe, hstop.trans hkept.stopped, hnone, hretry⟩)
  | stopped hnone _ hstop => exact .inr ⟨hstop, hnone, hprobe⟩

/-- A NOTIFY of no current dialog has no state to apply. -/
theorem owes_outside {m : NotifyMatch} (h : m = .superseded ∨ m = .unknown) :
    (Returned.notifyMatch m).owes = none := by
  rcases h with rfl | rfl <;> rfl

theorem alive_onNotify (h : Live T s) (req : SipRequest) :
    Alive T ⟨(s.onNotify req now).1, .notifyMatch (s.onNotify req now).2, now⟩ := by
  rcases onNotify_cases s req now with ⟨-, heq, hmatch⟩ | ⟨c, hcur, -, heq⟩
  · rw [heq]
    exact .rests (owes_outside hmatch) (.inl (h.prune now))
  obtain ⟨hkept, -⟩ := h.kept hcur
  obtain ⟨⟨c', hc', hnoted⟩, hretry, hstop, hprobe, -⟩ :=
    confirmCurrent_spec (s.prune now) req (subStateOf req) c
  rw [heq]
  refine .applies (subStateOf req) rfl c' ⟨hprobe.trans hkept.probing,
    hstop.trans hkept.stopped, hc', fun h => ?_, fun cseq sentAt htxn => ?_⟩
  · rw [hnoted.expiresAt]
    exact hkept.retry (by rw [← h]; exact congrArg Option.isSome hretry.symm)
  · rw [hnoted.expiresAt]
    exact hkept.refresh cseq sentAt (hnoted.txn.symm.trans htxn)

/-- A line after a tick, by the action that it came up with. -/
theorem alive_pollRetry (h : Retrying s) :
    Alive T ⟨(s.pollRetry now).1, .ofAction (s.pollRetry now).2, now⟩ := by
  rcases pollRetry_cases s now with heq | ⟨-, -, action, heq, ⟨-, rfl⟩ | ⟨c, hcur, -⟩⟩
  · rw [heq]
    exact .rests rfl (.inl (.retrying h))
  · rw [heq]
    exact .sendsInitial rfl h.current h.probing h.stopped rfl
  · simp [h.current] at hcur

theorem alive_beginProbe (hcur : s.current = none) (hprobe : s.probing = none)
    (hstop : s.stopped = none) (cause : EndpointFailureCause) (callId : Option Text)
    (now wall : Nat) (force : Bool) :
    Alive T ⟨(s.beginProbe cause callId now wall force).1,
      .action (s.beginProbe cause callId now wall force).2, now⟩ := by
  cases force with
  | true => exact .rests rfl (.inl (.retrying ⟨hprobe, hstop, hcur, rfl⟩))
  | false => exact .probes rfl _ rfl hcur hstop

theorem Kept.closeNotified (h : Kept s c) (now : Nat) :
    Kept { s.prune now with current := some (c.closeNotified now) } (c.closeNotified now) := by
  obtain ⟨-, -, -, hexpAt, -, -⟩ := closeNotified_frame c now
  refine ⟨h.probing, h.stopped, rfl, fun hretry => ?_, fun cseq sentAt htxn => ?_⟩
  · rw [hexpAt]
    exact h.retry hretry
  · rw [hexpAt]
    apply h.refresh cseq sentAt
    unfold Subscription.closeNotified at htxn
    split at htxn
    case h_1 hpend =>
      split at htxn
      · cases htxn
      · exact htxn
    case h_2 => exact htxn

theorem alive_pollCurrent (h : Kept s c) (htimed : T c) :
    Alive T ⟨(s.pollCurrent c now wall force).1, .ofAction (s.pollCurrent c now wall force).2,
      now⟩ := by
  refine pollCurrent_cases ?unanswered ?expired ?unconfirmed ?refreshes ?replaced ?waits
  case unanswered =>
    intro _
    exact alive_beginProbe (supersede_current now) ((supersede_probing now).trans h.probing)
      ((supersede_stopped now).trans h.stopped) _ _ now wall force
  case expired => exact fun _ => alive_pollRetry (retrying_supersede h.probing h.stopped ..)
  case unconfirmed =>
    intro _
    exact .rests rfl (.inl (.retrying (retrying_supersede h.probing h.stopped ..)))
  case refreshes =>
    intro _ hrefresh _ _
    refine .sendsRefresh rfl c h ?_
    -- Only a subscription with an expiry is due for a refresh.
    unfold Subscription.refreshDue at hrefresh
    cases hexp : c.expiresAt with
    | none => simp [hexp] at hrefresh
    | some e => rfl
  case replaced =>
    exact fun _ _ _ => alive_pollRetry (retrying_supersede h.probing h.stopped ..)
  case waits =>
    intro _
    rcases pollRetry_cases s now with heq | ⟨hretry, -, action, heq, ⟨hnone, -⟩ | ⟨d, hd, -, rfl⟩⟩
    · rw [heq]
      exact .rests rfl (.inl (.subscribed c h htimed))
    · simp [h.current] at hnone
    rw [heq]
    have hexp : c.expiresAt.isSome = true := by
      apply h.retry
      cases hr : s.retryAt with
      | none => simp [hr] at hretry
      | some due => rfl
    exact .sendsRefresh rfl c { h with retry := fun _ => hexp } hexp

theorem alive_poll (hT : Timing T) (h : Live T s) :
    Alive T ⟨(s.poll now wall force).1, .ofAction (s.poll now wall force).2, now⟩ := by
  cases h with
  | probing p cseq sentAt hprobe hsent hcur hstop =>
    rw [poll_of_probing now wall force hprobe]
    split
    · exact .rests rfl (.inl (.retrying ⟨rfl, hstop, hcur, rfl⟩))
    · exact .rests rfl (.inl (.probing p cseq sentAt hprobe hsent hcur hstop))
  | retrying h =>
    rw [poll_of_none now wall force h.probing h.stopped h.current]
    exact alive_pollRetry { h with }
  | subscribed c hkept htimed =>
    rw [poll_of_some now wall force hkept.probing hkept.stopped hkept.current]
    exact alive_pollCurrent (hkept.closeNotified now) (hT.closes c now htimed)

theorem rests_applyState (hT : Timing T) (hkept : Kept s c) (state : SubState) (now wall : Nat)
    (htimed : state.state = .missing ∨ state.state ≠ .terminated ∧ state.expires = none → T c) :
    Live T (s.applySubscriptionState state now wall) ∨
      Stopped (s.applySubscriptionState state now wall) := by
  have hprobe := (applySubscriptionState_frame s state now wall).1.trans hkept.probing
  cases applySubscriptionState_cases hkept.current state now wall with
  | unchanged hstate heq =>
    rw [heq]
    exact .inl (.subscribed c hkept (htimed hstate))
  | renewed e hexp hstate heq =>
    rw [heq]
    refine .inl (.subscribed _ ⟨hkept.probing, hkept.stopped, rfl, fun _ => rfl, fun _ _ _ => rfl⟩ ?_)
    exact hT.ofTimed _ (timed_of_expires rfl)
  | retried _ hcur hretry hstop =>
    exact .inl (.retrying ⟨hprobe, hstop.trans hkept.stopped, hcur, hretry⟩)
  | stopped _ hcur _ hstop => exact .inr ⟨hstop, hcur, hprobe⟩

theorem applyState_of_none (h : s.current = none) (state : SubState) :
    s.applySubscriptionState state now wall = s := by
  simp [applySubscriptionState, h]

/-- Nothing runs, as before the first registration and once the line is stopped. -/
structure Still (s : RegSubscription) : Prop where
  current : s.current = none
  probing : s.probing = none
  quiet : s.stopped.isSome = true ∨ s.stopped = none ∧ s.retryAt = none

theorem Stopped.still (h : Stopped s) : Still s := ⟨h.current, h.probing, .inl h.stopped⟩

theorem Still.poll (h : Still s) (now wall : Nat) (force : Bool) :
    s.poll now wall force = (s.prune now, none) := by
  rcases h.quiet with hstop | ⟨hstop, hretry⟩
  · exact poll_of_stopped now wall force h.probing hstop
  · rw [poll_of_none now wall force h.probing hstop h.current]
    simp [pollRetry, hretry]

/-- Only a new registration changes that: what a prune keeps stays. -/
theorem Still.enter (h : Still s) (hinput : turn.entry.isInput = true)
    (hreg : turn.registers = false) {M : RegSubscription → Prop} (hsame : M s)
    (hpruned : M (s.prune turn.now)) : M (s.enter turn).1 ∧ (s.enter turn).2.owes = none := by
  obtain ⟨now, wall, entry⟩ := turn
  cases entry with
  | newRegistration => cases hreg
  | sent | sendFailed | probeSent | probeSendFailed => cases hinput
  | probeResponse cseq =>
    simp only [enter, onProbeResponse, h.probing]
    exact ⟨hsame, rfl⟩
  | response resp =>
    rcases onResponse_cases s resp now wall with ⟨-, heq⟩ | ⟨c, kind, hpend, -⟩
    · exact ⟨(congrArg M heq).mpr hsame, rfl⟩
    · exact absurd ((pendingFor_spec hpend).1.symm.trans h.current) nofun
  | notify req =>
    rcases onNotify_cases s req now with ⟨-, heq, hmatch⟩ | ⟨c, hcur, -⟩
    · exact ⟨(congrArg M heq).mpr hpruned, owes_outside hmatch⟩
    · exact absurd (hcur.symm.trans h.current) nofun
  | applyState state =>
    exact ⟨(congrArg M (applyState_of_none h.current state)).mpr hsame, rfl⟩
  | poll force =>
    simp only [enter, h.poll now wall force]
    exact ⟨hpruned, rfl⟩

theorem Still.step (h : Still l.sub) (hinput : turn.entry.isInput = true)
    (hreg : turn.registers = false) :
    Still (step l turn).sub ∧ (step l turn).returned.owes = none :=
  h.enter hinput hreg h ⟨h.current, h.probing, h.quiet⟩

theorem Stopped.step (h : Stopped l.sub) (hinput : turn.entry.isInput = true)
    (hreg : turn.registers = false) : Alive T (step l turn) := by
  obtain ⟨hstop, howes⟩ := h.still.enter hinput hreg h (h.prune turn.now)
  exact .rests howes (.inr hstop)

variable (hT : Timing T)

include hT

theorem Live.step (h : Live T l.sub) (hinput : turn.entry.isInput = true) :
    Alive T (step l turn) := by
  obtain ⟨now, wall, entry⟩ := turn
  cases entry with
  | newRegistration => exact alive_registers rfl
  | sent | sendFailed | probeSent | probeSendFailed => cases hinput
  | probeResponse cseq => exact .rests rfl (.inl (live_onProbeResponse h cseq now wall))
  | response resp => exact .rests rfl (live_onResponse hT h resp)
  | notify req => exact alive_onNotify h req
  | applyState state =>
    refine .rests rfl ?_
    cases hcur : l.sub.current with
    | none =>
      rw [show (step l ⟨now, wall, .applyState state⟩).sub = l.sub from
        applyState_of_none hcur state]
      exact .inl h
    | some c =>
      obtain ⟨hkept, htimed⟩ := h.kept hcur
      exact rests_applyState hT hkept state now wall fun _ => htimed
  | poll force => exact alive_poll hT h

/-! ### What the loop reports -/

theorem live_onSent_initial (hprobe : s.probing = none) (hstop : s.stopped = none)
    (hretry : s.retryAt = none) (sent : SentSubscribe) (now wall : Nat) :
    Live T (s.onSent sent .initial now wall) := by
  refine .subscribed _ ⟨?_, ?_, rfl, fun h => ?_, fun cseq sentAt htxn => by cases htxn⟩ ?_
  · exact (supersede_probing now).trans hprobe
  · exact (supersede_stopped now).trans hstop
  · have hnone : (s.onSent sent .initial now wall).retryAt = none :=
      (supersede_retryAt now).trans hretry
    simp [hnone] at h
  · apply hT.ofTimed
    exact ⟨now + timerF, .unanswered sent.cseq now .initial rfl rfl (Nat.le_refl _)⟩

theorem live_onSent_refresh (hkept : Kept s c) (hexp : c.expiresAt.isSome = true)
    (sent : SentSubscribe) (now wall : Nat) : Live T (s.onSent sent .refresh now wall) := by
  have hcur : (s.onSent sent .refresh now wall).current = some
      { c with
        refreshedFor := c.expiresAt, requestedExpires := sent.expires
        notifiedSinceSend := false, lastCseq := sent.cseq, txn := .pending sent.cseq now .refresh } := by
    simp [onSent, hkept.current]
  exact .subscribed _ ⟨hkept.probing, hkept.stopped, hcur, fun _ => hexp,
    fun _ _ _ => hexp⟩ (hT.ofTimed _ (timed_of_expires hexp))

/-- A turn of the dispatch loop. -/
theorem Alive.step (h : Alive T l) (hfollows : Follows l turn) (hleaves : Leaves T l turn) :
    Alive T (step l turn) := by
  cases h with
  | rests howes h =>
    have hinput := hfollows.input howes
    rcases h with hlive | hstop
    · exact hlive.step hT hinput
    cases hreg : turn.registers with
    | false => exact hstop.step hinput hreg
    | true => exact alive_registers hreg
  | sendsInitial howes hcur hprobe hstop hretry =>
    obtain ⟨now, wall, entry⟩ := turn
    rcases hfollows.settles _ howes with ⟨sent, rfl⟩ | ⟨force, rfl⟩
    · exact .rests rfl
        (.inl (live_onSent_initial hT hprobe hstop hretry sent now wall))
    · exact alive_beginProbe hcur hprobe hstop .subscribeSendFailed none now wall force
  | sendsRefresh howes c hkept hexp =>
    obtain ⟨now, wall, entry⟩ := turn
    rcases hfollows.settles _ howes with ⟨sent, rfl⟩ | ⟨force, rfl⟩
    · exact .rests rfl (.inl (live_onSent_refresh hT hkept hexp sent now wall))
    · exact alive_beginProbe (supersede_current now) ((supersede_probing now).trans hkept.probing)
        ((supersede_stopped now).trans hkept.stopped) .subscribeSendFailed _ now wall force
  | probes howes p hprobe hcur hstop =>
    obtain ⟨now, wall, entry⟩ := turn
    rcases hfollows.settles _ howes with ⟨cseq, rfl⟩ | rfl
    · refine .rests rfl (.inl (.probing { p with sent := some (cseq, now) } cseq now ?_ rfl hcur
        hstop))
      simp [step, enter, onProbeSent, hprobe]
    have heq : step l ⟨now, wall, .probeSendFailed⟩ =
        ⟨{ l.sub with probing := none }.scheduleAfterEndpointFailure now wall,
          .action (.endpointFailure p.cause p.callId), now⟩ := by
      simp only [step, enter, onProbeSendFailed, hprobe]
      rfl
    rw [heq]
    exact .rests rfl (.inl (.retrying ⟨rfl, hstop, hcur, rfl⟩))
  | applies state howes c hkept =>
    obtain ⟨now, wall, entry⟩ := turn
    obtain rfl : entry = .applyState state := hfollows.settles _ howes
    refine .rests rfl (rests_applyState hT hkept state now wall fun hnone => ?_)
    exact hleaves state c rfl hkept.current hnone

end Steps

/-! ## Every run -/

/-- Before the first registration nothing runs, and from then on the line is alive. -/
theorem alive_of_met {T : Subscription → Prop} (hT : Timing T) {past : List Turn}
    (h : History.Met step {} (fun l turn => Follows l turn ∧ Leaves T l turn) past) :
    Alive T (run past) ∨ (∀ t ∈ past, t.registers = false) ∧ Still (run past).sub ∧
      (run past).returned.owes = none := by
  induction past with
  | nil => exact .inr ⟨nofun, ⟨rfl, rfl, .inr ⟨rfl, rfl⟩⟩, rfl⟩
  | cons turn past ih =>
    obtain ⟨hpast, hfollows, hleaves⟩ := h
    rcases ih hpast with halive | ⟨hnone, hstill, howes⟩
    · exact .inl (halive.step hT hfollows hleaves)
    have hinput := hfollows.input howes
    cases hreg : turn.registers with
    | true => exact .inl (alive_registers hreg)
    | false =>
      exact .inr ⟨List.forall_mem_cons.2 ⟨hreg, hnone⟩, hstill.step hinput hreg⟩

end Ims.RegSubscription
