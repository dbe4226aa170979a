-- SUMMARY: Which turns break the network's hold-off on registrations.
import GsmSipBridge.Ims.Agent.Registration
import GsmSipBridge.Lib.Trace

/-!
# The hold-off

A `rejected` NOTIFY holds registration off for the longer of the configured cooldown and
its `retry-after`, an `unregistered` or `probation` for its `retry-after`. The machine is
watched with the latest of these deadlines, until a registration succeeds.
-/

namespace Ims.Registration

open Text LoopState Nat

/-! ## Watching the machine -/

/-- How long a NOTIFY holds registration off. -/
def holdOf (d : Deregistration) (cooldown : Nat) : Option Nat :=
  match d.event with
  | .rejected => some (rejectionHold d cooldown)
  | .unregistered | .probation => d.retryAfter
  | .deactivated => none

/-- The machine, with the time before which no registration may start. -/
structure Watched where
  st : LoopState
  floor : Option Nat
  deriving DecidableEq

def nextFloor (floor : Option Nat) (before after : LoopState) : Event → Option Nat
  | .notify d cooldown =>
    match holdOf d cooldown with
    | some hold => some (max (floor.getD 0) (after.clock + hold))
    | none => floor
  | .drive | .answer _ | .idle =>
    if before.registrations < after.registrations then none else floor

def watch (w : Watched) (turn : Env × Event) : Watched :=
  { st := step w.st turn
    floor := if w.st.exited then w.floor else nextFloor w.floor w.st (step w.st turn) turn.2 }

/-- The next attempt is not before the end of a hold that is running. -/
def Floored (w : Watched) : Prop :=
  ∀ f, w.floor = some f → w.st.clock < f → ∃ at', w.st.nextRenewalAttempt = some at' ∧ f ≤ at'

/-- The turn starts no registration before the end of the hold, and does not shorten it. -/
def Held (w : Watched) (turn : Env × Event) : Prop :=
  ((step w.st turn).starts ≠ w.st.starts →
    ∀ f, w.floor = some f → f ≤ (step w.st turn).clock) ∧ Floored (watch w turn)

/-! ## Turns that leave the hold alone -/

namespace LoopState

variable (st : LoopState) (env : Env)

/-- The refresh in flight that this pass finds was not carried. -/
def uncarried : Option RegisterFailure :=
  match st.challenged, st.registrationRefresh with
  | none, some pending =>
    if pending.kind = .refresh then
      match st.poll env pending with
      | .ok (some _) => none
      | .ok none => some { error := timedOut }
      | .error e => some { error := e }
    else none
  | _, _ => none

/-- Whether a refresh that was not carried goes out again on a rebuilt connection. -/
def resends (failure : RegisterFailure) : Bool :=
  st.triesRepair env failure && env.repair && (st.start env.rebuilt).isOk

/-- The failure that is counted for a refresh that was not carried. -/
def reported (failure : RegisterFailure) : RegisterFailure :=
  if st.triesRepair env failure && env.repair then
    match st.start env.rebuilt with
    | .ok _ => failure
    | .error e => { error := e }
  else failure

/-- The failure that an answer means for the refresh in flight. -/
def answerFailure (answer : Answer) : Option RegisterFailure :=
  match st.registrationRefresh with
  | none => none
  | some pending =>
    if answer.status < 200 then none
    else if answer.status < 300 then
      match answer.granted with
      | .error e => some { error := e }
      | .ok 0 => some { error := zeroLifetime }
      | .ok _ => none
    else if answer.status = 401 ∧ pending.kind ≠ .answer then none
    else if answer.status = 423 then
      match st.retryMinExpires env pending answer with
      | .ok _ => none
      | .error failure => some failure
    else some (rejectedBy answer)

/-- The failure leaves the next attempt alone, or the ladder already reaches past the hold. -/
def Lenient (failure : RegisterFailure) (f : Nat) : Prop :=
  needsFullRegistration failure.status = true ∨
    failsOver env failure = false ∧ f ≤ st.clock + st.backoff

/-- What a turn taken in a running hold must not be. -/
def Spares (f : Nat) : Event → Prop
  | .notify d cooldown => d.event = .rejected → f ≤ st.clock + rejectionHold d cooldown
  | .drive => ∀ failure, st.uncarried env = some failure →
      st.resends env failure = false ∧ st.Lenient env (st.reported env failure) f
  | .answer answer => ∀ failure, st.answerFailure env answer = some failure →
      st.Lenient env failure f
  | .idle => True

end LoopState

/-- A turn in a running hold is one that spares it. -/
def Respects (w : Watched) (turn : Env × Event) : Prop :=
  w.st.exited = false → ∀ f, w.floor = some f → (w.st.advance turn.1).clock < f →
    (w.st.advance turn.1).Spares turn.1 f turn.2

/-! ## What a move does to the next attempt -/

/-- A move that starts and confirms nothing and leaves `next` as the next attempt. -/
structure Moves (st r : LoopState) (next : Option Nat) : Prop where
  clock : r.clock = st.clock
  starts : r.starts = st.starts
  registrations : r.registrations = st.registrations
  counted : st.earlyLossCounted = true → r.earlyLossCounted = true
  forced : st.forceRenewal = true → r.forceRenewal = true
  next : r.nextRenewalAttempt = next

section

variable {st r : LoopState} {env : Env} {next : Option Nat} {failure : RegisterFailure}
  {f cooldown : Nat} {d : Deregistration} {ev : Event} {at' g : Nat} {floor : Option Nat}

theorem Moves.refl (st : LoopState) : Moves st st st.nextRenewalAttempt :=
  ⟨rfl, rfl, rfl, id, id, rfl⟩

theorem Moves.trans {t : LoopState} {next' : Option Nat} (h : Moves st r next)
    (h' : Moves r t next') : Moves st t next' where
  clock := h'.clock.trans h.clock
  starts := h'.starts.trans h.starts
  registrations := h'.registrations.trans h.registrations
  counted := h'.counted ∘ h.counted
  forced := h'.forced ∘ h.forced
  next := h'.next

theorem moves_schedule : Moves st st.scheduleRenewalRetry.1 (some (st.clock + st.backoff)) :=
  ⟨rfl, rfl, rfl, id, id, rfl⟩

theorem moves_onRenewalFailure (st : LoopState) (env : Env) (failure : RegisterFailure) :
    Moves st (st.onRenewalFailure env failure).1
      (if failsOver env failure then none else some (st.clock + st.backoff)) := by
  unfold onRenewalFailure
  split
  · exact ⟨rfl, rfl, rfl, id, fun _ => rfl, rfl⟩
  · exact moves_schedule

theorem moves_owe {t : LoopState × Bool} (h : Moves st t.1 next) :
    Moves st (oweWhileBusy env t).1 next := by
  unfold oweWhileBusy
  split
  · exact { h with }
  · exact h

theorem moves_fallBack : Moves st st.fallBackToFull st.nextRenewalAttempt :=
  ⟨rfl, rfl, rfl, id, fun _ => rfl, rfl⟩

/-- The next attempt after a refresh failed in a hold: a full registration is only asked for,
everything else is put on the ladder or sent to another P-CSCF. -/
def failNext (st : LoopState) (env : Env) (failure : RegisterFailure) : Option Nat :=
  if needsFullRegistration failure.status then st.nextRenewalAttempt
  else if failsOver env failure then none
  else some (st.clock + st.backoff)

/-- A full registration is asked for already, so no pause is honoured. -/
theorem honourRetryAfter_forced (hforced : st.forceRenewal = true) :
    st.honourRetryAfter failure = st := by
  unfold honourRetryAfter
  split
  case h_1 hnot =>
    rw [hforced] at hnot
    cases hnot
  case h_2 => rfl

theorem moves_fail (hforced : st.forceRenewal = true) :
    Moves st (st.failRegistrationRefresh env failure).1 (failNext st env failure) := by
  let counted := { st with registrationRefresh := none }.countRejection failure
  have hcount : Moves st counted st.nextRenewalAttempt := ⟨rfl, rfl, rfl, id, id, rfl⟩
  unfold failRegistrationRefresh failNext
  split
  · exact ⟨rfl, rfl, rfl, id, fun _ => rfl, rfl⟩
  have hladder := hcount.trans (moves_onRenewalFailure counted env failure)
  apply moves_owe
  rw [honourRetryAfter_forced (hladder.forced hforced)]
  exact hladder

theorem failNext_iff (hnext : st.nextRenewalAttempt = some at') (hf : f ≤ at') :
    (∃ n, failNext st env failure = some n ∧ f ≤ n) ↔ st.Lenient env failure f := by
  unfold failNext Lenient
  cases needsFullRegistration failure.status <;> cases failsOver env failure <;> simp [hnext, hf]

theorem moves_driveChallenge (c : Challenged) :
    Moves st (st.driveChallenge env c) st.nextRenewalAttempt := by
  unfold driveChallenge
  repeat' split
  all_goals first | exact moves_fallBack | exact ⟨rfl, rfl, rfl, id, id, rfl⟩

/-- A refresh that was not carried goes out again, or fails as reported. -/
theorem refreshNotCarried_spec (env : Env) (failure : RegisterFailure)
    (hforced : st.forceRenewal = true) :
    st.resends env failure = true ∧
        (st.refreshNotCarried env failure .refresh).1.starts = st.starts ++ [st.clock] ∨
      st.resends env failure = false ∧
        Moves st (st.refreshNotCarried env failure .refresh).1
          (failNext st env (st.reported env failure)) := by
  have hfail (tried : Bool) (failure : RegisterFailure) :
      Moves st ({ st with registrationRefresh := none, refreshRepaired := tried
        }.failRegistrationRefresh env failure).1 (failNext st env failure) := by
    have hmoves : Moves st { st with registrationRefresh := none, refreshRepaired := tried }
        st.nextRenewalAttempt := ⟨rfl, rfl, rfl, id, id, rfl⟩
    exact hmoves.trans (moves_fail hforced)
  unfold refreshNotCarried
  dsimp only
  split
  case isTrue hrepair =>
    split
    case h_1 pending hstart =>
      have hstart : st.start env.rebuilt = .ok pending := hstart
      exact .inl ⟨by simp [resends, hrepair, hstart, Except.isOk, Except.toBool], rfl⟩
    case h_2 e hstart =>
      have hstart : st.start env.rebuilt = .error e := hstart
      refine .inr ⟨by simp [resends, hstart, Except.isOk, Except.toBool], ?_⟩
      simp only [reported, hrepair, hstart, if_true]
      exact hfail _ _
  case isFalse hrepair =>
    refine .inr ⟨by simp [resends, hrepair], ?_⟩
    simp only [reported, hrepair]
    exact hfail _ _

/-! ## Turns of a hold -/

/-- A pass over the refresh in a hold: nothing, or what becomes of a refresh not carried. -/
theorem drive_spec (env : Env) (hforced : st.forceRenewal = true) :
    match st.uncarried env with
    | none => Moves st (st.driveRegistrationRefresh env).1 st.nextRenewalAttempt
    | some failure =>
      (st.driveRegistrationRefresh env) = st.refreshNotCarried env failure .refresh := by
  unfold uncarried driveRegistrationRefresh
  cases hchallenged : st.challenged with
  | some c => exact moves_driveChallenge c
  | none =>
    cases hrefresh : st.registrationRefresh with
    | none =>
      -- a full registration is asked for, so no refresh is started in place
      have hstart : st.startDueRefresh env = (st, false) := by
        unfold startDueRefresh
        split
        · rfl
        · simp [inPlaceRefreshPossible, hforced]
      rw [hstart]
      exact .refl st
    | some pending =>
      dsimp only
      cases hpoll : st.poll env pending with
      | error e => cases hkind : pending.kind <;> first | rfl | exact moves_fallBack
      | ok result =>
        cases result with
        | none => cases hkind : pending.kind <;> first | rfl | exact moves_fallBack
        | some pending' =>
          cases hkind : pending.kind <;> exact ⟨rfl, rfl, rfl, id, id, rfl⟩

theorem confirm_spec (st : LoopState) (hforced : st.forceRenewal = true)
    (pending : PendingRegister) (answer : Answer) :
    let st' := (st.confirmRegistrationRefresh env pending answer).1
    (∃ e, answer.granted = .error e ∧ Moves st st' (failNext st env { error := e })) ∨
    (answer.granted = .ok 0 ∧ Moves st st' (failNext st env { error := zeroLifetime })) ∨
    (∃ n, answer.granted = .ok (n + 1) ∧ st'.registrations = st.registrations + 1 ∧
      st'.starts = st.starts) := by
  unfold confirmRegistrationRefresh
  split
  case h_1 e h => exact .inl ⟨e, h, moves_fail hforced⟩
  case h_2 h =>
    refine .inr (.inl ⟨h, ?_⟩)
    have hlapsed : Moves st { st with expiresAt := some env.wall } st.nextRenewalAttempt :=
      ⟨rfl, rfl, rfl, id, id, rfl⟩
    have hfailed :
        Moves st ({ st with expiresAt := some env.wall }.failRegistrationRefresh env
          { error := zeroLifetime }).1 (failNext st env { error := zeroLifetime }) :=
      hlapsed.trans (moves_fail hforced)
    dsimp only
    split
    · exact hfailed
    · exact { hfailed with forced := fun _ => rfl }
  case h_3 granted hne h =>
    cases granted with
    | zero => exact absurd rfl hne
    | succ n => exact .inr (.inr ⟨n, h, rfl, rfl⟩)

/-- An answer in a hold: a failure of the refresh, nothing, or a registration granted. -/
theorem answer_spec (env : Env) (hforced : st.forceRenewal = true) (answer : Answer) :
    let st' := (st.handleRegistrationAnswer env answer).1
    (∃ failure, st.answerFailure env answer = some failure ∧
      Moves st st' (failNext st env failure)) ∨
    (st.answerFailure env answer = none ∧ (Moves st st' st.nextRenewalAttempt ∨
      st'.registrations = st.registrations + 1 ∧ st'.starts = st.starts)) := by
  unfold answerFailure handleRegistrationAnswer
  cases hrefresh : st.registrationRefresh with
  | none => exact .inr ⟨rfl, .inl (.refl st)⟩
  | some pending =>
    have htaken : Moves st { st with registrationRefresh := none } st.nextRenewalAttempt :=
      ⟨rfl, rfl, rfl, id, id, rfl⟩
    have hfail (failure : RegisterFailure) :
        Moves st ({ st with registrationRefresh := none }.failRegistrationRefresh env failure).1
          (failNext st env failure) := htaken.trans (moves_fail hforced)
    by_cases hprov : answer.status < 200
    · simp only [if_pos hprov]
      exact .inr ⟨trivial, .inl ⟨rfl, rfl, rfl, id, id, rfl⟩⟩
    simp only [if_neg hprov]
    by_cases hsuccess : answer.status < 300
    · simp only [if_pos hsuccess]
      rcases confirm_spec { st with registrationRefresh := none } hforced pending answer with
        ⟨e, hgranted, hmoves⟩ | ⟨hgranted, hmoves⟩ | ⟨n, hgranted, hmore, hstarts⟩
      · exact .inl ⟨_, by simp [hgranted], htaken.trans hmoves⟩
      · exact .inl ⟨_, by simp [hgranted], htaken.trans hmoves⟩
      · exact .inr ⟨by simp [hgranted], .inr ⟨hmore, hstarts⟩⟩
    simp only [if_neg hsuccess]
    by_cases hchallenge : answer.status = 401 ∧ pending.kind ≠ .answer
    · simp only [if_pos hchallenge]
      refine .inr ⟨trivial, .inl ?_⟩
      unfold beginChallenge
      split
      · exact ⟨rfl, rfl, rfl, id, id, rfl⟩
      · exact htaken.trans moves_fallBack
    simp only [if_neg hchallenge]
    by_cases hbrief : answer.status = 423
    · simp only [if_pos hbrief]
      have hretry : { st with registrationRefresh := none }.retryMinExpires env pending answer =
        st.retryMinExpires env pending answer := rfl
      rw [hretry]
      cases st.retryMinExpires env pending answer with
      | ok _ => exact .inr ⟨rfl, .inl ⟨rfl, rfl, rfl, id, id, rfl⟩⟩
      | error failure => exact .inl ⟨failure, rfl, hfail failure⟩
    simp only [if_neg hbrief]
    exact .inl ⟨_, rfl, hfail _⟩

/-- An idle tick in a hold does not register. -/
theorem idle_spec (hforced : st.forceRenewal = true) (hnext : st.nextRenewalAttempt = some at')
    (hlater : st.clock < at') : Moves st (st.onIdleTick env).1 st.nextRenewalAttempt := by
  unfold onIdleTick
  split
  · exact ⟨rfl, rfl, rfl, id, id, rfl⟩
  dsimp only
  split
  · exact ⟨rfl, rfl, rfl, id, fun _ => by simp [hforced], rfl⟩
  split
  · exact ⟨rfl, rfl, rfl, id, fun _ => by simp [hforced], rfl⟩
  split
  · exact ⟨rfl, rfl, rfl, id, fun _ => by simp [hforced], rfl⟩
  · rw [if_pos (by simp [hnext, hlater])]
    exact ⟨rfl, rfl, rfl, id, fun _ => by simp [hforced], rfl⟩

/-! ## Deregistrations -/

/-- A hold that is running: the next attempt is no sooner, and the loss is counted. -/
structure Holding (st : LoopState) (f : Nat) : Prop where
  forced : st.forceRenewal = true
  counted : st.earlyLossCounted = true
  next : ∃ at', st.nextRenewalAttempt = some at' ∧ f ≤ at'

theorem Moves.holding (h : Moves st r next) (hst : Holding st f)
    (hnext : ∃ n, next = some n ∧ f ≤ n) : Holding r f :=
  ⟨h.forced hst.forced, h.counted hst.counted, by rw [h.next]; exact hnext⟩

theorem Holding.max (hf : Holding st f) (hg : Holding st g) : Holding st (max f g) := by
  obtain ⟨at', hat, hle⟩ := hf.next
  obtain ⟨at'', hat', hle'⟩ := hg.next
  obtain rfl := Option.some.inj (hat.symm.trans hat')
  exact ⟨hf.forced, hf.counted, at', hat, Nat.max_le.2 ⟨hle, hle'⟩⟩

theorem raiseFloor_holding (hforced : st.forceRenewal = true)
    (hcount : st.earlyLossCounted = true) (floor : Nat) : Holding (st.raiseFloor floor) floor :=
  ⟨hforced, hcount, _, rfl, le_max_right _ _⟩

theorem raiseFloor_keeps (h : Holding st f) (floor : Nat) : Holding (st.raiseFloor floor) f := by
  obtain ⟨at', hat, hle⟩ := h.next
  refine ⟨h.forced, h.counted, _, rfl, ?_⟩
  rw [hat]
  exact le_trans hle (le_max_left _ _)

theorem moves_countLoss (st : LoopState) (env : Env) :
    Moves st (st.countLoss env).1 (some (st.clock + st.backoff)) :=
  moves_owe moves_schedule

/-- The loss is counted, once, and the pause is a floor for the next attempt. -/
theorem onUnregistered_spec (st : LoopState) (env : Env) (d : Deregistration) (early : Bool)
    (hforced : st.forceRenewal = true) :
    ∃ counted : LoopState, counted.forceRenewal = true ∧ counted.earlyLossCounted = true ∧
      counted.clock = st.clock ∧ counted.starts = st.starts ∧
      (st.earlyLossCounted = true → counted = st) ∧
      (st.onUnregistered env d early).1 =
        match d.retryAfter with
        | some pause => counted.raiseFloor (st.clock + pause)
        | none => counted := by
  cases hcount : st.earlyLossCounted with
  | true =>
    refine ⟨st, hforced, hcount, rfl, rfl, fun _ => rfl, ?_⟩
    unfold onUnregistered
    simp only [hcount, if_true]
    cases d.retryAfter <;> rfl
  | false =>
    let marked := { st with earlyLossCounted := true }
    let laddered := if early then marked.restoreLadder else marked
    have hladdered : Moves marked laddered st.nextRenewalAttempt := by
      cases early <;> exact ⟨rfl, rfl, rfl, id, id, rfl⟩
    have hloss := hladdered.trans (moves_countLoss laddered env)
    refine ⟨(laddered.countLoss env).1, hloss.forced hforced, hloss.counted rfl, hloss.clock,
      hloss.starts, fun h => (by cases h), ?_⟩
    unfold onUnregistered
    simp only [hcount]
    cases d.retryAfter with
    | none => rfl
    | some pause =>
      exact congrArg (fun t => (laddered.countLoss env).1.raiseFloor (t + pause)) hloss.clock

/-- A loss that is counted already leaves the state alone. -/
theorem onDeactivated_counted (early : Bool) (hcount : st.earlyLossCounted = true) :
    st.onDeactivated env early = (st, false) := by
  unfold onDeactivated
  simp [hcount]

theorem onDeactivated_frame (early : Bool) :
    (st.onDeactivated env early).1.starts = st.starts ∧
      (st.onDeactivated env early).1.clock = st.clock := by
  let restored := { st with earlyLossCounted := true }.restoreLadder
  have hloss := moves_countLoss restored env
  unfold onDeactivated
  split
  · exact ⟨rfl, rfl⟩
  · dsimp only
    split <;> exact ⟨hloss.starts, hloss.clock⟩

/-- The state in which a deregistration is judged. -/
def force (st : LoopState) : LoopState := { st with forceRenewal := true }

theorem Holding.judged (h : Holding st f) : Holding (force st) f :=
  ⟨rfl, h.counted, h.next⟩

/-- What a deregistration in a hold or out of one does, event by event. -/
theorem notify_eq (st : LoopState) (env : Env) (d : Deregistration) (cooldown : Nat) :
    ∃ early, (st.onNetworkDeregistration env d cooldown).1 =
      match d.event with
      | .rejected => (force st).onRejected d cooldown
      | .deactivated => ((force st).onDeactivated env early).1
      | .unregistered | .probation => ((force st).onUnregistered env d early).1 := by
  refine ⟨decide (st.clock - st.lastRegistered < registrationSettle), ?_⟩
  unfold onNetworkDeregistration
  cases d.event <;> rfl

/-- A deregistration starts nothing and starts the hold it asks for; one that is not `rejected`
keeps a hold that is running. -/
structure Notified (st : LoopState) (d : Deregistration) (cooldown : Nat) (r : LoopState) :
    Prop where
  starts : r.starts = st.starts
  clock : r.clock = st.clock
  holds : ∀ hold, holdOf d cooldown = some hold → Holding r (st.clock + hold)
  keeps : d.event ≠ .rejected → ∀ f, Holding st f → Holding r f

theorem notified_onUnregistered (env : Env) (early : Bool)
    (hhold : holdOf d cooldown = d.retryAfter) :
    Notified st d cooldown ((force st).onUnregistered env d early).1 := by
  obtain ⟨counted, hforced, hcount, hclock, hstarts, hsame, heq⟩ :=
    onUnregistered_spec (force st) env d early rfl
  rw [heq]
  cases hpause : d.retryAfter with
  | none =>
    refine ⟨hstarts, hclock, fun hold h => ?_, fun _ f h => ?_⟩
    · cases (hhold.trans hpause).symm.trans h
    · rw [hsame h.counted]
      exact h.judged
  | some pause =>
    refine ⟨hstarts, hclock, fun hold h => ?_, fun _ f h => ?_⟩
    · cases (hhold.trans hpause).symm.trans h
      exact raiseFloor_holding hforced hcount _
    · rw [hsame h.counted]
      exact raiseFloor_keeps h.judged _

theorem notify_spec (st : LoopState) (env : Env) (d : Deregistration) (cooldown : Nat) :
    Notified st d cooldown (st.onNetworkDeregistration env d cooldown).1 := by
  obtain ⟨early, heq⟩ := notify_eq st env d cooldown
  rw [heq]
  cases hevent : d.event with
  | rejected =>
    refine ⟨rfl, rfl, fun hold h => ?_, fun hne => absurd hevent hne⟩
    simp only [holdOf, hevent] at h
    exact ⟨rfl, rfl, _, rfl, (congrArg (st.clock + ·) (Option.some.inj h)).ge⟩
  | deactivated =>
    obtain ⟨hstarts, hclock⟩ := onDeactivated_frame early
    refine ⟨hstarts, hclock, fun hold h => ?_, fun _ f h => ?_⟩
    · simp only [holdOf, hevent] at h
      cases h
    · rw [onDeactivated_counted early h.judged.counted]
      exact h.judged
  | unregistered | probation => exact notified_onUnregistered env early (by rw [holdOf, hevent])

/-! ## The clock -/

theorem failRegistrationRefresh_clock :
    (st.failRegistrationRefresh env failure).1.clock = st.clock := by
  simp only [failRegistrationRefresh, oweWhileBusy, honourRetryAfter]
  repeat' split
  all_goals first | rfl | exact (moves_onRenewalFailure _ _ _).clock

theorem refreshNotCarried_clock (kind : Kind) :
    (st.refreshNotCarried env failure kind).1.clock = st.clock := by
  simp only [refreshNotCarried]
  repeat' split
  all_goals first | rfl | exact failRegistrationRefresh_clock

theorem drive_clock : (st.driveRegistrationRefresh env).1.clock = st.clock := by
  simp only [driveRegistrationRefresh, startDueRefresh]
  repeat' split
  all_goals first | rfl | exact (moves_driveChallenge _).clock | exact refreshNotCarried_clock _

theorem answer_clock (answer : Answer) :
    (st.handleRegistrationAnswer env answer).1.clock = st.clock := by
  simp only [handleRegistrationAnswer, confirmRegistrationRefresh, beginChallenge]
  repeat' split
  all_goals first | rfl | exact failRegistrationRefresh_clock

theorem idle_clock : (st.onIdleTick env).1.clock = st.clock := by
  simp only [onIdleTick, renew]
  repeat' split
  all_goals first | rfl | exact (moves_onRenewalFailure _ _ _).clock

theorem handle_clock (ev : Event) : (st.handle env ev).1.clock = st.clock := by
  cases ev with
  | notify d cooldown => exact (notify_spec st env d cooldown).clock
  | drive => exact drive_clock
  | answer answer => exact answer_clock answer
  | idle => exact idle_clock

/-! ## A turn in a hold -/

theorem nextFloor_hold {hold : Nat} (h : holdOf d cooldown = some hold) :
    nextFloor floor st r (.notify d cooldown) = some (max (floor.getD 0) (r.clock + hold)) := by
  simp [nextFloor, h]

theorem nextFloor_noHold (h : holdOf d cooldown = none) :
    nextFloor floor st r (.notify d cooldown) = floor := by
  simp [nextFloor, h]

/-- The deadline of a hold never moves to an earlier time. -/
theorem le_nextFloor (h : nextFloor (some f) st r ev = some g) : f ≤ g := by
  cases ev with
  | notify d cooldown =>
    cases hhold : holdOf d cooldown with
    | none =>
      rw [nextFloor_noHold hhold] at h
      cases h
      exact le_refl f
    | some hold =>
      rw [nextFloor_hold hhold] at h
      cases h
      exact le_max_left f _
  | drive | answer | idle =>
    simp only [nextFloor] at h
    split at h
    · cases h
    · cases h
      exact le_refl f

/-- The hold goes on after a move that leaves the next attempt late enough. -/
theorem Moves.kept (h : Moves st r next) (hst : Holding st f) (hnext : ∃ n, next = some n ∧ f ≤ n) :
    r.starts = st.starts ∧
      ∀ g, (if st.registrations < r.registrations then none else some f) = some g →
        Holding r g := by
  refine ⟨h.starts, fun g hg => ?_⟩
  rw [h.registrations, if_neg (lt_irrefl _)] at hg
  cases hg
  exact h.holding hst hnext

/-- A turn that spares a running hold starts nothing, and the hold goes on. -/
theorem handle_spares (hst : Holding st f) (hruns : st.clock < f) (hspares : st.Spares env f ev) :
    (st.handle env ev).1.starts = st.starts ∧
      ∀ g, nextFloor (some f) st (st.handle env ev).1 ev = some g →
        Holding (st.handle env ev).1 g := by
  obtain ⟨at', hat, hle⟩ := hst.next
  cases ev with
  | notify d cooldown =>
    have hspec := notify_spec st env d cooldown
    refine ⟨hspec.starts, fun g hg => ?_⟩
    cases hhold : holdOf d cooldown with
    | none =>
      rw [nextFloor_noHold hhold] at hg
      cases hg
      refine hspec.keeps (fun hevent => ?_) f hst
      simp [holdOf, hevent] at hhold
    | some hold =>
      have hnew := hspec.holds hold hhold
      rw [nextFloor_hold hhold, handle_clock] at hg
      cases hg
      by_cases hevent : d.event = .rejected
      · -- a later `rejected` sets the next attempt anew, no earlier than the hold it finds
        have hlater : f ≤ st.clock + hold := by
          have hrejected : hold = rejectionHold d cooldown := by simpa [holdOf, hevent] using hhold.symm
          rw [hrejected]
          exact hspares hevent
        rw [Option.getD_some, max_eq_right hlater]
        exact hnew
      · exact (hspec.keeps hevent f hst).max hnew
  | drive =>
    have hspec := drive_spec env hst.forced
    cases huncarried : st.uncarried env with
    | none =>
      rw [huncarried] at hspec
      exact Moves.kept hspec hst hst.next
    | some failure =>
      rw [huncarried] at hspec
      obtain ⟨hno, hlenient⟩ := hspares failure huncarried
      unfold handle
      rw [hspec]
      rcases refreshNotCarried_spec env failure hst.forced with
        ⟨hyes, -⟩ | ⟨-, hmoves⟩
      · rw [hno] at hyes
        cases hyes
      · exact hmoves.kept hst ((failNext_iff hat hle).2 hlenient)
  | answer answer =>
    rcases answer_spec env hst.forced answer with
      ⟨failure, hfailure, hmoves⟩ | ⟨-, hmoves | ⟨hmore, hstarts⟩⟩
    · exact hmoves.kept hst ((failNext_iff hat hle).2 (hspares failure hfailure))
    · exact hmoves.kept hst hst.next
    refine ⟨hstarts, fun g hg => ?_⟩
    have hgain : st.registrations < (st.handle env (.answer answer)).1.registrations :=
      hmore.ge
    simp only [nextFloor, if_pos hgain] at hg
    cases hg
  | idle =>
    exact (idle_spec hst.forced hat (lt_of_lt_of_le hruns hle)).kept hst hst.next

/-- A turn in a running hold that starts nothing and leaves the next attempt late enough
is one that spares it. -/
theorem spares_of_handle (hst : Holding st f) (hstarts : (st.handle env ev).1.starts = st.starts)
    (hnext : ∀ g, nextFloor (some f) st (st.handle env ev).1 ev = some g →
      ∃ at', (st.handle env ev).1.nextRenewalAttempt = some at' ∧ g ≤ at') :
    st.Spares env f ev := by
  obtain ⟨at', hat, hle⟩ := hst.next
  have hlenient {r : LoopState} {failure : RegisterFailure}
      (hmoves : Moves st r (failNext st env failure))
      (hnext : ∀ g, (if st.registrations < r.registrations then none else some f) = some g →
        ∃ at', r.nextRenewalAttempt = some at' ∧ g ≤ at') : st.Lenient env failure f := by
    rw [hmoves.registrations, if_neg (lt_irrefl _), hmoves.next] at hnext
    exact (failNext_iff hat hle).1 (hnext f rfl)
  cases ev with
  | notify d cooldown =>
    intro hevent
    have hhold : holdOf d cooldown = some (rejectionHold d cooldown) := by simp [holdOf, hevent]
    have hset : (st.handle env (.notify d cooldown)).1.nextRenewalAttempt =
        some (st.clock + rejectionHold d cooldown) := by
      obtain ⟨early, heq⟩ := notify_eq st env d cooldown
      unfold handle
      rw [heq, hevent]
      rfl
    obtain ⟨n, hn, hfloor⟩ := hnext (max f ((st.handle env (.notify d cooldown)).1.clock +
      rejectionHold d cooldown)) (nextFloor_hold hhold)
    rw [hset] at hn
    cases hn
    exact le_trans (le_max_left f _) hfloor
  | drive =>
    intro failure huncarried
    have hspec := drive_spec env hst.forced
    rw [huncarried] at hspec
    unfold handle at hstarts hnext
    rw [hspec] at hstarts hnext
    rcases refreshNotCarried_spec env failure hst.forced with
      ⟨-, hstarted⟩ | ⟨hno, hmoves⟩
    · rw [hstarted] at hstarts
      exact absurd hstarts (by simp)
    · exact ⟨hno, hlenient hmoves hnext⟩
  | answer answer =>
    intro failure hfailure
    rcases answer_spec env hst.forced answer with
      ⟨failure', hfailure', hmoves⟩ | ⟨hnone, -⟩
    · cases hfailure.symm.trans hfailure'
      exact hlenient hmoves hnext
    · cases hfailure.symm.trans hnone
  | idle => trivial

end

/-! ## Runs -/

/-- A hold that is running is kept by the machine. -/
def Watching (w : Watched) : Prop :=
  ∀ f, w.floor = some f → w.st.clock < f → Holding w.st f

section

variable {w : Watched} {turn : Env × Event}

theorem step_exited (h : w.st.exited = true) : step w.st turn = w.st := by
  unfold step
  rw [if_pos h]

theorem watch_exited (h : w.st.exited = true) : watch w turn = w := by
  unfold watch
  rw [step_exited h, if_pos h]

theorem step_running (h : w.st.exited = false) :
    step w.st turn =
      { ((w.st.advance turn.1).handle turn.1 turn.2).1 with
        exited := ((w.st.advance turn.1).handle turn.1 turn.2).2 } := by
  unfold step
  rw [h]
  rfl

/-- Only the state that the turn is handled in matters for what it does to the hold. -/
theorem watch_floor (h : w.st.exited = false) :
    (watch w turn).floor = nextFloor w.floor (w.st.advance turn.1)
      ((w.st.advance turn.1).handle turn.1 turn.2).1 turn.2 := by
  unfold watch
  rw [step_running h, h]
  cases turn.2 <;> rfl

theorem Watching.floored (h : Watching w) : Floored w :=
  fun f hf hruns => (h f hf hruns).next

/-- Out of a hold, the machine is in one after the turn only if the turn asks for it. -/
theorem nextFloor_idle {floor : Option Nat} {st : LoopState} {env : Env} {ev : Event} {g : Nat}
    (hover : ∀ f, floor = some f → f ≤ st.clock)
    (hg : nextFloor floor st (st.handle env ev).1 ev = some g) (hruns : st.clock < g) :
    Holding (st.handle env ev).1 g := by
  have hsame (h : floor = some g) : Holding (st.handle env ev).1 g :=
    absurd (hover g h) (not_le.2 hruns)
  cases ev with
  | notify d cooldown =>
    cases hhold : holdOf d cooldown with
    | none => exact hsame ((nextFloor_noHold hhold).symm.trans hg)
    | some hold =>
      have hpast : floor.getD 0 ≤ st.clock + hold := by
        cases floor with
        | none => exact zero_le _
        | some f => exact le_trans (hover f rfl) (le_add_right _ _)
      rw [nextFloor_hold hhold, handle_clock, max_eq_right hpast] at hg
      cases hg
      exact (notify_spec st env d cooldown).holds hold hhold
  | drive | answer | idle =>
    simp only [nextFloor] at hg
    split at hg
    · cases hg
    · exact hsame hg

theorem advance_holding {f : Nat} (hw : Watching w) (hf : w.floor = some f)
    (hruns : (w.st.advance turn.1).clock < f) : Holding (w.st.advance turn.1) f := by
  have hst := hw f hf (lt_of_le_of_lt (le_add_right _ _) hruns)
  exact { hst with }

theorem step_clock (h : w.st.exited = false) :
    (step w.st turn).clock = (w.st.advance turn.1).clock := by
  rw [step_running h]
  exact handle_clock turn.2

/-- What the handler keeps of the hold, the machine does. -/
theorem watching_of_handle (h : w.st.exited = false)
    (hkeeps : ∀ g, nextFloor w.floor (w.st.advance turn.1)
      ((w.st.advance turn.1).handle turn.1 turn.2).1 turn.2 = some g →
        (w.st.advance turn.1).clock < g →
        Holding ((w.st.advance turn.1).handle turn.1 turn.2).1 g) :
    Watching (watch w turn) := by
  intro g hg hruns
  rw [watch_floor h] at hg
  have hst := hkeeps g hg ((step_clock h).symm.trans_lt hruns)
  show Holding (step w.st turn) g
  rw [step_running h]
  exact { hst with }

/-- A turn that respects the hold starts nothing in it, and the machine goes on keeping it. -/
theorem Respects.keeps (hw : Watching w) (h : Respects w turn) :
    ((step w.st turn).starts ≠ w.st.starts →
      ∀ f, w.floor = some f → f ≤ (step w.st turn).clock) ∧ Watching (watch w turn) := by
  cases hexited : w.st.exited with
  | true =>
    rw [step_exited hexited, watch_exited hexited]
    exact ⟨fun hne => absurd rfl hne, hw⟩
  | false =>
    by_cases hactive : ∃ f, w.floor = some f ∧ (w.st.advance turn.1).clock < f
    · obtain ⟨f, hf, hruns⟩ := hactive
      have hkept := handle_spares (advance_holding hw hf hruns) hruns
        (h hexited f hf hruns)
      constructor
      · intro hne
        rw [step_running hexited] at hne
        exact absurd hkept.1 hne
      · apply watching_of_handle hexited
        rw [hf]
        exact fun g hg _ => hkept.2 g hg
    · have hover : ∀ f, w.floor = some f → f ≤ (w.st.advance turn.1).clock :=
        fun f hf => Nat.le_of_not_lt fun hruns => hactive ⟨f, hf, hruns⟩
      rw [step_clock hexited]
      exact ⟨fun _ => hover, watching_of_handle hexited fun g => nextFloor_idle hover⟩

theorem Held.respects (hw : Watching w) (h : Held w turn) : Respects w turn := by
  intro hexited f hf hruns
  have hst := advance_holding hw hf hruns
  obtain ⟨hstarts, hfloored⟩ := h
  apply spares_of_handle hst
  · by_contra hne
    have hnew : (step w.st turn).starts ≠ w.st.starts := by
      rw [step_running hexited]
      exact hne
    have hover := hstarts hnew f hf
    rw [step_clock hexited] at hover
    exact absurd hruns (not_lt.2 hover)
  · intro g hg
    rw [← hf] at hg
    have hlater : (watch w turn).st.clock < g := by
      show (step w.st turn).clock < g
      rw [step_clock hexited]
      rw [hf] at hg
      exact lt_of_lt_of_le hruns (le_nextFloor hg)
    obtain ⟨n, hn, hle⟩ := hfloored g ((watch_floor hexited).trans hg) hlater
    refine ⟨n, ?_, hle⟩
    have hn : (step w.st turn).nextRenewalAttempt = some n := hn
    rw [step_running hexited] at hn
    exact hn

end

/-- From any state and over any turns, no registration starts in a hold and no hold is
shortened exactly if every turn taken in a hold spares it. -/
theorem held_iff_respects (st : LoopState) (turns : List (Env × Event)) :
    Trace.Each watch Held { st, floor := none } turns ↔
      Trace.Each watch Respects { st, floor := none } turns := by
  apply Trace.each_iff_each (I := Watching)
  · exact fun w turn hw h => (h.keeps hw).2
  · intro w turn hw
    constructor
    · exact fun h => h.respects hw
    · intro h
      have hkeeps := h.keeps hw
      exact ⟨hkeeps.1, hkeeps.2.floored⟩
  · exact nofun

open Sample in
/-- A refresh is in flight when the network rejects the registration for an hour. Its refusal
puts the next attempt on the ladder, and an idle tick registers anew six seconds later. -/
theorem refusedRefresh_ends_hold :
    ¬ ∀ (st : LoopState) (turns : List (Env × Event)),
      Trace.Each watch Held { st, floor := none } turns := by
  intro h
  have hrun := h registered
    [(env 3000000 3000000, .drive),
      (env 1000 3001000, .notify { event := .rejected, retryAfter := none } 3600000),
      (env 1000 3002000, .answer (answer 480)), (env 6000 3008000, .idle)]
  have hearly := hrun.2.2.2.1.1 (by decide) 6601000 (by decide)
  revert hearly
  decide

end Ims.Registration
