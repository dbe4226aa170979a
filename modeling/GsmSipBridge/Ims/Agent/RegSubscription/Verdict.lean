-- SUMMARY: What stands behind an endpoint failure that the reg-event subscription reports.
import GsmSipBridge.Ims.Agent.RegSubscription.Inert

/-!
# Qualifying endpoint failures

A run is a history here, latest turn first, and what a verdict rests on is read off the history
alone. Runs are arbitrary.
-/

namespace Ims.RegSubscription

open Text SipClient Inbound

/-! ## What a history says -/

/-- Call-ID and our tag of the subscription made last in this registration. -/
def dialog : List Turn → Option (Text × Text)
  | [] => none
  | turn :: past =>
    match turn.entry with
    | .newRegistration => none
    | .sent sent .initial => some (sent.callId, sent.localTag)
    | _ => dialog past

/-- A final response to the SUBSCRIBE of a Call-ID and a CSeq. -/
def Turn.isFinal (turn : Turn) (callId : Text) (cseq : Nat) : Prop :=
  ∃ resp, turn.entry = .response resp ∧ 200 ≤ resp.status ∧
    (headerOf resp "Call-ID").getD [] = callId ∧
    (headerOf resp "CSeq").bind parseCseqNumber = some cseq

/-- A NOTIFY of the reg event in a dialog. -/
def Turn.isNotify (turn : Turn) (callId localTag : Text) : Prop :=
  ∃ req, turn.entry = .notify req ∧ eqIgnoreAsciiCase (notifyEvent req) "reg" = true ∧
    callIdOf req = callId ∧ (Inbound.headerOf req "To").bind headerTag = some localTag

/-- In this registration a SUBSCRIBE was sent at `at`, and neither a final response to it nor a
NOTIFY in its dialog has come since. -/
def Outstanding (past : List Turn) (callId localTag : Text) (cseq sentAt : Nat) : Prop :=
  ∃ later turn earlier sent kind, past = later ++ turn :: earlier ∧
    turn.entry = .sent sent kind ∧ turn.now = sentAt ∧ sent.cseq = cseq ∧
    dialog (turn :: earlier) = some (callId, localTag) ∧
    ∀ t ∈ later, t.registers = false ∧ ¬ t.isFinal callId cseq ∧ ¬ t.isNotify callId localTag

def Unanswered (past : List Turn) (now : Nat) : Prop :=
  ∃ callId localTag cseq sentAt, Outstanding past callId localTag cseq sentAt ∧
    sentAt + timerF ≤ now

/-- The turn finds that a SUBSCRIBE could not be sent, or that one has gone unanswered. -/
def Suspects (turn : Turn) (past : List Turn) : Prop :=
  (∃ kind force, turn.entry = .sendFailed kind force) ∨ Unanswered past turn.now

def Turn.renewalPending (turn : Turn) : Prop :=
  (∃ kind, turn.entry = .sendFailed kind true) ∨ turn.entry = .poll true

/-- The probe was sent long enough ago and no response with its CSeq has come since. -/
def ProbeUnanswered (since : List Turn) (now : Nat) : Prop :=
  ∃ later turn earlier cseq, since = later ++ turn :: earlier ∧ turn.entry = .probeSent cseq ∧
    turn.now + pingResponseTimeout ≤ now ∧ ∀ t ∈ later, t.entry ≠ .probeResponse cseq

/-- What an endpoint failure in `turn` rests on. -/
inductive Warranted (turn : Turn) (past : List Turn) : Prop where
  | pending (hsuspects : Suspects turn past) (hpending : turn.renewalPending)
  | probed (since : List Turn) (begun : Turn) (older : List Turn)
      (hpast : past = since ++ begun :: older) (hsame : ∀ t ∈ since, t.registers = false)
      (hsuspects : Suspects begun older)
      (hprobe : turn.entry = .probeSendFailed ∨ ProbeUnanswered since turn.now)

/-! ## The SUBSCRIBE in flight -/

variable {s : RegSubscription} {turn : Turn}

/-- Sent, and neither answered nor notified. -/
structure Subscription.Waits (c : Subscription) (cseq sentAt : Nat) : Prop where
  txn : ∃ kind, c.txn = .pending cseq sentAt kind
  unnotified : c.notifiedSinceSend = false

/-- A turn after which a SUBSCRIBE is in flight has not answered it. -/
structure LeavesWaiting (s : RegSubscription) (turn : Turn) (c' : Subscription)
    (cseq sentAt : Nat) (c : Subscription) : Prop where
  current : s.current = some c
  waits : c.Waits cseq sentAt
  callId : c'.callId = c.callId
  localTag : c'.localTag = c.localTag
  noFinal : ¬ turn.isFinal c.callId cseq
  noNotify : ¬ turn.isNotify c.callId c.localTag
  registers : turn.registers = false

section Waiting

variable {c c' : Subscription} {cseq sentAt now wall : Nat}

/-- A turn that is neither a response nor a NOTIFY nor a registration. -/
theorem leavesWaiting_other (hcur : s.current = some c) (hwaits : c.Waits cseq sentAt)
    (hcallId : c'.callId = c.callId) (hlocalTag : c'.localTag = c.localTag)
    (hentry : (∀ resp, turn.entry ≠ .response resp) ∧ ∀ req, turn.entry ≠ .notify req)
    (hreg : turn.registers = false) : ∃ c, LeavesWaiting s turn c' cseq sentAt c :=
  ⟨c, hcur, hwaits, hcallId, hlocalTag, fun ⟨resp, h, _⟩ => hentry.1 resp h,
    fun ⟨req, h, _⟩ => hentry.2 req h, hreg⟩

theorem waiting_response {resp : SipResponse}
    (hnext : (s.onResponse resp now wall).1.current = some c') (hwaits : c'.Waits cseq sentAt) :
    ∃ c, LeavesWaiting s ⟨now, wall, .response resp⟩ c' cseq sentAt c := by
  obtain ⟨kind, htxn⟩ := hwaits.txn
  have hunanswered (hcur : s.current = some c')
      (hfinal : ¬ Turn.isFinal ⟨now, wall, .response resp⟩ c'.callId cseq) :
      ∃ c, LeavesWaiting s ⟨now, wall, .response resp⟩ c' cseq sentAt c :=
    ⟨c', hcur, hwaits, rfl, rfl, hfinal, (fun ⟨_, h, _⟩ => nomatch h), rfl⟩
  rcases onResponse_cases s resp now wall with ⟨hnone, hsame⟩ | ⟨found, kind', -, heq⟩
  · rw [hsame] at hnext
    apply hunanswered hnext
    rintro ⟨_, ⟨⟩, -, hcallId, hcseq⟩
    simp [pendingFor, hnext, htxn, hcallId, hcseq] at hnone
  · rw [heq] at hnext
    by_cases hprov : resp.status < 200
    · simp only [onCurrentResponse, hprov, if_true] at hnext
      apply hunanswered hnext
      rintro ⟨_, ⟨⟩, hfinal, -⟩
      exact absurd hprov (UInt16.not_lt.2 hfinal)
    · -- A final response ends the transaction.
      cases onCurrentResponse_final hprov found kind' now wall with
      | accepted d hd hidle =>
        rw [hd] at hnext
        cases hnext
        simp [hidle] at htxn
      | kept _ hd =>
        rw [hd] at hnext
        cases hnext
        cases htxn
      | gone hd | stopped hd => simp [hd] at hnext

theorem waiting_notify {req : SipRequest}
    (hnext : (s.onNotify req now).1.current = some c') (hwaits : c'.Waits cseq sentAt) :
    ∃ c, LeavesWaiting s ⟨now, wall, .notify req⟩ c' cseq sentAt c := by
  rcases onNotify_cases s req now with ⟨hforeign, hsame, -⟩ | ⟨c, hcur, -, heq⟩
  · rw [hsame] at hnext
    refine ⟨c', hnext, hwaits, rfl, rfl, (fun ⟨_, h, _⟩ => nomatch h), ?_, rfl⟩
    rintro ⟨_, ⟨⟩, hevent, hcallId, htag⟩
    exact hforeign ⟨⟨c', hnext, hcallId.symm, htag⟩, hevent⟩
  · obtain ⟨⟨d, hd, hnoted⟩, -⟩ := confirmCurrent_spec (s.prune now) req (subStateOf req) c
    rw [heq, hd] at hnext
    cases hnext
    have hsince := hnoted.notified
    simp [hwaits.unnotified] at hsince

theorem waiting_applyState {state : SubState}
    (hnext : (s.applySubscriptionState state now wall).current = some c')
    (hwaits : c'.Waits cseq sentAt) :
    ∃ c, LeavesWaiting s ⟨now, wall, .applyState state⟩ c' cseq sentAt c := by
  cases hcur : s.current with
  | none => simp [applySubscriptionState, hcur] at hnext
  | some c =>
    cases applySubscriptionState_cases hcur state now wall with
    | unchanged _ ht =>
      rw [ht] at hnext
      exact leavesWaiting_other hnext hwaits rfl rfl (by simp) rfl
    | renewed e _ _ ht =>
      rw [ht] at hnext
      cases hnext
      exact leavesWaiting_other hcur ⟨hwaits.txn, hwaits.unnotified⟩ rfl rfl (by simp) rfl
    | retried _ hnone | stopped _ hnone => simp [hnone] at hnext

/-- A tick leaves the subscription that waits as it is. -/
theorem current_of_poll {force : Bool}
    (hnext : (s.poll now wall force).1.current = some c') (hwaits : c'.Waits cseq sentAt) :
    s.current = some c' := by
  revert hnext
  refine poll_cases ?verdict ?probing ?stopped ?retries ?ticks
  case verdict => exact fun _ _ hnext => hnext
  case probing => exact fun _ hnext => hnext
  case stopped => exact fun _ _ hnext => hnext
  case retries =>
    intro _ _ _ hnext
    rw [(pollRetry_frame _ now).1] at hnext
    exact hnext
  case ticks =>
    intro c _ _ hcur hnext
    rcases pollCurrent_current { s.prune now with current := some (c.closeNotified now) }
      (c.closeNotified now) now wall force with hgone | hsame
    · exact absurd (hgone.symm.trans hnext) (by simp)
    obtain rfl := Option.some.inj (hsame.symm.trans hnext)
    have hunnotified := hwaits.unnotified
    rw [(closeNotified_frame c now).2.2.1] at hunnotified
    rw [hcur, closeNotified_eq hunnotified now]

/-- A SUBSCRIBE that a turn did not send, and that is in flight after it, was in flight before
and has not been answered. -/
theorem waiting_enter (hsent : ∀ sent kind, turn.entry ≠ .sent sent kind)
    (hnext : (s.enter turn).1.current = some c') (hwaits : c'.Waits cseq sentAt) :
    ∃ c, LeavesWaiting s turn c' cseq sentAt c := by
  obtain ⟨now, wall, entry⟩ := turn
  cases entry with
  | newRegistration => simp [enter, onNewRegistration] at hnext
  | sent sent kind => exact absurd rfl (hsent sent kind)
  | sendFailed kind force =>
    cases kind with
    | initial =>
      have hsame : (s.onSendFailed .initial now wall force).1.current = s.current := by
        cases force with
        | true | false => rfl
      exact leavesWaiting_other (hsame.symm.trans hnext) hwaits rfl rfl (by simp) rfl
    | refresh =>
      have hgone : (s.onSendFailed .refresh now wall force).1.current = none := by
        cases force with
        | true | false => exact supersede_current now
      exact absurd (hgone.symm.trans hnext) (by simp)
  | probeSent cseq => exact leavesWaiting_other hnext hwaits rfl rfl (by simp) rfl
  | probeSendFailed =>
    have hsame : (s.onProbeSendFailed now wall).1.current = s.current := by
      unfold onProbeSendFailed
      split <;> rfl
    exact leavesWaiting_other (hsame.symm.trans hnext) hwaits rfl rfl (by simp) rfl
  | probeResponse cseq =>
    have hsame : (s.onProbeResponse cseq now wall).1.current = s.current := by
      unfold onProbeResponse
      split <;> rfl
    exact leavesWaiting_other (hsame.symm.trans hnext) hwaits rfl rfl (by simp) rfl
  | response resp => exact waiting_response hnext hwaits
  | notify req => exact waiting_notify hnext hwaits
  | applyState state => exact waiting_applyState hnext hwaits
  | poll force =>
    exact leavesWaiting_other (current_of_poll hnext hwaits) hwaits rfl rfl (by simp) rfl

end Waiting

/-! ## The probe -/

/-- Timer F has run out on the SUBSCRIBE in flight. -/
def TimedOut (s : RegSubscription) (now : Nat) : Prop :=
  ∃ c cseq sentAt, s.current = some c ∧ c.Waits cseq sentAt ∧ sentAt + timerF ≤ now

theorem timedOut_of_timerFExpired {c : Subscription} {now : Nat} (hcur : s.current = some c)
    (h : (c.closeNotified now).timerFExpired now = true) : TimedOut s now := by
  obtain ⟨hunnotified, cseq, sentAt, kind, htxn, hlate⟩ := timerFExpired_iff.1 h
  rw [(closeNotified_frame c now).2.2.1] at hunnotified
  rw [closeNotified_eq hunnotified now] at htxn
  exact ⟨c, cseq, sentAt, hcur, ⟨⟨kind, htxn⟩, hunnotified⟩, hlate⟩

/-- The tick of a line without a probe begins one, or has a verdict, only when Timer F has run
out; whether a re-registration is pending decides which. -/
theorem poll_suspects (hprobe : s.probing = none) (now wall : Nat) (force : Bool) :
    let r := s.poll now wall force
    (r.1.probing = none ∧ ∀ cause callId, r.2 ≠ some (.endpointFailure cause callId)) ∨
      (TimedOut s now ∧
        ((force = false ∧ (∀ p, r.1.probing = some p → p.sent = none) ∧
          ∀ cause callId, r.2 ≠ some (.endpointFailure cause callId)) ∨
        (force = true ∧ r.1.probing = none))) := by
  have hretry : ∀ t : RegSubscription, t.probing = none → (t.pollRetry now).1.probing = none ∧
      ∀ cause callId, (t.pollRetry now).2 ≠ some (.endpointFailure cause callId) := by
    intro t ht
    refine ⟨(pollRetry_frame t now).2.1.trans ht, fun cause callId => ?_⟩
    rcases pollRetry_cases t now with
      heq | ⟨-, -, action, heq, ⟨-, rfl⟩ | ⟨c, -, -, rfl⟩⟩ <;> simp [heq]
  cases hstop : s.stopped with
  | some reason =>
    rw [poll_of_stopped now wall force hprobe (by rw [hstop]; rfl)]
    exact .inl ⟨hprobe, by simp⟩
  | none =>
    cases hcur : s.current with
    | none =>
      rw [poll_of_none now wall force hprobe hstop hcur]
      exact .inl (hretry _ hprobe)
    | some c =>
      rw [poll_of_some now wall force hprobe hstop hcur]
      refine pollCurrent_cases ?unanswered ?expired ?unconfirmed ?refreshes ?replaced ?waits
      case unanswered =>
        intro hexpired
        refine .inr ⟨timedOut_of_timerFExpired hcur hexpired, ?_⟩
        cases force with
        | true => exact .inr ⟨rfl, (supersede_probing now).trans hprobe⟩
        | false =>
          refine .inl ⟨rfl, fun p hp => ?_, by simp [beginProbe]⟩
          cases hp
          rfl
      case expired =>
        intro _
        exact .inl (hretry _ ((supersede_probing now).trans hprobe))
      case unconfirmed => exact fun _ => .inl ⟨(supersede_probing now).trans hprobe, by simp⟩
      case refreshes => exact fun _ _ _ _ => .inl ⟨hprobe, by simp⟩
      case replaced =>
        intro _ _ _
        exact .inl (hretry _ ((supersede_probing now).trans hprobe))
      case waits => exact fun _ => .inl (hretry _ hprobe)

/-- Where the probe after a turn comes from. -/
inductive ProbeFrom (s : RegSubscription) (turn : Turn) (p : Probing) : Prop where
  | same (hprobing : s.probing = some p) (hregisters : turn.registers = false)
      (hanswer : ∀ cseq sentAt, p.sent = some (cseq, sentAt) → turn.entry ≠ .probeResponse cseq)
  | sent (q : Probing) (cseq : Nat) (hprobing : s.probing = some q)
      (hentry : turn.entry = .probeSent cseq) (hsent : p.sent = some (cseq, turn.now))
  | begun (hsent : p.sent = none)
      (hentry : (∃ kind, turn.entry = .sendFailed kind false) ∨ TimedOut s turn.now)

section

variable {p : Probing} {now wall : Nat}

theorem probing_sendFailed {kind : SubKind} {force : Bool}
    (h : (s.onSendFailed kind now wall force).1.probing = some p) :
    ProbeFrom s ⟨now, wall, .sendFailed kind force⟩ p := by
  cases force with
  | true =>
    refine .same ?_ rfl (by simp)
    cases kind with
    | initial => exact h
    | refresh => exact (supersede_probing now).symm.trans h
  | false =>
    refine .begun ?_ (.inl ⟨kind, rfl⟩)
    cases kind with
    | initial | refresh =>
      cases h
      rfl

theorem probing_poll {force : Bool} (h : (s.poll now wall force).1.probing = some p) :
    ProbeFrom s ⟨now, wall, .poll force⟩ p := by
  cases hprobe : s.probing with
  | some q =>
    rw [poll_of_probing _ _ force hprobe] at h
    split at h
    · cases h
    · exact .same (hprobe.trans (hprobe.symm.trans h)) rfl (by simp)
  | none =>
    rcases poll_suspects hprobe now wall force with
      ⟨hnone, -⟩ | ⟨htime, ⟨-, hsent, -⟩ | ⟨-, hnone⟩⟩
    · simp [hnone] at h
    · exact .begun (hsent p h) (.inr htime)
    · simp [hnone] at h

/-- A response takes the probe that it answers away. -/
theorem probing_probeResponse {cseq : Nat}
    (h : (s.onProbeResponse cseq now wall).1.probing = some p) :
    ProbeFrom s ⟨now, wall, .probeResponse cseq⟩ p := by
  unfold onProbeResponse at h
  split at h
  case h_1 hother =>
    change s.probing = some p at h
    refine .same h rfl ?_
    rintro _ sentAt hsent ⟨⟩
    simp [h, hsent] at hother
  case h_2 => cases h

end

theorem probing_enter {p : Probing} (h : (s.enter turn).1.probing = some p) :
    ProbeFrom s turn p := by
  obtain ⟨now, wall, entry⟩ := turn
  cases entry with
  | newRegistration => simp [enter, onNewRegistration] at h
  | sent sent kind =>
    refine .same ?_ rfl (by simp)
    cases kind with
    | initial => simpa [enter, onSent] using h
    | refresh => exact h
  | sendFailed kind force => exact probing_sendFailed h
  | probeSent cseq =>
    simp only [enter, onProbeSent] at h
    cases hprobe : s.probing with
    | none => simp [hprobe] at h
    | some q =>
      rw [hprobe] at h
      cases h
      exact .sent q cseq hprobe rfl rfl
  | probeSendFailed =>
    simp only [enter, onProbeSendFailed] at h
    cases hprobe : s.probing with
    | none => simp [hprobe] at h
    | some q => simp [hprobe, scheduleAfterEndpointFailure, scheduleRetry, markUnconfirmed] at h
  | probeResponse cseq => exact probing_probeResponse h
  | response resp =>
    exact .same ((onResponse_frame s resp now wall).1.symm.trans h) rfl (by simp)
  | notify req => exact .same ((onNotify_frame s req now).2.1.symm.trans h) rfl (by simp)
  | applyState state =>
    exact .same ((applySubscriptionState_frame s state _ _).1.symm.trans h) rfl (by simp)
  | poll force => exact probing_poll h

/-- Where a verdict comes from. -/
inductive VerdictFrom (s : RegSubscription) (turn : Turn) : Prop where
  | sendFailed (kind : SubKind) (hentry : turn.entry = .sendFailed kind true)
  | timedOut (hentry : turn.entry = .poll true) (htimedOut : TimedOut s turn.now)
  | probeSendFailed (p : Probing) (hprobing : s.probing = some p)
      (hentry : turn.entry = .probeSendFailed)
  | probeTimedOut (p : Probing) (cseq sentAt : Nat) (hprobing : s.probing = some p)
      (hsent : p.sent = some (cseq, sentAt)) (hpast : sentAt + pingResponseTimeout ≤ turn.now)

theorem verdict_enter {cause : EndpointFailureCause} {callId : Option Text}
    (h : (s.enter turn).2 = .action (.endpointFailure cause callId)) : VerdictFrom s turn := by
  obtain ⟨now, wall, entry⟩ := turn
  cases entry with
  | newRegistration | sent | probeSent | probeResponse | response | notify | applyState => cases h
  | sendFailed kind force =>
    cases force with
    | true => exact .sendFailed kind rfl
    | false =>
      cases kind with
      | initial | refresh => cases h
  | probeSendFailed =>
    cases hprobe : s.probing with
    | none => simp [enter, onProbeSendFailed, hprobe, Returned.ofAction] at h
    | some p => exact .probeSendFailed p hprobe rfl
  | poll force =>
    simp only [enter, Prod.map_snd] at h
    have hret : (s.poll now wall force).2 = some (.endpointFailure cause callId) := by
      cases hpoll : (s.poll now wall force).2 with
      | none => simp [hpoll, Returned.ofAction] at h
      | some action => simpa [hpoll, Returned.ofAction] using h
    cases hprobe : s.probing with
    | none =>
      rcases poll_suspects hprobe now wall force with
        ⟨-, hno⟩ | ⟨htime, ⟨-, -, hno⟩ | ⟨hforce, -⟩⟩
      · exact absurd hret (hno cause callId)
      · exact absurd hret (hno cause callId)
      · subst hforce
        exact .timedOut rfl htime
    | some p =>
      rw [poll_of_probing _ _ force hprobe] at hret
      split at hret
      case isFalse => cases hret
      case isTrue htime =>
        cases hsent : p.sent with
        | none => simp [hsent] at htime
        | some sent =>
          simp only [hsent, Option.any_some, decide_eq_true_eq] at htime
          exact .probeTimedOut p sent.1 sent.2 hprobe hsent htime

/-! ## What is known of the state -/

/-- The probe under way, with the turn that began it. -/
def Begun (past : List Turn) (p : Probing) : Prop :=
  ∃ since begun older, past = since ++ begun :: older ∧ (∀ t ∈ since, t.registers = false) ∧
    Suspects begun older ∧ ∀ cseq sentAt, p.sent = some (cseq, sentAt) →
      ∃ later turn earlier, since = later ++ turn :: earlier ∧ turn.entry = .probeSent cseq ∧
        turn.now = sentAt ∧ ∀ t ∈ later, t.entry ≠ .probeResponse cseq

structure Grounded (past : List Turn) : Prop where
  ids : ∀ c, (run past).sub.current = some c → dialog past = some (c.callId, c.localTag)
  outstanding : ∀ c cseq sentAt, (run past).sub.current = some c → c.Waits cseq sentAt →
    Outstanding past c.callId c.localTag cseq sentAt
  probing : ∀ p, (run past).sub.probing = some p → Begun past p

section Grounded

variable {past : List Turn}

theorem dialog_cons (hreg : turn.registers = false)
    (hinit : ∀ sent, turn.entry ≠ .sent sent .initial) : dialog (turn :: past) = dialog past := by
  unfold Turn.registers at hreg
  rw [dialog]
  split at hreg
  · cases hreg
  rename_i hno
  split
  case h_1 h => exact absurd h hno
  case h_2 sent h => exact absurd h (hinit sent)
  case h_3 => rfl

variable (h : Grounded past)

include h

theorem Grounded.ids_step (c : Subscription) (hcur : (run (turn :: past)).sub.current = some c) :
    dialog (turn :: past) = some (c.callId, c.localTag) := by
  have hnext : ((run past).sub.enter turn).1.current = some c := hcur
  by_cases hentry : ∀ sent, turn.entry ≠ .sent sent .initial
  · obtain ⟨d, hd, hgoes⟩ := current_of_enter hentry hnext
    have hreg : turn.registers = false := by
      unfold Turn.registers
      split
      case h_1 hnew => simp [enter, hnew, onNewRegistration] at hnext
      case h_2 => rfl
    rw [dialog_cons hreg hentry, h.ids d hd, hgoes.callId, hgoes.localTag]
  · obtain ⟨sent, hentry⟩ := not_forall_not.1 hentry
    simp only [enter, hentry, onSent] at hnext
    cases hnext
    simp [dialog, hentry]

theorem Grounded.outstanding_step (c : Subscription) (cseq sentAt : Nat)
    (hcur : (run (turn :: past)).sub.current = some c) (hwaits : c.Waits cseq sentAt) :
    Outstanding (turn :: past) c.callId c.localTag cseq sentAt := by
  have hnext : ((run past).sub.enter turn).1.current = some c := hcur
  by_cases hsent : ∃ sent kind, turn.entry = .sent sent kind
  · -- The turn itself is the one that sent it.
    obtain ⟨sent, kind, hentry⟩ := hsent
    have htxn : c.txn = .pending sent.cseq turn.now kind := by
      cases kind with
      | initial =>
        simp only [enter, hentry, onSent] at hnext
        cases hnext
        rfl
      | refresh =>
        simp only [enter, hentry, onSent] at hnext
        obtain ⟨d, -, rfl⟩ := Option.map_eq_some_iff.1 hnext
        rfl
    obtain ⟨kind', hpend⟩ := hwaits.txn
    rw [htxn] at hpend
    cases hpend
    exact ⟨[], turn, past, sent, kind, rfl, hentry, rfl, rfl, h.ids_step c hcur,
      List.forall_mem_nil _⟩
  · obtain ⟨d, hleaves⟩ := waiting_enter (fun sent kind hentry => hsent ⟨sent, kind, hentry⟩)
      hnext hwaits
    obtain ⟨later, sender, earlier, sent, kind, rfl, hentry, hat, hcseq, hdialog, hquiet⟩ :=
      h.outstanding d cseq sentAt hleaves.current hleaves.waits
    rw [hleaves.callId, hleaves.localTag]
    refine ⟨turn :: later, sender, earlier, sent, kind, rfl, hentry, hat, hcseq, hdialog, ?_⟩
    exact List.forall_mem_cons.2 ⟨⟨hleaves.registers, hleaves.noFinal, hleaves.noNotify⟩, hquiet⟩

theorem Grounded.suspects (htime : TimedOut (run past).sub turn.now) : Suspects turn past := by
  obtain ⟨c, cseq, sentAt, hcur, hwaits, hpast⟩ := htime
  exact .inr ⟨_, _, _, _, h.outstanding c cseq sentAt hcur hwaits, hpast⟩

theorem Grounded.probing_step (p : Probing) (hprobe : (run (turn :: past)).sub.probing = some p) :
    Begun (turn :: past) p := by
  cases probing_enter hprobe with
  | same hold hreg hanswer =>
    obtain ⟨since, begun, older, rfl, hsame, hsusp, hsent⟩ := h.probing p hold
    refine ⟨turn :: since, begun, older, rfl, List.forall_mem_cons.2 ⟨hreg, hsame⟩, hsusp, ?_⟩
    intro cseq sentAt hp
    obtain ⟨later, sender, earlier, rfl, hentry, hat, hquiet⟩ := hsent cseq sentAt hp
    refine ⟨turn :: later, sender, earlier, rfl, hentry, hat, ?_⟩
    exact List.forall_mem_cons.2 ⟨hanswer cseq sentAt hp, hquiet⟩
  | sent q cseq hold hentry hsent =>
    obtain ⟨since, begun, older, rfl, hsame, hsusp, -⟩ := h.probing q hold
    refine ⟨turn :: since, begun, older, rfl, ?_, hsusp, fun cseq' sentAt hp => ?_⟩
    · exact List.forall_mem_cons.2 ⟨by simp [Turn.registers, hentry], hsame⟩
    · rw [hsent] at hp
      cases hp
      exact ⟨[], turn, since, rfl, hentry, rfl, nofun⟩
  | begun hsent hentry =>
    refine ⟨[], turn, past, rfl, nofun, ?_, fun cseq sentAt hp => by simp [hsent] at hp⟩
    rcases hentry with ⟨kind, hentry⟩ | htime
    · exact .inl ⟨kind, false, hentry⟩
    · exact h.suspects htime

end Grounded

theorem grounded (past : List Turn) : Grounded past := by
  induction past with
  | nil => exact ⟨nofun, nofun, nofun⟩
  | cons turn past ih =>
    exact ⟨ih.ids_step, ih.outstanding_step, ih.probing_step⟩

/-! ## The verdict -/

/-- No endpoint failure without a SUBSCRIBE that failed or was left unanswered for Timer F, and
either a re-registration on its way or a probe that could not be sent or was not answered. -/
theorem endpointFailure_warranted (past : List Turn) (turn : Turn) (cause : EndpointFailureCause)
    (callId : Option Text)
    (h : (run (turn :: past)).returned = .action (.endpointFailure cause callId)) :
    Warranted turn past := by
  have hgrounded := grounded past
  cases verdict_enter h with
  | sendFailed kind hentry => exact .pending (.inl ⟨kind, true, hentry⟩) (.inl ⟨kind, hentry⟩)
  | timedOut hentry htimedOut => exact .pending (hgrounded.suspects htimedOut) (.inr hentry)
  | probeSendFailed p hprobing hentry =>
    obtain ⟨since, begun, older, hpast, hsame, hsuspects, -⟩ := hgrounded.probing p hprobing
    exact .probed since begun older hpast hsame hsuspects (.inl hentry)
  | probeTimedOut p cseq sentAt hprobing hsent hlate =>
    obtain ⟨since, begun, older, hpast, hsame, hsuspects, hprobe⟩ := hgrounded.probing p hprobing
    obtain ⟨later, sender, earlier, hsince, hentry, rfl, hquiet⟩ := hprobe cseq sentAt hsent
    exact .probed since begun older hpast hsame hsuspects
      (.inr ⟨later, sender, earlier, cseq, hsince, hentry, hlate, hquiet⟩)

/-- The SUBSCRIBE of the first registration. -/
def firstSent : SentSubscribe where
  callId := "sub-a"
  localTag := "ltag-a"
  cseq := 7
  expires := 3600

/-- It goes unanswered, and the probe that is sent for it at 128 s. -/
def probedRun : List Turn :=
  [{ now := secs 128, entry := .probeSent 8 }, { now := secs 128, entry := .poll false },
    { now := 0, entry := .sent firstSent .initial }, { now := 0, entry := .newRegistration }]

theorem endpointFailure_warranted_unanswered :
    Warranted { now := secs 138, entry := .poll false } probedRun :=
  endpointFailure_warranted probedRun { now := secs 138, entry := .poll false } .subscribeTimeout
    (some "sub-a") (by decide)

/-- A NOTIFY in the dialog of that SUBSCRIBE. -/
def lateNotify : SipRequest where
  method := "NOTIFY"
  requestUri := "sip:ue@192.0.2.1"
  headers := [("Event", "reg"), ("Call-ID", "sub-a"),
    ("To", "<sip:ue@192.0.2.1>;tag=ltag-a"),
    ("Subscription-State", "active;expires=600")]
  body := []
  bodyBytes := []

/-- While the probe is out, the subscription it is for is remembered only, and a NOTIFY that
comes late does not call the probe off. -/
theorem late_notify_does_not_stop_verdict :
    ¬ ∀ past turn cause callId,
      (run (turn :: past)).returned = .action (.endpointFailure cause callId) →
        (∃ t ∈ turn :: past, ∃ kind force, t.entry = .sendFailed kind force) ∨
          Unanswered past turn.now := by
  intro h
  rcases h ({ now := secs 129, entry := .notify lateNotify } :: probedRun)
    { now := secs 138, entry := .poll false } .subscribeTimeout (some "sub-a") (by decide)
    with ⟨t, ht, kind, force, hentry⟩ | ⟨callId, localTag, cseq, sentAt, hout, -⟩
  · simp only [probedRun, List.mem_cons, List.not_mem_nil, or_false] at ht
    rcases ht with rfl | rfl | rfl | rfl | rfl | rfl
    all_goals cases hentry
  obtain ⟨later, turn, earlier, sent, kind, hpast, hentry, -, -, hdialog, hquiet⟩ := hout
  -- Only the second turn has sent anything, and the NOTIFY came after it.
  rcases later with _ | ⟨_, _ | ⟨_, _ | ⟨_, _ | ⟨_, later⟩⟩⟩⟩
  · cases hpast
    cases hentry
  · cases hpast
    cases hentry
  · cases hpast
    cases hentry
  · cases hpast
    cases hdialog
    exact (hquiet _ List.mem_cons_self).2.2 ⟨lateNotify, rfl, by decide, by decide, by decide⟩
  rcases later with _ | ⟨_, later⟩
  · cases hpast
    cases hentry
  · simp [probedRun] at hpast

end Ims.RegSubscription
