-- SUMMARY: What is not of the current reg-event subscription is inert.
import GsmSipBridge.Lib.Assoc
import GsmSipBridge.Ims.Agent.RegSubscription

/-!
# Superseded and foreign traffic

Runs here are arbitrary: the entry points are called in any order, with any arguments.
-/

namespace Ims.RegSubscription

open Text SipClient Inbound List

/-! ## Foreign messages -/

/-- The response is for the current subscription's Call-ID and its pending CSeq. -/
def Answers (s : RegSubscription) (resp : SipResponse) : Prop :=
  ∃ c cseq sentAt kind, s.current = some c ∧ c.txn = .pending cseq sentAt kind ∧
    c.callId = (headerOf resp "Call-ID").getD [] ∧
    (headerOf resp "CSeq").bind parseCseqNumber = some cseq

variable {s : RegSubscription} {force : Bool} {resp : SipResponse} {c : Subscription} {turn : Turn}
  {past : List Turn} {now : Nat} {later : List Turn}

theorem answers_of_pendingFor {kind : SubKind} (h : s.pendingFor resp = some (c, kind)) :
    Answers s resp := by
  obtain ⟨hcur, cseq, sentAt, htxn, hcallId, hcseq⟩ := pendingFor_spec h
  exact ⟨c, cseq, sentAt, kind, hcur, htxn, hcallId, hcseq⟩

theorem pendingFor_eq_none (h : ¬ Answers s resp) : s.pendingFor resp = none := by
  cases hpend : s.pendingFor resp with
  | none => rfl
  | some found => exact absurd (answers_of_pendingFor hpend) h

theorem onResponse_foreign (h : ¬ Answers s resp) (now wall : Nat) :
    (s.onResponse resp now wall).1 = s := by
  rcases onResponse_cases s resp now wall with ⟨-, heq⟩ | ⟨c, kind, hpend, -⟩
  · exact heq
  · exact absurd (answers_of_pendingFor hpend) h

theorem onNotify_foreign {req : SipRequest} (h : ¬ InDialog s req) (now : Nat) :
    (s.onNotify req now).1 = s.prune now := by
  rcases onNotify_cases s req now with ⟨-, heq, -⟩ | ⟨c, -, hdialog, -⟩
  · exact heq
  · exact absurd hdialog h

/-! ## Replaced subscriptions -/

/-- The current subscription is gone after the turn, or another has taken its place. -/
def replaces (s : RegSubscription) (turn : Turn) : Bool :=
  match turn.entry with
  | .sent _ .initial => true
  | _ => (s.enter turn).1.current.isNone

/-- How a replaced subscription is remembered. -/
def Subscription.asSuperseded (c : Subscription) : SupersededSub where
  callId := c.callId
  localTag := c.localTag
  forgetAt := c.expiry + supersededGrace

/-- Every subscription that was replaced in a run, the latest at the end. -/
def replaced : List Turn → List SupersededSub
  | [] => []
  | turn :: past =>
    match (run past).sub.current with
    | some c =>
      if replaces (run past).sub turn then replaced past ++ [c.asSuperseded] else replaced past
    | none => replaced past

/-- Not to be forgotten yet. -/
def live (now : Nat) (old : SupersededSub) : Bool := now < old.forgetAt

/-- The same subscription, with the same network tag if it had one. -/
structure Subscription.Goes (c c' : Subscription) : Prop where
  callId : c'.callId = c.callId
  localTag : c'.localTag = c.localTag
  tag : ∀ tag, c.remoteTag = some tag → c'.remoteTag = some tag

/-- What a turn makes of the current subscription and of the memory: it goes on, or it is the
latest that is remembered. -/
inductive Moves (now : Nat) (s : RegSubscription) (current : Option Subscription)
    (superseded : List SupersededSub) : Prop where
  | stays (hsame : ∀ c, s.current = some c → ∃ c', current = some c' ∧ c.Goes c')
      (hnone : s.current = none → current = none)
      (hmem : superseded = s.superseded ∨ superseded = s.superseded.filter (live now))
  | drops (c : Subscription) (hcurrent : s.current = some c) (hnone : current = none)
      (hmem : ∃ base, (base = s.superseded ∨ base = s.superseded.filter (live now)) ∧
        superseded = (Recent.push supersededCap base c.asSuperseded).filter (live now))

abbrev MovesTo (now : Nat) (s t : RegSubscription) : Prop := Moves now s t.current t.superseded

section Moves

variable {wall : Nat} {current : Option Subscription} {superseded : List SupersededSub}
  {d : Subscription} {t : RegSubscription}

theorem Subscription.Goes.refl (c : Subscription) : c.Goes c := ⟨rfl, rfl, fun _ h => h⟩

theorem Subscription.Goes.trans {a b : Subscription} (h : a.Goes b) (h' : b.Goes c) : a.Goes c :=
  ⟨h'.callId.trans h.callId, h'.localTag.trans h.localTag, fun tag ht => h'.tag tag (h.tag tag ht)⟩

theorem Subscription.Goes.learnDialog (h : c.Goes d) (remoteTag : Option Text)
    (routeSet : List Text) (target : Option Text) :
    c.Goes (d.learnDialog remoteTag routeSet target) := by
  unfold Subscription.learnDialog
  split
  case h_1 hnone =>
    exact ⟨h.callId, h.localTag, fun tag ht => absurd (h.tag tag ht) (by simp [hnone])⟩
  case h_2 => exact h

theorem moves_refl : MovesTo now s s :=
  .stays (fun c h => ⟨c, h, .refl c⟩) id (.inl rfl)

theorem moves_same (hcur : s.current = some c) (hgoes : c.Goes d) :
    Moves now s (some d) s.superseded := by
  refine .stays (fun e he => ⟨d, rfl, ?_⟩) (fun hnone => by simp [hcur] at hnone) (.inl rfl)
  obtain rfl : c = e := Option.some.inj (hcur.symm.trans he)
  exact hgoes

theorem moves_supersede : MovesTo now s (s.supersede now) := by
  unfold MovesTo supersede
  cases hcur : s.current with
  | none => exact moves_refl
  | some c => exact .drops c hcur rfl ⟨s.superseded, .inl rfl, rfl⟩

/-- The expired ones may have been forgotten before. -/
theorem Moves.of_prune (h : Moves now (s.prune now) current superseded) :
    Moves now s current superseded := by
  have hagain : (s.prune now).superseded.filter (live now) = s.superseded.filter (live now) :=
    Recent.filter_filter_live (fun _ h => h) s.superseded
  cases h with
  | stays hsame hnone hmem =>
    refine .stays hsame hnone (.inr ?_)
    rcases hmem with hmem | hmem
    · exact hmem
    · exact hmem.trans hagain
  | drops c hcur hnone hmem =>
    obtain ⟨base, hbase, hmem⟩ := hmem
    refine .drops c hcur hnone ⟨base, .inr ?_, hmem⟩
    rcases hbase with hbase | hbase
    · exact hbase
    · exact hbase.trans hagain

/-- The current subscription may have been changed first, as long as it stays the same one. -/
theorem Moves.of_current (hcur : s.current = some c) (hgoes : c.Goes d)
    (hexpiry : d.expiry = c.expiry)
    (h : Moves now { s with current := some d } current superseded) :
    Moves now s current superseded := by
  cases h with
  | stays hsame _ hmem =>
    refine .stays (fun e he => ?_) (fun hnone => by simp [hcur] at hnone) hmem
    obtain rfl : c = e := Option.some.inj (hcur.symm.trans he)
    obtain ⟨c', hc', hnext⟩ := hsame d rfl
    exact ⟨c', hc', hgoes.trans hnext⟩
  | drops e he hnone hmem =>
    obtain rfl : d = e := Option.some.inj he
    have hold : d.asSuperseded = c.asSuperseded := by
      simp [Subscription.asSuperseded, hgoes.callId, hgoes.localTag, hexpiry]
    rw [hold] at hmem
    exact .drops c hcur hnone hmem

theorem moves_beginProbe (cause : EndpointFailureCause) (callId : Option Text)
    (h : MovesTo now s t) : MovesTo now s (t.beginProbe cause callId now wall force).1 := by
  cases force with
  | true | false => exact h

theorem moves_pollRetry (h : MovesTo now s t) : MovesTo now s (t.pollRetry now).1 := by
  obtain ⟨hsame, -, -, -, hmemory⟩ := pollRetry_frame t now
  rw [MovesTo, hsame, hmemory]
  exact h

theorem moves_onCurrentResponse (hcur : s.current = some c) (kind : SubKind) :
    MovesTo now s (s.onCurrentResponse resp c kind now wall) := by
  unfold onCurrentResponse
  split
  · exact moves_refl
  apply Moves.of_current hcur (d := { c with txn := .idle }) ⟨rfl, rfl, fun _ h => h⟩ rfl
  simp only
  split
  · unfold onAccepted
    simp only
    split
    · exact moves_supersede
    · apply moves_same rfl
      apply Subscription.Goes.learnDialog
      exact ⟨rfl, rfl, fun _ h => h⟩
  · split
    · cases kind with
      | initial => exact moves_supersede
      | refresh => exact moves_refl
    split
    · exact moves_supersede
    split
    · exact moves_supersede
    unfold onRefused
    split
    · exact moves_supersede
    · exact moves_refl

theorem moves_onResponse : MovesTo now s (s.onResponse resp now wall).1 := by
  rcases onResponse_cases s resp now wall with ⟨-, heq⟩ | ⟨c, kind, hpend, heq⟩
  · rw [heq]
    exact moves_refl
  · rw [heq]
    exact moves_onCurrentResponse (pendingFor_spec hpend).1 kind

theorem moves_onNotify (req : SipRequest) : MovesTo now s (s.onNotify req now).1 := by
  apply Moves.of_prune
  rcases onNotify_cases s req now with ⟨-, heq, -⟩ | ⟨c, hcur, -, heq⟩
  · rw [heq]
    exact moves_refl
  have hlearnt := (Subscription.Goes.refl c).learnDialog
    ((Inbound.headerOf req "From").bind headerTag)
    (routeSetInOrder (headersAll req.headers "Record-Route"))
    ((Inbound.headerOf req "Contact").bind contactUri)
  rw [heq]
  simp only [confirmCurrent]
  split <;> exact moves_same hcur (hlearnt.trans ⟨rfl, rfl, fun _ h => h⟩)

theorem moves_applySubscriptionState (state : SubState) :
    MovesTo now s (s.applySubscriptionState state now wall) := by
  cases hcur : s.current with
  | none =>
    have hsame : s.applySubscriptionState state now wall = s := by
      simp [applySubscriptionState, hcur]
    rw [hsame]
    exact moves_refl
  | some c =>
    simp only [applySubscriptionState, hcur]
    cases state.state with
    | missing => exact moves_refl
    | active | pending =>
      cases state.expires with
      | none => exact moves_refl
      | some e => exact moves_same hcur ⟨rfl, rfl, fun _ h => h⟩
    | terminated =>
      simp only [onTerminated]
      split
      · exact moves_supersede
      · split <;> exact moves_supersede

theorem moves_pollCurrent (c : Subscription) :
    MovesTo now s (s.pollCurrent c now wall force).1 := by
  refine pollCurrent_cases ?unanswered ?expired ?unconfirmed ?refreshes ?replaced ?waits
  case unanswered => exact fun _ => moves_beginProbe _ _ moves_supersede
  case expired => exact fun _ => moves_pollRetry moves_supersede
  case unconfirmed => exact fun _ => moves_supersede
  case refreshes => exact fun _ _ _ _ => moves_refl
  case replaced => exact fun _ _ _ => moves_pollRetry moves_supersede
  case waits => exact fun _ => moves_pollRetry moves_refl

theorem closeNotified_goes (c : Subscription) (now : Nat) :
    c.Goes (c.closeNotified now) ∧ (c.closeNotified now).expiry = c.expiry := by
  unfold Subscription.closeNotified
  split
  · split
    · exact ⟨⟨rfl, rfl, fun _ h => h⟩, rfl⟩
    · exact ⟨.refl c, rfl⟩
  · exact ⟨.refl c, rfl⟩

theorem moves_poll : MovesTo now s (s.poll now wall force).1 := by
  apply Moves.of_prune
  refine poll_cases ?verdict ?probing ?stopped ?retries ?ticks
  case verdict => exact fun _ _ => moves_refl
  case probing => exact fun _ => moves_refl
  case stopped => exact fun _ _ => moves_refl
  case retries => exact fun _ _ _ => moves_pollRetry moves_refl
  case ticks =>
    intro c _ _ hcur
    obtain ⟨hgoes, hexpiry⟩ := closeNotified_goes c now
    apply Moves.of_current (s := s.prune now) hcur hgoes hexpiry
    exact moves_pollCurrent _

/-- A turn that sends no new subscription. -/
theorem enter_moves (s : RegSubscription) (h : ∀ sent, turn.entry ≠ .sent sent .initial) :
    MovesTo turn.now s (s.enter turn).1 := by
  unfold enter
  cases hentry : turn.entry with
  | newRegistration => exact moves_supersede
  | sent sent kind =>
    cases kind with
    | initial => exact absurd hentry (h sent)
    | refresh =>
      cases hcur : s.current with
      | none =>
        refine .stays (fun c h => by simp [hcur] at h) (fun _ => ?_) (.inl rfl)
        exact congrArg (Option.map _) hcur
      | some c =>
        simp only [onSent, hcur, Option.map_some]
        exact moves_same hcur ⟨rfl, rfl, fun _ h => h⟩
  | sendFailed kind force =>
    cases kind with
    | initial => exact moves_beginProbe _ _ moves_refl
    | refresh => exact moves_beginProbe _ _ moves_supersede
  | probeSent cseq => exact moves_refl
  | probeSendFailed =>
    simp only [onProbeSendFailed]
    cases s.probing with
    | none | some => exact moves_refl
  | probeResponse cseq =>
    simp only [onProbeResponse]
    cases s.probing.filter fun p => p.sent.any (·.1 == cseq) with
    | none | some => exact moves_refl
  | response resp => exact moves_onResponse
  | notify req => exact moves_onNotify req
  | applyState state => exact moves_applySubscriptionState state
  | poll force => exact moves_poll

/-- A subscription that a turn did not start was there before. -/
theorem current_of_enter {c' : Subscription} (h : ∀ sent, turn.entry ≠ .sent sent .initial)
    (hnext : (s.enter turn).1.current = some c') : ∃ c, s.current = some c ∧ c.Goes c' := by
  cases enter_moves s h with
  | stays hsame hnone _ =>
    cases hcur : s.current with
    | none => simp [hnone hcur] at hnext
    | some c =>
      obtain ⟨d, hd, hgoes⟩ := hsame c hcur
      obtain rfl : d = c' := Option.some.inj (hd.symm.trans hnext)
      exact ⟨c, rfl, hgoes⟩
  | drops c _ hnone _ => simp [hnone] at hnext

end Moves

/-! ## The memory -/

/-- The clock does not go back. -/
def InOrder (l : Line) (turn : Turn) : Prop := l.clock ≤ turn.now

theorem live_of_le {t : Nat} (h : t ≤ now) (old : SupersededSub) (hlive : live now old = true) :
    live t old = true := by
  simp only [live, decide_eq_true_eq] at hlive ⊢
  exact Nat.lt_of_le_of_lt h hlive

/-- A new subscription takes the place of the current one. -/
theorem enter_initial_superseded {sent : SentSubscribe} (h : turn.entry = .sent sent .initial) :
    (s.enter turn).1.superseded = (s.supersede turn.now).superseded := by
  obtain ⟨current⟩ := s
  simp only [enter, h]
  cases current with
  | none | some => rfl

theorem length_superseded_enter (turn : Turn)
    (h : s.superseded.length ≤ supersededCap) :
    (s.enter turn).1.superseded.length ≤ supersededCap := by
  have hmoves : ∀ {current superseded}, Moves turn.now s current superseded →
      superseded.length ≤ supersededCap := by
    intro current superseded hmoves
    cases hmoves with
    | stays _ _ hmem =>
      rcases hmem with rfl | rfl
      · exact h
      · exact Nat.le_trans (length_filter_le _ _) h
    | drops c _ _ hmem =>
      obtain ⟨base, -, rfl⟩ := hmem
      exact Nat.le_trans (length_filter_le _ _) (Recent.length_push_le _ _ _)
  by_cases hentry : ∀ sent, turn.entry ≠ .sent sent .initial
  · exact hmoves (enter_moves s hentry)
  · obtain ⟨sent, hentry⟩ := not_forall_not.1 hentry
    rw [enter_initial_superseded hentry]
    exact hmoves moves_supersede

theorem length_superseded_run (past : List Turn) :
    (run past).sub.superseded.length ≤ supersededCap :=
  History.after_of_invariant (I := fun l : Line => l.sub.superseded.length ≤ supersededCap)
    (Nat.zero_le _) (fun _ turn h => length_superseded_enter turn h) past

/-- What a turn does to the memory, by whether it replaces the current subscription. -/
theorem superseded_enter (s : RegSubscription) (turn : Turn) :
    match s.current, replaces s turn with
    | some c, true => ∃ base, (base = s.superseded ∨ base = s.superseded.filter (live turn.now)) ∧
          (s.enter turn).1.superseded =
            (Recent.push supersededCap base c.asSuperseded).filter (live turn.now)
    | _, _ => (s.enter turn).1.superseded = s.superseded ∨
        (s.enter turn).1.superseded = s.superseded.filter (live turn.now) := by
  by_cases hentry : ∀ sent, turn.entry ≠ .sent sent .initial
  · have hrepl : replaces s turn = (s.enter turn).1.current.isNone := by
      unfold replaces
      split
      case h_1 sent h => exact absurd h (hentry sent)
      case h_2 => rfl
    rw [hrepl]
    cases enter_moves s hentry with
    | stays hsame _ hmem =>
      cases hcur : s.current with
      | none => exact hmem
      | some c =>
        obtain ⟨c', hnext, -⟩ := hsame c hcur
        rw [hnext]
        exact hmem
    | drops c hcur hnone hmem =>
      rw [hcur, hnone]
      exact hmem
  · obtain ⟨sent, hentry⟩ := not_forall_not.1 hentry
    have hrepl : replaces s turn = true := by simp [replaces, hentry]
    rw [hrepl, enter_initial_superseded hentry]
    cases hcur : s.current with
    | none => exact .inl (by simp [supersede, hcur])
    | some c =>
      refine ⟨s.superseded, .inl rfl, ?_⟩
      simp only [supersede, hcur]
      rfl

/-- The memory holds the latest subscriptions that were replaced, as long as each is live. -/
theorem keeps_replaced (h : History.Met step {} InOrder past) :
    ∃ t ≤ (run past).clock,
      Recent.Keeps supersededCap live t (run past).sub.superseded (replaced past) := by
  induction past with
  | nil => exact ⟨0, Nat.le_refl 0, Recent.keeps_nil⟩
  | cons turn past ih =>
    obtain ⟨t, hle, hkeeps⟩ := ih h.1
    have hnow : t ≤ turn.now := Nat.le_trans hle h.2
    have hlen := length_superseded_run past
    have hspec := superseded_enter (run past).sub turn
    have hsub : (run (turn :: past)).sub = ((run past).sub.enter turn).1 := rfl
    rw [hsub]
    -- A turn without a replacement forgets what has expired, or nothing.
    have hstays : ((run past).sub.enter turn).1.superseded = (run past).sub.superseded ∨
        ((run past).sub.enter turn).1.superseded =
          (run past).sub.superseded.filter (live turn.now) →
        ∃ t ≤ turn.now, Recent.Keeps supersededCap live t
          ((run past).sub.enter turn).1.superseded (replaced past) := by
      rintro (hmem | hmem)
      · rw [hmem]
        exact ⟨t, hnow, hkeeps⟩
      · rw [hmem]
        exact ⟨turn.now, Nat.le_refl _, hkeeps.expire (live_of_le hnow)⟩
    simp only [replaced]
    cases hcur : (run past).sub.current with
    | none =>
      rw [hcur] at hspec
      exact hstays hspec
    | some c =>
      cases hrepl : replaces (run past).sub turn with
      | false =>
        rw [hcur, hrepl] at hspec
        exact hstays hspec
      | true =>
        rw [hcur, hrepl] at hspec
        obtain ⟨base, hbase, hmem⟩ := hspec
        rw [hmem]
        refine ⟨turn.now, Nat.le_refl _, ?_⟩
        rcases hbase with rfl | rfl
        · exact hkeeps.push (live_of_le hnow) hlen (by decide) _
        · exact (hkeeps.expire (live_of_le hnow)).push (fun _ hlive => hlive)
            (Nat.le_trans (length_filter_le _ _) hlen) (by decide) _

/-! ## Recognition -/

/-- Messages of a replaced subscription are told from messages of no subscription. -/
structure Recognised (s : RegSubscription) (old : SupersededSub) (now : Nat) : Prop where
  notify : ∀ req, eqIgnoreAsciiCase (notifyEvent req) "reg" = true →
    callIdOf req = old.callId → (Inbound.headerOf req "To").bind headerTag = some old.localTag →
    ¬ InDialog s req → (s.onNotify req now).2 = .superseded
  response : ∀ resp wall, (headerOf resp "Call-ID").getD [] = old.callId → ¬ Answers s resp →
    (s.onResponse resp now wall).2 = .superseded

theorem recognised_of_mem {old : SupersededSub} (hmem : old ∈ s.superseded)
    (hlive : now < old.forgetAt) : Recognised s old now where
  notify req hevent hcallId htag hforeign := by
    simp only [onNotify, hevent, Bool.not_true, Bool.false_eq_true, if_false, htag]
    cases hfound : (s.prune now).current.filter fun c =>
        c.callId == callIdOf req && c.localTag == old.localTag with
    | some c => exact absurd (inDialog_of_filter htag hfound) hforeign
    | none =>
      have hkept : old ∈ (s.prune now).superseded :=
        mem_filter.2 ⟨hmem, decide_eq_true hlive⟩
      have hany : ((s.prune now).superseded.any fun other =>
          other.callId == callIdOf req && other.localTag == old.localTag) = true :=
        any_eq_true.2 ⟨old, hkept, by simp [hcallId]⟩
      simp [hany]
  response resp wall hcallId hforeign := by
    have hany : (s.superseded.any (·.callId == old.callId)) = true :=
      any_eq_true.2 ⟨old, hmem, beq_self_eq_true _⟩
    simp [onResponse, pendingFor_eq_none hforeign, hcallId, hany]

/-! ## The network tag -/

theorem replaced_grows (later past : List Turn) : replaced past <+: replaced (later ++ past) := by
  induction later with
  | nil => exact prefix_refl _
  | cons turn later ih =>
    rw [cons_append, replaced]
    split
    · split
      · exact ih.trans (prefix_append _ _)
      · exact ih
    · exact ih

/-- A turn that does not replace the current subscription lets it go on. -/
theorem current_enter (hcur : s.current = some c) (h : replaces s turn = false) :
    ∃ c', (s.enter turn).1.current = some c' ∧ c.Goes c' := by
  have hentry : ∀ sent, turn.entry ≠ .sent sent .initial := by
    intro sent hsent
    simp [replaces, hsent] at h
  have hsome : (s.enter turn).1.current.isNone = false := by
    unfold replaces at h
    split at h
    · cases h
    · exact h
  cases enter_moves s hentry with
  | stays hsame _ _ => exact hsame c hcur
  | drops d _ hnone _ => simp [hnone] at hsome

/-- The current subscription of a run goes on as long as no turn replaces it. -/
theorem current_of_not_replaced (hcur : (run past).sub.current = some c)
    (hsame : replaced (later ++ past) = replaced past) :
    ∃ c', (run (later ++ past)).sub.current = some c' ∧ c.Goes c' := by
  induction later with
  | nil => exact ⟨c, hcur, .refl c⟩
  | cons turn later ih =>
    have hlast : replaced (later ++ past) <+: replaced (turn :: (later ++ past)) :=
      replaced_grows [turn] (later ++ past)
    have hrest : replaced (later ++ past) = replaced past := by
      rw [cons_append] at hsame
      rw [hsame] at hlast
      exact hlast.eq_of_length_le (replaced_grows later past).length_le
    obtain ⟨d, hd, hgoes⟩ := ih hrest
    have hkept : replaces (run (later ++ past)).sub turn = false := by
      cases hrepl : replaces (run (later ++ past)).sub turn with
      | false => rfl
      | true =>
        have hlen := congrArg length hsame
        simp [replaced, hd, hrepl, hrest] at hlen
    obtain ⟨c', hc', hnext⟩ := current_enter hd hkept
    exact ⟨c', hc', hgoes.trans hnext⟩

/-! ## Once stopped -/

def Returned.isSend : Returned → Bool
  | .action (.sendInitial _) => true
  | .action (.sendRefresh _) => true
  | _ => false

section Stopped

variable (now wall : Nat) (h : s.stopped.isSome = true)

include h

theorem stopped_beginProbe (cause : EndpointFailureCause) (callId : Option Text) (force : Bool) :
    (s.beginProbe cause callId now wall force).1.stopped.isSome = true ∧
      (Returned.action (s.beginProbe cause callId now wall force).2).isSend = false := by
  cases force with
  | true | false => exact ⟨h, rfl⟩

theorem stopped_onCurrentResponse (resp : SipResponse) (c : Subscription) (kind : SubKind) :
    (s.onCurrentResponse resp c kind now wall).stopped.isSome = true := by
  by_cases hfinal : resp.status < 200
  · simpa [onCurrentResponse, hfinal] using h
  · cases onCurrentResponse_final (s := s) hfinal c kind now wall with
    | accepted _ _ _ _ _ hstop | kept _ _ _ hstop | gone _ _ hstop => exact hstop ▸ h
    | stopped _ _ hstop => exact hstop

theorem stopped_applySubscriptionState (state : SubState) :
    (s.applySubscriptionState state now wall).stopped.isSome = true := by
  cases hcur : s.current with
  | none => simpa [applySubscriptionState, hcur] using h
  | some c =>
    cases applySubscriptionState_cases hcur state now wall with
    | unchanged _ heq | renewed _ _ _ heq =>
      rw [heq]
      exact h
    | retried _ _ _ hstop => exact hstop ▸ h
    | stopped _ _ _ hstop => exact hstop

end Stopped

/-- No entry point but a new registration lets a stopped subscription send. -/
theorem stopped_enter (h : s.stopped.isSome = true) (hentry : turn.entry ≠ .newRegistration) :
    (s.enter turn).1.stopped.isSome = true ∧ (s.enter turn).2.isSend = false := by
  unfold enter
  cases hturn : turn.entry with
  | newRegistration => exact absurd hturn hentry
  | sent sent kind =>
    cases kind with
    | initial =>
      refine ⟨?_, rfl⟩
      simp only [onSent, supersede_stopped]
      exact h
    | refresh => exact ⟨h, rfl⟩
  | sendFailed kind force =>
    cases kind with
    | initial => exact stopped_beginProbe _ _ h _ _ force
    | refresh =>
      apply stopped_beginProbe
      rw [supersede_stopped]
      exact h
  | probeSent cseq => exact ⟨h, rfl⟩
  | probeSendFailed =>
    simp only [onProbeSendFailed]
    cases s.probing with
    | none | some => exact ⟨h, rfl⟩
  | probeResponse cseq =>
    simp only [onProbeResponse]
    cases s.probing.filter fun p => p.sent.any (·.1 == cseq) with
    | none | some => exact ⟨h, rfl⟩
  | response resp =>
    refine ⟨?_, rfl⟩
    rcases onResponse_cases s resp turn.now turn.wall with ⟨-, heq⟩ | ⟨c, kind, -, heq⟩
    · rw [Prod.map_fst, heq]
      exact h
    · rw [Prod.map_fst, heq]
      exact stopped_onCurrentResponse _ _ h resp c kind
  | notify req => exact ⟨(onNotify_frame s req _).1 ▸ h, rfl⟩
  | applyState state => exact ⟨stopped_applySubscriptionState _ _ h state, rfl⟩
  | poll force =>
    simp only [Prod.map_fst, Prod.map_snd, id_eq]
    cases hprobe : s.probing with
    | none =>
      rw [poll_of_stopped _ _ force hprobe h]
      exact ⟨h, rfl⟩
    | some p =>
      rw [poll_of_probing _ _ force hprobe]
      split <;> exact ⟨h, rfl⟩

theorem stopped_run (hstop : (run past).sub.stopped.isSome = true)
    (hentry : ∀ turn ∈ later, turn.entry ≠ .newRegistration) :
    (run (later ++ past)).sub.stopped.isSome = true := by
  induction later with
  | nil => exact hstop
  | cons turn later ih =>
    have hrest := ih fun t ht => hentry t (mem_cons_of_mem turn ht)
    exact (stopped_enter hrest (hentry turn mem_cons_self)).1

/-! ## Every run -/

/-- What is not of the current subscription changes nothing, in any state of any run. -/
structure Inert (past : List Turn) : Prop where
  response : ∀ resp now wall, ¬ Answers (run past).sub resp →
    ((run past).sub.onResponse resp now wall).1 = (run past).sub
  notify : ∀ req now, ¬ InDialog (run past).sub req →
    ((run past).sub.onNotify req now).1 = (run past).sub.prune now
  /-- The network tag stays until the subscription is replaced. -/
  tag : ∀ later c tag, (run past).sub.current = some c → c.remoteTag = some tag →
    replaced (later ++ past) = replaced past →
    ∃ c', (run (later ++ past)).sub.current = some c' ∧ c'.callId = c.callId ∧
      c'.remoteTag = some tag
  bounded : (run past).sub.superseded.length ≤ 32
  /-- A replaced subscription is recognised until its expiry and 128 s have passed, or 32 more
  have been replaced. -/
  recognised : History.Met step {} InOrder past → ∀ older old newer now,
    replaced past = older ++ old :: newer → newer.length < 32 → (run past).clock ≤ now →
    now < old.forgetAt → Recognised (run past).sub old now
  stopped : ∀ later turn, (run past).sub.stopped.isSome = true →
    (∀ t ∈ turn :: later, t.entry ≠ .newRegistration) →
    (run (turn :: (later ++ past))).returned.isSend = false

theorem inert_throughout (past : List Turn) : Inert past where
  response _ now wall h := onResponse_foreign h now wall
  notify _ now h := onNotify_foreign h now
  tag _ _ tag hcurrent htag hsame := by
    obtain ⟨c', hc', hgoes⟩ := current_of_not_replaced hcurrent hsame
    exact ⟨c', hc', hgoes.callId, hgoes.tag tag htag⟩
  bounded := length_superseded_run past
  recognised horder _ old _ _ hreplaced hnewer hclock hlive := by
    obtain ⟨t, ht, hkeeps⟩ := keeps_replaced horder
    have hthen : live t old = true :=
      live_of_le (Nat.le_trans ht hclock) old (decide_eq_true hlive)
    exact recognised_of_mem (hkeeps.mem_of_recent hreplaced hnewer hthen) hlive
  stopped _ turn hstopped hentry := by
    have hrest := stopped_run hstopped fun t ht => hentry t (mem_cons_of_mem turn ht)
    exact (stopped_enter hrest (hentry turn mem_cons_self)).2

end Ims.RegSubscription
