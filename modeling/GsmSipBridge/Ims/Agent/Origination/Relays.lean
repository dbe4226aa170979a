-- SUMMARY: Which turns leave a media relay behind, over whole runs of an outbound attempt.
import GsmSipBridge.Ims.Agent.Origination.Settlement

/-!
# Media relays

At most one relay of an attempt runs at a time: that of the early media, and then that of
the bridged call. The invariant says which one it is; a relay that runs without an owner is
one that nobody will stop.
-/

namespace Ims.Origination

open Text SipClient Sdp PendingOrigination PendingOrigination

variable {relays : List Bool} {α : Type} {r : Except Text α}

/-! ## Running relays -/

/-- The owner's relay runs, and no other one does. -/
def Runs (relays : List Bool) (owner : Option Nat) : Prop :=
  ∀ relay, relays[relay]? = some false ↔ owner = some relay

theorem Runs.start (h : Runs relays none) : Runs (relays ++ [false]) (some relays.length) := by
  intro relay
  rcases Nat.lt_trichotomy relay relays.length with hlt | rfl | hgt
  · have hold := h relay
    simp only [reduceCtorEq, iff_false] at hold
    simp only [List.getElem?_append_left hlt, hold, Option.some.injEq, false_iff]
    exact Nat.ne_of_gt hlt
  · simp
  · have hnone : (relays ++ [false])[relay]? = none := by
      simpa [Nat.succ_le_iff] using hgt
    simp [hnone, Nat.ne_of_lt hgt]

theorem Runs.stop {relay : Nat} (h : Runs relays (some relay)) :
    Runs (relays.set relay true) none := by
  intro other
  by_cases heq : relay = other
  · subst heq
    simp [List.getElem?_set]
  · rw [List.getElem?_set_ne heq, h other]
    simpa using heq

theorem exists_of_isOk (h : r.isOk = true) : ∃ a, r = .ok a := by
  cases r with
  | ok a => exact ⟨a, rfl⟩
  | error e => cases h

theorem exists_of_not_isOk (h : r.isOk = false) : ∃ e, r = .error e := by
  cases r with
  | ok a => cases h
  | error e => exact ⟨e, rfl⟩

variable {reason : Text}

section

variable {log : Log} {env : Env} (p : PendingOrigination)

@[simp] theorem hangup_relays (dialog : DialogInfo) :
    (hangupAnsweredCarrierLeg log env dialog reason).relays = log.relays := by
  simp [hangupAnsweredCarrierLeg]

@[simp] theorem fail_relays :
    (p.fail log env reason).2.relays = (p.stopEarlyRelay log).2.relays := by
  simp only [fail, stopEarlyRelay]
  split <;> simp [Log.stop]

@[simp] theorem beginCancel_relays : (p.beginCancel log env).2.relays = log.relays := by
  unfold beginCancel
  split <;> simp

theorem stopEarlyRelay_length : (p.stopEarlyRelay log).2.relays.length = log.relays.length := by
  simp only [stopEarlyRelay]
  split <;> simp [Log.stop]

end

/-! ## What must not happen -/

/-- A CANCEL is out, or is to go out. -/
def PendingOrigination.cancelling (p : PendingOrigination) : Bool :=
  match p.step with
  | .awaitingCancel _ => true
  | .awaitingCarrier | .awaitingVeth _ _ _ => false

/-- Once the attempt is dropped, a relay that was not stopped belongs to the bridged call. -/
def Owned (a : Attempt) : Prop :=
  a.pending = none → ∀ relay, a.log.relays[relay]? = some false →
    a.call.map ActiveCall.stop = some relay

/-- No relay starts once the attempt was abandoned or is being cancelled. -/
def StartsInTime (a : Attempt) (t : Env × Event) : Prop :=
  ∀ p, a.pending = some p → p.abandoned = true ∨ p.cancelling = true →
    (step a t).log.relays.length = a.log.relays.length

def Contained (a : Attempt) (t : Env × Event) : Prop := Owned (step a t) ∧ StartsInTime a t

/-- Whether a tick finds the early handshake finished and can start its relay. -/
def PendingOrigination.earlyRelayStarts (p : PendingOrigination) (env : Env) : Bool :=
  p.earlyRelay.isNone && p.earlyVethRx &&
    match env.earlyVeth, p.earlyMediaCodec.bind offeredChosenCodec with
    | .value (some veth), some chosen => env.clones && relayStarts env chosen veth
    | _, _ => false

/-- Whether the response is the one that has the call announced to the telephone side. -/
def PendingOrigination.Places (p : PendingOrigination) (env : Env) (resp : SipResponse) : Prop :=
  p.step = .awaitingCarrier ∧
    (responseMethod resp).any (!eqIgnoreAsciiCase · "INVITE") = false ∧
    resp.status = 200 ∧ p.Usable env resp ∧
    (env.send (.ack (toHeader resp) p.inviteCseq)).isOk = true

/-- No early handshake finishes while a CANCEL is waited for, and the telephone side can be
told of an answered call whose early media are running. -/
def Orderly (a : Attempt) (t : Env × Event) : Prop :=
  ∀ p, a.pending = some p →
    match t.2 with
    | .tick => p.cancelling = true → p.abandons t.1 = false → p.earlyRelayStarts t.1 = false
    | .response resp =>
      p.matchesResponse resp = true → p.Places t.1 resp → p.earlyRelay.isSome = true →
        (t.1.write .callPlaced).isOk = true
    | .registrationRejected => True

/-! ## The invariant -/

structure Tended (p : PendingOrigination) (relays : List Bool) : Prop where
  runs : Runs relays (p.earlyRelay.map Prod.fst)
  cancelling : p.cancelling = true → p.earlyRelay = none
  waiting : ∀ dialog vethRx codec, p.step = .awaitingVeth dialog vethRx codec →
    vethRx ≠ .running → p.earlyRelay = none ∧ p.earlyVethRx = false
  abandoned : p.abandoned = true → p.cancelling = true

def Guarded (o : Outcome) : Prop :=
  match o.pending with
  | none => Runs o.log.relays (o.call.map ActiveCall.stop)
  | some p => Tended p o.log.relays

variable {codec : NegotiatedCodec}

section

variable {p q : PendingOrigination} {log log' : Log} {env : Env} {dialog : DialogInfo}

theorem Tended.runs_none (h : Tended p relays) (hearly : p.earlyRelay = none) :
    Runs relays none := by
  simpa [hearly] using h.runs

theorem tended_cancelling (hcancel : p.cancelling = true) (hearly : p.earlyRelay = none)
    (hruns : Runs relays none) : Tended p relays where
  runs := by simpa [hearly] using hruns
  cancelling _ := hearly
  waiting dialog vethRx codec hstep := by simp [cancelling, hstep] at hcancel
  abandoned _ := hcancel

theorem tended_carrier (hstep : p.step = .awaitingCarrier) (haband : p.abandoned = false)
    (hruns : Runs relays (p.earlyRelay.map Prod.fst)) : Tended p relays where
  runs := hruns
  cancelling h := by simp [cancelling, hstep] at h
  waiting := by simp [hstep]
  abandoned h := by simp [haband] at h

theorem Tended.not_abandoned (h : Tended p relays) (hstep : p.cancelling = false) :
    p.abandoned = false := by
  cases haband : p.abandoned with
  | false => rfl
  | true => simpa [hstep] using h.abandoned haband

theorem stopEarlyRelay_runs (h : Runs log.relays (p.earlyRelay.map Prod.fst)) :
    Runs (p.stopEarlyRelay log).2.relays none := by
  cases hearly : p.earlyRelay with
  | none => simpa [stopEarlyRelay, hearly] using h
  | some early =>
    simp only [hearly, Option.map_some] at h
    simpa [stopEarlyRelay, hearly, Log.stop] using h.stop

theorem fail_runs (h : Runs log.relays (p.earlyRelay.map Prod.fst)) :
    Runs (p.fail log env reason).2.relays none := by
  rw [fail_relays]
  exact stopEarlyRelay_runs h

/-! ### Ends of an attempt -/

theorem guarded_hangup (h : Runs log.relays none) :
    Guarded { pending := none, log := hangupAnsweredCarrierLeg log env dialog reason } := by
  simpa [Guarded] using h

theorem guarded_hangupPending (h : Runs log.relays (p.earlyRelay.map Prod.fst)) :
    Guarded (p.hangupPendingCarrierLeg log env dialog reason) :=
  guarded_hangup (stopEarlyRelay_runs h)

theorem guarded_bridgeWith (h : Runs log.relays none) (chosen veth : ChosenCodec) :
    Guarded (bridgeWith log env dialog chosen veth) := by
  unfold bridgeWith
  split
  · exact h.start
  · exact guarded_hangup h

theorem guarded_bridgeEarly {relay : Nat} (h : Runs log.relays (some relay)) (early : ChosenCodec) :
    Guarded (p.bridgeEarly log env dialog codec relay early) := by
  have hstop : Runs (log.stop relay).relays none := h.stop
  unfold bridgeEarly
  split
  · split
    · exact h
    split
    · exact guarded_hangup hstop
    · exact guarded_bridgeWith hstop _ _
  · exact guarded_hangup hstop

theorem guarded_finishOrigination (h : Runs log.relays (p.earlyRelay.map Prod.fst))
    (result : Option (Option ChosenCodec))
    (hearly : result ≠ none → p.earlyRelay = none) :
    Guarded (p.finishOrigination log env dialog codec result) := by
  unfold finishOrigination
  split
  case h_1 relay early hrelay => exact guarded_bridgeEarly (by simpa [hrelay] using h) _
  case h_2 hrelay => exact guarded_hangup (by simpa [hrelay] using h)
  case h_3 => exact guarded_hangup (by simpa [hearly] using h)
  case h_4 =>
    have hnone : Runs log.relays none := by simpa [hearly] using h
    split
    · exact guarded_hangup hnone
    · exact guarded_bridgeWith hnone _ _

theorem beginCancel_cancelling : (p.beginCancel log env).1.cancelling = true := by
  unfold beginCancel
  split <;> rfl

theorem beginCancel_earlyRelay : (p.beginCancel log env).1.earlyRelay = p.earlyRelay := by
  unfold beginCancel
  split <;> rfl

theorem guarded_beginCancel (hearly : p.earlyRelay = none) (h : Runs log.relays none) :
    Guarded { pending := some (p.beginCancel log env).1, log := (p.beginCancel log env).2 } := by
  apply tended_cancelling beginCancel_cancelling
  · exact beginCancel_earlyRelay.trans hearly
  · simpa using h

theorem guarded_giveUp (hearly : p.earlyRelay = none) (h : Runs log.relays none) :
    Guarded (p.giveUp log env reason) := by
  unfold giveUp
  split
  case h_1 => exact guarded_beginCancel hearly h
  case h_2 => exact guarded_hangupPending (by simpa [hearly] using h)
  case h_3 sent hstep =>
    exact tended_cancelling (by simp [cancelling, hstep]) hearly h

/-! ### Ticks -/

/-- The poll of the early handshake starts a relay, or leaves everything but the receiver. -/
theorem pollEarlyVeth_cases (p : PendingOrigination) (log : Log) (env : Env) :
    (p.earlyRelayStarts env = true ∧ p.earlyRelay = none ∧ p.earlyVethRx = true ∧
      ∃ chosen veth, p.pollEarlyVeth log env =
        ({ p with earlyVethRx := false, earlyRelay := some (log.relays.length, chosen),
                  earlyVethSocket := some veth }, log.start)) ∨
    (p.earlyRelayStarts env = false ∧
      ∃ vethRx, (vethRx = true → p.earlyVethRx = true) ∧
        p.pollEarlyVeth log env = ({ p with earlyVethRx := vethRx }, log)) := by
  unfold pollEarlyVeth
  split
  case isTrue hready =>
    obtain ⟨hearly, hrx⟩ := Bool.and_eq_true_iff.1 hready
    have hstarts : p.earlyRelayStarts env =
        match env.earlyVeth, p.earlyMediaCodec.bind offeredChosenCodec with
        | .value (some veth), some chosen => env.clones && relayStarts env chosen veth
        | _, _ => false := by
      simp only [earlyRelayStarts, hready, Bool.true_and]
    rw [hstarts]
    cases hpoll : env.earlyVeth with
    | empty => exact .inr ⟨rfl, true, fun _ => hrx, by simp [← hrx]⟩
    | disconnected => exact .inr ⟨rfl, false, nofun, rfl⟩
    | value result =>
      cases result with
      | none => exact .inr ⟨rfl, false, nofun, rfl⟩
      | some veth =>
        unfold startEarlyRelay
        dsimp only
        cases hcodec : p.earlyMediaCodec.bind offeredChosenCodec with
        | none => exact .inr ⟨rfl, false, nofun, rfl⟩
        | some chosen =>
          dsimp only
          split
          case isTrue hgo =>
            exact .inl ⟨hgo, Option.isNone_iff_eq_none.1 hearly, hrx, chosen, veth, rfl⟩
          case isFalse hgo => exact .inr ⟨Bool.eq_false_iff.2 hgo, false, nofun, rfl⟩
  case isFalse hready =>
    refine .inr ⟨?_, p.earlyVethRx, id, rfl⟩
    simp only [earlyRelayStarts, Bool.eq_false_iff.2 hready, Bool.false_and]

section

variable (h : Tended p log.relays)

include h

theorem tended_pollEarlyVeth (hquiet : p.cancelling = true → p.earlyRelayStarts env = false) :
    Tended (p.pollEarlyVeth log env).1 (p.pollEarlyVeth log env).2.relays := by
  rcases pollEarlyVeth_cases p log env with
    ⟨hstarts, hearly, hrx, chosen, veth, heq⟩ | ⟨-, rx, hrx, heq⟩
  · rw [heq]
    refine ⟨(h.runs_none hearly).start, fun hcancel => ?_, fun d vethRx c hstep hne => ?_,
      h.abandoned⟩
    · simp [hquiet hcancel] at hstarts
    · simp [(h.waiting d vethRx c hstep hne).2] at hrx
  · rw [heq]
    refine { h with waiting := fun d vethRx c hstep hne => ?_ }
    obtain ⟨hearly, hnot⟩ := h.waiting d vethRx c hstep hne
    refine ⟨hearly, ?_⟩
    cases rx with
    | false => rfl
    | true => simpa [hnot] using hrx rfl

theorem guarded_tickStep : Guarded (p.tickStep log env) := by
  unfold tickStep
  split
  case h_1 dialog vethRx codec hstep =>
    unfold tickAwaitingVeth
    split
    case h_1 result hpoll =>
      apply guarded_finishOrigination h.runs
      intro hresult
      -- only a relay that is already running gives no result
      refine (h.waiting dialog vethRx codec hstep ?_).1
      rintro rfl
      cases hpoll
      exact hresult rfl
    case h_2 =>
      split
      · exact guarded_hangupPending h.runs
      · exact h
    case h_3 => exact guarded_hangupPending h.runs
  case h_2 hstep =>
    unfold tickAwaitingCarrier
    split
    · exact guarded_beginCancel rfl (fail_runs h.runs)
    · exact h
  case h_3 sent hstep =>
    have hcancel : p.cancelling = true := by simp [cancelling, hstep]
    have hearly := h.cancelling hcancel
    unfold tickAwaitingCancel
    split
    · exact h.runs_none hearly
    split
    · exact h
    split
    · apply tended_cancelling (p := { p with step := .awaitingCancel true, deadline := _ }) rfl hearly
      simpa using h.runs_none hearly
    · exact h

theorem guarded_tick
    (hquiet : p.cancelling = true → p.abandons env = false → p.earlyRelayStarts env = false) :
    Guarded (p.tick log env) := by
  unfold tick
  split
  · exact guarded_giveUp rfl (stopEarlyRelay_runs h.runs)
  case isFalse habandons =>
    apply guarded_tickStep
    exact tended_pollEarlyVeth h fun hc => hquiet hc (Bool.eq_false_iff.2 habandons)

theorem guarded_fail : Guarded (p.failOrigination log env reason) := by
  apply guarded_giveUp rfl
  exact fail_runs h.runs

end

/-! ### Responses -/

variable {resp : SipResponse}

theorem vethReceiver_running {early : Nat × ChosenCodec} (hearly : p.earlyRelay = some early) :
    p.vethReceiver env = some .running := by
  simp [vethReceiver, hearly]

theorem guarded_placed (haband : p.abandoned = false)
    (h : Runs log.relays (p.earlyRelay.map Prod.fst))
    (hwrites : p.earlyRelay.isSome = true → (env.write .callPlaced).isOk = true)
    (answer : SdpAnswer) : Guarded (p.placed log env resp answer) := by
  have hstop (hearly : p.earlyRelay = none) : Runs log.relays none := by
    simpa [hearly] using h
  unfold placed
  split
  case h_1 hveth =>
    apply guarded_hangup
    cases hearly : p.earlyRelay with
    | none => exact hstop hearly
    | some early => simp [vethReceiver_running hearly] at hveth
  case h_2 vethRx hveth =>
    split
    case h_1 e hwrite =>
      apply guarded_hangup
      cases hearly : p.earlyRelay with
      | none => exact hstop hearly
      | some early => simp [hearly, hwrite, Except.isOk, Except.toBool] at hwrites
    case h_2 hwrite =>
      refine ⟨by simpa using h, by simp [cancelling], ?_, fun hset => ?_⟩
      · rintro d rx c ⟨⟩ hne
        cases hearly : p.earlyRelay with
        | none => exact ⟨rfl, rfl⟩
        | some early => simp [vethReceiver_running hearly, hne.symm] at hveth
      · simp [haband] at hset

theorem guarded_onFinal (haband : p.abandoned = false)
    (h : Runs log.relays (p.earlyRelay.map Prod.fst))
    (hwrites : resp.status = 200 → p.Usable env resp →
      (env.send (.ack (toHeader resp) p.inviteCseq)).isOk = true → p.earlyRelay.isSome = true →
      (env.write .callPlaced).isOk = true) : Guarded (p.onFinal log env resp) := by
  unfold onFinal
  split
  case isTrue hstatus =>
    unfold onAnswered
    split
    · exact fail_runs h
    rename_i answer hanswer
    split
    · exact fail_runs h
    rename_i hrtp
    dsimp only
    split
    · exact fail_runs h
    rename_i hack
    apply guarded_placed haband (by simpa using h)
    apply hwrites hstatus
    · simp [Usable, hanswer, hrtp, Except.isOk, Except.toBool]
    · simp [hack, Except.isOk, Except.toBool]
  case isFalse => exact fail_runs (by simpa using h)

theorem guarded_onCarrierResponse (h : Tended p log.relays)
    (hwrites : p.Places env resp → p.earlyRelay.isSome = true →
      (env.write .callPlaced).isOk = true) :
    Guarded (p.onCarrierResponse log env resp) := by
  unfold onCarrierResponse
  split
  case h_1 sent hstep =>
    have hearly := h.cancelling (by simp [cancelling, hstep])
    unfold onCancelResponse
    split
    · exact h
    show Runs _ none
    split
    · simpa [ackAndByeRacingAnswer] using h.runs_none hearly
    · exact h.runs_none hearly
  case h_2 => exact h
  case h_3 hstep =>
    have haband := h.not_abandoned (by simp [cancelling, hstep])
    split
    · exact h
    case isFalse hmethod =>
      have hnoted := spares_noteResponse p log env
      split
      · have hspares := hnoted.trans (spares_onProvisional env resp)
        apply tended_carrier (hspares.step.trans hstep) (hspares.abandoned.trans haband)
        rw [hspares.relays, hspares.earlyRelay]
        exact h.runs
      · have hmethod := Bool.eq_false_iff.2 hmethod
        unfold noteResponse
        split <;> exact guarded_onFinal haband h.runs fun h200 husable hack =>
          hwrites ⟨hstep, hmethod, h200, husable, hack⟩

/-! ### Attempts that were given up -/

section

variable (h : p.cancelling = true)

include h

theorem step_of_cancelling : ∃ sent, p.step = .awaitingCancel sent := by
  cases hstep : p.step with
  | awaitingCancel sent => exact ⟨sent, rfl⟩
  | awaitingCarrier | awaitingVeth => simp [cancelling, hstep] at h

theorem giveUp_cancelling_log : (p.giveUp log env reason).log = log := by
  obtain ⟨sent, hstep⟩ := step_of_cancelling h
  simp [giveUp, hstep]

theorem tickStep_cancelling_relays : (p.tickStep log env).log.relays = log.relays := by
  obtain ⟨sent, hstep⟩ := step_of_cancelling h
  simp only [tickStep, hstep, tickAwaitingCancel]
  repeat' split
  all_goals first | rfl | exact send_relays _

theorem onCarrierResponse_cancelling_relays :
    (p.onCarrierResponse log env resp).log.relays = log.relays := by
  obtain ⟨sent, hstep⟩ := step_of_cancelling h
  simp only [onCarrierResponse, hstep, onCancelResponse]
  split
  · rfl
  split
  · simp [ackAndByeRacingAnswer]
  · rfl

end

theorem pollEarlyVeth_step : (p.pollEarlyVeth log env).1.step = p.step := by
  rcases pollEarlyVeth_cases p log env with ⟨-, -, -, chosen, veth, heq⟩ | ⟨-, rx, -, heq⟩ <;>
    rw [heq]

/-- While a CANCEL is waited for, a tick that does not abandon the attempt starts a relay
exactly when the early handshake finishes in it. -/
theorem tick_cancelling_length (log : Log) (h : p.cancelling = true)
    (habandons : p.abandons env = false) :
    (p.tick log env).log.relays.length =
      log.relays.length + if p.earlyRelayStarts env then 1 else 0 := by
  have hrelays : (p.tick log env).log.relays = (p.pollEarlyVeth log env).2.relays := by
    simp only [tick, habandons, Bool.false_eq_true, if_false]
    apply tickStep_cancelling_relays
    simpa [cancelling, pollEarlyVeth_step] using h
  rcases pollEarlyVeth_cases p log env with ⟨hstarts, -, -, chosen, veth, heq⟩ | ⟨hstarts, rx, -, heq⟩
  · rw [hrelays, heq, hstarts]
    simp [Log.start]
  · rw [hrelays, heq, hstarts]
    rfl

theorem tick_abandons_length (h : p.cancelling = true) (habandons : p.abandons env = true) :
    (p.tick log env).log.relays.length = log.relays.length := by
  have htick : p.tick log env =
      ({ p with abandoned := true }.stopEarlyRelay log).1.giveUp
        ({ p with abandoned := true }.stopEarlyRelay log).2 env Reason.callerHangup := by
    simp only [tick, habandons, if_true]
    rfl
  rw [htick, giveUp_cancelling_log]
  · exact stopEarlyRelay_length _
  · exact h

theorem fail_cancelling_length (h : p.cancelling = true) :
    (p.failOrigination log env reason).log.relays.length = log.relays.length := by
  have hfail : p.failOrigination log env reason =
      (p.fail log env reason).1.giveUp (p.fail log env reason).2 env reason := rfl
  rw [hfail, giveUp_cancelling_log, fail_relays]
  · exact stopEarlyRelay_length p
  · exact h

/-- An answered call that cannot be announced is dropped with its early media running. -/
theorem onFinal_unannounced (h200 : resp.status = 200) (husable : p.Usable env resp)
    (hack : (env.send (.ack (toHeader resp) p.inviteCseq)).isOk = true)
    (hearly : p.earlyRelay.isSome = true) (hwrite : (env.write .callPlaced).isOk = false) :
    let t := p.onFinal log env resp
    t.pending = none ∧ t.call = none ∧ t.log.relays = log.relays := by
  obtain ⟨early, hearly⟩ := Option.isSome_iff_exists.1 hearly
  obtain ⟨answer, hanswer⟩ := exists_of_isOk husable.1
  obtain ⟨_, hrtp⟩ := exists_of_isOk husable.2
  obtain ⟨_, hack⟩ := exists_of_isOk hack
  obtain ⟨e, hwrite⟩ := exists_of_not_isOk hwrite
  simp [onFinal, h200, onAnswered, hanswer, hrtp, hack, placed, vethReceiver_running hearly, hwrite]

theorem places_unannounced (hplaces : p.Places env resp) (hearly : p.earlyRelay.isSome = true)
    (hwrite : (env.write .callPlaced).isOk = false) : let t := p.onCarrierResponse log env resp
    t.pending = none ∧ t.call = none ∧ t.log.relays = log.relays := by
  obtain ⟨hstep, hmethod, h200, husable, hack⟩ := hplaces
  have hfinal : ¬ resp.status < 200 := by simp [h200]
  simp only [onCarrierResponse, hstep, hmethod, Bool.false_eq_true, if_false, if_neg hfinal,
    noteResponse]
  split <;> exact onFinal_unannounced h200 husable hack hearly hwrite

end

/-! ## Runs -/

section

variable {a : Attempt} {env : Env} {ev : Event}

theorem guarded_of_some {p : PendingOrigination} {o : Outcome} (hp : o.pending = some p) :
    Guarded o ↔ Tended p o.log.relays := by
  simp [Guarded, hp]

variable (h : Guarded a.toOutcome)

include h

theorem Guarded.owned : Owned a := by
  intro hp relay hrelay
  simp only [Guarded, hp] at h
  exact (h relay).1 hrelay

theorem guarded_step (horderly : Orderly a (env, ev)) : Guarded (step a (env, ev)).toOutcome := by
  cases hp : a.pending with
  | none => rwa [step_over hp]
  | some p =>
    have htended := (guarded_of_some hp).1 h
    by_cases hconc : concerns p ev = true
    · rw [step_eq hp hconc]
      have hturn := horderly p hp
      cases ev with
      | tick => exact guarded_tick htended hturn
      | registrationRejected => exact guarded_fail htended
      | response resp => exact guarded_onCarrierResponse htended (hturn hconc)
    · rwa [step_eq_self hp hconc]

theorem startsInTime_of_orderly (horderly : Orderly a (env, ev)) : StartsInTime a (env, ev) := by
  intro p hp hgivenUp
  have htended := (guarded_of_some hp).1 h
  have hcancel : p.cancelling = true := hgivenUp.elim htended.abandoned id
  by_cases hconc : concerns p ev = true
  · rw [step_eq hp hconc]
    cases ev with
    | tick =>
      cases habandons : p.abandons env with
      | true => exact tick_abandons_length hcancel habandons
      | false =>
        have hquiet := horderly p hp hcancel habandons
        refine (tick_cancelling_length a.log hcancel habandons).trans ?_
        rw [hquiet]
        rfl
    | registrationRejected => exact fail_cancelling_length hcancel
    | response resp => exact congrArg List.length (onCarrierResponse_cancelling_relays hcancel)
  · rw [step_eq_self hp hconc]

theorem orderly_of_contained (hcontained : Contained a (env, ev)) : Orderly a (env, ev) := by
  intro p hp
  have htended := (guarded_of_some hp).1 h
  cases ev with
  | registrationRejected => trivial
  | tick =>
    intro hcancel habandons
    have hlength := hcontained.2 p hp (.inr hcancel)
    rw [step_eq hp rfl] at hlength
    have htick := tick_cancelling_length a.log hcancel habandons
    cases hstarts : p.earlyRelayStarts env with
    | false => rfl
    | true =>
      rw [hstarts] at htick
      exact absurd (htick.symm.trans hlength) (Nat.ne_of_gt (Nat.lt_succ_self _))
  | response resp =>
    intro hmatch hplaces hearly
    by_contra hwrite
    have howned := hcontained.1
    have hconc : concerns p (.response resp) = true := hmatch
    rw [step_eq hp hconc] at howned
    obtain ⟨hnone, hcall, hrelays⟩ :=
      places_unannounced hplaces hearly (Bool.eq_false_iff.2 hwrite)
    obtain ⟨early, hearly⟩ := Option.isSome_iff_exists.1 hearly
    have hruns := (htended.runs early.1).2 (by simp [hearly])
    have hlost := howned hnone early.1 ((congrArg (·[early.1]?) hrelays).trans hruns)
    simp [turn, hcall] at hlost

theorem contained_iff_orderly : Contained a (env, ev) ↔ Orderly a (env, ev) :=
  ⟨orderly_of_contained h,
    fun horderly => ⟨(guarded_step h horderly).owned, startsInTime_of_orderly h horderly⟩⟩

end

theorem guarded_begun (callId : Text) (inviteCseq : Nat) (env : Env)
    (rtpBind controlClone : Except Text Unit) :
    Guarded (begun callId inviteCseq env rtpBind controlClone).toOutcome := by
  have hempty : Runs [] none := by simp [Runs]
  unfold begun beginOrigination
  split
  · simpa [Guarded] using hempty
  split
  · simpa [Guarded] using hempty
  · split
    · simpa [Guarded] using hempty
    · exact tended_carrier rfl rfl (by simpa using hempty)

/-- No relay is left behind, and none is started too late, in exactly the runs whose turns
are all orderly. -/
theorem relays_contained_iff (callId : Text) (inviteCseq : Nat) (env : Env)
    (rtpBind controlClone : Except Text Unit) (turns : List (Env × Event)) :
    Trace.Each step Contained (begun callId inviteCseq env rtpBind controlClone) turns ↔
      Trace.Each step Orderly (begun callId inviteCseq env rtpBind controlClone) turns :=
  Trace.each_iff_each (I := fun a => Guarded a.toOutcome) (fun _ _ h => guarded_step h)
    (fun _ _ h => contained_iff_orderly h)
    (guarded_begun callId inviteCseq env rtpBind controlClone)

open Sample in
/-- The caller hangs up before the early handshake has finished: its relay starts in the wait
for the outcome of the CANCEL, and is still running when the attempt is dropped. -/
theorem earlyRelay_outlives_cancel :
    ¬ ∀ (callId : Text) (inviteCseq : Nat) (env : Env) (rtpBind controlClone : Except Text Unit)
      (turns : List (Env × Event)),
      Trace.Each step Contained (begun callId inviteCseq env rtpBind controlClone) turns := by
  intro h
  have hrun := h callId 1 (env 0) (.ok ()) (.ok ())
    [(env 1, .response (response 183 answer)),
      ({ env 2 with control := .value (.callEnded callId) }, .tick),
      ({ env 3 with earlyVeth := .value (offeredChosenCodec .pcmu) }, .tick), (env 8000, .tick)]
  have hlost := hrun.2.2.2.1.1 (by decide) 0 (by decide)
  revert hlost
  decide

end Ims.Origination
