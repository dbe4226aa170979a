-- SUMMARY: Which responses leave the carrier with a call the bridge has forgotten.
import GsmSipBridge.Ims.Agent.Origination
import GsmSipBridge.Lib.Trace

/-!
# Settling the carrier leg

Every final response to the INVITE is owed an ACK, and an answered call that is not bridged
is owed a BYE before the attempt is dropped. Both are owed to the dialog, which is named by
the `To` of the response: a retransmission of a response is the same debt.
-/

namespace Ims.Origination

open Text SipClient Sdp PendingOrigination

/-! ## Requests by dialog -/

def Request.ackOf : Request → Option (Option Text)
  | .ack remote _ => some remote
  | .invite _ | .cancel _ | .prack _ _ _ | .bye _ _ => none

def Request.byeOf : Request → Option (Option Text)
  | .bye remote _ => some remote
  | .invite _ | .cancel _ | .prack _ _ _ | .ack _ _ => none

/-- The dialogs that an ACK has gone out to. -/
def Log.acked (log : Log) : List (Option Text) := log.sent.filterMap Request.ackOf

/-- The dialogs that a BYE has gone out to. -/
def Log.hungUp (log : Log) : List (Option Text) := log.sent.filterMap Request.byeOf

/-- Every send of the turn succeeds. -/
def Env.Sends (env : Env) : Prop := ∀ r, env.send r = .ok ()

variable {relay : Nat} {m : Notice} {reason : Text} {p : PendingOrigination} {log : Log}
  {r : PendingOrigination × Log}

section

variable {env : Env} {r : Request}

theorem acked_send (hup : env.Sends) (r : Request) :
    (log.send env r).acked = log.acked ++ r.ackOf.toList := by
  cases h : r.ackOf <;> simp [Log.send, Log.acked, hup r, List.filterMap_append, h]

theorem hungUp_send (hup : env.Sends) (r : Request) :
    (log.send env r).hungUp = log.hungUp ++ r.byeOf.toList := by
  cases h : r.byeOf <;> simp [Log.send, Log.hungUp, hup r, List.filterMap_append, h]

theorem filterMap_send {f : Request → Option (Option Text)} (h : f r = none) :
    (log.send env r).sent.filterMap f = log.sent.filterMap f := by
  unfold Log.send
  split <;> simp [h]

@[simp] theorem send_relays (r : Request) : (log.send env r).relays = log.relays := by
  unfold Log.send
  split <;> rfl

@[simp] theorem tell_relays : (log.tell env m).relays = log.relays := by
  unfold Log.tell
  split <;> rfl

@[simp] theorem tell_sent : (log.tell env m).sent = log.sent := by
  unfold Log.tell
  split <;> rfl

theorem filterMap_tell (f : Request → Option (Option Text)) :
    (log.tell env m).sent.filterMap f = log.sent.filterMap f := by
  rw [tell_sent]

theorem hangup_acked (dialog : DialogInfo) :
    (hangupAnsweredCarrierLeg log env dialog reason).acked = log.acked :=
  (filterMap_tell _).trans (filterMap_send rfl)

theorem hangup_hungUp (hup : env.Sends) (dialog : DialogInfo) :
    (hangupAnsweredCarrierLeg log env dialog reason).hungUp = log.hungUp ++ [dialog.remote] :=
  (filterMap_tell _).trans (hungUp_send hup _)

end

/-! ## What is owed -/

/-- A final response to the INVITE. -/
def IsFinal (resp : SipResponse) : Prop := isInvite resp = true ∧ 200 ≤ resp.status

structure Settled (a : Attempt) : Prop where
  acknowledged : ∀ resp ∈ a.handled, IsFinal resp → toHeader resp ∈ a.log.acked
  /-- Once the attempt is dropped, an answered call is the bridged one or was hung up. -/
  noPhantom : a.pending = none → ∀ resp ∈ a.handled, IsFinal resp → resp.status < 300 →
    (∃ call, a.call = some call ∧ call.dialog.remote = toHeader resp) ∨
      toHeader resp ∈ a.log.acked ∧ toHeader resp ∈ a.log.hungUp

/-- The final responses that an attempt settles: a `200` with a usable answer and a refusal
while it waits for the carrier, the answered dialog's own afterwards, and a `200` that
races a CANCEL. -/
def SettlesFinal (p : PendingOrigination) (env : Env) (resp : SipResponse) : Prop :=
  match p.step with
  | .awaitingCarrier => if resp.status = 200 then Usable p env resp else 300 ≤ resp.status
  | .awaitingVeth dialog _ _ => toHeader resp = dialog.remote
  | .awaitingCancel _ => resp.status = 200

/-- Every final response that the turn hands to the attempt is one that it settles. -/
def Settles (a : Attempt) (turn : Env × Event) : Prop :=
  ∀ p resp, a.pending = some p → handedTo p turn.2 = some resp → IsFinal resp →
    SettlesFinal p turn.1 resp

/-! ## Turns that bring no final response -/

/-- The dialog of the answer, once there is one. -/
def PendingOrigination.dialog? (p : PendingOrigination) : Option DialogInfo :=
  match p.step with
  | .awaitingVeth dialog _ _ => some dialog
  | .awaitingCarrier | .awaitingCancel _ => none

/-- A preparation that settles nothing and goes on waiting for the same. -/
structure Quiet (p : PendingOrigination) (log : Log) (r : PendingOrigination × Log) : Prop where
  step : r.1.step = p.step
  acked : r.2.acked = log.acked
  hungUp : r.2.hungUp = log.hungUp

theorem Quiet.trans {t : PendingOrigination × Log} (h : Quiet p log r) (h' : Quiet r.1 r.2 t) :
    Quiet p log t :=
  ⟨h'.step.trans h.step, h'.acked.trans h.acked, h'.hungUp.trans h.hungUp⟩

theorem quiet_stopEarlyRelay : Quiet p log (p.stopEarlyRelay log) := by
  unfold stopEarlyRelay
  split <;> exact ⟨rfl, rfl, rfl⟩

theorem quiet_fail {env : Env} : Quiet p log (p.fail log env reason) := by
  have htold : Quiet p log (p, log.tell env (.callFailed reason)) :=
    ⟨rfl, filterMap_tell _, filterMap_tell _⟩
  exact htold.trans quiet_stopEarlyRelay

theorem Quiet.dialog?_eq (h : Quiet p log r) : r.1.dialog? = p.dialog? := by
  simp [dialog?, h.step]

/-- A turn that acknowledges nothing: the dialog is kept, or it is bridged or hung up. -/
structure Calm (p : PendingOrigination) (log : Log) (o : Outcome) : Prop where
  acked : o.log.acked = log.acked
  kept : ∀ p', o.pending = some p' → p'.dialog? = p.dialog? ∧ o.log.hungUp = log.hungUp
  dropped : o.pending = none → ∀ d, p.dialog? = some d →
    (∃ call, o.call = some call ∧ call.dialog = d) ∨ d.remote ∈ o.log.hungUp

variable {codec : NegotiatedCodec} {a : Attempt}

section

variable {q : PendingOrigination} {log' : Log} {env : Env}

theorem Calm.of_kept (hacked : log'.acked = log.acked) (hhung : log'.hungUp = log.hungUp)
    (hdialog : q.dialog? = p.dialog?) : Calm p log { pending := some q, log := log' } where
  acked := hacked
  kept p' hp' := by
    obtain rfl := Option.some.inj hp'
    exact ⟨hdialog, hhung⟩
  dropped h := absurd h (Option.some_ne_none q)

theorem Calm.of_quiet (h : Quiet p log r) : Calm p log { pending := some r.1, log := r.2 } :=
  .of_kept h.acked h.hungUp h.dialog?_eq

theorem Calm.of_dropped {call : Option ActiveCall} (hacked : log'.acked = log.acked)
    (hover : ∀ d, p.dialog? = some d →
      (∃ c, call = some c ∧ c.dialog = d) ∨ d.remote ∈ log'.hungUp) :
    Calm p log { pending := none, call, log := log' } where
  acked := hacked
  kept p' hp' := absurd hp'.symm (Option.some_ne_none p')
  dropped _ := hover

/-- What holds after preparations that settle nothing. -/
theorem Calm.after {o : Outcome} (h : Calm q log' o) (hquiet : Quiet p log (q, log')) :
    Calm p log o where
  acked := h.acked.trans hquiet.acked
  kept p' hp' :=
    ⟨(h.kept p' hp').1.trans hquiet.dialog?_eq, (h.kept p' hp').2.trans hquiet.hungUp⟩
  dropped hnone d hd := h.dropped hnone d (hquiet.dialog?_eq.trans hd)

variable {dialog : DialogInfo}

theorem calm_hangup (hup : env.Sends) (hdialog : p.dialog? = some dialog)
    (hacked : log'.acked = log.acked) :
    Calm p log { pending := none, log := hangupAnsweredCarrierLeg log' env dialog reason } := by
  apply Calm.of_dropped
  · exact (hangup_acked dialog).trans hacked
  · intro d hd
    obtain rfl : dialog = d := Option.some.inj (hdialog.symm.trans hd)
    simp [hangup_hungUp hup]

theorem calm_bridged (hdialog : p.dialog? = some dialog) (hacked : log'.acked = log.acked) :
    Calm p log { pending := none, call := some { stop := relay, dialog }, log := log' } := by
  apply Calm.of_dropped hacked
  intro d hd
  exact .inl ⟨_, rfl, Option.some.inj (hdialog.symm.trans hd)⟩

section

variable (hup : env.Sends)

include hup

section

variable (hdialog : p.dialog? = some dialog)

include hdialog

theorem calm_bridgeWith (hacked : log'.acked = log.acked) (chosen veth : ChosenCodec) :
    Calm p log (bridgeWith log' env dialog chosen veth) := by
  unfold bridgeWith
  split
  · exact calm_bridged hdialog hacked
  · exact calm_hangup hup hdialog hacked

theorem calm_bridgeEarly (early : ChosenCodec) :
    Calm p log (p.bridgeEarly log env dialog codec relay early) := by
  unfold bridgeEarly
  split
  · split
    · exact calm_bridged hdialog rfl
    split
    · exact calm_hangup hup hdialog rfl
    · exact calm_bridgeWith hup hdialog (show (log.stop relay).acked = log.acked from rfl) _ _
  · exact calm_hangup hup hdialog rfl

theorem calm_finishOrigination (result : Option (Option ChosenCodec)) :
    Calm p log (p.finishOrigination log env dialog codec result) := by
  unfold finishOrigination
  split
  · exact calm_bridgeEarly hup hdialog _
  · exact calm_hangup hup hdialog rfl
  · exact calm_hangup hup hdialog rfl
  · split
    · exact calm_hangup hup hdialog rfl
    · exact calm_bridgeWith hup hdialog rfl _ _

theorem calm_hangupPending : Calm p log (p.hangupPendingCarrierLeg log env dialog reason) :=
  calm_hangup hup hdialog quiet_stopEarlyRelay.acked

end

/-- A CANCEL settles nothing yet. -/
theorem calm_beginCancel (hdialog : p.dialog? = none) :
    Calm p log { pending := some (p.beginCancel log env).1, log := (p.beginCancel log env).2 } := by
  unfold beginCancel
  rw [hup]
  apply Calm.of_kept
  · exact filterMap_send rfl
  · exact filterMap_send rfl
  · rw [hdialog]
    rfl

theorem calm_giveUp : Calm p log (p.giveUp log env reason) := by
  unfold giveUp
  split
  case h_1 h => exact calm_beginCancel hup (by simp [dialog?, h])
  case h_2 h => exact calm_hangupPending hup (by simp [dialog?, h])
  case h_3 h => exact .of_kept rfl rfl rfl

theorem calm_abandon : Calm p log (p.abandonOrigination log env) :=
  (calm_giveUp hup).after { quiet_stopEarlyRelay with step := rfl }

theorem calm_fail : Calm p log (p.failOrigination log env reason) :=
  (calm_giveUp hup).after quiet_fail

end

/-! ### Ticks -/

theorem quiet_pollEarlyVeth : Quiet p log (p.pollEarlyVeth log env) := by
  simp only [pollEarlyVeth, startEarlyRelay]
  repeat' split
  all_goals exact ⟨rfl, rfl, rfl⟩

theorem calm_tickStep (hup : env.Sends) : Calm p log (p.tickStep log env) := by
  unfold tickStep
  split
  case h_1 dialog vethRx codec h =>
    have hdialog : p.dialog? = some dialog := by simp [dialog?, h]
    unfold tickAwaitingVeth
    split
    · exact calm_finishOrigination hup hdialog _
    · split
      · exact calm_hangupPending hup hdialog
      · exact .of_kept rfl rfl rfl
    · exact calm_hangupPending hup hdialog
  case h_2 h =>
    unfold tickAwaitingCarrier
    split
    · apply (calm_beginCancel hup _).after quiet_fail
      simp [dialog?, h]
    · exact .of_kept rfl rfl rfl
  case h_3 sent h =>
    have hdialog : p.dialog? = none := by simp [dialog?, h]
    unfold tickAwaitingCancel
    split
    · exact .of_dropped rfl (by simp [hdialog])
    split
    · exact .of_kept rfl rfl rfl
    · rw [hup]
      exact .of_kept (filterMap_send rfl) (filterMap_send rfl) (hdialog ▸ rfl)

theorem calm_tick (hup : env.Sends) : Calm p log (p.tick log env) := by
  unfold tick
  split
  · exact (calm_abandon hup).after ⟨rfl, rfl, rfl⟩
  · exact (calm_tickStep hup).after quiet_pollEarlyVeth

/-! ## Responses -/

variable {resp : SipResponse}

/-- What a final response does to an attempt that waits for one in `step`. -/
inductive Closes (step : OriginationStep) (usable : Prop) (log : Log) (resp : SipResponse) :
    Outcome → Prop where
  | answered {q : PendingOrigination} {log' : Log} {dialog : DialogInfo} (hok : resp.status = 200)
      (husable : usable) (hacked : log'.acked = log.acked ++ [toHeader resp])
      (hhung : log'.hungUp = log.hungUp) (hdialog : q.dialog? = some dialog)
      (hremote : dialog.remote = toHeader resp) :
      Closes step usable log resp { pending := some q, log := log' }
  | hungUp {log' : Log} (hok : resp.status = 200) (husable : step = .awaitingCarrier → usable)
      (hacked : log'.acked = log.acked ++ [toHeader resp])
      (hhung : log'.hungUp = log.hungUp ++ [toHeader resp]) :
      Closes step usable log resp { pending := none, log := log' }
  | refused {log' : Log} (hstep : step = .awaitingCarrier) (hstatus : resp.status ≠ 200)
      (hacked : log'.acked = log.acked ++ [toHeader resp]) (hhung : log'.hungUp = log.hungUp) :
      Closes step usable log resp { pending := none, log := log' }
  | forgotten {log' : Log} (hwhy : resp.status = 200 → step = .awaitingCarrier ∧ ¬ usable)
      (hrefused : resp.status ≠ 200 → step ≠ .awaitingCarrier)
      (hacked : log'.acked = log.acked) (hhung : log'.hungUp = log.hungUp) :
      Closes step usable log resp { pending := none, log := log' }

section

variable (hup : env.Sends)

include hup

theorem closes_placed (hstatus : resp.status = 200) (husable : Usable p env resp)
    (hacked : log'.acked = log.acked ++ [toHeader resp]) (hhung : log'.hungUp = log.hungUp)
    (answer : SdpAnswer) :
    Closes p.step (Usable p env resp) log resp (p.placed log' env resp answer) := by
  unfold placed
  split
  · refine .hungUp hstatus (fun _ => husable) ((hangup_acked _).trans hacked) ?_
    rw [hangup_hungUp hup, hhung]
  split
  · refine .hungUp hstatus (fun _ => husable) ((hangup_acked _).trans hacked) ?_
    rw [hangup_hungUp hup, hhung]
  apply Closes.answered hstatus husable
  · exact (filterMap_tell _).trans hacked
  · exact (filterMap_tell _).trans hhung
  · rfl
  · rfl

variable (hstep : p.step = .awaitingCarrier)

include hstep

theorem closes_onAnswered (hstatus : resp.status = 200) :
    Closes p.step (Usable p env resp) log resp (p.onAnswered log env resp) := by
  have hforgotten (hnot : ¬ Usable p env resp) (reason : Text) :
      Closes p.step (Usable p env resp) log resp (p.failed log env reason) :=
    .forgotten (fun _ => ⟨hstep, hnot⟩) (fun h => absurd hstatus h) quiet_fail.acked
      quiet_fail.hungUp
  unfold onAnswered
  split
  case h_1 e h => exact hforgotten (by simp [Usable, h, Except.isOk, Except.toBool]) _
  case h_2 answer h =>
    split
    case h_1 e hrtp => exact hforgotten (by simp [Usable, hrtp, Except.isOk, Except.toBool]) _
    case h_2 hrtp =>
      dsimp only
      rw [hup]
      apply closes_placed hup hstatus
      · simp [Usable, h, hrtp, Except.isOk, Except.toBool]
      · exact acked_send hup _
      · exact filterMap_send rfl

theorem closes_onFinal : Closes p.step (Usable p env resp) log resp (p.onFinal log env resp) := by
  unfold onFinal
  split
  case isTrue hstatus => exact closes_onAnswered hup hstep hstatus
  case isFalse hstatus =>
    apply Closes.refused hstep hstatus
    · exact quiet_fail.acked.trans (acked_send hup _)
    · exact quiet_fail.hungUp.trans (filterMap_send rfl)

theorem closes_noted :
    Closes p.step (Usable p env resp) log resp ((p.noteResponse env).onFinal log env resp) := by
  unfold noteResponse
  split
  · exact closes_onFinal hup hstep
  · exact closes_onFinal (p := { p with anyResponseSeen := true, deadline := _ }) hup hstep

end

/-- What a provisional response leaves alone. -/
structure Spares (p : PendingOrigination) (log : Log) (r : PendingOrigination × Log) : Prop
    extends Quiet p log r where
  earlyRelay : r.1.earlyRelay = p.earlyRelay
  abandoned : r.1.abandoned = p.abandoned
  relays : r.2.relays = log.relays

theorem Spares.trans {t : PendingOrigination × Log} (h : Spares p log r) (h' : Spares r.1 r.2 t) :
    Spares p log t :=
  ⟨h.toQuiet.trans h'.toQuiet, h'.earlyRelay.trans h.earlyRelay, h'.abandoned.trans h.abandoned,
    h'.relays.trans h.relays⟩

theorem spares_prackIfRequired (env : Env) (resp : SipResponse) :
    Spares p log (p.prackIfRequired log env resp) := by
  unfold prackIfRequired
  split
  · exact ⟨⟨rfl, rfl, rfl⟩, rfl, rfl, rfl⟩
  split
  · exact ⟨⟨rfl, rfl, rfl⟩, rfl, rfl, rfl⟩
  dsimp only
  split
  · exact ⟨⟨rfl, filterMap_send rfl, filterMap_send rfl⟩, rfl, rfl, send_relays _⟩
  · exact ⟨⟨rfl, rfl, rfl⟩, rfl, rfl, rfl⟩

theorem spares_relayRinging : Spares p log (p.relayRinging log env resp) := by
  unfold relayRinging
  split
  · exact ⟨⟨rfl, filterMap_tell _, filterMap_tell _⟩, rfl, rfl, tell_relays⟩
  · exact ⟨⟨rfl, rfl, rfl⟩, rfl, rfl, rfl⟩

theorem spares_offerEarlyMedia (sdp : Option Text) :
    Spares p log (p.offerEarlyMedia log env sdp) := by
  unfold offerEarlyMedia
  split
  · split
    · exact ⟨⟨rfl, filterMap_tell _, filterMap_tell _⟩, rfl, rfl, tell_relays⟩
    · exact ⟨⟨rfl, rfl, rfl⟩, rfl, rfl, rfl⟩
  · exact ⟨⟨rfl, rfl, rfl⟩, rfl, rfl, rfl⟩

theorem spares_onProvisional (env : Env) (resp : SipResponse) :
    Spares p log (p.onProvisional log env resp) := by
  have hcached : Spares p log
      ({ p with provisionalAnswer := p.provisionalAnswer.or (provisionalSdp resp) }, log) :=
    ⟨⟨rfl, rfl, rfl⟩, rfl, rfl, rfl⟩
  have hprack := hcached.trans (spares_prackIfRequired env resp)
  exact (hprack.trans spares_relayRinging).trans (spares_offerEarlyMedia _)

theorem spares_noteResponse (p : PendingOrigination) (log : Log) (env : Env) :
    Spares p log (p.noteResponse env, log) := by
  unfold noteResponse
  split <;> exact ⟨⟨rfl, rfl, rfl⟩, rfl, rfl, rfl⟩

theorem isFinal_iff : IsFinal resp ↔ ¬ (!isInvite resp || decide (resp.status < 200)) = true := by
  simp [IsFinal]

/-- A response either acknowledges nothing and is no final that was waited for, or closes
the wait. -/
theorem response_cases (hup : env.Sends) (p : PendingOrigination) (log : Log) (resp : SipResponse) :
    Calm p log (p.onCarrierResponse log env resp) ∧ (IsFinal resp → p.dialog?.isSome) ∨
      p.dialog? = none ∧
        Closes p.step (Usable p env resp) log resp (p.onCarrierResponse log env resp) := by
  unfold onCarrierResponse
  split
  case h_1 sent h =>
    unfold onCancelResponse
    split
    case isTrue hnot =>
      exact .inl ⟨.of_kept rfl rfl rfl, fun hfinal => absurd hnot (isFinal_iff.1 hfinal)⟩
    case isFalse hfinal =>
      refine .inr ⟨by simp [dialog?, h], ?_⟩
      split
      case isTrue hstatus =>
        apply Closes.hungUp hstatus (by simp [h])
        · simp [ackAndByeRacingAnswer, acked_send hup, Request.ackOf]
        · simp [ackAndByeRacingAnswer, hungUp_send hup, Request.byeOf]
      case isFalse hstatus =>
        exact .forgotten (fun hok => absurd hok hstatus) (fun _ => by simp [h]) rfl rfl
  case h_2 h => exact .inl ⟨.of_kept rfl rfl rfl, fun _ => by simp [dialog?, h]⟩
  case h_3 h =>
    split
    case isTrue hother =>
      refine .inl ⟨.of_kept rfl rfl rfl, fun hfinal => ?_⟩
      -- the method of the response cannot both be INVITE and something else
      cases hmethod : responseMethod resp with
      | none => simp [hmethod] at hother
      | some method =>
        have hinvite := hfinal.1
        simp_all [isInvite]
    case isFalse =>
      split
      case isTrue hlow =>
        have hspares := (spares_noteResponse p log env).trans (spares_onProvisional env resp)
        exact .inl ⟨.of_quiet hspares.toQuiet, fun hfinal => absurd hlow (UInt16.not_lt.2 hfinal.2)⟩
      case isFalse =>
        exact .inr ⟨by simp [dialog?, h], closes_noted hup h⟩

end

/-! ## Runs -/

/-- The dialog that the attempt has acknowledged. -/
def PendingOrigination.remote? (p : PendingOrigination) : Option (Option Text) :=
  p.dialog?.map DialogInfo.remote

/-- The attempt knows of every final response that it was handed; what is over is settled. -/
def Tracked (a : Attempt) : Prop :=
  match a.pending with
  | none => Settled a
  | some p =>
    (∀ r, r ∈ a.log.acked ↔ p.remote? = some r) ∧ a.log.hungUp = [] ∧
      ∀ resp ∈ a.handled, IsFinal resp → p.remote? = some (toHeader resp)

theorem tracked_of_none (hp : a.pending = none) : Tracked a ↔ Settled a := by
  simp [Tracked, hp]

theorem tracked_of_some (hp : a.pending = some p) :
    Tracked a ↔ (∀ r, r ∈ a.log.acked ↔ p.remote? = some r) ∧ a.log.hungUp = [] ∧
      ∀ resp ∈ a.handled, IsFinal resp → p.remote? = some (toHeader resp) := by
  simp [Tracked, hp]

theorem Tracked.settled (h : Tracked a) : Settled a := by
  cases hp : a.pending with
  | none => exact (tracked_of_none hp).1 h
  | some p =>
    obtain ⟨hacked, -, hhandled⟩ := (tracked_of_some hp).1 h
    refine ⟨fun resp hmem hfinal => (hacked _).2 (hhandled resp hmem hfinal), fun hnone => ?_⟩
    rw [hp] at hnone
    cases hnone

section

variable {env : Env} {ev : Event}

theorem tracked_calm (h : Tracked a) (hp : a.pending = some p) {o : Outcome}
    (hcalm : Calm p a.log o) {new : List SipResponse}
    (hnew : ∀ resp ∈ new, IsFinal resp → p.remote? = some (toHeader resp)) :
    Tracked { o with handled := a.handled ++ new } := by
  obtain ⟨hacked, hhung, hhandled⟩ := (tracked_of_some hp).1 h
  have hall : ∀ resp ∈ a.handled ++ new, IsFinal resp → p.remote? = some (toHeader resp) :=
    List.forall_mem_append.2 ⟨hhandled, hnew⟩
  cases ho : o.pending with
  | none =>
    have hacks : ∀ resp ∈ a.handled ++ new, IsFinal resp → toHeader resp ∈ o.log.acked := by
      intro resp hmem hfinal
      rw [hcalm.acked, hacked]
      exact hall resp hmem hfinal
    refine (tracked_of_none ho).2 ⟨hacks, fun _ resp hmem hfinal _ => ?_⟩
    obtain ⟨d, hd, hremote⟩ := Option.map_eq_some_iff.1 (hall resp hmem hfinal)
    rcases hcalm.dropped ho d hd with ⟨call, hcall, rfl⟩ | hbye
    · exact .inl ⟨call, hcall, hremote⟩
    · exact .inr ⟨hacks resp hmem hfinal, hremote ▸ hbye⟩
  | some p' =>
    obtain ⟨hdialog, hkept⟩ := hcalm.kept p' ho
    have hremote : p'.remote? = p.remote? := by simp [remote?, hdialog]
    refine (tracked_of_some ho).2 ⟨?_, ?_, ?_⟩
    · simpa [hcalm.acked, hremote] using hacked
    · exact hkept.trans hhung
    · simpa [hremote] using hall

/-! ### A final response that was waited for -/

variable {resp : SipResponse} {o : Outcome}

theorem settlesFinal_of_none (hdialog : p.dialog? = none) :
    SettlesFinal p env resp ↔
      if resp.status = 200 then p.step = .awaitingCarrier → Usable p env resp
      else p.step = .awaitingCarrier ∧ 300 ≤ resp.status := by
  cases h : p.step <;> simp_all [SettlesFinal, dialog?]

theorem settlesFinal_of_some {d : DialogInfo} (hdialog : p.dialog? = some d) :
    SettlesFinal p env resp ↔ toHeader resp = d.remote := by
  cases h : p.step <;> simp_all [SettlesFinal, dialog?]

theorem nothing_of_none (h : Tracked a) (hp : a.pending = some p) (hdialog : p.dialog? = none) :
    a.log.acked = [] ∧ a.log.hungUp = [] ∧ ∀ resp ∈ a.handled, ¬ IsFinal resp := by
  obtain ⟨hacked, hhung, hhandled⟩ := (tracked_of_some hp).1 h
  have hremote : p.remote? = none := by simp [remote?, hdialog]
  refine ⟨List.eq_nil_iff_forall_not_mem.2 fun r hr => ?_, hhung, fun resp hmem hfinal => ?_⟩
  · simpa [hremote] using (hacked r).1 hr
  · simpa [hremote] using hhandled resp hmem hfinal

theorem tracked_closes (h : Tracked a) (hp : a.pending = some p) (hdialog : p.dialog? = none)
    (hcloses : Closes p.step (Usable p env resp) a.log resp o)
    (hsettle : IsFinal resp → SettlesFinal p env resp) :
    Tracked { o with handled := a.handled ++ [resp] } := by
  obtain ⟨hacked, hhung, hhandled⟩ := nothing_of_none h hp hdialog
  rw [settlesFinal_of_none hdialog] at hsettle
  -- the only final response handed over so far is this one
  have honly : ∀ f ∈ a.handled ++ [resp], IsFinal f → f = resp := by
    intro f hf hfinal
    rcases List.mem_append.1 hf with hf | hf
    · exact absurd hfinal (hhandled f hf)
    · exact List.mem_singleton.1 hf
  cases hcloses with
  | answered hok husable hacked' hhung' hdialog' hremote =>
    refine (tracked_of_some rfl).2 ⟨fun r => ?_, hhung'.trans hhung, fun f hf hfinal => ?_⟩
    · simp [hacked', hacked, remote?, hdialog', hremote, eq_comm]
    · simp [remote?, hdialog', hremote, honly f hf hfinal]
  | hungUp hok husable hacked' hhung' =>
    refine (tracked_of_none rfl).2 ⟨fun f hf hfinal => ?_, fun _ f hf hfinal _ => .inr ?_⟩
    · simp [hacked', honly f hf hfinal]
    · simp [hacked', hhung', honly f hf hfinal]
  | refused hstep hstatus hacked' hhung' =>
    refine (tracked_of_none rfl).2 ⟨fun f hf hfinal => ?_, fun _ f hf hfinal hlow => ?_⟩
    · simp [hacked', honly f hf hfinal]
    · obtain rfl := honly f hf hfinal
      rw [if_neg hstatus] at hsettle
      exact absurd hlow (UInt16.not_lt.2 (hsettle hfinal).2)
  | forgotten hwhy hrefused hacked' hhung' =>
    have hnone : ∀ f ∈ a.handled ++ [resp], ¬ IsFinal f := by
      intro f hf hfinal
      obtain rfl := honly f hf hfinal
      have hclause := hsettle hfinal
      by_cases hok : f.status = 200
      · rw [if_pos hok] at hclause
        exact (hwhy hok).2 (hclause (hwhy hok).1)
      · rw [if_neg hok] at hclause
        exact hrefused hok hclause.1
    exact (tracked_of_none rfl).2
      ⟨fun f hf hfinal => absurd hfinal (hnone f hf),
        fun _ f hf hfinal => absurd hfinal (hnone f hf)⟩

/-- A final response that the attempt does not settle leaves the debt behind. -/
theorem settles_of_closes (h : Tracked a) (hp : a.pending = some p) (hdialog : p.dialog? = none)
    (hcloses : Closes p.step (Usable p env resp) a.log resp o)
    (hsettle : Settled { o with handled := a.handled ++ [resp] }) (hfinal : IsFinal resp) :
    SettlesFinal p env resp := by
  obtain ⟨hacked, hhung, -⟩ := nothing_of_none h hp hdialog
  have hmem : resp ∈ a.handled ++ [resp] := by simp
  rw [settlesFinal_of_none hdialog]
  cases hcloses with
  | answered hok husable _ _ _ _ =>
    rw [if_pos hok]
    exact fun _ => husable
  | hungUp hok husable _ _ =>
    rw [if_pos hok]
    exact husable
  | refused hstep hstatus hacked' hhung' =>
    rw [if_neg hstatus]
    refine ⟨hstep, UInt16.not_lt.1 fun hlow => ?_⟩
    rcases hsettle.noPhantom rfl resp hmem hfinal hlow with ⟨call, hcall, -⟩ | ⟨-, hbye⟩
    · cases hcall
    · simp [hhung', hhung] at hbye
  | forgotten _ _ hacked' _ =>
    have hack := hsettle.acknowledged resp hmem hfinal
    simp [hacked', hacked] at hack

/-! ### Every turn -/

theorem tracked_step (hup : env.Sends) (h : Tracked a) (hsettle : Settles a (env, ev)) :
    Tracked (step a (env, ev)) := by
  cases hp : a.pending with
  | none => rwa [step_over hp]
  | some p =>
    by_cases hconc : concerns p ev = true
    · rw [step_eq hp hconc]
      cases ev with
      | tick => exact tracked_calm h hp (calm_tick hup) nofun
      | registrationRejected => exact tracked_calm h hp (calm_fail hup) nofun
      | response resp =>
        have hhanded := handedTo_response hconc
        have hclause := hsettle p resp hp hhanded
        rw [hhanded]
        rcases response_cases hup p a.log resp with
          ⟨hcalm, hdialog⟩ | ⟨hdialog, hcloses⟩
        · apply tracked_calm h hp hcalm
          intro f hf hfinal
          obtain rfl := List.mem_singleton.1 hf
          obtain ⟨d, hd⟩ := Option.isSome_iff_exists.1 (hdialog hfinal)
          rw [remote?, hd, (settlesFinal_of_some hd).1 (hclause hfinal)]
          rfl
        · exact tracked_closes h hp hdialog hcloses hclause
    · rw [step_eq_self hp hconc]
      exact h

/-- A turn that does not settle a final response leaves the debt behind. -/
theorem settles_of_step (hup : env.Sends) (h : Tracked a)
    (hsettle : Settled (step a (env, ev))) : Settles a (env, ev) := by
  intro p resp hp hhanded hfinal
  cases ev with
  | tick | registrationRejected => cases hhanded
  | response resp' =>
    have hconc := concerns_of_handedTo hhanded
    obtain rfl : resp' = resp := Option.some.inj ((handedTo_response hconc).symm.trans hhanded)
    rw [step_eq hp hconc, hhanded] at hsettle
    rcases response_cases hup p a.log resp' with
      ⟨hcalm, hdialog⟩ | ⟨hdialog, hcloses⟩
    · obtain ⟨d, hd⟩ := Option.isSome_iff_exists.1 (hdialog hfinal)
      have hack := hsettle.acknowledged resp' (by simp) hfinal
      -- nothing was acknowledged in this turn, so the dialog is the one from before
      have hremote := (((tracked_of_some hp).1 h).1 _).1 (hcalm.acked ▸ hack)
      rw [settlesFinal_of_some hd]
      simpa [remote?, hd, eq_comm] using hremote
    · exact settles_of_closes h hp hdialog hcloses hsettle hfinal

end

/-! ## The whole run -/

theorem tracked_begun (callId : Text) (inviteCseq : Nat) (env : Env)
    (rtpBind controlClone : Except Text Unit) :
    Tracked (begun callId inviteCseq env rtpBind controlClone) := by
  have hsettle (o : Outcome) : Settled { o with handled := [] } := ⟨nofun, nofun⟩
  unfold begun beginOrigination
  split
  · exact hsettle _
  split
  · exact hsettle _
  rename_i hsend
  split
  · exact hsettle _
  · refine (tracked_of_some rfl).2 ⟨?_, ?_, nofun⟩
    · simp [Log.send, hsend, Log.acked, Request.ackOf, remote?, dialog?]
    · simp [Log.send, hsend, Log.hungUp, Request.byeOf]

/-- With every send succeeding, no carrier leg is forgotten in exactly the runs in which
every final response is one that the attempt settles. -/
theorem settled_iff_settles (callId : Text) (inviteCseq : Nat) (env : Env)
    (rtpBind controlClone : Except Text Unit) (turns : List (Env × Event))
    (hup : ∀ t ∈ turns, t.1.Sends) :
    Trace.Always step Settled (begun callId inviteCseq env rtpBind controlClone) turns ↔
      Trace.Each step Settles (begun callId inviteCseq env rtpBind controlClone) turns :=
  Trace.always_iff_each_of (I := Tracked) (H := fun t => t.1.Sends) (fun _ h => h.settled)
    (fun _ _ hup h => tracked_step hup h) (fun _ _ hup h => settles_of_step hup h)
    (tracked_begun callId inviteCseq env rtpBind controlClone) hup

open Sample in
/-- A call that is answered with a usable description and bridged by the next tick. -/
theorem settled_iff_settles_bridged :
    Trace.Always step Settled start
      [(env 1, .response (response 200 answer)), (env 2, .tick)] := by
  refine (settled_iff_settles callId 1 (env 0) (.ok ()) (.ok ()) _ ?_).2 ⟨?_, ?_, trivial⟩
  · simp [Env.Sends, env]
  · rintro p resp ⟨⟩ ⟨⟩ -
    exact ⟨by decide, rfl⟩
  · rintro p resp - ⟨⟩

open Sample in
/-- A `200` without a session description is neither acknowledged nor hung up. -/
theorem badAnswer_forgotten :
    ¬ ∀ (callId : Text) (inviteCseq : Nat) (env : Env) (rtpBind controlClone : Except Text Unit)
      (turns : List (Env × Event)), (∀ t ∈ turns, t.1.Sends) →
      Trace.Always step Settled (begun callId inviteCseq env rtpBind controlClone) turns := by
  intro h
  have hrun := h callId 1 (env 0) (.ok ()) (.ok ()) [(env 1, .response (response 200 []))]
    (by simp [Env.Sends, env])
  have hack := hrun.2.acknowledged (response 200 []) (by decide) ⟨by decide, by decide⟩
  revert hack
  decide

end Ims.Origination
