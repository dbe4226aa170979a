-- SUMMARY: Which set-ups of an inbound call end well, with one final response.
import GsmSipBridge.Ims.Agent.Inbound

/-!
# One final response

A run is settled if the INVITE got one final response on one tag, an answered call is held
or ended by a BYE, and Agent B is not left with a call that is over. Every exit of the
handler is compared with that; what goes on before an exit is quiet.
-/

namespace Ims.Inbound

open Text SipClient Sdp List

/-! ## Settled runs -/

section

variable (invite : SipRequest) (toTag publicUri : Text)

/-- A response to the INVITE, or to the same INVITE sent again. -/
def toInvite (r : Response) : Bool :=
  r.request == invite ||
    isRetransmissionOf invite r.request && headerOf r.request "To" == headerOf invite "To"

/-- The tag in the `To` header of a response: the request's own, else the one given. -/
def Response.carriedTag (r : Response) : Option Text :=
  let value := (headerOf r.request "To").getD []
  if toAlreadyTagged value then headerTag value else r.toTag

def isFinal : Event → Bool
  | .sent r => toInvite invite r && decide (200 ≤ r.status)
  | _ => false

def isAnswer : Event → Bool
  | .sent r => toInvite invite r && decide (200 ≤ r.status ∧ r.status < 300)
  | _ => false

/-- A BYE in the dialog of the answered call: ours, or the caller's that is answered. -/
def endsDialog : Event → Bool
  | .bye dialog callId =>
    dialog == .fromInvite invite toTag publicUri && callId == callIdOf invite
  | .sent r => r.request.method == Method.bye && namesDialogOf invite toTag r.request
  | _ => false

/-- Agent B is told that the call is over, or has said so. -/
def releases : Event → Bool
  | .told (.callEnded _) => true
  | .reported _ => true
  | _ => false

structure Settled (h : Handled) : Prop where
  oneFinal : h.events.countP (isFinal invite) = 1
  oneTag : ∃ tag, ∀ r, Event.sent r ∈ h.events → toInvite invite r → r.status ≠ 100 →
    r.carriedTag = tag
  notForgotten : h.events.any (isAnswer invite) → h.call.isSome ∨
    (h.events.dropWhile (!isAnswer invite ·)).countP (endsDialog invite toTag publicUri) = 1
  released : h.call = none → h.connected = false ∨ h.events.any releases

/-- What neither answers nor ends anything. -/
def Quiet : Event → Prop
  | .sent r => (toInvite invite r → r.status = 100 ∨ r.status < 200 ∧ r.toTag = some toTag) ∧
      ¬ (r.request.method = Method.bye ∧ namesDialogOf invite toTag r.request)
  | .told (.callEnded _) => False
  | .told _ => True
  | .bye _ _ => False
  | .reported _ => False

end

/-! ## The condition -/

section

variable (invite : SipRequest)

/-- How ringing ends, as far as the caller and Agent B decide it. -/
inductive RingEnd where
  | cancelled
  | answered
  | declined
  | closed
  | rangOut
  deriving DecidableEq

def cancels : SipMessage → Bool
  | .request request => isCancelOf invite request
  | .response _ => false

/-- How a pass ends the ringing, if it does. -/
def Pass.ends (pass : Pass) : Option RingEnd :=
  if pass.messages.any (cancels invite) then some .cancelled
  else
    match pass.control with
    | .value .callAnswered => some .answered
    | .value (.bridgeFailed _) => some .declined
    | .disconnected => some .closed
    | _ => none

def ringEnd (passes : List Pass) : RingEnd := (passes.findSome? (·.ends invite)).getD .rangOut

/-- Whether a hop is pending after a pass of a call whose carrier leg is AMR or not. -/
def Pass.hop (carrierAmr hop : Bool) (pass : Pass) : Bool :=
  match pass.control with
  | .value (.forwardMedia verdict) => carrierAmr && verdict.isOk && pass.ackWritten
  | .value .forwardCancel => false
  | _ => hop

/-- Whether a hop is pending when the ringing ends; `hop` says whether one is at its start. -/
def hopAtEnd (hop : Bool) (passes : List Pass) (carrierAmr : Bool) : Bool :=
  (passes.takeWhile (fun pass => (pass.ends invite).isNone)).foldl (Pass.hop carrierAmr) hop

end

section

variable (invite : SipRequest) (toTag : Text) (ctx : InviteContext) (env : Env)

/-- Agent B hears that the call has ended. -/
def Hears : Prop := env.endedWritten = true ∨ env.readerStops = true

/-- Agent B places its legs, or is not left alone. -/
def LegsSound (wideband : Bool) (next : NegotiatedCodec → Prop) : Prop :=
  env.listens.isOk → env.controlConnects.isOk → env.incomingWritten.isOk →
    env.controlClones.isOk →
      match env.reply with
      | .disconnected => True
      | .value (.bridgeFailed _) => True
      | .value .bridgeReady =>
        match vethLeg env wideband with
        | .ok veth => next veth
        | .error _ => env.readerStops = true
      | _ => env.readerStops = true

/-- Ringing that is given up is heard of. -/
def RingSound (next : Prop) : Prop :=
  match ringEnd invite env.passes with
  | .cancelled | .rangOut => Hears env
  | .declined | .closed => True
  | .answered => next

def OfferSound (offer : SdpOffer) (veth : NegotiatedCodec) : Prop :=
  match env.rtpBinds with
  | .error _ => env.readerStops = true
  | .ok (rtpPort, declaredRtcpPort) =>
    match env.rtpConnects offer.remoteRtp with
    | .error _ => env.readerStops = true
    | .ok () =>
      match buildAnswer ctx.localIp rtpPort env.sessionId offer ctx.amrAvailable ctx.wideband
          ctx.answerPreference declaredRtcpPort with
      | .error _ => env.readerStops = true
      | .ok (_, chosen) =>
        let carrierAmr := carrierAmrFor ctx env offer
        let hop := hopAtEnd invite false env.passes carrierAmr
        RingSound invite env (startRelay env (hop && carrierAmr) chosen veth).isOk

def OfferlessSound (veth : NegotiatedCodec) : Prop :=
  match env.rtpBinds with
  | .error _ => env.readerStops = true
  | .ok _ =>
    RingSound invite env
      (match awaitAck invite toTag env.awaitingAck with
      | .acked answerSdp =>
        match answeredMedia answerSdp with
        | none => Hears env
        | some (answer, chosen) =>
          match env.rtpConnects answer.remoteRtp with
          | .error _ => Hears env
          | .ok () => (startRelay env false chosen veth).isOk
      | _ => Hears env)

/-- Nothing fails once the control reader runs, unless Agent B is not left alone by it, and
no relay fails once the call is answered. -/
def Sound (line : Line) : Prop :=
  line.occupied = false → line.pbxDown = false → unsupportedRequiredExtensions invite = [] →
    match screen invite toTag ctx with
    | .refused _ => True
    | .unreadable _ => True
    | .offered offer =>
      LegsSound env (precheck ctx offer == some .amrWb) (OfferSound invite ctx env offer)
    | .offerless => LegsSound env ctx.wideband (OfferlessSound invite toTag env)

end

/-! ## Exits -/

section

variable {invite : SipRequest} {toTag publicUri : Text} {quiet tail : List Event}
  {call : Option ActiveCall} {connected : Bool}

/-- Every response to the INVITE but the first is on the tag. -/
def Tagged (invite : SipRequest) (toTag : Text) (events : List Event) : Prop :=
  ∀ r, Event.sent r ∈ events → toInvite invite r → r.status ≠ 100 → r.toTag = some toTag

/-- What makes a run settled, of the events behind the quiet ones. -/
structure Ends (invite : SipRequest) (toTag publicUri : Text) (tail : List Event)
    (call : Option ActiveCall) (connected : Bool) : Prop where
  oneFinal : tail.countP (isFinal invite) = 1
  notForgotten : tail.any (isAnswer invite) → call.isSome ∨
    (tail.dropWhile (!isAnswer invite ·)).countP (endsDialog invite toTag publicUri) = 1
  released : call = none → connected = false ∨ tail.any releases

variable {r : Response} {e : Event} {reason : Text}

theorem carriedTag_eq (h : toInvite invite r = true) (htag : r.toTag = some toTag) :
    r.carriedTag =
      if toAlreadyTagged ((headerOf invite "To").getD []) then
        headerTag ((headerOf invite "To").getD [])
      else some toTag := by
  have hto : headerOf r.request "To" = headerOf invite "To" := by
    rcases Bool.or_eq_true_iff.1 h with hsame | hagain
    · rw [eq_of_beq hsame]
    · exact eq_of_beq (Bool.and_eq_true_iff.1 hagain).2
  unfold Response.carriedTag
  rw [hto, htag]

theorem Quiet.not_final (h : Quiet invite toTag e) : isFinal invite e = false := by
  cases e with
  | sent r =>
    show (toInvite invite r && decide (200 ≤ r.status)) = false
    cases hto : toInvite invite r with
    | false => rfl
    | true =>
      rcases h.1 hto with h100 | h200
      · rw [h100]
        rfl
      · simpa using h200.1
  | bye | told | reported => rfl

theorem isFinal_of_isAnswer (h : isAnswer invite e = true) : isFinal invite e = true := by
  cases e with
  | sent r =>
    have h : (toInvite invite r && decide (200 ≤ r.status ∧ r.status < 300)) = true := h
    simp only [Bool.and_eq_true, decide_eq_true_eq] at h
    simp [isFinal, h.1, h.2.1]
  | bye | told | reported => cases h

theorem Quiet.not_answer (h : Quiet invite toTag e) : isAnswer invite e = false := by
  cases hanswer : isAnswer invite e with
  | false => rfl
  | true => exact absurd (isFinal_of_isAnswer hanswer) (by simp [h.not_final])

theorem Quiet.not_releases (h : Quiet invite toTag e) : releases e = false := by
  cases e with
  | sent | bye => rfl
  | reported => exact h.elim
  | told notice =>
    cases notice with
    | callEnded => exact h.elim
    | incomingCall | forwardAck => rfl

/-- Quiet events do not matter for whether a run is settled. -/
theorem settled_append (hquiet : ∀ e ∈ quiet, Quiet invite toTag e)
    (htagged : Tagged invite toTag tail) :
    Settled invite toTag publicUri { events := quiet ++ tail, call, connected } ↔
      Ends invite toTag publicUri tail call connected := by
  have hfinal : (quiet ++ tail).countP (isFinal invite) = tail.countP (isFinal invite) := by
    rw [countP_append, countP_eq_zero.2 fun e he => by simp [(hquiet e he).not_final], Nat.zero_add]
  have hanswer : (quiet ++ tail).any (isAnswer invite) = tail.any (isAnswer invite) := by
    rw [any_append, any_eq_false.2 fun e he => by simp [(hquiet e he).not_answer], Bool.false_or]
  have hafter : (quiet ++ tail).dropWhile (!isAnswer invite ·) =
      tail.dropWhile (!isAnswer invite ·) :=
    dropWhile_append_of_pos fun e he => by simp [(hquiet e he).not_answer]
  have hreleases : (quiet ++ tail).any releases = tail.any releases := by
    rw [any_append, any_eq_false.2 fun e he => by simp [(hquiet e he).not_releases], Bool.false_or]
  constructor
  · intro h
    exact ⟨hfinal ▸ h.oneFinal, hanswer ▸ hafter ▸ h.notForgotten, hreleases ▸ h.released⟩
  · intro h
    have htag : Tagged invite toTag (quiet ++ tail) := by
      intro r hr hto hstatus
      rcases mem_append.1 hr with hr | hr
      · rcases (hquiet _ hr).1 hto with h100 | h200
        · exact absurd h100 hstatus
        · exact h200.2
      · exact htagged r hr hto hstatus
    refine ⟨hfinal.trans h.oneFinal,
      ⟨_, fun r hr hto hstatus => carriedTag_eq hto (htag r hr hto hstatus)⟩, ?_, ?_⟩
    · rw [hanswer, hafter]
      exact h.notForgotten
    · rw [hreleases]
      exact h.released

/-- A response that declines the INVITE. -/
structure Declines (invite : SipRequest) (toTag : Text) (r : Response) : Prop where
  request : r.request = invite
  status : 300 ≤ r.status
  tag : r.toTag = some toTag

/-- The response that answers the INVITE. -/
structure Answers (invite : SipRequest) (toTag : Text) (r : Response) : Prop where
  request : r.request = invite
  status : r.status = 200
  tag : r.toTag = some toTag

theorem toInvite_self (h : r.request = invite) : toInvite invite r = true := by
  simp [toInvite, h]

theorem declines_plain {status : UInt16} (h : 300 ≤ status) :
    Declines invite toTag (plainResponse status reason invite toTag) :=
  ⟨rfl, h, rfl⟩

theorem declines_declineResponse (reason : Text) :
    Declines invite toTag (declineResponse invite toTag reason) := by
  unfold declineResponse
  split <;> exact declines_plain (by decide)

theorem declines_bridgeErrorResponse : Declines invite toTag (bridgeErrorResponse invite toTag) :=
  declines_plain (by decide)

theorem answers_answerInvite (contact sdp info : Text) :
    Answers invite toTag (answerInvite invite toTag contact sdp info) :=
  ⟨rfl, rfl, rfl⟩

variable (hmethod : invite.method = Method.invite)

include hmethod in
/-- A response to a request of another method is not one to the INVITE. -/
theorem not_toInvite (h : r.request.method ≠ Method.invite) : toInvite invite r = false := by
  have hne : r.request ≠ invite := fun heq => h (heq ▸ hmethod)
  simp [toInvite, isRetransmissionOf, hne, h]

/-- How an event counts towards the end of a run. -/
structure Counts (invite : SipRequest) (toTag publicUri : Text) (e : Event)
    (final answer ends told : Bool) : Prop where
  final : isFinal invite e = final
  answer : isAnswer invite e = answer
  ends : endsDialog invite toTag publicUri e = ends
  told : releases e = told
  tagged : Tagged invite toTag [e]

theorem tagged_sent (h : toInvite invite r = true → r.toTag = some toTag) :
    Tagged invite toTag [.sent r] := by
  intro r' hr' hto _
  cases mem_singleton.1 hr'
  exact h hto

include hmethod in
theorem not_endsDialog (h : r.request = invite) :
    endsDialog invite toTag publicUri (.sent r) = false := by
  have hbye : r.request.method ≠ Method.bye := by
    rw [h, hmethod]
    decide
  simp [endsDialog, hbye]

include hmethod in
theorem Declines.counts (publicUri : Text) (h : Declines invite toTag r) :
    Counts invite toTag publicUri (.sent r) true false false false where
  final := by
    have hstatus : 200 ≤ r.status := UInt16.le_trans (by decide) h.status
    simp [isFinal, toInvite_self h.request, hstatus]
  answer := by
    have hstatus : ¬ r.status < 300 := UInt16.not_lt.2 h.status
    simp [isAnswer, hstatus]
  ends := not_endsDialog hmethod h.request
  told := rfl
  tagged := tagged_sent fun _ => h.tag

include hmethod in
theorem Answers.counts (publicUri : Text) (h : Answers invite toTag r) :
    Counts invite toTag publicUri (.sent r) true true false false where
  final := by simp [isFinal, toInvite_self h.request, h.status]
  answer := by simp [isAnswer, toInvite_self h.request, h.status]
  ends := not_endsDialog hmethod h.request
  told := rfl
  tagged := tagged_sent fun _ => h.tag

theorem counts_bye :
    Counts invite toTag publicUri (.bye (.fromInvite invite toTag publicUri) (callIdOf invite))
      false false true false :=
  ⟨rfl, rfl, by simp [endsDialog], rfl, by simp [Tagged]⟩

include hmethod in
theorem counts_callerBye {request : SipRequest} (hbye : request.method = Method.bye)
    (hdialog : namesDialogOf invite toTag request = true) :
    Counts invite toTag publicUri (.sent (plainResponse 200 reason request toTag))
      false false true false := by
  have hto : toInvite invite (plainResponse 200 reason request toTag) = false :=
    not_toInvite hmethod (by show request.method ≠ _; rw [hbye]; decide)
  refine ⟨?_, ?_, ?_, rfl, tagged_sent fun h => absurd h (by simp [hto])⟩
  · simp [isFinal, hto]
  · simp [isAnswer, hto]
  · show (request.method == Method.bye && namesDialogOf invite toTag request) = true
    rw [hbye, hdialog]
    rfl

/-- The events of an exit without a call: one final response and, if it answers, one BYE. -/
structure Closing (invite : SipRequest) (toTag publicUri : Text) (body : List Event) : Prop where
  tagged : Tagged invite toTag body
  oneFinal : body.countP (isFinal invite) = 1
  ended : body.any (isAnswer invite) →
    (body.dropWhile (!isAnswer invite ·)).countP (endsDialog invite toTag publicUri) = 1
  untold : body.any releases = false

include hmethod in
theorem Declines.closing (publicUri : Text) (h : Declines invite toTag r) :
    Closing invite toTag publicUri [.sent r] := by
  have hr := h.counts hmethod publicUri
  exact ⟨hr.tagged, by simp [hr.final], by simp [hr.answer], by simp [hr.told]⟩

include hmethod in
theorem Answers.closing (h : Answers invite toTag r)
    (he : Counts invite toTag publicUri e false false true false) :
    Closing invite toTag publicUri [.sent r, e] := by
  have hr := h.counts hmethod publicUri
  refine ⟨?_, by simp [hr.final, he.final], by simp [hr.answer, hr.ends, he.ends],
    by simp [hr.told, he.told]⟩
  intro r' hr' hto hstatus
  rcases mem_cons.1 hr' with heq | hr'
  · exact hr.tagged r' (mem_singleton.2 heq) hto hstatus
  · exact he.tagged r' hr' hto hstatus

/-- The run that ends so is settled. -/
def Good (invite : SipRequest) (toTag publicUri : Text) (outcome : Outcome) : Prop :=
  Settled invite toTag publicUri (outcome.handled invite toTag)

section

variable {env : Env} {body : List Event} (hquiet : ∀ e ∈ quiet, Quiet invite toTag e)

include hquiet

section

variable (hbody : Closing invite toTag publicUri body)

include hbody

theorem settled_closing :
    Settled invite toTag publicUri { events := quiet ++ body, call := none, connected } ↔
      connected = false := by
  rw [settled_append hquiet hbody.tagged]
  constructor
  · intro h
    simpa [hbody.untold] using h.released rfl
  · intro h
    exact ⟨hbody.oneFinal, fun hanswer => .inr (hbody.ended hanswer), fun _ => .inl h⟩

theorem settled_told (he : Counts invite toTag publicUri e false false false true) :
    Settled invite toTag publicUri
      { events := quiet ++ (body ++ [e]), call := none, connected } := by
  have htagged : Tagged invite toTag (body ++ [e]) := fun r hr =>
    (mem_append.1 hr).elim (hbody.tagged r) (he.tagged r)
  rw [settled_append hquiet htagged]
  refine ⟨by simp [hbody.oneFinal, he.final], fun hanswer => .inr ?_, fun _ => .inr ?_⟩
  · have hans : body.any (isAnswer invite) = true := by simpa [he.answer] using hanswer
    have hended := hbody.ended hans
    have hne : (body.dropWhile (!isAnswer invite ·)).isEmpty = false := by
      cases hdrop : body.dropWhile (!isAnswer invite ·) with
      | nil => simp [hdrop] at hended
      | cons => rfl
    simp only [dropWhile_append, hne]
    simp [hended, he.ends]
  · simp [he.told]

theorem good_tellEnded (reason : Text) :
    Good invite toTag publicUri (tellEnded env (quiet ++ body) reason) ↔ Hears env := by
  have hended : Counts invite toTag publicUri (.told (.callEnded reason)) false false false true :=
    ⟨rfl, rfl, rfl, rfl, by simp [Tagged]⟩
  unfold Good Outcome.handled tellEnded Hears
  cases env.endedWritten with
  | true =>
    simp only [if_true, append_assoc, true_or, iff_true]
    exact settled_told hquiet hbody hended
  | false =>
    simp only [Bool.false_eq_true, if_false, append_nil, false_or]
    rw [settled_closing hquiet hbody]
    simp

end

include hmethod

theorem good_abandonedSetup (error : Text) :
    Good invite toTag publicUri (abandonedSetup env quiet error) ↔ env.readerStops = true := by
  unfold Good Outcome.handled abandonedSetup
  rw [settled_closing hquiet (declines_bridgeErrorResponse.closing hmethod publicUri)]
  simp

theorem good_failed (error : Text) : Good invite toTag publicUri (failed quiet error) :=
  (settled_closing hquiet (declines_bridgeErrorResponse.closing hmethod publicUri)).2 rfl

theorem good_declined (hr : Declines invite toTag r) :
    Good invite toTag publicUri (declined quiet r) :=
  (settled_closing hquiet (hr.closing hmethod publicUri)).2 rfl

theorem good_reported (reason : Text) :
    Settled invite toTag publicUri
      { events := quiet ++ [.reported reason, .sent (declineResponse invite toTag reason)]
        call := none
        connected } := by
  have hdeclines : Declines invite toTag (declineResponse invite toTag reason) :=
    declines_declineResponse reason
  have hr := hdeclines.counts hmethod publicUri
  have htagged : Tagged invite toTag
      [.reported reason, .sent (declineResponse invite toTag reason)] := by
    intro r hmem
    apply hr.tagged r
    simpa using hmem
  have hreported : Counts invite toTag publicUri (.reported reason) false false false true :=
    ⟨rfl, rfl, rfl, rfl, by simp [Tagged]⟩
  rw [settled_append hquiet htagged]
  exact ⟨by simp [hr.final, hreported.final], by simp [hr.answer, hreported.answer],
    by simp [hreported.told]⟩

variable {ctx : InviteContext} {a : Response} (ha : Answers invite toTag a)

include ha

theorem good_bridged (sdp : Text) :
    Good invite toTag publicUri (bridged invite toTag ctx (quiet ++ [.sent a]) sdp) := by
  have hr := ha.counts hmethod publicUri
  unfold Good Outcome.handled bridged
  rw [settled_append hquiet hr.tagged]
  exact ⟨by simp [hr.final], by simp, by simp⟩

omit hquiet in
/-- An answered call whose relay fails is answered a second time. -/
theorem not_good_relay (error : Text) :
    ¬ Good invite toTag publicUri (abandonedSetup env (quiet ++ [.sent a]) error) := by
  have hr := ha.counts hmethod publicUri
  have hdeclines : Declines invite toTag (bridgeErrorResponse invite toTag) :=
    declines_bridgeErrorResponse
  have hr' := hdeclines.counts hmethod publicUri
  intro h
  have hone := h.oneFinal
  simp [Outcome.handled, abandonedSetup, hr.final, hr'.final] at hone

end

/-! ## The ring wait -/

section

variable {contact : Text} {request : SipRequest}

theorem quiet_ringing (h : request.method = Method.invite) :
    Quiet invite toTag (.sent (build180Ringing request toTag contact)) := by
  refine ⟨fun _ => .inr ⟨(by decide : (180 : UInt16) < 200), rfl⟩, ?_⟩
  rintro ⟨hbye, -⟩
  exact absurd (h.symm.trans hbye) (by decide)

theorem retransmission_method (h : isRetransmissionOf invite request = true) :
    request.method = Method.invite := by
  exact eq_of_beq (Bool.and_eq_true_iff.1 (Bool.and_eq_true_iff.1 h).1).1

include hmethod in
theorem quiet_cancelled (h : isCancelOf invite request = true) :
    Quiet invite toTag (.sent (plainResponse 200 reason request toTag)) := by
  have hcancel : request.method = Method.cancel := eq_of_beq (Bool.and_eq_true_iff.1 h).1
  have hto : toInvite invite (plainResponse 200 reason request toTag) = false :=
    not_toInvite hmethod (by show request.method ≠ _; rw [hcancel]; decide)
  refine ⟨fun h => absurd h (by simp [hto]), ?_⟩
  rintro ⟨hbye, -⟩
  exact absurd (hcancel.symm.trans hbye) (by decide)

/-- The response to the INVITE that a CANCEL ends. -/
def terminated (invite : SipRequest) (toTag : Text) : Event :=
  .sent (plainResponse 487 "Request Terminated" invite toTag)

include hmethod in
/-- Draining the carrier's messages is quiet up to a CANCEL. -/
theorem ringMessages_spec (toTag contact : Text) (messages : List SipMessage) :
    ∃ quiet, (∀ e ∈ quiet, Quiet invite toTag e) ∧
      ringMessages invite toTag contact messages =
        if messages.any (cancels invite) then
          (quiet ++ [terminated invite toTag], some (.abandoned Reason.callerCancelled))
        else (quiet, none) := by
  induction messages with
  | nil => exact ⟨[], by simp, rfl⟩
  | cons message messages ih =>
    obtain ⟨quiet, hquiet, hrest⟩ := ih
    cases message with
    | response r =>
      refine ⟨quiet, hquiet, ?_⟩
      simp only [ringMessages, ringMessage, hrest, any_cons, cancels, Bool.false_or]
      split <;> rfl
    | request request =>
      cases hcancel : isCancelOf invite request with
      | true =>
        refine ⟨[.sent (plainResponse 200 "OK" request toTag)], ?_, ?_⟩
        · intro e he
          cases mem_singleton.1 he
          exact quiet_cancelled hmethod hcancel
        · simp only [ringMessages, ringMessage, hcancel, any_cons, cancels, Bool.true_or, if_true]
          rfl
      | false =>
        cases hagain : isRetransmissionOf invite request with
        | true =>
          refine ⟨.sent (build180Ringing request toTag contact) :: quiet, ?_, ?_⟩
          · exact forall_mem_cons.2 ⟨quiet_ringing (retransmission_method hagain), hquiet⟩
          · simp only [ringMessages, ringMessage, hcancel, hagain, hrest, any_cons, cancels,
              Bool.false_or, Bool.false_eq_true, if_false, if_true]
            split <;> rfl
        | false =>
          refine ⟨quiet, hquiet, ?_⟩
          simp only [ringMessages, ringMessage, hcancel, hagain, hrest, any_cons, cancels,
            Bool.false_or, Bool.false_eq_true, if_false]
          split <;> rfl

theorem ringEnd_cons (pass : Pass) (passes : List Pass) :
    ringEnd invite (pass :: passes) = (pass.ends invite).getD (ringEnd invite passes) := by
  unfold ringEnd
  rw [findSome?_cons]
  cases pass.ends invite <;> rfl

theorem uncancelled_of_goesOn {pass : Pass} (h : pass.ends invite = none) :
    pass.messages.any (cancels invite) = false := by
  cases hcancel : pass.messages.any (cancels invite) with
  | false => rfl
  | true =>
    unfold Pass.ends at h
    rw [hcancel] at h
    cases h

/-- A control message that does not end the ringing is quiet. -/
theorem ringControl_goesOn {pass : Pass} (toTag : Text) (forward : Option Bool) (hop : Bool)
    (h : pass.ends invite = none) :
    ∃ events hop', ringControl invite toTag forward hop pass = (events, hop', none) ∧
      (∀ e ∈ events, Quiet invite toTag e) ∧
      ∀ carrierAmr, forward = some carrierAmr → hop' = pass.hop carrierAmr hop := by
  have hread := uncancelled_of_goesOn h
  unfold Pass.ends at h
  rw [hread] at h
  unfold ringControl Pass.hop
  cases hctl : pass.control with
  | empty => exact ⟨[], hop, rfl, by simp, fun _ _ => rfl⟩
  | disconnected =>
    rw [hctl] at h
    cases h
  | value message =>
    cases message with
    | callAnswered | bridgeFailed =>
      rw [hctl] at h
      cases h
    | bridgeReady | other => exact ⟨[], hop, rfl, by simp, fun _ _ => rfl⟩
    | forwardCancel =>
      refine ⟨[], hop && forward.isNone, rfl, by simp, ?_⟩
      rintro carrierAmr rfl
      simp
    | forwardMedia verdict =>
      cases forward with
      | none => exact ⟨[], hop, rfl, by simp, nofun⟩
      | some carrierAmr =>
        refine ⟨_, _, rfl, ?_, ?_⟩
        · intro e he
          cases hack : pass.ackWritten with
          | true =>
            rw [hack] at he
            cases mem_singleton.1 he
            trivial
          | false =>
            rw [hack] at he
            cases he
        · cases carrierAmr <;> simp [onForwardMedia, Except.isOk, Except.toBool]

/-- How the ring wait ends, behind its quiet events. -/
def Rung.EndsAs (invite : SipRequest) (toTag : Text) (rung : Rung) (quiet : List Event)
    (hop : Option Bool) : RingEnd → Prop
  | .cancelled => rung.events = quiet ++ [terminated invite toTag] ∧
      rung.outcome = .ok (.abandoned Reason.callerCancelled)
  | .rangOut =>
    rung.events = quiet ++ [.sent (plainResponse 480 temporarilyUnavailable invite toTag)] ∧
      rung.outcome = .ok (.abandoned Reason.pbxNoAnswer)
  | .declined => ∃ reason,
      rung.events = quiet ++ [.reported reason, .sent (declineResponse invite toTag reason)] ∧
        rung.outcome = .ok (.pbxDeclined reason)
  | .closed => rung.events = quiet ∧ ∃ error, rung.outcome = .error error
  | .answered => rung.events = quiet ∧ rung.outcome = .ok .answered ∧ ∀ b, hop = some b → rung.hop = b

theorem Rung.EndsAs.behind {rung : Rung} {hop : Option Bool} {ends : RingEnd}
    (h : rung.EndsAs invite toTag quiet hop ends) (before : List Event) :
    { rung with events := before ++ rung.events }.EndsAs invite toTag (before ++ quiet) hop ends := by
  cases ends with
  | cancelled | rangOut | closed | answered => exact ⟨by simp [h.1], h.2⟩
  | declined =>
    obtain ⟨reason, hevents, hout⟩ := h
    exact ⟨reason, by simp [hevents], hout⟩

/-- A control message that ends the ringing does so at once. -/
theorem ringControl_ends {pass : Pass} {ends : RingEnd} (toTag : Text) (forward : Option Bool)
    (hop : Bool) (h : pass.ends invite = some ends)
    (hread : pass.messages.any (cancels invite) = false) :
    ∃ rung : Rung, ringControl invite toTag forward hop pass =
        (rung.events, rung.hop, some rung.outcome) ∧
      rung.EndsAs invite toTag [] (forward.map fun _ => hop) ends := by
  unfold Pass.ends at h
  rw [hread] at h
  unfold ringControl
  cases hctl : pass.control with
  | empty =>
    rw [hctl] at h
    cases h
  | disconnected =>
    rw [hctl] at h
    cases h
    exact ⟨⟨[], hop, _⟩, rfl, rfl, _, rfl⟩
  | value message =>
    rw [hctl] at h
    cases message with
    | bridgeReady | forwardMedia | forwardCancel | other => cases h
    | callAnswered =>
      cases h
      refine ⟨⟨[], hop, _⟩, rfl, rfl, rfl, fun b hb => ?_⟩
      obtain ⟨_, -, rfl⟩ := Option.map_eq_some_iff.1 hb
      rfl
    | bridgeFailed reason =>
      cases h
      exact ⟨⟨_, hop, _⟩, rfl, reason, rfl, rfl⟩

include hmethod in
/-- The ring wait is quiet up to what ends it. -/
theorem awaitPbxAnswer_spec (toTag contact : Text) (forward : Option Bool) (hop : Bool)
    (passes : List Pass) :
    ∃ quiet, (∀ e ∈ quiet, Quiet invite toTag e) ∧
      (awaitPbxAnswer invite toTag contact forward hop passes).EndsAs invite toTag quiet
        (forward.map (hopAtEnd invite hop passes)) (ringEnd invite passes) := by
  induction passes generalizing hop with
  | nil => exact ⟨[], by simp, rfl, rfl⟩
  | cons pass passes ih =>
    obtain ⟨quiet, hquiet, hread⟩ :=
      ringMessages_spec hmethod toTag contact pass.messages
    rw [ringEnd_cons, awaitPbxAnswer, hread]
    cases hends : pass.ends invite with
    | none =>
      have hno := uncancelled_of_goesOn hends
      obtain ⟨events, hop', hctl, hevents, hhop⟩ :=
        ringControl_goesOn toTag forward hop hends
      obtain ⟨rest, hrest, hrung⟩ := ih hop'
      refine ⟨quiet ++ events ++ rest, ?_, ?_⟩
      · intro e he
        simp only [mem_append] at he
        rcases he with (he | he) | he
        · exact hquiet e he
        · exact hevents e he
        · exact hrest e he
      · simp only [hno, Bool.false_eq_true, if_false, hctl, Option.getD_none]
        have hhop' : forward.map (hopAtEnd invite hop (pass :: passes)) =
            forward.map (hopAtEnd invite hop' passes) := by
          cases forward with
          | none => rfl
          | some carrierAmr =>
            simp [hopAtEnd, hends, hhop carrierAmr rfl]
        rw [hhop']
        exact hrung.behind (quiet ++ events)
    | some ends =>
      have hhop : forward.map (hopAtEnd invite hop (pass :: passes)) = forward.map fun _ => hop := by
        cases forward with
        | none => rfl
        | some carrierAmr => simp [hopAtEnd, hends]
      rw [hhop]
      refine ⟨quiet, hquiet, ?_⟩
      cases hcancel : pass.messages.any (cancels invite) with
      | true =>
        simp only [Pass.ends, hcancel, if_true, Option.some.injEq] at hends
        subst hends
        exact ⟨rfl, rfl⟩
      | false =>
        obtain ⟨polled, hctl, hrung⟩ := ringControl_ends toTag forward hop hends hcancel
        simp only [Bool.false_eq_true, if_false, hctl]
        simpa using hrung.behind quiet

end

/-! ## The set-up -/

section

variable {ctx : InviteContext} {env : Env} (hquiet : ∀ e ∈ quiet, Quiet invite toTag e)

include hmethod hquiet

/-- Up to Agent B's legs, the set-up is settled as far as what follows is. -/
theorem good_placeLegs {wideband : Bool} {next : List Event → NegotiatedCodec → Outcome}
    {sound : NegotiatedCodec → Prop}
    (hnext : ∀ quiet veth, (∀ e ∈ quiet, Quiet invite toTag e) →
      (Good invite toTag publicUri (next quiet veth) ↔ sound veth)) :
    Good invite toTag publicUri (placeLegs invite toTag ctx env wideband quiet next) ↔
      LegsSound env wideband sound := by
  have hringing : ∀ e ∈ quiet ++ [.sent (build180Ringing invite toTag (uasContact ctx))],
      Quiet invite toTag e :=
    forall_mem_append.2 ⟨hquiet, forall_mem_singleton.2 (quiet_ringing hmethod)⟩
  have htold : ∀ e ∈ quiet ++ [.sent (build180Ringing invite toTag (uasContact ctx))] ++
      [.told .incomingCall], Quiet invite toTag e :=
    forall_mem_append.2 ⟨hringing, forall_mem_singleton.2 trivial⟩
  unfold placeLegs LegsSound
  cases env.listens with
  | error e => exact iff_of_true (good_failed hmethod hquiet _) nofun
  | ok =>
    cases env.controlConnects with
    | error e => exact iff_of_true (good_failed hmethod hringing _) fun _ => nofun
    | ok =>
      cases env.incomingWritten with
      | error e => exact iff_of_true (good_failed hmethod hringing _) fun _ _ => nofun
      | ok =>
        cases env.controlClones with
        | error e => exact iff_of_true (good_failed hmethod htold _) fun _ _ _ => nofun
        | ok =>
          simp only [Except.isOk, Except.toBool, true_imp_iff]
          cases env.reply with
          | empty => exact good_abandonedSetup hmethod htold _
          | disconnected => exact iff_of_true (good_failed hmethod htold _) trivial
          | value message =>
            cases message with
            | bridgeFailed reason =>
              exact iff_of_true (good_reported hmethod htold reason) trivial
            | bridgeReady =>
              cases vethLeg env wideband with
              | error e => exact good_abandonedSetup hmethod htold _
              | ok veth => exact hnext _ veth htold
            | callAnswered | forwardMedia | forwardCancel | other =>
              exact good_abandonedSetup hmethod htold _

/-- Up to the end of the ringing, the set-up is settled as far as what follows is. -/
theorem good_whileRinging {forward : Option Bool} {next : List Event → Bool → Outcome}
    {sound : Prop}
    (hnext : ∀ quiet hop, (∀ e ∈ quiet, Quiet invite toTag e) →
      (∀ carrierAmr, forward = some carrierAmr →
        hop = hopAtEnd invite false env.passes carrierAmr) →
      (Good invite toTag publicUri (next quiet hop) ↔ sound)) :
    Good invite toTag publicUri (whileRinging invite toTag ctx env forward quiet next) ↔
      RingSound invite env sound := by
  obtain ⟨rung, hrung, hspec⟩ := awaitPbxAnswer_spec hmethod toTag (uasContact ctx) forward false
    env.passes
  have hall : ∀ e ∈ quiet ++ rung, Quiet invite toTag e :=
    forall_mem_append.2 ⟨hquiet, hrung⟩
  unfold whileRinging RingSound
  dsimp only
  cases hend : ringEnd invite env.passes with
  | cancelled | rangOut =>
    rw [hend] at hspec
    rw [hspec.1, hspec.2, ← append_assoc]
    exact good_tellEnded hall ((declines_plain (by decide)).closing hmethod publicUri) _
  | declined =>
    rw [hend] at hspec
    obtain ⟨reason, hevents, hout⟩ := hspec
    rw [hevents, hout, ← append_assoc]
    exact iff_of_true (good_reported hmethod hall reason) trivial
  | closed =>
    rw [hend] at hspec
    obtain ⟨hevents, error, hout⟩ := hspec
    rw [hevents, hout]
    exact iff_of_true (good_failed hmethod hall error) trivial
  | answered =>
    rw [hend] at hspec
    obtain ⟨hevents, hout, hhop⟩ := hspec
    rw [hevents, hout]
    apply hnext _ _ hall
    rintro carrierAmr rfl
    exact hhop _ rfl

variable {a : Response} (ha : Answers invite toTag a)

include ha in
/-- Behind the answer, everything depends on the relay. -/
theorem good_relay (relay : Except Text Unit) (sdp : Text) :
    Good invite toTag publicUri
        (match relay with
        | .error e => abandonedSetup env (quiet ++ [.sent a]) e
        | .ok () => bridged invite toTag ctx (quiet ++ [.sent a]) sdp) ↔
      relay.isOk := by
  cases relay with
  | error e => exact iff_of_false (not_good_relay hmethod ha e) nofun
  | ok => exact iff_of_true (good_bridged hmethod hquiet ha sdp) rfl

theorem good_answerOffer (offer : SdpOffer) :
    Good invite toTag publicUri (answerOffer invite toTag ctx env quiet offer) ↔
      LegsSound env (precheck ctx offer == some .amrWb) (OfferSound invite ctx env offer) := by
  apply good_placeLegs hmethod hquiet
  intro quiet veth hquiet
  unfold OfferSound
  cases env.rtpBinds with
  | error e => exact good_abandonedSetup hmethod hquiet _
  | ok ports =>
    cases env.rtpConnects offer.remoteRtp with
    | error e => exact good_abandonedSetup hmethod hquiet _
    | ok =>
      dsimp only
      cases buildAnswer ctx.localIp ports.1 env.sessionId offer ctx.amrAvailable ctx.wideband
        ctx.answerPreference ports.2 with
      | error e => exact good_abandonedSetup hmethod hquiet _
      | ok answer =>
        apply good_whileRinging hmethod hquiet
        intro quiet hop hquiet hhop
        rw [hhop _ rfl]
        exact good_relay hmethod hquiet (answers_answerInvite _ _ _) _ _

omit hmethod hquiet in
/-- The BYE that ends the wait for the ACK is one of the call's dialog. -/
theorem callerBye_of_awaitAck {messages : List SipMessage} {request : SipRequest}
    (h : awaitAck invite toTag messages = .callerBye request) :
    request.method = Method.bye ∧ namesDialogOf invite toTag request = true := by
  unfold awaitAck at h
  cases hfound : messages.findSome? (ackMessage invite toTag) with
  | none =>
    rw [hfound] at h
    cases h
  | some outcome =>
    rw [hfound] at h
    obtain rfl : outcome = .callerBye request := h
    obtain ⟨message, -, hmsg⟩ := exists_of_findSome?_eq_some hfound
    cases message with
    | response r => cases hmsg
    | request r =>
      unfold ackMessage at hmsg
      dsimp only at hmsg
      split at hmsg
      · cases hmsg
      split at hmsg
      case isTrue hbye =>
        cases hmsg
        exact hbye
      case isFalse => cases hmsg

theorem good_handleOfferlessInvite :
    Good invite toTag ctx.publicUri (handleOfferlessInvite invite toTag ctx env quiet) ↔
      LegsSound env ctx.wideband (OfferlessSound invite toTag env) := by
  apply good_placeLegs hmethod hquiet
  intro quiet veth hquiet
  unfold OfferlessSound
  cases env.rtpBinds with
  | error e => exact good_abandonedSetup hmethod hquiet _
  | ok ports =>
    apply good_whileRinging hmethod hquiet
    intro quiet hop hquiet _
    let a := answerInvite invite toTag (uasContact ctx) env.ourOffer ctx.accessNetworkInfo
    have ha : Answers invite toTag a := answers_answerInvite _ _ _
    have hteardown (reason : Text) :
        Good invite toTag ctx.publicUri (teardown invite toTag ctx env (quiet ++ [.sent a]) reason) ↔
          Hears env := by
      unfold teardown
      rw [append_assoc]
      exact good_tellEnded hquiet (ha.closing hmethod counts_bye) reason
    cases hack : awaitAck invite toTag env.awaitingAck with
    | silence => exact hteardown _
    | callerBye request =>
      obtain ⟨hbye, hdialog⟩ := callerBye_of_awaitAck hack
      dsimp only
      rw [append_assoc]
      exact good_tellEnded hquiet (ha.closing hmethod (counts_callerBye hmethod hbye hdialog)) _
    | acked answerSdp =>
      dsimp only
      cases answeredMedia answerSdp with
      | none => exact hteardown _
      | some answer =>
        dsimp only
        cases env.rtpConnects answer.1.remoteRtp with
        | error e => exact hteardown _
        | ok => exact good_relay hmethod hquiet ha _ _

end

theorem declines_inviteBodyDecision (h : inviteBodyDecision invite toTag = .refuse r) :
    Declines invite toTag r := by
  have hmedia : Declines invite toTag (build415UnsupportedMedia invite toTag inviteBodyAccept) :=
    ⟨rfl, (by decide : (300 : UInt16) ≤ 415), rfl⟩
  have hbad : Declines invite toTag (plainResponse 400 "Bad Request" invite toTag) :=
    declines_plain (by decide)
  unfold inviteBodyDecision at h
  split at h
  · cases h
  · cases h
  · cases h
    exact hmedia
  · cases h
    exact hmedia
  · cases h
    exact hbad
  · cases h
    exact hbad

theorem declines_screen {ctx : InviteContext} (h : screen invite toTag ctx = .refused r) :
    Declines invite toTag r := by
  unfold screen at h
  split at h
  · cases h
  case h_2 response hbody =>
    cases h
    exact declines_inviteBodyDecision hbody
  · split at h
    · cases h
    split at h
    · cases h
      exact ⟨rfl, (by decide : (300 : UInt16) ≤ 488), rfl⟩
    split at h
    · cases h
      exact declines_plain (by decide)
    split at h
    · cases h
      exact ⟨rfl, (by decide : (300 : UInt16) ≤ 488), rfl⟩
    · cases h

end

/-- An INVITE for a new call is settled exactly if its set-up is sound. -/
theorem settled_iff_sound (line : Line) (ctx : InviteContext) (env : Env) (fresh : Text)
    (invite : SipRequest) (hmethod : invite.method = Method.invite)
    (hnew : line.inDialog invite = none) :
    Settled invite fresh ctx.publicUri (handleInboundInvite line ctx env fresh invite) ↔
      Sound invite fresh ctx env line := by
  have hnone : ∀ e ∈ ([] : List Event), Quiet invite fresh e := by simp
  have htrying : ∀ e ∈ [Event.sent (build100Trying invite)], Quiet invite fresh e := by
    intro e he
    cases mem_singleton.1 he
    refine ⟨fun _ => .inl rfl, ?_⟩
    rintro ⟨hbye, -⟩
    exact absurd (hmethod.symm.trans hbye) (by decide)
  unfold handleInboundInvite Sound
  rw [hnew]
  cases line.occupied with
  | true =>
    refine iff_of_true ?_ nofun
    exact good_declined hmethod hnone (declines_plain (by decide))
  | false =>
    cases line.pbxDown with
    | true =>
      refine iff_of_true ?_ fun _ => nofun
      exact good_declined hmethod hnone (declines_plain (by decide))
    | false =>
      unfold handleInvite
      cases hrequire : unsupportedRequiredExtensions invite with
      | cons tag tags =>
        refine iff_of_true ?_ nofun
        exact good_declined hmethod hnone ⟨rfl, (by decide : (300 : UInt16) ≤ 420), rfl⟩
      | nil =>
        simp only [isEmpty_nil, Bool.not_true, Bool.false_eq_true, if_false, true_imp_iff]
        cases hscreen : screen invite fresh ctx with
        | refused r =>
          exact iff_of_true (good_declined hmethod htrying (declines_screen hscreen)) trivial
        | unreadable e => exact iff_of_true (good_failed hmethod htrying e) trivial
        | offered offer => exact good_answerOffer hmethod htrying offer
        | offerless => exact good_handleOfferlessInvite hmethod htrying

open Sample in
/-- A call without an offer is answered, but its ACK never comes: it is ended by a BYE. -/
theorem settled_iff_sound_unacknowledged :
    Settled offerless tag ctx.publicUri (handleInboundInvite line ctx env tag offerless) := by
  apply (settled_iff_sound line ctx env tag offerless rfl rfl).2
  intro _ _ _
  have hscreen : screen offerless tag ctx = .offerless := rfl
  intro _ _ _ _
  exact .inl rfl

open Sample in
/-- The phone is answered and the carrier told so, but the transcoder between its AMR and the
PCMU of the veth link cannot be started: the INVITE gets a second final response, and nobody
ends the call. -/
theorem relayFailure_answers_twice :
    ¬ ∀ (line : Line) (ctx : InviteContext) (env : Env) (fresh : Text) (invite : SipRequest),
      invite.method = Method.invite → line.inDialog invite = none →
        Settled invite fresh ctx.publicUri (handleInboundInvite line ctx env fresh invite) := by
  intro h
  have hrun := h line ctx { env with transcodes := .error [] } tag invite rfl rfl
  have hone := hrun.oneFinal
  revert hone
  decide

end Ims.Inbound
