-- SUMMARY: The dispatch loop's queues around an inbound call (`ims/agent/mod.rs`, `ims/agent/inbound.rs`).
import Mathlib.Data.List.Perm.Basic
import GsmSipBridge.Ims.Agent.Inbound
import GsmSipBridge.Lib.Trace

/-!
# Waiting and the queues

The readers put every message of the carrier on one queue. The loop takes them one by one;
an inbound call parks it in the ring wait, and a call without an offer in the wait for its
ACK. A wait reads the queue itself: responses that nobody there wants are put aside and go
back on the queue when it is over, and the first pass after it takes whatever has queued up.
Between two registrations, which replace the queue, each message is followed to its end.
-/

namespace Ims.Dispatch

open Text SipClient Inbound List

/-! ## The loop's own handlers -/

/-- What the handlers of the loop go by. -/
structure Desk where
  call : Option ActiveCall := none
  /-- The carrier refreshes the session of the call. -/
  carrierRefreshes : Bool := false
  /-- A NOTIFY is for a subscription that the line has or had. -/
  subscribed : Bool := false
  /-- A MESSAGE has been relayed, or needs no relay. -/
  relayed : Bool := true
  /-- The tag that is drawn for the response. -/
  fresh : Text := []

section

variable (desk : Desk) (request : SipRequest)

def ok (toTag : Text) : Response := plainResponse 200 "OK" request toTag

def doesNotExist (toTag : Text) : Response :=
  plainResponse 481 "Call/Transaction Does Not Exist" request toTag

def uasAllow : Text := "INVITE, ACK, CANCEL, BYE, OPTIONS, MESSAGE, NOTIFY"

def unservedMethodResponse : Response :=
  if request.method = Method.cancel then doesNotExist request desk.fresh
  else
    { plainResponse 405 "Method Not Allowed" request desk.fresh with
      extra := [("Allow", uasAllow)] }

def Desk.inDialog : Option ActiveCall :=
  desk.call.filter fun call =>
    namesActiveDialog request call.callId call.toTag call.dialog.theirs

def handleCarrierBye : Response :=
  match desk.inDialog request with
  | some call => ok request call.toTag
  | none => doesNotExist request desk.fresh

def cancelResponse : Response :=
  match desk.call.filter fun call => headerOf request "Call-ID" == some call.callId with
  | some call => ok request call.toTag
  | none => unservedMethodResponse desk request

/-- `respond_notify` adds no tag. -/
def answerRegNotify : Response :=
  { if desk.subscribed then ok request [] else doesNotExist request [] with toTag := none }

def messageContentTypeSupported : Bool :=
  match headerOf request "Content-Type" with
  | none => true
  | some value => (Body.MediaType.parse value).any fun m =>
      m.is "application/vnd.3gpp.sms" || m.is "text/plain"

/-- A MESSAGE that cannot be relayed is left unanswered, so that it is sent again. -/
def handleMessage : Option Response :=
  if !messageContentTypeSupported request then
    some (build415UnsupportedMedia request desk.fresh
      "application/vnd.3gpp.sms, text/plain")
  else if desk.relayed then some (ok request desk.fresh)
  else none

def handleCarrierUpdate : Response :=
  match (desk.inDialog request).filter fun _ =>
      (trim request.body).isEmpty && desk.carrierRefreshes with
  | some call => { ok request call.toTag with extra := [("Supported", "timer")] }
  | none => unservedMethodResponse desk request

def optionsResponse : Response :=
  { ok request desk.fresh with
    extra := [("Allow", uasAllow), ("Accept", inviteBodyAccept)] }

def messageMethod : Text := "MESSAGE"

/-- The one response of the loop to a request other than an INVITE or an ACK. -/
def response : Option Response :=
  if request.method = Method.bye then some (handleCarrierBye desk request)
  else if request.method = Method.cancel then some (cancelResponse desk request)
  else if request.method = "NOTIFY" then some (answerRegNotify desk request)
  else if request.method = messageMethod then handleMessage desk request
  else if request.method = "UPDATE" then some (handleCarrierUpdate desk request)
  else if request.method = "OPTIONS" then some (optionsResponse desk request)
  else some (unservedMethodResponse desk request)

end

/-! ## The loop -/

/-- A message of the carrier, numbered in the order of arrival. -/
structure Queued where
  number : Nat
  message : SipMessage
  deriving DecidableEq

/-- The wait that the loop is parked in. -/
inductive Wait where
  | ringing (invite : SipRequest) (toTag contact : Text)
  | awaitingAck (invite : SipRequest) (toTag : Text)
  deriving DecidableEq

/-- What becomes of a message. -/
inductive Fate where
  /-- A response: the loop's own handling. -/
  | handled
  /-- A response: taken by the registration refresh in the ring wait. -/
  | refreshed
  /-- An INVITE: `handle_inbound_invite`. -/
  | invited
  /-- Another request: what the loop's handler for it sends, given whether it was relayed. -/
  | served (relayed : Bool) (response : Option Response)
  /-- An ACK, which has no answer. -/
  | noted
  /-- A request that is answered by the wait. -/
  | answered (wait : Wait)
  /-- A request that the wait reads and leaves unanswered. -/
  | ignored (wait : Wait)
  deriving DecidableEq

structure Loop where
  /-- `inbound.rx`. -/
  queue : List Queued := []
  /-- The messages taken off the queue after a wait. -/
  held : List Queued := []
  afterBlockingHandler : Bool := false
  /-- The wait, with the responses that it has put aside. -/
  wait : Option (Wait × List Queued) := none
  /-- Everything that has arrived, and what has become of what. -/
  arrived : List Queued := []
  fates : List (Queued × Fate) := []

/-- One step of a reader or of the loop. -/
inductive Turn where
  | arrives (message : SipMessage)
  /-- A pass of the loop; an INVITE that it takes rings the phone on a tag, or is answered. -/
  | pass (rings : Option (Text × Text)) (desk : Desk)
  /-- The wait reads a message; `refreshes` says whether the refresh takes a response. -/
  | waitReads (refreshes : Bool)
  /-- The wait is over for another reason: Agent B, or the deadline. -/
  | waitEnds (phoneAnswered : Bool)

namespace Loop

variable (s : Loop)

def settle (q : Queued) (fate : Fate) : Loop := { s with fates := s.fates ++ [(q, fate)] }

/-- `begin_pass`, as far as the queues go. -/
def beginPass : Loop :=
  if s.afterBlockingHandler then
    { s with held := s.held ++ s.queue, queue := [], afterBlockingHandler := false }
  else s

/-- The loop handles a message. -/
def serve (q : Queued) (rings : Option (Text × Text)) (desk : Desk) : Loop :=
  match q.message with
  | .response _ => s.settle q .handled
  | .request request =>
    if request.method = Method.invite then
      { s.settle q .invited with
        afterBlockingHandler := true
        wait := rings.map fun r => (.ringing request r.1 r.2, []) }
    else if request.method = Method.ack then s.settle q .noted
    else s.settle q (.served desk.relayed (response desk request))

def pass (rings : Option (Text × Text)) (desk : Desk) : Loop :=
  let s := s.beginPass
  match s.held, s.queue with
  | q :: held, _ => { s with held }.serve q rings desk
  | [], q :: queue => { s with queue }.serve q rings desk
  | [], [] => s

/-- `HeldMessages` is dropped: what was put aside goes back on the queue. -/
def release (aside : List Queued) : Loop := { s with queue := s.queue ++ aside, wait := none }

/-- The ring wait reads a request. -/
def ringReads (q : Queued) (invite : SipRequest) (toTag contact : Text) (aside : List Queued) :
    Loop :=
  let read := ringMessage invite toTag contact q.message
  let wait := Wait.ringing invite toTag contact
  let s := s.settle q (if read.1.isEmpty then .ignored wait else .answered wait)
  if read.2.isSome then s.release aside else s

/-- The wait for the ACK reads a request. -/
def ackReads (q : Queued) (invite : SipRequest) (toTag : Text) (aside : List Queued) : Loop :=
  match ackMessage invite toTag q.message with
  | none => s.settle q (.ignored (.awaitingAck invite toTag))
  | some (.acked _) => (s.settle q .noted).release aside
  | some _ => (s.settle q (.answered (.awaitingAck invite toTag))).release aside

/-- Only the ring wait serves the refresh. -/
def waitReads (wait : Wait) (aside : List Queued) (q : Queued) (refreshes : Bool) : Loop :=
  match q.message, wait with
  | .response _, .ringing _ _ _ =>
    if refreshes then s.settle q .refreshed else { s with wait := some (wait, aside ++ [q]) }
  | .response _, .awaitingAck _ _ => { s with wait := some (wait, aside ++ [q]) }
  | .request _, .ringing invite toTag contact => s.ringReads q invite toTag contact aside
  | .request _, .awaitingAck invite toTag => s.ackReads q invite toTag aside

/-- An answered call without an offer goes on to wait for its ACK. -/
def waitEnds (wait : Wait) (aside : List Queued) (phoneAnswered : Bool) : Loop :=
  let s := s.release aside
  match wait with
  | .awaitingAck _ _ => s
  | .ringing invite toTag _ =>
    match inviteBodyDecision invite toTag with
    | .offerless => if phoneAnswered then { s with wait := some (.awaitingAck invite toTag, []) } else s
    | .offer _ => s
    | .refuse _ => s

end Loop

def step (s : Loop) : Turn → Loop
  | .arrives message =>
    let q : Queued := { number := s.arrived.length, message }
    { s with queue := s.queue ++ [q], arrived := s.arrived ++ [q] }
  | .pass rings desk =>
    match s.wait with
    | none => s.pass rings desk
    | some _ => s
  | .waitReads refreshes =>
    match s.wait, s.queue with
    | some (wait, aside), q :: queue => { s with queue }.waitReads wait aside q refreshes
    | _, _ => s
  | .waitEnds phoneAnswered =>
    match s.wait with
    | some (wait, aside) => s.waitEnds wait aside phoneAnswered
    | none => s

/-! ## Accounts -/

/-- What a wait has put aside. -/
def Loop.aside (s : Loop) : List Queued := (s.wait.map Prod.snd).getD []

/-- Every place where a message can be. -/
def Loop.places (s : Loop) : List Queued :=
  s.queue ++ s.aside ++ s.held ++ s.fates.map Prod.fst

/-- The requests that a wait answers: a CANCEL of the ringing call and its INVITE sent again,
a BYE in the dialog of the answered one. -/
def Wait.answers : Wait → SipRequest → Bool
  | .ringing invite _ _, request => isCancelOf invite request || isRetransmissionOf invite request
  | .awaitingAck invite toTag, request =>
    request.method == Method.bye && namesDialogOf invite toTag request

/-- One final response to the request, unless it is a MESSAGE that could not be relayed. -/
def Answers (request : SipRequest) (relayed : Bool) : Option Response → Prop
  | some r => r.request = request ∧ 200 ≤ r.status
  | none => request.method = messageMethod ∧ relayed = false

/-- The fates of responses, and of which requests. -/
def Fits (message : SipMessage) : Fate → Prop
  | .handled => ∃ response, message = .response response
  | .refreshed => ∃ response, message = .response response
  | .invited => ∃ request, message = .request request ∧ request.method = Method.invite
  | .served relayed response =>
    ∃ request, message = .request request ∧ Answers request relayed response
  | .noted => ∃ request, message = .request request ∧ request.method = Method.ack
  | .answered wait => ∃ request, message = .request request ∧ wait.answers request = true
  | .ignored wait => ∃ request, message = .request request ∧ wait.answers request = false

/-- Each message that has arrived is in one place, once, and its fate is one of its kind. -/
structure Accounted (s : Loop) : Prop where
  once : s.places.Perm s.arrived
  numbered : s.arrived.map Queued.number = List.range s.arrived.length
  fits : ∀ qf ∈ s.fates, Fits qf.1.message qf.2

/-! ### What the handlers answer -/

theorem answers_unservedMethodResponse (desk : Desk) (request : SipRequest) :
    Answers request desk.relayed (some (unservedMethodResponse desk request)) := by
  unfold unservedMethodResponse
  split
  · exact ⟨rfl, (by decide : (200 : UInt16) ≤ 481)⟩
  · exact ⟨rfl, (by decide : (200 : UInt16) ≤ 405)⟩

theorem answers_response (desk : Desk) (request : SipRequest) :
    Answers request desk.relayed (response desk request) := by
  have hok (toTag : Text) : Answers request desk.relayed (some (ok request toTag)) :=
    ⟨rfl, (by decide : (200 : UInt16) ≤ 200)⟩
  have hnone (toTag : Text) : Answers request desk.relayed (some (doesNotExist request toTag)) :=
    ⟨rfl, (by decide : (200 : UInt16) ≤ 481)⟩
  have hunserved := answers_unservedMethodResponse desk request
  unfold response
  split
  · unfold handleCarrierBye
    split
    · exact hok _
    · exact hnone _
  split
  · unfold cancelResponse
    split
    · exact hok _
    · exact hunserved
  split
  · unfold answerRegNotify
    split
    · exact hok []
    · exact hnone []
  split
  case isTrue hmessage =>
    unfold handleMessage
    split
    · exact ⟨rfl, (by decide : (200 : UInt16) ≤ 415)⟩
    split
    · exact hok _
    case isFalse hfails => exact ⟨hmessage, Bool.eq_false_iff.2 hfails⟩
  case isFalse =>
    split
    · unfold handleCarrierUpdate
      split
      · exact ⟨rfl, (hok []).2⟩
      · exact hunserved
    split
    · exact ⟨rfl, (hok []).2⟩
    · exact hunserved

/-! ## The order of the responses

A response that was put aside goes back behind those that have come in since. -/

/-- The numbers of the responses among some messages. -/
def responses (l : List Queued) : List Nat :=
  (l.filter fun q => q.message matches .response _).map Queued.number

/-- The responses that the loop has handled, in order. -/
def handled (fates : List (Queued × Fate)) : List Nat :=
  (fates.filter fun qf => qf.2 matches .handled).map fun qf => qf.1.number

/-- The loop has handled the responses in the order of their arrival. -/
def InOrder (s : Loop) : Prop := (handled s.fates).Pairwise (· < ·)

/-- The wait is over once it has read the message. -/
def Wait.endedBy : Wait → SipMessage → Bool
  | .ringing invite toTag contact, message => (ringMessage invite toTag contact message).2.isSome
  | .awaitingAck invite toTag, message => (ackMessage invite toTag message).isSome

/-- No wait ends with responses both put aside and still queued. -/
def Clean (s : Loop) : Turn → Prop
  | .waitReads _ => ∀ wait aside q queue, s.wait = some (wait, aside) → s.queue = q :: queue →
      wait.endedBy q.message = true → responses aside = [] ∨ responses queue = []
  | .waitEnds _ => responses s.aside = [] ∨ responses s.queue = []
  | .arrives _ => True
  | .pass _ _ => True

/-- The responses on their way, those first that come first. -/
def Loop.order (s : Loop) : List Nat :=
  handled s.fates ++ responses s.held ++ responses s.aside ++ responses s.queue

structure Ordered (s : Loop) : Prop where
  sorted : s.order.Pairwise (· < ·)
  below : ∀ n ∈ s.order, n < s.arrived.length

@[simp] theorem responses_nil : responses [] = [] := rfl

@[simp] theorem responses_append (l m : List Queued) :
    responses (l ++ m) = responses l ++ responses m := by
  simp [responses]

theorem responses_cons (q : Queued) (l : List Queued) :
    responses (q :: l) = responses [q] ++ responses l :=
  responses_append [q] l

/-! ## Moves -/

variable {rings : Option (Text × Text)} {desk : Desk} {s t : Loop}

/-- The moves that a turn is made of. It is `clean` if no wait ends with responses both put aside
and queued. -/
inductive Moves (clean : Prop) : Loop → Loop → Prop
  | refl (s : Loop) : Moves clean s s
  | trans {s t u : Loop} : Moves clean s t → Moves clean t u → Moves clean s u
  | drains {s : Loop} (free : s.aside = []) :
      Moves clean s { s with held := s.held ++ s.queue, queue := [], afterBlockingHandler := false }
  /-- The first message has its fate, and a wait may start, with nothing put aside. -/
  | serves {s : Loop} {q : Queued} {held queue : List Queued} {fate : Fate} {after : Bool}
      {wait : Option (Wait × List Queued)} (free : s.aside = [])
      (front : s.held ++ s.queue = q :: (held ++ queue)) (fits : Fits q.message fate)
      (new : (wait.map Prod.snd).getD [] = []) :
      Moves clean s
        { s with queue, held, afterBlockingHandler := after, wait, fates := s.fates ++ [(q, fate)] }
  | reads {s : Loop} {q : Queued} {queue : List Queued} {fate : Fate} (front : s.queue = q :: queue)
      (fits : Fits q.message fate) (other : fate ≠ .handled) :
      Moves clean s { s with queue, fates := s.fates ++ [(q, fate)] }
  | putsAside {s : Loop} {q : Queued} {queue : List Queued} {wait : Wait} (front : s.queue = q :: queue) :
      Moves clean s { s with queue, wait := some (wait, s.aside ++ [q]) }
  | ends {s : Loop} {wait : Option (Wait × List Queued)} (new : (wait.map Prod.snd).getD [] = [])
      (hclean : clean → responses s.aside = [] ∨ responses s.queue = []) :
      Moves clean s { s with queue := s.queue ++ s.aside, wait }

namespace Moves

variable {clean : Prop}

theorem arrived (h : Moves clean s t) : t.arrived = s.arrived := by
  induction h with
  | trans _ _ ih ih' => exact ih'.trans ih
  | refl | drains | serves | reads | putsAside | ends => rfl

theorem places (h : Moves clean s t) : t.places.Perm s.places := by
  induction h with
  | refl => exact .refl _
  | trans _ _ ih ih' => exact ih'.trans ih
  | ends =>
    simp [Loop.places, Loop.aside, *]
  | drains | reads | putsAside =>
    rw [perm_iff_count]
    simp [Loop.places, Loop.aside, count_cons, *]
    omega
  | serves free front _ new =>
    rw [perm_iff_count]
    intro a
    have hcount := congrArg (count a) front
    simp only [Loop.aside] at free
    simp [Loop.places, Loop.aside, count_cons, free, new] at hcount ⊢
    omega

theorem fits (h : Moves clean s t) (hs : ∀ qf ∈ s.fates, Fits qf.1.message qf.2) :
    ∀ qf ∈ t.fates, Fits qf.1.message qf.2 := by
  induction h with
  | refl | drains | putsAside | ends => exact hs
  | trans _ _ ih ih' => exact ih' (ih hs)
  | serves _ _ fits | reads _ fits =>
    exact forall_mem_append.2 ⟨hs, forall_mem_singleton.2 fits⟩

theorem handled_append_of_ne {fates : List (Queued × Fate)} {q : Queued} {fate : Fate}
    (h : fate ≠ .handled) : handled (fates ++ [(q, fate)]) = handled fates := by
  cases fate with
  | handled => exact absurd rfl h
  | refreshed | invited | served | noted | answered | ignored => simp [handled]

/-- The responses move up, or go to the refresh. -/
theorem order (h : Moves clean s t) (hc : clean) : t.order <+ s.order := by
  induction h with
  | refl => exact .refl _
  | trans _ _ ih ih' => exact ih'.trans ih
  | drains free =>
    simp only [Loop.aside] at free
    simp [Loop.order, Loop.aside, free]
  | @serves s q held queue fate _ _ free front fits new =>
    have hhandled : handled (s.fates ++ [(q, fate)]) <+ handled s.fates ++ responses [q] := by
      by_cases h : fate = .handled
      · subst h
        obtain ⟨response, hmsg⟩ := fits
        simp [handled, responses, hmsg]
      · simp [handled_append_of_ne h]
    have hfront := congrArg responses front
    rw [responses_cons, responses_append] at hfront
    rw [Loop.order, Loop.order, Loop.aside, new, free]
    simp only [responses_nil, append_nil, append_assoc, hfront]
    simpa using hhandled.append_right (responses held ++ responses queue)
  | @reads s q queue fate front _ other =>
    rw [Loop.order, Loop.order, handled_append_of_ne other, front, responses_cons]
    exact (sublist_append_right _ _).append_left _
  | @putsAside s q queue _ front =>
    simp [Loop.order, Loop.aside, front, ← responses_append]
  | ends new hclean =>
    simp only [Loop.aside] at hclean
    rcases hclean hc with hnone | hnone
    · simp [Loop.order, Loop.aside, new, hnone]
    · simp [Loop.order, Loop.aside, new, hnone]

theorem serve {q : Queued} {held queue : List Queued} (hwait : s.wait = none)
    (hfront : s.held ++ s.queue = q :: (held ++ queue)) :
    Moves clean s ({ s with held, queue }.serve q rings desk) := by
  have hfree : s.aside = [] := by rw [Loop.aside, hwait]; rfl
  unfold Loop.serve
  split
  case h_1 response hmsg => exact serves hfree hfront ⟨response, hmsg⟩ hfree
  case h_2 request hmsg =>
    split
    case isTrue hinvite =>
      refine serves hfree hfront ⟨request, hmsg, hinvite⟩ ?_
      cases rings with
      | none | some => rfl
    case isFalse =>
      split
      case isTrue hack => exact serves hfree hfront ⟨request, hmsg, hack⟩ hfree
      case isFalse =>
        exact serves hfree hfront ⟨request, hmsg, answers_response desk request⟩ hfree

theorem pass (hwait : s.wait = none) : Moves clean s (s.pass rings desk) := by
  have hbegin : s.beginPass.wait = none ∧ Moves clean s s.beginPass := by
    unfold Loop.beginPass
    split
    · exact ⟨hwait, drains (by rw [Loop.aside, hwait]; rfl)⟩
    · exact ⟨hwait, refl s⟩
  refine hbegin.2.trans ?_
  simp only [Loop.pass]
  split
  case h_1 hheld => exact serve hbegin.1 (by rw [hheld]; rfl)
  case h_2 hheld hqueue => exact serve hbegin.1 (by rw [hheld, hqueue]; rfl)
  case h_3 => exact refl _

end Moves

/-! ### The waits -/

section

variable (invite : SipRequest) (toTag contact : Text) (request : SipRequest)

/-- The ring wait sends something exactly for the requests that it answers. -/
theorem ringMessage_isEmpty :
    (ringMessage invite toTag contact (.request request)).1.isEmpty =
      !(Wait.ringing invite toTag contact).answers request := by
  simp only [ringMessage, Wait.answers]
  cases hcancel : isCancelOf invite request with
  | true => rfl
  | false =>
    cases hagain : isRetransmissionOf invite request with
    | true | false => rfl

theorem ackMessage_spec {read : Option AckOutcome}
    (h : ackMessage invite toTag (.request request) = read) :
    match read with
    | none => (Wait.awaitingAck invite toTag).answers request = false
    | some (.acked _) => request.method = Method.ack
    | some _ => (Wait.awaitingAck invite toTag).answers request = true := by
  simp only [ackMessage] at h
  split at h
  case isTrue hack =>
    subst h
    exact hack.1
  case isFalse =>
    split at h
    case isTrue hbye =>
      subst h
      simp [Wait.answers, hbye.1, hbye.2]
    case isFalse hbye =>
      subst h
      simpa [Wait.answers] using hbye

end

namespace Moves

variable {clean : Prop} {q : Queued} {queue aside : List Queued} {wait : Wait}
  {invite request : SipRequest} {toTag : Text} (hwait : s.wait = some (wait, aside))

include hwait

theorem release (hclean : clean → responses aside = [] ∨ responses s.queue = [])
    {next : Option (Wait × List Queued)} (hnew : (next.map Prod.snd).getD [] = []) :
    Moves clean s { s.release aside with wait := next } := by
  have haside : s.aside = aside := by rw [Loop.aside, hwait]; rfl
  subst haside
  exact ends hnew hclean

theorem waitEnds (hclean : clean → responses aside = [] ∨ responses s.queue = [])
    (phoneAnswered : Bool) : Moves clean s (s.waitEnds wait aside phoneAnswered) := by
  have hrel : Moves clean s (s.release aside) := release hwait hclean rfl
  unfold Loop.waitEnds
  cases wait with
  | awaitingAck invite toTag => exact hrel
  | ringing invite toTag contact =>
    cases hbody : inviteBodyDecision invite toTag with
    | offer | refuse => simpa [hbody] using hrel
    | offerless =>
      cases phoneAnswered with
      | true =>
        -- the wait for the ACK starts with nothing put aside
        simp only [hbody]
        exact release hwait hclean rfl
      | false =>
        simp only [hbody]
        exact hrel

variable (hqueue : s.queue = q :: queue)

include hqueue

/-- A wait ends with the message that it reads. -/
theorem readsLast {fate : Fate} (hfits : Fits q.message fate) (hother : fate ≠ .handled)
    (hclean : clean → responses aside = [] ∨ responses queue = []) :
    Moves clean s (({ s with queue }.settle q fate).release aside) :=
  (reads hqueue hfits hother).trans
    (release (s := { s with queue, fates := s.fates ++ [(q, fate)] }) hwait hclean rfl)

variable (hclean : clean → wait.endedBy q.message = true →
    responses aside = [] ∨ responses queue = [])

include hclean

theorem ringReads {contact : Text} (hring : wait = .ringing invite toTag contact)
    (hmsg : q.message = .request request) :
    Moves clean s ({ s with queue }.ringReads q invite toTag contact aside) := by
  subst hring
  have hempty := ringMessage_isEmpty invite toTag contact request
  rw [← hmsg] at hempty
  simp only [Loop.ringReads, hempty]
  cases hanswers : (Wait.ringing invite toTag contact).answers request with
  | true | false =>
    split
    case isTrue hends =>
      exact readsLast hwait hqueue ⟨request, hmsg, hanswers⟩ nofun fun hc => hclean hc hends
    case isFalse => exact reads hqueue ⟨request, hmsg, hanswers⟩ nofun

theorem ackReads (hack : wait = .awaitingAck invite toTag) (hmsg : q.message = .request request) :
    Moves clean s ({ s with queue }.ackReads q invite toTag aside) := by
  subst hack
  unfold Loop.ackReads
  rw [hmsg] at hclean ⊢
  cases hread : ackMessage invite toTag (.request request) with
  | none =>
    exact reads hqueue ⟨request, hmsg, ackMessage_spec invite toTag request hread⟩ nofun
  | some outcome =>
    have hspec := ackMessage_spec invite toTag request hread
    have hclean (hc : clean) := hclean hc (by rw [Wait.endedBy, hread]; rfl)
    cases outcome with
    | acked | callerBye | silence =>
      exact readsLast hwait hqueue ⟨request, hmsg, hspec⟩ nofun hclean

theorem waitReads (refreshes : Bool) :
    Moves clean s ({ s with queue }.waitReads wait aside q refreshes) := by
  have haside : Moves clean s { s with queue, wait := some (wait, aside ++ [q]) } := by
    have haside : s.aside = aside := by rw [Loop.aside, hwait]; rfl
    subst haside
    exact putsAside hqueue
  unfold Loop.waitReads
  cases hmsg : q.message with
  | response response =>
    cases wait with
    | ringing invite toTag contact =>
      cases refreshes with
      | true => exact reads hqueue ⟨response, hmsg⟩ nofun
      | false => exact haside
    | awaitingAck invite toTag => exact haside
  | request request =>
    cases wait with
    | ringing invite toTag contact => exact ringReads hwait hqueue hclean rfl hmsg
    | awaitingAck invite toTag => exact ackReads hwait hqueue hclean rfl hmsg

end Moves

theorem moves_step (s : Loop) (turn : Turn) (h : ∀ message, turn ≠ .arrives message) :
    Moves (Clean s turn) s (step s turn) := by
  cases turn with
  | arrives message => exact absurd rfl (h message)
  | pass rings desk =>
    unfold step
    cases hwait : s.wait with
    | none => exact .pass hwait
    | some parked => exact .refl s
  | waitReads refreshes =>
    simp only [step]
    split
    case h_1 wait aside q queue hwait hqueue =>
      exact .waitReads hwait hqueue (fun hc => hc wait aside q queue hwait hqueue) refreshes
    case h_2 => exact .refl s
  | waitEnds phoneAnswered =>
    unfold step
    cases hwait : s.wait with
    | none => exact .refl s
    | some parked =>
      refine .waitEnds hwait (fun hc => ?_) phoneAnswered
      simpa [Clean, Loop.aside, hwait] using hc

/-! ## Runs -/

theorem Accounted.arrives (h : Accounted s) (message : SipMessage) :
    Accounted (step s (.arrives message)) where
  once := by
    have hperm := h.once
    rw [perm_iff_count] at hperm ⊢
    intro a
    have hcount := hperm a
    simp [step, Loop.places, Loop.aside, count_cons] at hcount ⊢
    omega
  numbered := by
    simp [step, h.numbered, range_succ]
  fits := h.fits

theorem Ordered.arrives (h : Ordered s) (message : SipMessage) :
    Ordered (step s (.arrives message)) := by
  have horder : (step s (.arrives message)).order =
      s.order ++ responses [⟨s.arrived.length, message⟩] := by
    simp [step, Loop.order, Loop.aside]
  have hnew : ∀ n ∈ responses [⟨s.arrived.length, message⟩], n = s.arrived.length := by
    cases message with
    | response | request => simp [responses]
  refine ⟨?_, fun n hn => ?_⟩
  · rw [horder, pairwise_append]
    refine ⟨h.sorted, by cases message <;> simp [responses], fun m hm n hn => ?_⟩
    rw [hnew n hn]
    exact h.below m hm
  · rw [horder, mem_append] at hn
    simp only [step, length_append, length_singleton]
    rcases hn with hn | hn
    · exact Nat.lt_succ_of_lt (h.below n hn)
    · rw [hnew n hn]
      exact Nat.lt_succ_self _

theorem Accounted.step (h : Accounted s) (turn : Turn) : Accounted (Dispatch.step s turn) := by
  by_cases harrives : ∃ message, turn = .arrives message
  · obtain ⟨message, rfl⟩ := harrives
    exact h.arrives message
  · have hmoves := moves_step s turn (not_exists.1 harrives)
    exact ⟨hmoves.arrived ▸ hmoves.places.trans h.once, hmoves.arrived ▸ h.numbered,
      hmoves.fits h.fits⟩

theorem Ordered.step (h : Ordered s) {turn : Turn} (hclean : Clean s turn) :
    Ordered (Dispatch.step s turn) := by
  by_cases harrives : ∃ message, turn = .arrives message
  · obtain ⟨message, rfl⟩ := harrives
    exact h.arrives message
  · have hmoves := moves_step s turn (not_exists.1 harrives)
    have horder := hmoves.order hclean
    exact ⟨h.sorted.sublist horder, fun n hn => hmoves.arrived ▸ h.below n (horder.subset hn)⟩

/-- A pass that finds a message settles one. -/
def Progress (s : Loop) : Turn → Prop
  | .pass rings desk =>
    s.wait = none → s.queue ≠ [] ∨ s.held ≠ [] →
      (step s (.pass rings desk)).fates.length = s.fates.length + 1
  | .arrives _ => True
  | .waitReads _ => True
  | .waitEnds _ => True

theorem length_fates_serve (s : Loop) (q : Queued) :
    (s.serve q rings desk).fates.length = s.fates.length + 1 := by
  unfold Loop.serve
  split
  · simp [Loop.settle]
  split
  · simp [Loop.settle]
  · split <;> simp [Loop.settle]

/-- Draining the queue loses nothing of it. -/
theorem beginPass_spec (s : Loop) :
    s.beginPass.fates = s.fates ∧
      (s.beginPass.queue = [] → s.beginPass.held = [] → s.queue = [] ∧ s.held = []) := by
  unfold Loop.beginPass
  split <;> simp +contextual

theorem progress (s : Loop) (turn : Turn) : Progress s turn := by
  cases turn with
  | arrives | waitReads | waitEnds => trivial
  | pass rings desk =>
    intro hwait hfinds
    have hbegin := beginPass_spec s
    simp only [step, hwait, Loop.pass]
    split
    case h_1 => rw [length_fates_serve, hbegin.1]
    case h_2 => rw [length_fates_serve, hbegin.1]
    case h_3 hheld hqueue =>
      have hnone := hbegin.2 hqueue hheld
      exact absurd hfinds (by simp [hnone])

/-- In every run each message that has arrived is in one place, once; a response ends with the
refresh or the loop's handling, a request with the loop's handler, which sends the one final
response to it, or with the wait that reads it, which answers what is its own and ignores the
rest; and no pass leaves a queue standing. The responses are handled in order, unless a wait
ends with some put aside and others queued. -/
theorem accounted_throughout (turns : List Turn) :
    Trace.Always step Accounted {} turns ∧ Trace.Each step Progress {} turns ∧
      (Trace.Each step Clean {} turns → Trace.Always step InOrder {} turns) := by
  refine ⟨Trace.always_of_invariant (fun _ turn h => h.step turn) ⟨.refl _, rfl, nofun⟩ turns,
    Trace.each_of_invariant (I := fun _ => True) (fun _ _ _ => trivial)
      (fun s turn _ => progress s turn) trivial turns, fun hclean => ?_⟩
  have hgives (s : Loop) (h : Ordered s) : InOrder s := by
    have hsorted := h.sorted
    simp only [Loop.order, append_assoc] at hsorted
    exact hsorted.sublist (sublist_append_left _ _)
  exact hclean.always hgives (fun _ _ h hclean => h.step hclean) ⟨.nil, by nofun⟩

/-- Every request has an answer. -/
def Answered (s : Loop) : Prop :=
  ∀ qf ∈ s.fates, ∀ request, qf.1.message = .request request → request.method ≠ Method.ack →
    ∀ wait, qf.2 ≠ .ignored wait

/-- A MESSAGE that arrives while the phone rings is read and ignored. Of two responses, one
read while it rings and one that has just come in when it is over, the second is handled
first. -/
theorem message_ignored_and_responses_swapped :
    (¬ ∀ turns, Trace.Always step Answered {} turns) ∧
      ¬ ∀ turns, Trace.Always step InOrder {} turns := by
  let rings : List Turn :=
    [.arrives (.request Sample.invite), .pass (some (Sample.tag, [])) {}]
  constructor
  · intro h
    let sms := Sample.request messageMethod []
    have hrun := h (rings ++ [.arrives (.request sms), .waitReads false])
    exact hrun.2.2.2.2
      ({ number := 1, message := .request sms }, .ignored (.ringing Sample.invite Sample.tag []))
      (by decide) sms rfl (by decide) _ rfl
  · intro h
    let ringing : SipMessage := .response { status := 180, reason := [], headers := [], body := [] }
    have hrun := h (rings ++ [.arrives ringing, .waitReads false, .arrives ringing,
      .waitEnds false, .pass none {}, .pass none {}])
    have hlast : [2, 1].Pairwise (· < ·) := hrun.2.2.2.2.2.2.2.2
    exact absurd hlast (by decide)

end Ims.Dispatch
