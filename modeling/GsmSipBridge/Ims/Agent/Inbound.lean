-- SUMMARY: The set-up of an inbound call (`ims/agent/inbound.rs`), with every early exit.
import Mathlib.Data.List.Infix
import GsmSipBridge.Ims.Body
import GsmSipBridge.Ims.Sdp
import GsmSipBridge.Ims.SipClient

/-!
# Answering a call

`handleInboundInvite` takes one INVITE from the dispatch loop to its final response. An
INVITE for a new call is screened, Agent B is told to ring the phone, the ring wait reads
the carrier's messages and Agent B's, and the call is answered and bridged, or declined. An
INVITE without an offer is answered with an offer of our own and waits for the ACK that
answers it. Whatever can fail outside comes with the run, sends to the carrier apart: they
succeed. The control connection has two handles once its reader thread runs, ours and the
reader's, and is open as long as one of them is.
-/

namespace Ims.Inbound

open Text SipClient Sdp

/-! ## Responses -/

/-- A response, as the arguments of `build_uas_response_with_headers`. -/
structure Response where
  status : UInt16
  reason : Text
  request : SipRequest
  toTag : Option Text
  contact : Option Text := none
  body : Option Text := none
  extra : List Header := []
  deriving DecidableEq

def build100Trying (request : SipRequest) : Response where
  status := 100
  reason := "Trying"
  request
  toTag := none

def build180Ringing (request : SipRequest) (toTag contact : Text) : Response where
  status := 180
  reason := "Ringing"
  request
  toTag := some toTag
  contact := some contact

/-- A response that only states its status. -/
def plainResponse (status : UInt16) (reason : Text) (request : SipRequest) (toTag : Text) :
    Response where
  status
  reason
  request
  toTag := some toTag

def temporarilyUnavailable : Text := "Temporarily Unavailable"

def build486BusyHere (request : SipRequest) (toTag : Text) : Response :=
  plainResponse 486 "Busy Here" request toTag

def build580PreconditionFailure (request : SipRequest) (toTag : Text) : Response :=
  plainResponse 580 "Precondition Failure" request toTag

def bridgeErrorResponse (request : SipRequest) (toTag : Text) : Response :=
  plainResponse 480 temporarilyUnavailable request toTag

def build488NotAcceptable (request : SipRequest) (toTag agent : Text) : Response :=
  { plainResponse 488 "Not Acceptable Here" request toTag with
    extra := [("Warning", "304 " ++ agent ++ " \"media type not available\"")] }

def build488IncompatibleTransport (request : SipRequest) (toTag agent : Text) : Response :=
  { plainResponse 488 "Not Acceptable Here" request toTag with
    extra :=
      [("Warning",
        "305 " ++ agent ++ " \"incompatible network protocol used\"")] }

def build420BadExtension (request : SipRequest) (toTag unsupported : Text) : Response :=
  { plainResponse 420 "Bad Extension" request toTag with
    extra := [("Unsupported", unsupported)] }

def build415UnsupportedMedia (request : SipRequest) (toTag accept : Text) : Response :=
  { plainResponse 415 "Unsupported Media Type" request toTag with
    extra := [("Accept", accept)] }

def uasInviteAllow : Text := "INVITE, ACK, CANCEL, BYE, OPTIONS, UPDATE, MESSAGE, NOTIFY"

def uasAnswerHeaders (accessNetworkInfo : Text) : List Header :=
  [("Allow", uasInviteAllow),
    ("Supported", "timer, 100rel, replaces, path, gruu"),
    ("P-Access-Network-Info", accessNetworkInfo)]

/-- The `200 OK` that answers an INVITE. -/
def answerInvite (request : SipRequest) (toTag contact sdp accessNetworkInfo : Text) : Response where
  status := 200
  reason := "OK"
  request
  toTag := some toTag
  contact := some contact
  body := some sdp
  extra := uasAnswerHeaders accessNetworkInfo

namespace Reason

def pbxRejected : Text := "pbx_rejected"
def pbxNoAnswer : Text := "pbx_no_answer"
def callerCancelled : Text := "caller_cancelled"

end Reason

/-- The final response for a failure that Agent B reported. -/
def declineResponse (invite : SipRequest) (toTag reason : Text) : Response :=
  if reason = Reason.pbxRejected then build486BusyHere invite toTag
  else plainResponse 480 temporarilyUnavailable invite toTag

/-! ## Requests and dialogs -/

namespace Method

def invite : Text := "INVITE"
def ack : Text := "ACK"
def bye : Text := "BYE"
def cancel : Text := "CANCEL"

end Method

def headerOf (request : SipRequest) (name : String) : Option Text :=
  header request.headers name.toList

def callIdOf (request : SipRequest) : Text := (headerOf request "Call-ID").getD []

def supportedExtensions : List Text := ["precondition"]

def unsupportedRequiredExtensions (request : SipRequest) : List Text :=
  (((headersAll request.headers "Require").flatMap (·.splitOn ',')).map trim).filter
    fun tag => !tag.isEmpty && !supportedExtensions.contains tag

def headerTag (value : Text) : Option Text :=
  (value.splitOn ';').tail.findSome? fun p =>
    (splitOnce '=' (trimStart p)).bind fun kv =>
      if eqIgnoreAsciiCase kv.1 "tag" then some kv.2 else none

def matchesCallerTag (request : SipRequest) (callerFrom : Text) : Bool :=
  (headerOf request "From").bind headerTag == headerTag callerFrom

def namesActiveDialog (request : SipRequest) (callId ourToTag callerFrom : Text) : Bool :=
  headerOf request "Call-ID" == some callId &&
    (headerOf request "To").bind headerTag == some ourToTag && matchesCallerTag request callerFrom

/-- Whether `request` names the dialog that answering `invite` on `toTag` established. -/
def namesDialogOf (invite : SipRequest) (toTag : Text) (request : SipRequest) : Bool :=
  namesActiveDialog request (callIdOf invite) toTag ((headerOf invite "From").getD [])

def isCancelOf (invite request : SipRequest) : Bool :=
  request.method == Method.cancel && headerOf request "Call-ID" == some (callIdOf invite)

def isRetransmissionOf (invite request : SipRequest) : Bool :=
  request.method == Method.invite && headerOf request "Call-ID" == some (callIdOf invite) &&
    headerOf request "CSeq" == headerOf invite "CSeq"

/-- The identity of a dialog that we answered, as it stands in our own requests: `ours` in
`From`, `theirs` in `To`. -/
structure DialogInfo where
  ours : Text
  theirs : Text
  cseq : Nat
  deriving DecidableEq

def DialogInfo.fromInvite (invite : SipRequest) (toTag publicUri : Text) : DialogInfo where
  ours :=
    match headerOf invite "To" with
    | some value =>
      if value.tails.any (";tag=".toList.isPrefixOf ·) then value
      else value ++ ";tag=" ++ toTag
    | none => "<sip:" ++ publicUri ++ ">;tag=" ++ toTag
  theirs := (headerOf invite "From").getD []
  cseq := 1

structure CachedInviteAnswer where
  inviteCseq : Text
  contact : Text
  answerSdp : Text
  deriving DecidableEq

structure ActiveCall where
  callId : Text
  toTag : Text
  dialog : DialogInfo
  answeredInvite : Option CachedInviteAnswer
  deriving DecidableEq

/-! ## The outside world -/

/-- A message of Agent B. What compatibility and the socket of the hop make of a
`ForwardMedia` comes with it: a reason to decline, or the port that was bound. -/
inductive ControlMessage where
  | bridgeReady
  | bridgeFailed (reason : Text)
  | callAnswered
  | forwardMedia (verdict : Except Text UInt16)
  | forwardCancel
  | other

/-- What a channel holds when it is polled: nothing in time, or a message, or its sender is
gone. -/
inductive Poll (α : Type) where
  | empty
  | value (a : α)
  | disconnected

/-- A message to Agent B. -/
inductive Notice where
  | incomingCall
  | forwardAck (verdict : Except Text UInt16)
  | callEnded (reason : Text)

/-- What happens in a run, in order. -/
inductive Event where
  | sent (response : Response)
  | bye (dialog : DialogInfo) (callId : Text)
  | told (notice : Notice)
  /-- Agent B has reported that it could not bridge the call. -/
  | reported (reason : Text)

/-- One pass of the ring wait: the messages of the carrier that it drains, then what it
finds on the control channel. -/
structure Pass where
  messages : List SipMessage
  control : Poll ControlMessage
  /-- Whether the answer to a `ForwardMedia` can be written. -/
  ackWritten : Bool := true

/-- What is fixed for the life of the agent. -/
structure InviteContext where
  wideband : Bool
  answerPreference : AnswerPreference
  amrAvailable : Bool
  accessNetworkInfo : Text
  publicUri : Text
  contactAddr : Text
  useTcp : Bool
  imei : Text
  localIp : IpAddr

/-- How the outside behaves in one run. -/
structure Env where
  /-- `spawn_veth_uas_listener`. -/
  listens : Except Text Unit
  controlConnects : Except Text Unit
  incomingWritten : Except Text Unit
  controlClones : Except Text Unit
  /-- The first message on the control channel. -/
  reply : Poll ControlMessage
  /-- What Agent B offers on the veth link; `none` if it did not come in time. -/
  veth : Option (Except Text SdpOffer)
  /-- The carrier's RTP port, with the RTCP port if it has to be declared. -/
  rtpBinds : Except Text (UInt16 × Option UInt16)
  rtpConnects : IpAddr × UInt16 → Except Text Unit
  sessionId : UInt64
  /-- Whether AMR as the carrier offers it may be forwarded. -/
  forwardable : Bool
  /-- The passes of the ring wait until its deadline. -/
  passes : List Pass
  /-- What `build_offer` writes for a call without an offer. -/
  ourOffer : Text
  /-- The messages read while the ACK is awaited, until its deadline. -/
  awaitingAck : List SipMessage
  forwardStarts : Except Text Unit
  transcodes : Except Text Unit
  endedWritten : Bool
  /-- Whether the control reader has stopped by the time the handler returns. -/
  readerStops : Bool

/-! ## The ring wait -/

inductive RingOutcome where
  | answered
  | pbxDeclined (reason : Text)
  | abandoned (reason : Text)
  deriving DecidableEq

section

variable (invite : SipRequest) (toTag contact : Text)

/-- What the ring wait does with a message of the carrier. A response is left to the
registration refresh or held for the loop, a request that is not this call's is ignored. -/
def ringMessage : SipMessage → List Event × Option RingOutcome
  | .response _ => ([], none)
  | .request request =>
    if isCancelOf invite request then
      ([.sent (plainResponse 200 "OK" request toTag),
          .sent (plainResponse 487 "Request Terminated" invite toTag)],
        some (.abandoned Reason.callerCancelled))
    else if isRetransmissionOf invite request then
      ([.sent (build180Ringing request toTag contact)], none)
    else ([], none)

def ringMessages : List SipMessage → List Event × Option RingOutcome
  | [] => ([], none)
  | message :: messages =>
    let r := ringMessage invite toTag contact message
    match r.2 with
    | some outcome => (r.1, some outcome)
    | none =>
      let rest := ringMessages messages
      (r.1 ++ rest.1, rest.2)

/-- `ForwardOffer::on_forward_media`: the answer to Agent B, and whether a hop is pending. -/
def onForwardMedia (carrierAmr : Bool) (verdict : Except Text UInt16) (ackWritten : Bool) :
    List Event × Bool :=
  let verdict := if carrierAmr then verdict else .error "carrier_not_amr"
  (if ackWritten then [.told (.forwardAck verdict)] else [], verdict.isOk && ackWritten)

/-- What the ring wait does with the control channel; `forward` is `none` where frames cannot
be forwarded, and `hop` whether a hop to Agent B is pending. -/
def ringControl (forward : Option Bool) (hop : Bool) (pass : Pass) :
    List Event × Bool × Option (Except Text RingOutcome) :=
  match pass.control with
  | .value .callAnswered => ([], hop, some (.ok .answered))
  | .value (.bridgeFailed reason) =>
    ([.reported reason, .sent (declineResponse invite toTag reason)], hop,
      some (.ok (.pbxDeclined reason)))
  | .value (.forwardMedia verdict) =>
    match forward with
    | some carrierAmr =>
      let r := onForwardMedia carrierAmr verdict pass.ackWritten
      (r.1, r.2, none)
    | none => ([], hop, none)
  | .value .forwardCancel => ([], hop && forward.isNone, none)
  | .value .bridgeReady => ([], hop, none)
  | .value .other => ([], hop, none)
  | .empty => ([], hop, none)
  | .disconnected =>
    ([], hop, some (.error
      "IMS error: Agent B's control connection closed while the PBX was ringing"))

/-- How the ring wait ended. -/
structure Rung where
  events : List Event
  hop : Bool
  outcome : Except Text RingOutcome

def awaitPbxAnswer (forward : Option Bool) (hop : Bool) : List Pass → Rung
  | [] =>
    { events := [.sent (plainResponse 480 temporarilyUnavailable invite toTag)]
      hop
      outcome := .ok (.abandoned Reason.pbxNoAnswer) }
  | pass :: passes =>
    let read := ringMessages invite toTag contact pass.messages
    match read.2 with
    | some outcome => { events := read.1, hop, outcome := .ok outcome }
    | none =>
      let polled := ringControl invite toTag forward hop pass
      match polled.2.2 with
      | some outcome => { events := read.1 ++ polled.1, hop := polled.2.1, outcome }
      | none =>
        let rest := awaitPbxAnswer forward polled.2.1 passes
        { rest with events := read.1 ++ polled.1 ++ rest.events }

/-! ## Setting up the call -/

/-- How a run of the handler ends. `connected` says whether the control connection to
Agent B is still open, for a run that leaves no call. -/
structure Outcome where
  events : List Event
  result : Except Text (Option ActiveCall)
  connected : Bool

/-- A final response, and no call. -/
def declined (events : List Event) (response : Response) : Outcome where
  events := events ++ [.sent response]
  result := .ok none
  connected := false

/-- A failure before the control reader runs: whatever was open is closed. -/
def failed (events : List Event) (error : Text) : Outcome where
  events
  result := .error error
  connected := false

variable (ctx : InviteContext) (env : Env)

/-- A failure with the control reader running. -/
def abandonedSetup (events : List Event) (error : Text) : Outcome where
  events
  result := .error error
  connected := !env.readerStops

/-- Agent B is told that the call has ended, if it can be. -/
def tellEnded (events : List Event) (reason : Text) : Outcome where
  events := events ++ if env.endedWritten then [.told (.callEnded reason)] else []
  result := .ok none
  connected := !env.readerStops

def uasContact : Text :=
  let publicUser := (ctx.publicUri.splitOn '@').headD ctx.publicUri
  "<sip:" ++ publicUser ++ '@' :: ctx.contactAddr ++ ";transport=" ++
    (if ctx.useTcp then "TCP".toList else "UDP") ++
    ">;+g.3gpp.icsi-ref=\"urn%3Aurn-7%3A3gpp-service.ims.icsi.mmtel\"" ++
    ";audio;+sip.instance=\"<urn:gsma:imei:" ++ ctx.imei ++ ">\""

/-- The codec that Agent B's call on the veth link is answered with. -/
def vethLeg (wideband : Bool) : Except Text NegotiatedCodec :=
  match env.veth with
  | none => .error "IMS error: timed out waiting for Agent B's veth call"
  | some (.error e) => .error e
  | some (.ok offer) =>
    match selectVethCodec offer wideband with
    | none => .error "IMS error: veth-link SDP offer has neither L16/16000 nor PCMU"
    | some chosen => .ok chosen.codec

/-- Ringing, the control connection and Agent B's legs, then `next` with the codec of the
veth leg. Both kinds of call begin so. -/
def placeLegs (wideband : Bool) (events : List Event)
    (next : List Event → NegotiatedCodec → Outcome) : Outcome :=
  match env.listens with
  | .error e => failed events e
  | .ok () =>
    let events := events ++ [.sent (build180Ringing invite toTag (uasContact ctx))]
    match env.controlConnects with
    | .error e =>
      failed events ("IMS error: failed to reach Agent B control channel: " ++ e)
    | .ok () =>
      match env.incomingWritten with
      | .error e => failed events e
      | .ok () =>
        let events := events ++ [.told .incomingCall]
        match env.controlClones with
        | .error e => failed events ("IMS error: control connection clone failed: " ++ e)
        | .ok () =>
          let timedOut := "IMS error: timed out waiting for Agent B to place its legs".toList
          match env.reply with
          | .empty => abandonedSetup env events timedOut
          | .disconnected => failed events timedOut
          | .value (.bridgeFailed reason) =>
            { events := events ++ [.reported reason, .sent (declineResponse invite toTag reason)]
              result := .ok none
              connected := !env.readerStops }
          | .value .bridgeReady =>
            match vethLeg env wideband with
            | .error e => abandonedSetup env events e
            | .ok veth => next events veth
          | .value _ =>
            abandonedSetup env events
              "IMS error: unexpected control-channel reply to IncomingCall"

/-- The ring wait and what follows from its outcome, then `next` once the phone is answered. -/
def whileRinging (forward : Option Bool) (events : List Event)
    (next : List Event → Bool → Outcome) : Outcome :=
  let rung := awaitPbxAnswer invite toTag (uasContact ctx) forward false env.passes
  let events := events ++ rung.events
  match rung.outcome with
  | .error e => failed events e
  | .ok .answered => next events rung.hop
  | .ok (.pbxDeclined _) => { events, result := .ok none, connected := !env.readerStops }
  | .ok (.abandoned reason) => tellEnded env events reason

/-- The call, once its media run. -/
def bridged (events : List Event) (answerSdp : Text) : Outcome where
  events
  result := .ok (some
    { callId := callIdOf invite
      toTag
      dialog := .fromInvite invite toTag ctx.publicUri
      answeredInvite := some
        { inviteCseq := (headerOf invite "CSeq").getD []
          contact := uasContact ctx
          answerSdp } })
  connected := true

/-- The relay between the legs: a forwarder if a hop is pending, a transcoder if the codecs
differ, and otherwise one that cannot fail. -/
def startRelay (hop : Bool) (chosen : ChosenCodec) (veth : NegotiatedCodec) : Except Text Unit :=
  if hop then env.forwardStarts.mapError ("IMS error: AMR forwarder start failed: " ++ ·)
  else if chosen.codec ≠ veth then env.transcodes
  else .ok ()

/-- The codec that the carrier leg is going to have. -/
def precheck (offer : SdpOffer) : Option NegotiatedCodec :=
  (selectCodecWith offer ctx.amrAvailable ctx.wideband ctx.answerPreference).map
    OfferedCodec.codec

/-- `carrier_amr_for`: whether the carrier leg has AMR that may be forwarded. -/
def carrierAmrFor (offer : SdpOffer) : Bool :=
  env.forwardable && (precheck ctx offer == some .amrWb || precheck ctx offer == some .amrNb)

/-- An INVITE with an offer that can be answered. -/
def answerOffer (events : List Event) (offer : SdpOffer) : Outcome :=
  let carrierAmr := carrierAmrFor ctx env offer
  placeLegs invite toTag ctx env (precheck ctx offer == some .amrWb) events fun events veth =>
    match env.rtpBinds with
    | .error e => abandonedSetup env events ("IMS error: IMS RTP/RTCP bind failed: " ++ e)
    | .ok (rtpPort, declaredRtcpPort) =>
      match env.rtpConnects offer.remoteRtp with
      | .error e => abandonedSetup env events ("IMS error: IMS RTP connect failed: " ++ e)
      | .ok () =>
        match buildAnswer ctx.localIp rtpPort env.sessionId offer ctx.amrAvailable ctx.wideband
            ctx.answerPreference declaredRtcpPort with
        | .error e => abandonedSetup env events e
        | .ok (answerSdp, chosen) =>
          whileRinging invite toTag ctx env (some carrierAmr) events fun events hop =>
            let events := events ++
              [.sent (answerInvite invite toTag (uasContact ctx) answerSdp ctx.accessNetworkInfo)]
            match startRelay env (hop && carrierAmr) chosen veth with
            | .error e => abandonedSetup env events e
            | .ok () => bridged invite toTag ctx events answerSdp

/-- What the wait for the ACK of a call without an offer came to. -/
inductive AckOutcome where
  | acked (answerSdp : Option Text)
  | callerBye (request : SipRequest)
  | silence
  deriving DecidableEq

def ackAnswer (ack : SipRequest) : Option Text :=
  match Body.extractSdp (headerOf ack "Content-Type") ack.bodyBytes with
  | .ok (.sdp text _) => some text
  | .ok .empty => none
  | .error _ => none

def ackMessage : SipMessage → Option AckOutcome
  | .response _ => none
  | .request request =>
    if request.method = Method.ack ∧ namesDialogOf invite toTag request then
      some (.acked (ackAnswer request))
    else if request.method = Method.bye ∧ namesDialogOf invite toTag request then
      some (.callerBye request)
    else none

def awaitAck (messages : List SipMessage) : AckOutcome :=
  (messages.findSome? (ackMessage invite toTag)).getD .silence

/-- The media of the caller's answer, if it can be served. -/
def answeredMedia (answerSdp : Option Text) : Option (SdpAnswer × ChosenCodec) :=
  match answerSdp with
  | none => none
  | some text =>
    match parseAnswer text with
    | .error _ => none
    | .ok answer => (offeredChosenCodec answer.codec).map (answer, ·)

/-- An answered call that could not be completed is ended on both sides. -/
def teardown (events : List Event) (reason : Text) : Outcome :=
  tellEnded env
    (events ++ [.bye (.fromInvite invite toTag ctx.publicUri) (callIdOf invite)]) reason

def handleOfferlessInvite (events : List Event) : Outcome :=
  placeLegs invite toTag ctx env ctx.wideband events fun events veth =>
    match env.rtpBinds with
    | .error e => abandonedSetup env events ("IMS error: IMS RTP bind failed: " ++ e)
    | .ok _ =>
      whileRinging invite toTag ctx env none events fun events _ =>
        let events := events ++
          [.sent (answerInvite invite toTag (uasContact ctx) env.ourOffer ctx.accessNetworkInfo)]
        match awaitAck invite toTag env.awaitingAck with
        | .callerBye request =>
          tellEnded env (events ++ [.sent (plainResponse 200 "OK" request toTag)])
            Reason.callerCancelled
        | .silence => teardown invite toTag ctx env events "offerless_ack_timeout"
        | .acked answerSdp =>
          match answeredMedia answerSdp with
          | none => teardown invite toTag ctx env events "offerless_ack_incompatible"
          | some (answer, chosen) =>
            match env.rtpConnects answer.remoteRtp with
            | .error _ =>
              teardown invite toTag ctx env events "offerless_rtp_connect_failed"
            | .ok () =>
              match startRelay env false chosen veth with
              | .error e => abandonedSetup env events e
              | .ok () => bridged invite toTag ctx events env.ourOffer

/-! ## Screening -/

inductive InviteBody where
  | offerless
  | offer (sdp : Text)
  | refuse (response : Response)

def inviteBodyAccept : Text := "application/sdp, multipart/mixed, multipart/alternative"

def inviteBodyDecision : InviteBody :=
  match Body.extractSdp (headerOf invite "Content-Type") invite.bodyBytes with
  | .ok .empty => .offerless
  | .ok (.sdp text _) => .offer text
  | .error (.unsupported _ _) =>
    .refuse (build415UnsupportedMedia invite toTag inviteBodyAccept)
  | .error (.noSession _ _) => .refuse (build415UnsupportedMedia invite toTag inviteBodyAccept)
  | .error (.malformed _ _) => .refuse (plainResponse 400 "Bad Request" invite toTag)
  | .error (.ambiguous _ _) => .refuse (plainResponse 400 "Bad Request" invite toTag)

inductive Screened where
  | refused (response : Response)
  | unreadable (error : Text)
  | offered (offer : SdpOffer)
  | offerless

/-- What the body of the INVITE says about the call. -/
def screen : Screened :=
  match inviteBodyDecision invite toTag with
  | .offerless => .offerless
  | .refuse response => .refused response
  | .offer sdp =>
    match parseOffer sdp with
    | .error e => .unreadable e
    | .ok offer =>
      if offer.proto ≠ "RTP/AVP" then
        .refused (build488IncompatibleTransport invite toTag ctx.contactAddr)
      else if preconditionVerdict offer = .decline then
        .refused (build580PreconditionFailure invite toTag)
      else if (precheck ctx offer).isNone then
        .refused (build488NotAcceptable invite toTag ctx.contactAddr)
      else .offered offer

def handleInvite : Outcome :=
  let unsupported := unsupportedRequiredExtensions invite
  if !unsupported.isEmpty then
    declined []
      (build420BadExtension invite toTag (List.intercalate ", " unsupported))
  else
    let events := [.sent (build100Trying invite)]
    match screen invite toTag ctx with
    | .refused response => declined events response
    | .unreadable e => failed events e
    | .offered offer => answerOffer invite toTag ctx env events offer
    | .offerless => handleOfferlessInvite invite toTag ctx env events

end

/-! ## The dispatch loop's part -/

/-- The line when the INVITE is read: its call, whether a call or an attempt that has not
ended occupies it, and whether the PBX registration is known to be down. -/
structure Line where
  activeCall : Option ActiveCall
  occupied : Bool
  pbxDown : Bool

def Line.inDialog (line : Line) (request : SipRequest) : Option ActiveCall :=
  line.activeCall.filter fun call =>
    headerOf request "Call-ID" == some call.callId && matchesCallerTag request call.dialog.theirs

/-- What is left of a run: its events, the call that the INVITE led to, and whether the
control connection of a run without a call is still open. -/
structure Handled where
  events : List Event
  call : Option ActiveCall
  connected : Bool

/-- A failure of the handler is answered by the loop. -/
def Outcome.handled (outcome : Outcome) (request : SipRequest) (toTag : Text) : Handled :=
  match outcome.result with
  | .ok call => { outcome with call }
  | .error _ =>
    { events := outcome.events ++ [.sent (bridgeErrorResponse request toTag)]
      call := none
      connected := outcome.connected }

/-- An INVITE of the call that the line has: its answer again, or no to a change. -/
def ActiveCall.answerAgain (call : ActiveCall) (ctx : InviteContext) (request : SipRequest) :
    Response :=
  let unchanged := build488NotAcceptable request call.toTag ctx.contactAddr
  match call.answeredInvite with
  | some cached =>
    if headerOf request "CSeq" = some cached.inviteCseq then
      answerInvite request call.toTag cached.contact cached.answerSdp ctx.accessNetworkInfo
    else unchanged
  | none => unchanged

/-- `fresh` is the tag that is drawn for this INVITE. -/
def handleInboundInvite (line : Line) (ctx : InviteContext) (env : Env) (fresh : Text)
    (request : SipRequest) : Handled :=
  match line.inDialog request with
  | some call =>
    { events := [.sent (call.answerAgain ctx request)], call := none, connected := false }
  | none =>
    if line.occupied then
      { events := [.sent (build486BusyHere request fresh)], call := none, connected := false }
    else if line.pbxDown then
      { events := [.sent (plainResponse 480 temporarilyUnavailable request fresh)], call := none
        connected := false }
    else (handleInvite request fresh ctx env).handled request fresh

namespace Sample

def line : Line := { activeCall := none, occupied := false, pbxDown := false }

def ctx : InviteContext where
  wideband := false
  answerPreference := .legacy
  amrAvailable := true
  accessNetworkInfo := []
  publicUri := "b@ims"
  contactAddr := "192.0.2.2:5060"
  useTcp := true
  imei := []
  localIp := .v4 192 0 2 2

def pcmuOffer : Text := "c=IN IP4 192.0.2.1\nm=audio 4000 RTP/AVP 0"

/-- A run in which everything outside works and the phone is answered in the first pass. -/
def env : Env where
  listens := .ok ()
  controlConnects := .ok ()
  incomingWritten := .ok ()
  controlClones := .ok ()
  reply := .value .bridgeReady
  veth := some (parseOffer pcmuOffer)
  rtpBinds := .ok (4000, none)
  rtpConnects _ := .ok ()
  sessionId := 1
  forwardable := false
  passes := [{ messages := [], control := .value .callAnswered }]
  ourOffer := []
  awaitingAck := []
  forwardStarts := .ok ()
  transcodes := .ok ()
  endedWritten := true
  readerStops := false

def request (method body : Text) : SipRequest where
  method
  requestUri := "sip:b"
  headers :=
    [("Call-ID", "a1"), ("CSeq", "1 INVITE"),
      ("From", "a;tag=1"), ("To", "b")]
  body
  bodyBytes := Utf8.encode body

/-- An INVITE that offers narrowband AMR. -/
def invite : SipRequest :=
  request Method.invite
    "c=IN IP4 192.0.2.1\nm=audio 4000 RTP/AVP 96\na=rtpmap:96 AMR/8000"

def offerless : SipRequest := request Method.invite []

def tag : Text := "2"

end Sample

/-! ## The dialog that was answered

The tag of our own side is put on the INVITE's `To` twice: in the response that answers it,
and in the dialog that later requests are sent in. The two places look for a tag that is
already there with different tests. -/

open List

/-- The test of `fromInvite`: the text `;tag=` stands somewhere in the value. -/
def containsTag (value : Text) : Bool :=
  value.tails.any (";tag=".toList.isPrefixOf ·)

/-- The `To` values among the header lines of a response. -/
def toValues (lines : List Text) : List Text :=
  lines.filterMap (·.dropPrefix? "To: ")

theorem toAlreadyTagged_of_containsTag {value : Text} (h : containsTag value = true) :
    toAlreadyTagged value = true := by
  obtain ⟨field, hfield, hpre⟩ := any_eq_true.mp h
  obtain ⟨before, rfl⟩ := (mem_tails _ _).mp hfield
  obtain ⟨rest, rfl⟩ := List.isPrefixOf_iff_prefix.mp hpre
  have hlower : toAsciiLowercase (before ++ (";tag=" ++ rest)) =
      toAsciiLowercase before ++ ';' :: ("tag=" ++ toAsciiLowercase rest) := by
    rw [toAsciiLowercase, map_append]
    rfl
  rw [toAlreadyTagged, hlower, splitOn_append_cons_self, tail_append_of_ne_nil (splitOn_ne_nil _ _),
    any_append]
  obtain ⟨first, others, hsplit⟩ := exists_cons_of_ne_nil (splitOn_ne_nil ';' (toAsciiLowercase rest))
  have hfirst : ("tag=" ++ toAsciiLowercase rest).splitOn ';' =
      ("tag=" ++ first) :: others := by
    unfold splitOn at hsplit ⊢
    simp [splitOnP_cons_eq_if_modifyHead, hsplit]
  rw [hfirst]
  exact Bool.or_eq_true_iff.mpr (.inr rfl)

theorem toValues_map {name : Text}
    (hname : ∀ value, (headerLine name value).dropPrefix? "To: " = none) (values : List Text) :
    toValues (values.map (headerLine name)) = [] := by
  rw [toValues, filterMap_map]
  exact filterMap_eq_nil_iff.mpr fun value _ => hname value

/-- The one `To` of a response. -/
theorem toValues_responseLines (invite : SipRequest) (toTag : Text) (contact body : Option Text) :
    toValues (responseLines invite (some toTag) contact body []) =
      [if toAlreadyTagged ((headerOf invite "To").getD []) then (headerOf invite "To").getD []
        else (headerOf invite "To").getD [] ++ ";tag=" ++ toTag] := by
  have happend (a b : List Text) : toValues (a ++ b) = toValues a ++ toValues b := filterMap_append
  have htype (b : Bool) : toValues
      (if b then [] else [headerLine "Content-Type" "application/sdp"]) = [] := by
    cases b <;> rfl
  have hlength (value : Text) : toValues [headerLine "Content-Length" value] = [] := rfl
  have hto (value : Text) : toValues [headerLine "To" value] = [value] := by
    simp [toValues, headerLine, dropPrefix?]
  simp only [responseLines, happend, Option.toList_map, htype, hlength, hto]
  rw [toValues_map fun _ => rfl, toValues_map fun _ => rfl, toValues_map fun _ => rfl,
    toValues_map fun _ => rfl, toValues_map fun _ => rfl, toValues_map fun _ => rfl]
  rfl

/-- The dialog of the later requests is the one that the answer named if and only if there
is a `To`, and a tag that the response finds in it is written as `;tag=`. Other spellings of
a tag get ours put behind them in the dialog alone. -/
theorem dialog_is_answered (invite : SipRequest) (toTag publicUri : Text)
    (contact body : Option Text) :
    (DialogInfo.fromInvite invite toTag publicUri).theirs = (headerOf invite "From").getD [] ∧
    (toValues (responseLines invite (some toTag) contact body []) =
        [(DialogInfo.fromInvite invite toTag publicUri).ours] ↔
      ∃ value, headerOf invite "To" = some value ∧
        (toAlreadyTagged value = true → containsTag value = true)) := by
  refine ⟨rfl, ?_⟩
  rw [toValues_responseLines, singleton_inj, DialogInfo.fromInvite]
  cases hto : headerOf invite "To" with
  | none => simp [toAlreadyTagged, toAsciiLowercase]
  | some value =>
    change (if toAlreadyTagged value then value else value ++ ";tag=" ++ toTag) =
      (if containsTag value then value else value ++ ";tag=" ++ toTag) ↔ _
    cases hcontains : containsTag value with
    | true => simp [toAlreadyTagged_of_containsTag hcontains, hcontains]
    | false =>
      cases htagged : toAlreadyTagged value <;> simp [hcontains, htagged]

/-- A tag behind a blank is answered as it is, and gets a second one in the dialog. -/
theorem spaced_tag_doubled :
    let invite : SipRequest := ⟨"INVITE", "sip:ue",
      [("From", "<sip:a@b>;tag=1"), ("To", "<sip:ue@b>; tag=2")], [], []⟩
    toValues (responseLines invite (some "3") none none []) = ["<sip:ue@b>; tag=2".toList] ∧
    (DialogInfo.fromInvite invite "3" "ue@b").ours =
      "<sip:ue@b>; tag=2;tag=3" := by
  decide +kernel

end Ims.Inbound
