-- SUMMARY: The set-up of an outbound call (`ims/agent/origination.rs`).
import GsmSipBridge.Ims.Body
import GsmSipBridge.Ims.Sdp
import GsmSipBridge.Ims.SipClient

/-!
# Placing a call

The dispatch loop holds the attempt between its turns. A turn brings a response of the
carrier, a tick, or the news that the registration was rejected; the attempt is kept, is
dropped, or becomes a bridged call. Times are in milliseconds. Of a request that is sent
only the dialog and the sequence number are kept, of a relay only its stop flag; what
sockets, threads and channels do in a turn comes with the turn.
-/

namespace Ims.Origination

open Text Numeral SipClient Sdp

def outboundInviteTimeout : Nat := 15000
def outboundRingTimeout : Nat := 60000
def vethInviteTimeout : Nat := 5000
def cancelResponseTimeout : Nat := 5000
def cancelSendMaxWait : Nat := 30000

namespace Reason

def vethLegFailed : Text := "veth_leg_failed"
def callerHangup : Text := "caller_hangup"
def transportError : Text := "transport_error"
def carrierTimeout : Text := "carrier_timeout"
def registrationRejected : Text := "registration_rejected"
def noFinalResponse : Text := carrierTimeout ++ ": no final response from carrier"

end Reason

/-! ## What goes out, and what is found outside -/

/-- A request to the carrier. `remote` is the `To` of the response that it is built from;
without one, the callee's own address stands in. -/
inductive Request where
  | invite (cseq : Nat)
  | cancel (cseq : Nat)
  | prack (remote : Option Text) (cseq : Nat) (rseq : UInt32)
  | ack (remote : Option Text) (cseq : Nat)
  | bye (remote : Option Text) (cseq : Nat)
  deriving DecidableEq

/-- A message to the telephone side, Agent B, about this call. -/
inductive Notice where
  | callRinging
  | callEarlyMedia
  | callPlaced
  | callFailed (reason : Text)
  | callEnded (reason : Text)
  deriving DecidableEq

/-- A message from Agent B. -/
inductive ControlMessage where
  | callEnded (callId : Text)
  | other
  deriving DecidableEq

/-- What a channel holds when it is polled. -/
inductive Poll (α : Type) where
  | empty
  | value (a : α)
  | disconnected
  deriving DecidableEq

/-- How the outside world behaves in one turn. A veth handshake that succeeded gives the
codec of that leg. -/
structure Env where
  now : Nat
  send : Request → Except Text Unit
  write : Notice → Except Text Unit
  rtpConnect : Except Text Unit
  /-- Whether `spawn_veth_uas_listener` succeeds. -/
  listens : Bool
  /-- Whether the two RTP sockets can be cloned. -/
  clones : Bool
  /-- Whether `spawn_transcoding_relay` succeeds; `spawn_relay` cannot fail. -/
  transcodes : Bool
  control : Poll ControlMessage
  earlyVeth : Poll (Option ChosenCodec)
  veth : Poll (Option ChosenCodec)

/-- What has gone out so far. `relays` holds the stop flags of the media relays, in the
order they were started. -/
structure Log where
  sent : List Request := []
  told : List Notice := []
  relays : List Bool := []
  deriving DecidableEq

namespace Log

def send (log : Log) (env : Env) (r : Request) : Log :=
  match env.send r with
  | .ok () => { log with sent := log.sent ++ [r] }
  | .error _ => log

def tell (log : Log) (env : Env) (m : Notice) : Log :=
  match env.write m with
  | .ok () => { log with told := log.told ++ [m] }
  | .error _ => log

/-- A relay starts; its place in `relays` stands for its stop flag. -/
def start (log : Log) : Log := { log with relays := log.relays ++ [false] }

def stop (log : Log) (relay : Nat) : Log := { log with relays := log.relays.set relay true }

end Log

/-! ## The attempt -/

structure DialogInfo where
  remote : Option Text
  cseq : Nat
  deriving DecidableEq

/-- Where the veth leg of an answered call comes from. -/
inductive VethRx where
  /-- `None` in the source: the relay of the early media is already running. -/
  | running
  | listening
  /-- The channel that an early result was forwarded into. -/
  | holds (codec : ChosenCodec)
  deriving DecidableEq

inductive OriginationStep where
  | awaitingCarrier
  | awaitingVeth (dialog : DialogInfo) (vethRx : VethRx) (answerCodec : NegotiatedCodec)
  | awaitingCancel (sent : Bool)
  deriving DecidableEq

structure PendingOrigination where
  step : OriginationStep
  callId : Text
  inviteCseq : Nat
  extraCseq : Nat := 0
  prackedRseq : Option UInt32 := none
  provisionalAnswer : Option Text := none
  earlyVethRx : Bool := false
  earlyMediaSent : Bool := false
  earlyMediaCodec : Option NegotiatedCodec := none
  earlyRelay : Option (Nat × ChosenCodec) := none
  earlyVethSocket : Option ChosenCodec := none
  deadline : Nat
  anyResponseSeen : Bool := false
  ringingRelayed : Bool := false
  abandoned : Bool := false
  deriving DecidableEq

structure ActiveCall where
  stop : Nat
  dialog : DialogInfo
  deriving DecidableEq

/-- What a turn leaves: the attempt if it is kept, the call if it was bridged. -/
structure Outcome where
  pending : Option PendingOrigination
  call : Option ActiveCall := none
  log : Log
  deriving DecidableEq

/-- The INVITE goes out. A control connection that cannot be cloned afterwards ends the
attempt all the same. -/
def beginOrigination (callId : Text) (inviteCseq : Nat) (env : Env)
    (rtpBind controlClone : Except Text Unit) : Outcome :=
  let log : Log := {}
  match rtpBind with
  | .error e =>
    { pending := none, log := log.tell env (.callFailed ("RTP socket bind failed: " ++ e)) }
  | .ok () =>
    match env.send (.invite inviteCseq) with
    | .error e =>
      { pending := none, log := log.tell env (.callFailed ("INVITE send failed: " ++ e)) }
    | .ok () =>
      let log := log.send env (.invite inviteCseq)
      match controlClone with
      | .error e =>
        { pending := none
          log := log.tell env (.callFailed ("control connection clone failed: " ++ e)) }
      | .ok () =>
        { pending := some { step := .awaitingCarrier, callId, inviteCseq
                            deadline := env.now + outboundInviteTimeout }
          log }

/-! ## Shared moves -/

def toHeader (resp : SipResponse) : Option Text := header resp.headers "To"

def cseqMethod (cseq : Text) : Option Text := (splitWhitespace cseq)[1]?

def responseMethod (resp : SipResponse) : Option Text :=
  (header resp.headers "CSeq").bind cseqMethod

/-- Whether the response says that it answers an INVITE. -/
def isInvite (resp : SipResponse) : Bool :=
  (responseMethod resp).any (eqIgnoreAsciiCase · "INVITE")

def hangupAnsweredCarrierLeg (log : Log) (env : Env) (dialog : DialogInfo) (reason : Text) : Log :=
  (log.send env (.bye dialog.remote dialog.cseq)).tell env (.callEnded reason)

namespace PendingOrigination

variable (p : PendingOrigination) (log : Log) (env : Env) (resp : SipResponse)

def matchesResponse : Bool :=
  (header resp.headers "Call-ID").any fun id => trim id == p.callId

def stopEarlyRelay : PendingOrigination × Log :=
  ({ p with earlyRelay := none, earlyVethSocket := none },
    match p.earlyRelay with
    | some (relay, _) => log.stop relay
    | none => log)

def fail (reason : Text) : PendingOrigination × Log :=
  p.stopEarlyRelay (log.tell env (.callFailed reason))

/-- The attempt fails and is dropped. -/
def failed (reason : Text) : Outcome :=
  { pending := none, log := (p.fail log env reason).2 }

def beginCancel : PendingOrigination × Log :=
  match env.send (.cancel p.inviteCseq) with
  | .ok () =>
    ({ p with step := .awaitingCancel true, deadline := env.now + cancelResponseTimeout },
      log.send env (.cancel p.inviteCseq))
  | .error _ =>
    ({ p with step := .awaitingCancel false, deadline := env.now + cancelSendMaxWait }, log)

/-- The BYE of an attempt in `AwaitingVeth`, which is then dropped. -/
def hangupPendingCarrierLeg (dialog : DialogInfo) (reason : Text) : Outcome :=
  { pending := none, log := hangupAnsweredCarrierLeg (p.stopEarlyRelay log).2 env dialog reason }

def ackAndByeRacingAnswer : Log :=
  (log.send env (.ack (toHeader resp) p.inviteCseq)).send env
    (.bye (toHeader resp) (p.inviteCseq + p.extraCseq + 1))

/-! ## Responses -/

def requires100rel : Bool :=
  (header resp.headers "Require").any fun v =>
    (toAsciiLowercase v).tails.any ("100rel".toList.isPrefixOf ·)

/-- A reliable provisional response with a new `RSeq` is acknowledged by a PRACK. -/
def prackIfRequired : PendingOrigination × Log :=
  match (header resp.headers "RSeq").bind fun v => parseU32 (trim v) with
  | none => (p, log)
  | some rseq =>
    if !requires100rel resp || p.prackedRseq.any (rseq ≤ ·) then (p, log)
    else
      let prack := Request.prack (toHeader resp) (p.inviteCseq + (p.extraCseq + 1)) rseq
      match env.send prack with
      | .ok () => ({ p with extraCseq := p.extraCseq + 1, prackedRseq := some rseq },
          log.send env prack)
      | .error _ => ({ p with extraCseq := p.extraCseq + 1 }, log)

def relayRinging : PendingOrigination × Log :=
  if resp.status = 180 ∧ p.ringingRelayed = false then
    ({ p with ringingRelayed := true }, log.tell env .callRinging)
  else (p, log)

/-- The session description of a provisional response; one that cannot be used counts as none. -/
def provisionalSdp : Option Text :=
  match Body.extractSdp (header resp.headers "Content-Type") (Utf8.encode resp.body) with
  | .ok (.sdp text _) => some text
  | .ok .empty => none
  | .error _ => none

/-- The first description that parses makes early media, if the sockets allow it. -/
def offerEarlyMedia (sdp : Option Text) : PendingOrigination × Log :=
  match p.earlyMediaSent, sdp.map parseAnswer with
  | false, some (.ok answer) =>
    let p := { p with earlyMediaSent := true }
    match env.rtpConnect, env.listens with
    | .ok (), true =>
      ({ p with earlyVethRx := true, earlyMediaCodec := some answer.codec },
        log.tell env .callEarlyMedia)
    | _, _ => (p, log)
  | _, _ => (p, log)

def onProvisional : PendingOrigination × Log :=
  let p := { p with provisionalAnswer := p.provisionalAnswer.or (provisionalSdp resp) }
  let (p, log) := p.prackIfRequired log env resp
  let (p, log) := p.relayRinging log env resp
  p.offerEarlyMedia log env (provisionalSdp resp)

def answerSdp : Except Text Text :=
  match Body.extractSdp (header resp.headers "Content-Type") (Utf8.encode resp.body) with
  | .ok (.sdp text _) => .ok text
  | .ok .empty => .error "2xx to INVITE carried no SDP answer"
  | .error rejection =>
    .error ("2xx to INVITE has no usable SDP answer: " ++ rejection.toText)

/-- The answer of a `200`: with an empty body, the one that a provisional response carried. -/
def finalAnswer : Except Text SdpAnswer :=
  match (trim resp.body).isEmpty, p.provisionalAnswer with
  | true, some cached => parseAnswer cached
  | _, _ => (answerSdp resp).bind parseAnswer

/-- Whether the answer of a `200` can be connected to. -/
def Usable : Prop :=
  (p.finalAnswer resp).isOk = true ∧ env.rtpConnect.isOk = true

/-- The veth leg of an answered call; `none` if a new listener cannot be started. -/
def vethReceiver : Option VethRx :=
  if p.earlyRelay.isSome then some .running
  else
    let fresh := if env.listens then some VethRx.listening else none
    if p.earlyVethRx then
      match env.earlyVeth with
      | .empty => some .listening
      | .value (some codec) => some (.holds codec)
      | .value none => fresh
      | .disconnected => fresh
    else fresh

/-- A `200` whose ACK has gone out: the telephone side is asked for its leg. -/
def placed (answer : SdpAnswer) : Outcome :=
  let dialog : DialogInfo :=
    { remote := toHeader resp, cseq := p.inviteCseq + p.extraCseq + 1 }
  match p.vethReceiver env with
  | none =>
    { pending := none, log := hangupAnsweredCarrierLeg log env dialog Reason.vethLegFailed }
  | some vethRx =>
    match env.write .callPlaced with
    | .error _ =>
      { pending := none, log := hangupAnsweredCarrierLeg log env dialog Reason.transportError }
    | .ok () =>
      { pending := some
          { p with
            earlyVethRx := p.earlyRelay.isSome && p.earlyVethRx
            step := .awaitingVeth dialog vethRx answer.codec
            deadline := env.now + vethInviteTimeout }
        log := log.tell env .callPlaced }

def onAnswered : Outcome :=
  match p.finalAnswer resp with
  | .error e => p.failed log env ("bad SDP answer: IMS error: " ++ e)
  | .ok answer =>
    match env.rtpConnect with
    | .error e => p.failed log env ("RTP connect failed: " ++ e)
    | .ok () =>
      let ack := Request.ack (toHeader resp) p.inviteCseq
      match env.send ack with
      | .error e => p.failed log env ("ACK send failed: " ++ e)
      | .ok () => p.placed (log.send env ack) env resp answer

def onFinal : Outcome :=
  if resp.status = 200 then p.onAnswered log env resp
  else
    p.failed (log.send env (.ack (toHeader resp) p.inviteCseq)) env
      (display resp.status.toNat ++ ' ' :: resp.reason)

/-- Only the INVITE's own final response ends the wait for the outcome of a CANCEL. -/
def onCancelResponse : Outcome :=
  if !isInvite resp || resp.status < 200 then { pending := some p, log }
  else
    { pending := none
      log := if resp.status = 200 then p.ackAndByeRacingAnswer log env resp else log }

/-- The first response of any kind opens the long window. -/
def noteResponse : PendingOrigination :=
  if p.anyResponseSeen then p
  else { p with anyResponseSeen := true, deadline := env.now + outboundRingTimeout }

def onCarrierResponse : Outcome :=
  match p.step with
  | .awaitingCancel _ => p.onCancelResponse log env resp
  -- the final was handled already; a retransmission of it is not acknowledged again
  | .awaitingVeth _ _ _ => { pending := some p, log }
  | .awaitingCarrier =>
    if (responseMethod resp).any (!eqIgnoreAsciiCase · "INVITE") then
      { pending := some p, log }
    else
      let p := p.noteResponse env
      if resp.status < 200 then
        let (p, log) := p.onProvisional log env resp
        { pending := some p, log }
      else p.onFinal log env resp

/-! ## Ticks -/

/-- Whether a relay between the two codecs starts. -/
def relayStarts (chosen veth : ChosenCodec) : Bool :=
  if chosen.codec ≠ veth.codec then env.transcodes else true

/-- The early handshake has succeeded: the relay starts if everything it needs is there. -/
def startEarlyRelay (veth : ChosenCodec) : PendingOrigination × Log :=
  let p := { p with earlyVethRx := false }
  match p.earlyMediaCodec.bind offeredChosenCodec with
  | some chosen =>
    if env.clones && relayStarts env chosen veth then
      ({ p with earlyRelay := some (log.relays.length, chosen), earlyVethSocket := some veth },
        log.start)
    else (p, log)
  | none => (p, log)

/-- Taken on every tick that does not abandon the attempt, whatever it waits for. -/
def pollEarlyVeth : PendingOrigination × Log :=
  if p.earlyRelay.isNone && p.earlyVethRx then
    match env.earlyVeth with
    | .value (some veth) => p.startEarlyRelay log env veth
    | .value none => ({ p with earlyVethRx := false }, log)
    | .disconnected => ({ p with earlyVethRx := false }, log)
    | .empty => (p, log)
  else (p, log)

def pollVeth : VethRx → Poll (Option (Option ChosenCodec))
  | .running => .value none
  | .holds codec => .value (some (some codec))
  | .listening =>
    match env.veth with
    | .empty => .empty
    | .value r => .value (some r)
    | .disconnected => .disconnected

/-- A relay of its own for the answered call. -/
def bridgeWith (dialog : DialogInfo) (chosen veth : ChosenCodec) : Outcome :=
  if relayStarts env chosen veth then
    { pending := none, call := some { stop := log.relays.length, dialog }, log := log.start }
  else
    { pending := none, log := hangupAnsweredCarrierLeg log env dialog Reason.transportError }

/-- The relay of the early media serves the call if it speaks the final codec; otherwise it
is stopped and another one is started from the retained socket. -/
def bridgeEarly (dialog : DialogInfo) (answerCodec : NegotiatedCodec) (relay : Nat)
    (earlyChosen : ChosenCodec) : Outcome :=
  match offeredChosenCodec answerCodec with
  | some finalChosen =>
    if finalChosen.codec = earlyChosen.codec then
      { pending := none, call := some { stop := relay, dialog }, log }
    else
      let log := log.stop relay
      match p.earlyVethSocket with
      | none =>
        { pending := none, log := hangupAnsweredCarrierLeg log env dialog Reason.transportError }
      | some veth => bridgeWith log env dialog finalChosen veth
  | none =>
    { pending := none
      log := hangupAnsweredCarrierLeg (log.stop relay) env dialog Reason.transportError }

def finishOrigination (dialog : DialogInfo) (answerCodec : NegotiatedCodec)
    (vethResult : Option (Option ChosenCodec)) : Outcome :=
  match vethResult, p.earlyRelay with
  | none, some (relay, earlyChosen) => p.bridgeEarly log env dialog answerCodec relay earlyChosen
  | none, none =>
    { pending := none, log := hangupAnsweredCarrierLeg log env dialog Reason.transportError }
  | some none, _ =>
    { pending := none, log := hangupAnsweredCarrierLeg log env dialog Reason.vethLegFailed }
  | some (some veth), _ =>
    match offeredChosenCodec answerCodec with
    | none =>
      { pending := none, log := hangupAnsweredCarrierLeg log env dialog Reason.transportError }
    | some chosen => bridgeWith log env dialog chosen veth

/-- A CANCEL goes out for a pending INVITE, an answered leg is hung up, and a CANCEL that is
already out is waited for. -/
def giveUp (reason : Text) : Outcome :=
  match p.step with
  | .awaitingCarrier =>
    let (p, log) := p.beginCancel log env
    { pending := some p, log }
  | .awaitingVeth dialog _ _ => p.hangupPendingCarrierLeg log env dialog reason
  | .awaitingCancel _ => { pending := some p, log }

/-- The caller is gone. -/
def abandonOrigination : Outcome :=
  let (p, log) := p.stopEarlyRelay log
  p.giveUp log env Reason.callerHangup

/-- The registration was rejected: the telephone side is told. -/
def failOrigination (reason : Text) : Outcome :=
  let (p, log) := p.fail log env reason
  p.giveUp log env reason

/-- Whether this tick finds that the caller is gone; once is enough. -/
def abandons : Bool :=
  !p.abandoned &&
    match env.control with
    | .value (.callEnded callId) => callId == p.callId
    | .value .other => false
    | .disconnected => true
    | .empty => false

def tickAwaitingVeth (dialog : DialogInfo) (vethRx : VethRx) (answerCodec : NegotiatedCodec) :
    Outcome :=
  match pollVeth env vethRx with
  | .value vethResult => p.finishOrigination log env dialog answerCodec vethResult
  | .empty =>
    if env.now ≥ p.deadline then p.hangupPendingCarrierLeg log env dialog Reason.vethLegFailed
    else { pending := some p, log }
  | .disconnected => p.hangupPendingCarrierLeg log env dialog Reason.vethLegFailed

def tickAwaitingCarrier : Outcome :=
  if env.now ≥ p.deadline then
    let (p, log) := p.fail log env Reason.noFinalResponse
    let (p, log) := p.beginCancel log env
    { pending := some p, log }
  else { pending := some p, log }

def tickAwaitingCancel (sent : Bool) : Outcome :=
  if env.now ≥ p.deadline then { pending := none, log }
  else if sent then { pending := some p, log }
  else
    match env.send (.cancel p.inviteCseq) with
    | .ok () =>
      { pending := some
          { p with step := .awaitingCancel true, deadline := env.now + cancelResponseTimeout }
        log := log.send env (.cancel p.inviteCseq) }
    | .error _ => { pending := some p, log }

/-- What the attempt waits for, after the early media have been looked after. -/
def tickStep : Outcome :=
  match p.step with
  | .awaitingVeth dialog vethRx answerCodec =>
    p.tickAwaitingVeth log env dialog vethRx answerCodec
  | .awaitingCarrier => p.tickAwaitingCarrier log env
  | .awaitingCancel sent => p.tickAwaitingCancel log env sent

def tick : Outcome :=
  if p.abandons env then { p with abandoned := true }.abandonOrigination log env
  else
    let (p, log) := p.pollEarlyVeth log env
    p.tickStep log env

end PendingOrigination

/-! ## Runs -/

/-- A turn of the dispatch loop that concerns the attempt. -/
inductive Event where
  | response (resp : SipResponse)
  | tick
  | registrationRejected

/-- The attempt with a record of the responses that it was handed. -/
structure Attempt extends Outcome where
  handled : List SipResponse := []
  deriving DecidableEq

def turn (p : PendingOrigination) (log : Log) (env : Env) : Event → Outcome
  | .response resp => p.onCarrierResponse log env resp
  | .tick => p.tick log env
  | .registrationRejected => p.failOrigination log env Reason.registrationRejected

/-- The response that an event hands to the attempt: one of its own `Call-ID`. -/
def handedTo (p : PendingOrigination) : Event → Option SipResponse
  | .response resp => if p.matchesResponse resp then some resp else none
  | .tick => none
  | .registrationRejected => none

/-- Whether an event concerns the attempt at all. -/
def concerns (p : PendingOrigination) : Event → Bool
  | .response resp => p.matchesResponse resp
  | .tick => true
  | .registrationRejected => true

/-- One turn; an attempt that is over is not touched any more. -/
def step (a : Attempt) (ev : Env × Event) : Attempt :=
  match a.pending with
  | none => a
  | some p =>
    if concerns p ev.2 then
      { turn p a.log ev.1 ev.2 with handled := a.handled ++ (handedTo p ev.2).toList }
    else a

section

variable {a : Attempt} {p : PendingOrigination} {env : Env} {ev : Event} {resp resp' : SipResponse}

theorem step_eq (hp : a.pending = some p) (hconc : concerns p ev = true) :
    step a (env, ev) =
      { turn p a.log env ev with handled := a.handled ++ (handedTo p ev).toList } := by
  simp [step, hp, hconc]

theorem step_eq_self (hp : a.pending = some p) (hconc : ¬ concerns p ev = true) :
    step a (env, ev) = a := by
  simp [step, hp, if_neg hconc]

theorem step_over (hp : a.pending = none) : step a (env, ev) = a := by
  simp [step, hp]

theorem handedTo_response (hconc : concerns p (.response resp) = true) :
    handedTo p (.response resp) = some resp :=
  if_pos hconc

theorem concerns_of_handedTo (h : handedTo p (.response resp') = some resp) :
    concerns p (.response resp') = true := by
  simp only [handedTo] at h
  split at h
  case isTrue hmatch => exact hmatch
  case isFalse => cases h

end

/-- An attempt that has just begun. -/
def begun (callId : Text) (inviteCseq : Nat) (env : Env) (rtpBind controlClone : Except Text Unit) :
    Attempt :=
  { beginOrigination callId inviteCseq env rtpBind controlClone with handled := [] }

/-! ### An attempt to run -/

namespace Sample

/-- A turn in which everything outside works. -/
def env (now : Nat) : Env where
  now
  send _ := .ok ()
  write _ := .ok ()
  rtpConnect := .ok ()
  listens := true
  clones := true
  transcodes := true
  control := .empty
  earlyVeth := .empty
  veth := .value (offeredChosenCodec .pcmu)

def callId : Text := "a1"

def response (status : UInt16) (body : Text) : SipResponse where
  status
  reason := []
  headers :=
    [("Call-ID", callId), ("CSeq", "1 INVITE"), ("To", "b;tag=2")]
  body

def answer : Text := "c=IN IP4 192.0.2.1\nm=audio 4000 RTP/AVP 0"

def start : Attempt := begun callId 1 (env 0) (.ok ()) (.ok ())

end Sample

end Ims.Origination
