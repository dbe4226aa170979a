-- SUMMARY: The reg-event subscription (`ims/agent/reg_subscription.rs`).
import GsmSipBridge.Lib.Trace
import GsmSipBridge.Ims.Agent.Inbound
import GsmSipBridge.Ims.Agent.Registration

/-!
# The reg-event subscription

A line subscribes to its own registration. The subscription is a state machine without a socket
and without a clock: every entry point is given the time, and what is to be sent comes back as an
action that the dispatch loop performs and reports. Times are in milliseconds; `now` is the
monotonic clock and `wall` the wall clock, which only dates failures for the status.
-/

namespace Ims.RegSubscription

open Text SipClient Inbound

def secs (n : Nat) : Nat := n * 1000

def timerF : Nat := secs 128
def timerN : Nat := secs 128
def subInitialBackoff : Nat := secs 5
def subMaxBackoff : Nat := secs 600
def supersededGrace : Nat := secs 128
def supersededCap : Nat := 32
def maxNetworkDelaySecs : Nat := 366 * 24 * 3600
def refreshHeadroom : Nat := secs 300
def pingResponseTimeout : Nat := secs 10

/-- `now + delay`, the delay clamped. -/
def after (now delay : Nat) : Nat := now + min delay (secs maxNetworkDelaySecs)

def renewalHeadroomFor (granted preferred : Nat) : Nat := min preferred (granted / 2)

/-! ## Header values -/

def parseU32 (t : Text) : Option Nat := Numeral.parse 4294967295 t
def parseU64 (t : Text) : Option Nat := Numeral.parse 18446744073709551615 t

def parseCseqNumber (cseq : Text) : Option Nat := (splitWhitespace cseq).head?.bind parseU32

def contactUri (value : Text) : Option Text :=
  let value := trim value
  match splitOnce '<' value with
  | some (_, rest) => (splitOnce '>' rest).map Prod.fst
  | none =>
    let bare := trim ((value.splitOn ';').headD [])
    if bare.isEmpty then none else some bare

/-- At the commas outside of brackets and quotes; `start` is the value being read. -/
def splitHeaderValuesFrom (start : Text) (depth : Nat) (quoted escaped : Bool) : Text → List Text
  | [] => [trim start]
  | ch :: rest =>
    if quoted then
      splitHeaderValuesFrom (start ++ [ch]) depth (escaped || ch != '\"') (!escaped && ch == '\\')
        rest
    else if ch = ',' ∧ depth = 0 then trim start :: splitHeaderValuesFrom [] depth false false rest
    else
      let depth := if ch = '<' then depth + 1 else if ch = '>' then depth - 1 else depth
      splitHeaderValuesFrom (start ++ [ch]) depth (ch == '\"') false rest

def splitHeaderValues (value : Text) : List Text :=
  (splitHeaderValuesFrom [] 0 false false value).filter (!·.isEmpty)

def routeSetInOrder (recordRoutes : List Text) : List Text :=
  (recordRoutes.flatMap splitHeaderValues).map ("Route: " ++ ·)

def uacRouteSet (resp : SipResponse) (serviceRoute : List Text) : List Text :=
  let set := (routeSetInOrder (headersAll resp.headers "Record-Route")).reverse
  if set.isEmpty then serviceRoute else set

/-- The leading digits of a `Retry-After`. -/
def retryAfterSecs (value : Text) : Option Nat :=
  (parseU64 ((trim value).takeWhile Char.isDigit)).map (min · maxNetworkDelaySecs)

/-! ## `Subscription-State` -/

inductive SubStateKind where
  | active
  | pending
  | terminated
  | missing
  deriving DecidableEq, Repr

structure SubState where
  state : SubStateKind
  expires : Option Nat := none
  reason : Option Text := none
  retryAfter : Option Nat := none
  deriving DecidableEq

def networkSecs (value : Text) : Option Nat :=
  (parseU64 (trim value)).map (min · maxNetworkDelaySecs)

/-- Whatever is no known state counts as missing. -/
def parseSubStateKind (value : Text) : SubStateKind :=
  let value := toAsciiLowercase (trim value)
  if value = "active" then .active
  else if value = "pending" then .pending
  else if value = "terminated" then .terminated
  else .missing

/-- The last parameter of a name counts. -/
def SubState.readParam (parsed : SubState) (param : Text) : SubState :=
  match splitOnce '=' param with
  | none => parsed
  | some (name, value) =>
    let name := toAsciiLowercase (trim name)
    let value := trim value
    if name = "expires" then { parsed with expires := networkSecs value }
    else if name = "retry-after" then { parsed with retryAfter := networkSecs value }
    else if name = "reason" then { parsed with reason := some (toAsciiLowercase value) }
    else parsed

def parseSubscriptionState (value : Text) : SubState :=
  (value.splitOn ';').tail.foldl SubState.readParam
    { state := parseSubStateKind ((value.splitOn ';').headD []) }

/-! ## The state -/

inductive SubKind where
  | initial
  | refresh
  deriving DecidableEq, Repr

inductive EndpointFailureCause where
  | subscribeTimeout
  | subscribeSendFailed
  deriving DecidableEq, Repr

inductive SubAction where
  | sendInitial (expires : Nat)
  | sendRefresh (expires : Nat)
  | probe (cause : EndpointFailureCause) (callId : Option Text)
  | endpointFailure (cause : EndpointFailureCause) (callId : Option Text)
  deriving DecidableEq

inductive ResponseMatch where
  | current
  | superseded
  | unknown
  deriving DecidableEq, Repr

inductive NotifyMatch where
  | current (state : SubState)
  | superseded
  | unknown
  deriving DecidableEq

inductive Txn where
  | pending (cseq sentAt : Nat) (kind : SubKind)
  | idle
  deriving DecidableEq

structure Probing where
  cause : EndpointFailureCause
  callId : Option Text
  /-- The probe's CSeq and when it went out. -/
  sent : Option (Nat × Nat) := none
  deriving DecidableEq

structure Subscription where
  callId : Text
  localTag : Text
  remoteTag : Option Text := none
  routeSet : List Text := []
  remoteTarget : Option Text := none
  requestedExpires : Nat
  createdAt : Nat
  createdWall : Nat
  granted : Option Nat := none
  expiresAt : Option Nat := none
  confirmed : Bool := false
  /-- Until the first NOTIFY. -/
  timerN : Option Nat
  notifiedSinceSend : Bool := false
  /-- The expiry that the last refresh was sent against. -/
  refreshedFor : Option Nat := none
  lastCseq : Nat
  txn : Txn
  deriving DecidableEq

structure SupersededSub where
  callId : Text
  localTag : Text
  forgetAt : Nat
  deriving DecidableEq

structure SentSubscribe where
  callId : Text
  localTag : Text
  cseq : Nat
  expires : Nat
  deriving DecidableEq

end RegSubscription

/-- One line's reg-event subscription. -/
structure RegSubscription where
  current : Option RegSubscription.Subscription := none
  superseded : List RegSubscription.SupersededSub := []
  retryAt : Option Nat := none
  backoff : Nat := RegSubscription.subInitialBackoff
  minExpires : Nat := Registration.defaultExpires
  /-- Nothing is sent until the next registration. -/
  stopped : Option Text := none
  probing : Option RegSubscription.Probing := none
  lastFailure : Option (Nat × Text) := none
  unconfirmedSince : Option Nat := none
  lastSentAt : Option Nat := none
  deriving DecidableEq

namespace RegSubscription

open Text SipClient Inbound

namespace Subscription

variable (c : Subscription)

/-- No SUBSCRIBE is outstanding that the network has not acknowledged. -/
def settled : Bool := c.txn == .idle || c.notifiedSinceSend

/-- A refresh is due once per expiry. -/
def refreshDue (now : Nat) : Bool :=
  if c.expiresAt.isSome && c.refreshedFor == c.expiresAt then false
  else
    match c.expiresAt, c.granted with
    | some expiresAt, some granted =>
      expiresAt ≤ now + renewalHeadroomFor granted refreshHeadroom
    | _, _ => false

/-- The dialog's identity, from the first 2xx or NOTIFY that carries one. -/
def learnDialog (remoteTag : Option Text) (routeSet : List Text) (target : Option Text) :
    Subscription :=
  match remoteTag, c.remoteTag with
  | some tag, none => { c with remoteTag := some tag, routeSet, remoteTarget := target }
  | _, _ => c

/-- When the network can no longer notify it. -/
def expiry : Nat := c.expiresAt.getD (after c.createdAt (secs c.requestedExpires))

/-- The end of a transaction that only a NOTIFY has acknowledged. -/
def closeNotified (now : Nat) : Subscription :=
  match c.txn with
  | .pending _ sentAt _ =>
    if c.notifiedSinceSend && sentAt + timerF ≤ now then { c with txn := .idle } else c
  | .idle => c

def timerFExpired (now : Nat) : Bool :=
  match c.txn with
  | .pending _ sentAt _ => !c.notifiedSinceSend && sentAt + timerF ≤ now
  | .idle => false

def expired (now : Nat) : Bool := c.expiresAt.any (· ≤ now)

def timerNExpired (now : Nat) : Bool := !c.confirmed && c.timerN.any (· ≤ now)

end Subscription

variable (s : RegSubscription)

/-! ## Failures and retries -/

def prune (now : Nat) : RegSubscription :=
  { s with superseded := s.superseded.filter fun old => now < old.forgetAt }

/-- The current subscription is remembered until it can no longer be notified. -/
def supersede (now : Nat) : RegSubscription :=
  match s.current with
  | none => s
  | some c =>
    let superseded := s.superseded ++
      [{ callId := c.callId, localTag := c.localTag, forgetAt := c.expiry + supersededGrace }]
    { s with
      current := none
      superseded := superseded.drop (superseded.length - supersededCap) }.prune now

def recordFailure (wall : Nat) (reason : Text) : RegSubscription :=
  { s with lastFailure := some (wall, reason) }

def markUnconfirmed (wall : Nat) : RegSubscription :=
  { s with unconfirmedSince := some (s.unconfirmedSince.getD wall) }

/-- On the backoff, and never before the floor. -/
def scheduleRetry (now : Nat) (floor : Option Nat) : RegSubscription :=
  { s with
    retryAt := some (after now (max s.backoff (floor.getD 0)))
    backoff := Registration.nextBackoff s.backoff subMaxBackoff }

def fail (now wall : Nat) (reason : Text) (floor : Option Nat) : RegSubscription :=
  ((s.recordFailure wall reason).markUnconfirmed wall).scheduleRetry now floor

def scheduleAfterEndpointFailure (now wall : Nat) : RegSubscription :=
  (s.markUnconfirmed wall).scheduleRetry now none

/-- At least the initial backoff since the last SUBSCRIBE. -/
def spaced (now : Nat) : Bool := s.lastSentAt.all fun last => last + subInitialBackoff ≤ now

/-! ### What they leave alone -/

section Fields

variable {s} (now wall : Nat) (reason : Text) (floor : Option Nat)

@[simp] theorem prune_current : (s.prune now).current = s.current := rfl
@[simp] theorem prune_retryAt : (s.prune now).retryAt = s.retryAt := rfl
@[simp] theorem prune_stopped : (s.prune now).stopped = s.stopped := rfl
@[simp] theorem prune_probing : (s.prune now).probing = s.probing := rfl
@[simp] theorem prune_lastSentAt : (s.prune now).lastSentAt = s.lastSentAt := rfl

@[simp] theorem supersede_current : (s.supersede now).current = none := by
  unfold supersede
  split
  case h_1 hnone => exact hnone
  case h_2 => rfl

@[simp] theorem supersede_retryAt : (s.supersede now).retryAt = s.retryAt := by
  unfold supersede
  split <;> rfl

@[simp] theorem supersede_stopped : (s.supersede now).stopped = s.stopped := by
  unfold supersede
  split <;> rfl

@[simp] theorem supersede_probing : (s.supersede now).probing = s.probing := by
  unfold supersede
  split <;> rfl

@[simp] theorem supersede_lastSentAt : (s.supersede now).lastSentAt = s.lastSentAt := by
  unfold supersede
  split <;> rfl

@[simp] theorem recordFailure_current : (s.recordFailure wall reason).current = s.current := rfl
@[simp] theorem markUnconfirmed_current : (s.markUnconfirmed wall).current = s.current := rfl
@[simp] theorem fail_current : (s.fail now wall reason floor).current = s.current := rfl
@[simp] theorem fail_stopped : (s.fail now wall reason floor).stopped = s.stopped := rfl
@[simp] theorem fail_probing : (s.fail now wall reason floor).probing = s.probing := rfl
@[simp] theorem fail_superseded : (s.fail now wall reason floor).superseded = s.superseded := rfl
@[simp] theorem fail_lastSentAt : (s.fail now wall reason floor).lastSentAt = s.lastSentAt := rfl

end Fields

/-! ## The confirming probe -/

def unansweredReason : EndpointFailureCause → Text
  | .subscribeTimeout => "SUBSCRIBE unanswered within 128s"
  | .subscribeSendFailed => "SUBSCRIBE could not be sent"

def beginProbe (cause : EndpointFailureCause) (callId : Option Text) (now wall : Nat)
    (forceRenewalPending : Bool) : RegSubscription × SubAction :=
  if forceRenewalPending then
    (s.fail now wall (unansweredReason cause) none, .endpointFailure cause callId)
  else ({ s with probing := some { cause, callId } }, .probe cause callId)

def onProbeSent (cseq now : Nat) : RegSubscription :=
  { s with probing := s.probing.map fun p => { p with sent := some (cseq, now) } }

def onProbeSendFailed (now wall : Nat) : RegSubscription × Option SubAction :=
  match s.probing with
  | none => (s, none)
  | some p =>
    ({ s with probing := none }.scheduleAfterEndpointFailure now wall,
      some (.endpointFailure p.cause p.callId))

def onProbeResponse (cseq now wall : Nat) : RegSubscription × Bool :=
  match s.probing.filter fun p => p.sent.any (·.1 == cseq) with
  | none => (s, false)
  | some p =>
    ({ s with probing := none }.fail now wall
      (unansweredReason p.cause ++ " (Gm path alive)") none, true)

/-! ## Sending -/

def onNewRegistration (now : Nat) : RegSubscription × SubAction :=
  ({ s.supersede now with
      probing := none, retryAt := none, stopped := none
      minExpires := Registration.defaultExpires
      backoff := subInitialBackoff
      lastSentAt := none },
    .sendInitial Registration.defaultExpires)

def onSent (sent : SentSubscribe) (kind : SubKind) (now wall : Nat) : RegSubscription :=
  let txn := .pending sent.cseq now kind
  let s := { s with lastSentAt := some now }
  match kind with
  | .initial =>
    { s.supersede now with
      current := some
        { callId := sent.callId, localTag := sent.localTag, requestedExpires := sent.expires
          createdAt := now, createdWall := wall, timerN := some (now + timerN)
          lastCseq := sent.cseq, txn } }
  | .refresh =>
    { s with
      current := s.current.map fun c =>
        { c with
          refreshedFor := c.expiresAt, requestedExpires := sent.expires
          notifiedSinceSend := false, lastCseq := sent.cseq, txn } }

def onSendFailed (kind : SubKind) (now wall : Nat) (forceRenewalPending : Bool) :
    RegSubscription × SubAction :=
  match kind with
  | .initial => s.beginProbe .subscribeSendFailed none now wall forceRenewalPending
  | .refresh =>
    (s.supersede now).beginProbe .subscribeSendFailed (s.current.map Subscription.callId) now wall
      forceRenewalPending

/-! ## Responses -/

def headerOf (resp : SipResponse) (name : String) : Option Text := header resp.headers name.toList

def statusText (resp : SipResponse) : Text :=
  Numeral.display resp.status.toNat ++ ' ' :: resp.reason

def refused (resp : SipResponse) : Text := "SUBSCRIBE refused: " ++ statusText resp

/-- A 2xx; an expiry of zero counts as a refusal. -/
def onAccepted (resp : SipResponse) (c : Subscription) (now wall : Nat) : RegSubscription :=
  let granted := ((headerOf resp "Expires").bind fun v => parseU32 (trim v)).getD c.requestedExpires
  if granted = 0 then
    (s.supersede now).fail now wall "SUBSCRIBE accepted with Expires: 0" none
  else
    let c :=
      { c with granted := some (secs granted), expiresAt := some (after now (secs granted)) }
    { s with
      retryAt := none
      current := some (c.learnDialog ((headerOf resp "To").bind headerTag) (uacRouteSet resp [])
        ((headerOf resp "Contact").bind contactUri)) }

def minExpiresOf (resp : SipResponse) : Option Nat :=
  (headerOf resp "Min-Expires").bind fun v => parseU32 (trim v)

/-- Any other refusal: of a refresh it leaves the subscription, a 408 apart. -/
def onRefused (resp : SipResponse) (kind : SubKind) (now wall : Nat) : RegSubscription :=
  let s := if kind = .initial ∨ resp.status = 408 then s.supersede now else s
  s.fail now wall (refused resp)
    (((headerOf resp "Retry-After").bind retryAfterSecs).map secs)

/-- A 423 that raises what is asked for. -/
def raisesMinExpires (resp : SipResponse) : Bool :=
  resp.status == 423 && (minExpiresOf resp).any (s.minExpires < ·)

def onCurrentResponse (resp : SipResponse) (c : Subscription) (kind : SubKind) (now wall : Nat) :
    RegSubscription :=
  if resp.status < 200 then s
  else
    let c := { c with txn := .idle }
    let s := { s with current := some c }
    if resp.status < 300 then s.onAccepted resp c now wall
    else if s.raisesMinExpires resp then
      let s := { s with minExpires := (minExpiresOf resp).getD s.minExpires }
      let s := if kind = .initial then s.supersede now else s
      { s with retryAt := some now }
    else if resp.status = 489 then
      { (s.supersede now).recordFailure wall (refused resp) with
        retryAt := none
        stopped := some (statusText resp) }
    else if resp.status = 481 ∧ kind = .refresh then
      { ((s.supersede now).recordFailure wall (refused resp)).markUnconfirmed wall with
        retryAt := some now }
    else s.onRefused resp kind now wall

/-- The transaction in flight that a response answers. -/
def pendingFor (resp : SipResponse) : Option (Subscription × SubKind) :=
  s.current.bind fun c =>
    match c.txn with
    | .pending cseq _ kind =>
      if c.callId = (headerOf resp "Call-ID").getD [] ∧
          some cseq = (headerOf resp "CSeq").bind parseCseqNumber then
        some (c, kind)
      else none
    | .idle => none

def onResponse (resp : SipResponse) (now wall : Nat) : RegSubscription × ResponseMatch :=
  match s.pendingFor resp with
  | some (c, kind) => (s.onCurrentResponse resp c kind now wall, .current)
  | none =>
    let callId := (headerOf resp "Call-ID").getD []
    if s.current.any (·.callId == callId) || s.superseded.any (·.callId == callId) then
      (s, .superseded)
    else (s, .unknown)

/-! ## NOTIFYs -/

def notifyEvent (req : SipRequest) : Text :=
  trim (((((Inbound.headerOf req "Event").or (Inbound.headerOf req "o")).getD []).splitOn ';').headD
    [])

/-- A NOTIFY in the dialog of the current subscription. -/
def confirmCurrent (req : SipRequest) (state : SubState) (c : Subscription) : RegSubscription :=
  let c := c.learnDialog ((Inbound.headerOf req "From").bind headerTag)
    (routeSetInOrder (headersAll req.headers "Record-Route"))
    ((Inbound.headerOf req "Contact").bind contactUri)
  let c := { c with notifiedSinceSend := true, timerN := none }
  if !c.confirmed && state.state != .terminated then
    { s with
      current := some { c with confirmed := true }
      backoff := subInitialBackoff
      unconfirmedSince := none }
  else { s with current := some c }

def onNotify (req : SipRequest) (now : Nat) : RegSubscription × NotifyMatch :=
  let s := s.prune now
  if !eqIgnoreAsciiCase (notifyEvent req) "reg" then (s, .unknown)
  else
    match (Inbound.headerOf req "To").bind headerTag with
    | none => (s, .unknown)
    | some toTag =>
      let state := parseSubscriptionState ((Inbound.headerOf req "Subscription-State").getD [])
      match s.current.filter fun c => c.callId == callIdOf req && c.localTag == toTag with
      | some c => (s.confirmCurrent req state c, .current state)
      | none =>
        if s.superseded.any fun old => old.callId == callIdOf req && old.localTag == toTag then
          (s, .superseded)
        else (s, .unknown)

def terminatedReason (reason : Text) : Text :=
  "terminated by the network: " ++ (if reason.isEmpty then "no reason".toList else reason)

def onTerminated (state : SubState) (now wall : Nat) : RegSubscription :=
  let reason := state.reason.getD []
  let s := ((s.supersede now).recordFailure wall (terminatedReason reason)).markUnconfirmed wall
  if reason = "deactivated" ∨ reason = "timeout" then { s with retryAt := some now }
  else if reason = "rejected" ∨ reason = "noresource" then
    { s with retryAt := none, stopped := some ("terminated: " ++ reason) }
  else s.scheduleRetry now (state.retryAfter.map secs)

def applySubscriptionState (state : SubState) (now wall : Nat) : RegSubscription :=
  match s.current with
  | none => s
  | some c =>
    match state.state with
    | .missing => s
    | .active | .pending =>
      match state.expires with
      | none => s
      | some e =>
        { s with
          current := some { c with granted := some (secs e), expiresAt := some (after now (secs e)) } }
    | .terminated => s.onTerminated state now wall

/-! ## The idle tick -/

def pollRetry (now : Nat) : RegSubscription × Option SubAction :=
  if s.retryAt.any (· ≤ now) && s.spaced now then
    match s.current with
    | some c =>
      if c.settled && c.remoteTag.isSome then
        ({ s with retryAt := none }, some (.sendRefresh s.minExpires))
      else (s, none)
    | none => ({ s with retryAt := none }, some (.sendInitial s.minExpires))
  else (s, none)

/-- An expired subscription is replaced, but not before the network's `Retry-After`. -/
def replaceExpired (now wall : Nat) : RegSubscription :=
  { ((s.supersede now).recordFailure wall
      "expired without a successful refresh").markUnconfirmed wall with
    retryAt := some ((s.retryAt.map (max · now)).getD now) }

def pollCurrent (c : Subscription) (now wall : Nat) (forceRenewalPending : Bool) :
    RegSubscription × Option SubAction :=
  if c.timerFExpired now then
    let begun := (s.supersede now).beginProbe .subscribeTimeout (some c.callId) now wall
      forceRenewalPending
    (begun.1, some begun.2)
  else if c.expired now then (s.replaceExpired now wall).pollRetry now
  else if c.timerNExpired now then
    ((s.supersede now).fail now wall "accepted but no NOTIFY within 128s" none, none)
  else if (c.settled && c.refreshDue now) && s.retryAt.isNone && s.spaced now then
    if c.remoteTag.isSome then (s, some (.sendRefresh s.minExpires))
    else { s.supersede now with retryAt := some now }.pollRetry now
  else s.pollRetry now

def poll (now wall : Nat) (forceRenewalPending : Bool) : RegSubscription × Option SubAction :=
  let s := s.prune now
  match s.probing with
  | some p =>
    if p.sent.any fun sent => sent.2 + pingResponseTimeout ≤ now then
      ({ s with probing := none }.scheduleAfterEndpointFailure now wall,
        some (.endpointFailure p.cause p.callId))
    else (s, none)
  | none =>
    if s.stopped.isSome then (s, none)
    else
      match s.current with
      | none => s.pollRetry now
      | some c =>
        let c := c.closeNotified now
        { s with current := some c }.pollCurrent c now wall forceRenewalPending

/-! ### The cases of a tick -/

section Poll

variable {s} (now wall : Nat) (force : Bool)

theorem poll_of_probing {p : Probing} (h : s.probing = some p) :
    s.poll now wall force =
      if p.sent.any fun sent => sent.2 + pingResponseTimeout ≤ now then
        ({ s.prune now with probing := none }.scheduleAfterEndpointFailure now wall,
          some (.endpointFailure p.cause p.callId))
      else (s.prune now, none) := by
  simp [poll, prune_probing, h]

variable (hprobe : s.probing = none)

include hprobe

theorem poll_of_stopped (hstop : s.stopped.isSome = true) :
    s.poll now wall force = (s.prune now, none) := by
  simp [poll, prune_probing, hprobe, prune_stopped, hstop]

theorem poll_of_none (hstop : s.stopped = none) (hcur : s.current = none) :
    s.poll now wall force = (s.prune now).pollRetry now := by
  simp [poll, hprobe, hstop, hcur]

theorem poll_of_some (hstop : s.stopped = none) {c : Subscription} (hcur : s.current = some c) :
    s.poll now wall force = { s.prune now with current := some (c.closeNotified now) }.pollCurrent
      (c.closeNotified now) now wall force := by
  simp [poll, hprobe, hstop, hcur]

end Poll

/-! ## Runs -/

inductive Entry where
  | newRegistration
  | sent (sent : SentSubscribe) (kind : SubKind)
  | sendFailed (kind : SubKind) (forceRenewalPending : Bool)
  | probeSent (cseq : Nat)
  | probeSendFailed
  | probeResponse (cseq : Nat)
  | response (resp : SipResponse)
  | notify (req : SipRequest)
  | applyState (state : SubState)
  | poll (forceRenewalPending : Bool)
  deriving DecidableEq

structure Turn where
  now : Nat
  wall : Nat := 0
  entry : Entry
  deriving DecidableEq

def Turn.registers (turn : Turn) : Bool :=
  match turn.entry with
  | .newRegistration => true
  | _ => false

/-- What an entry point returns. -/
inductive Returned where
  | nothing
  | action (a : SubAction)
  | responseMatch (m : ResponseMatch)
  | notifyMatch (m : NotifyMatch)
  | answered (b : Bool)
  deriving DecidableEq

def Returned.ofAction : Option SubAction → Returned
  | some a => .action a
  | none => .nothing

structure Line where
  sub : RegSubscription := {}
  /-- What the latest entry point returned. -/
  returned : Returned := .nothing
  clock : Nat := 0
  deriving DecidableEq

def enter (turn : Turn) : RegSubscription × Returned :=
  match turn.entry with
  | .newRegistration => (s.onNewRegistration turn.now).map id .action
  | .sent sent kind => (s.onSent sent kind turn.now turn.wall, .nothing)
  | .sendFailed kind force => (s.onSendFailed kind turn.now turn.wall force).map id .action
  | .probeSent cseq => (s.onProbeSent cseq turn.now, .nothing)
  | .probeSendFailed => (s.onProbeSendFailed turn.now turn.wall).map id .ofAction
  | .probeResponse cseq => (s.onProbeResponse cseq turn.now turn.wall).map id .answered
  | .response resp => (s.onResponse resp turn.now turn.wall).map id .responseMatch
  | .notify req => (s.onNotify req turn.now).map id .notifyMatch
  | .applyState state => (s.applySubscriptionState state turn.now turn.wall, .nothing)
  | .poll force => (s.poll turn.now turn.wall force).map id .ofAction

def step (l : Line) (turn : Turn) : Line where
  sub := (l.sub.enter turn).1
  returned := (l.sub.enter turn).2
  clock := turn.now

/-- The line after some turns, the latest first. -/
abbrev run (past : List Turn) : Line := History.after step {} past

/-! ## The cases of the entry points

One statement for each entry point with many branches. Results about runs are by these cases and
do not unfold the entry points. -/

variable {s : RegSubscription} {now wall : Nat} {c : Subscription} {resp : SipResponse}
  {force : Bool} {motive : RegSubscription × Option SubAction → Prop}

/-! ### Responses -/

/-- What a final response makes of the current subscription and of the retry. -/
inductive AfterFinal (s : RegSubscription) (c : Subscription) (kind : SubKind) (now : Nat)
    (t : RegSubscription) : Prop where
  | accepted (c' : Subscription) (hcurrent : t.current = some c') (htxn : c'.txn = .idle)
      (hexpires : c'.expiresAt.isSome = true) (hretry : t.retryAt = none)
      (hstopped : t.stopped = s.stopped)
  | kept (hkind : kind = .refresh) (hcurrent : t.current = some { c with txn := .idle })
      (hretry : t.retryAt.isSome = true) (hstopped : t.stopped = s.stopped)
  | gone (hcurrent : t.current = none) (hretry : t.retryAt.isSome = true)
      (hstopped : t.stopped = s.stopped)
  | stopped (hcurrent : t.current = none) (hretry : t.retryAt = none)
      (hstopped : t.stopped.isSome = true)

theorem onCurrentResponse_final (hfinal : ¬ resp.status < 200) (c : Subscription) (kind : SubKind)
    (now wall : Nat) : AfterFinal s c kind now (s.onCurrentResponse resp c kind now wall) := by
  simp only [onCurrentResponse, hfinal, if_false]
  split
  · simp only [onAccepted, Subscription.learnDialog]
    split
    · exact .gone (by simp) rfl (by simp)
    split <;> exact .accepted _ rfl rfl rfl rfl rfl
  · split
    · cases kind with
      | initial => exact .gone (by simp) rfl (by simp)
      | refresh => exact .kept rfl rfl rfl rfl
    split
    · exact .stopped (by simp) rfl rfl
    split
    · refine .gone (by simp [markUnconfirmed, recordFailure]) rfl ?_
      simp [markUnconfirmed, recordFailure]
    simp only [onRefused]
    split
    case isTrue => exact .gone (by simp) rfl (by simp)
    case isFalse hkept =>
      cases kind with
      | initial => exact absurd (.inl rfl) hkept
      | refresh => exact .kept rfl rfl rfl rfl

theorem onCurrentResponse_frame (resp : SipResponse) (c : Subscription) (kind : SubKind)
    (now wall : Nat) : let t := s.onCurrentResponse resp c kind now wall
    t.probing = s.probing ∧ t.lastSentAt = s.lastSentAt := by
  simp only [onCurrentResponse, onAccepted, onRefused]
  repeat' split
  all_goals simp [recordFailure, markUnconfirmed]

/-- The response is for the current subscription's Call-ID and its pending CSeq. -/
theorem pendingFor_spec {found : Subscription × SubKind} (h : s.pendingFor resp = some found) :
    s.current = some found.1 ∧ ∃ cseq sentAt, found.1.txn = .pending cseq sentAt found.2 ∧
      found.1.callId = (headerOf resp "Call-ID").getD [] ∧
      (headerOf resp "CSeq").bind parseCseqNumber = some cseq := by
  unfold pendingFor at h
  cases hcur : s.current with
  | none => simp [hcur] at h
  | some c =>
    simp only [hcur, Option.bind_some] at h
    split at h
    case h_1 cseq sentAt kind htxn =>
      split at h
      case isTrue hmatch =>
        cases h
        exact ⟨rfl, cseq, sentAt, htxn, hmatch.1, hmatch.2.symm⟩
      case isFalse => cases h
    case h_2 => cases h

/-- A response is of no transaction in flight and changes nothing, or it is of the one in
flight. -/
theorem onResponse_cases (s : RegSubscription) (resp : SipResponse) (now wall : Nat) :
    (s.pendingFor resp = none ∧ (s.onResponse resp now wall).1 = s) ∨
      ∃ c kind, s.pendingFor resp = some (c, kind) ∧
        (s.onResponse resp now wall).1 = s.onCurrentResponse resp c kind now wall := by
  cases hpend : s.pendingFor resp with
  | none =>
    refine .inl ⟨rfl, ?_⟩
    simp only [onResponse, hpend]
    split <;> rfl
  | some found => exact .inr ⟨found.1, found.2, rfl, by simp [onResponse, hpend]⟩

theorem onResponse_frame (s : RegSubscription) (resp : SipResponse) (now wall : Nat) :
    let t := (s.onResponse resp now wall).1
    t.probing = s.probing ∧ t.lastSentAt = s.lastSentAt := by
  rcases onResponse_cases s resp now wall with ⟨-, heq⟩ | ⟨c, kind, -, heq⟩
  · rw [heq]
    exact ⟨rfl, rfl⟩
  · rw [heq]
    exact onCurrentResponse_frame resp c kind now wall

/-! ### NOTIFYs -/

/-- The NOTIFY has the current subscription's Call-ID and our tag of it. -/
def InDialog (s : RegSubscription) (req : SipRequest) : Prop :=
  ∃ c, s.current = some c ∧ c.callId = callIdOf req ∧
    (Inbound.headerOf req "To").bind headerTag = some c.localTag

def subStateOf (req : SipRequest) : SubState :=
  parseSubscriptionState ((Inbound.headerOf req "Subscription-State").getD [])

/-- What the search for the current subscription finds. -/
theorem inDialog_of_filter {req : SipRequest} {toTag : Text}
    (htag : (Inbound.headerOf req "To").bind headerTag = some toTag)
    (h : (s.current.filter fun c => c.callId == callIdOf req && c.localTag == toTag) = some c) :
    InDialog s req := by
  obtain ⟨hcur, hmatch⟩ := Option.filter_eq_some_iff.1 h
  simp only [Bool.and_eq_true, beq_iff_eq] at hmatch
  exact ⟨c, hcur, hmatch.1, by rw [htag, hmatch.2]⟩

/-- A NOTIFY of the reg event in the dialog is applied; any other changes nothing. -/
theorem onNotify_cases (s : RegSubscription) (req : SipRequest) (now : Nat) :
    (¬ (InDialog s req ∧ eqIgnoreAsciiCase (notifyEvent req) "reg" = true) ∧
        (s.onNotify req now).1 = s.prune now ∧
        ((s.onNotify req now).2 = .superseded ∨ (s.onNotify req now).2 = .unknown)) ∨
      ∃ c, s.current = some c ∧ InDialog s req ∧
        s.onNotify req now =
          ((s.prune now).confirmCurrent req (subStateOf req) c, .current (subStateOf req)) := by
  simp only [onNotify]
  cases hevent : eqIgnoreAsciiCase (notifyEvent req) "reg" with
  | false => exact .inl ⟨fun h => Bool.false_ne_true h.2, rfl, .inr rfl⟩
  | true =>
    cases htag : (Inbound.headerOf req "To").bind headerTag with
    | none =>
      refine .inl ⟨?_, rfl, .inr rfl⟩
      rintro ⟨⟨c, -, -, hc⟩, -⟩
      simp [htag] at hc
    | some toTag =>
      simp only [Bool.not_true, Bool.false_eq_true, if_false]
      cases hfound : (s.prune now).current.filter fun c =>
          c.callId == callIdOf req && c.localTag == toTag with
      | some c =>
        exact .inr ⟨c, (Option.filter_eq_some_iff.1 hfound).1, inDialog_of_filter htag hfound, rfl⟩
      | none =>
        refine .inl ⟨?_, ?_⟩
        · rintro ⟨⟨c, hcur, hcallId, hc⟩, -⟩
          obtain rfl : toTag = c.localTag := by simpa [htag] using hc
          simp [hcur, hcallId] at hfound
        · dsimp only
          split
          · exact ⟨rfl, .inl rfl⟩
          · exact ⟨rfl, .inr rfl⟩

/-- What a NOTIFY in the dialog makes of the subscription. -/
structure Subscription.Notified (c : Subscription) (state : SubState) (c' : Subscription) :
    Prop where
  callId : c'.callId = c.callId
  localTag : c'.localTag = c.localTag
  notified : c'.notifiedSinceSend = true
  timerN : c'.timerN = none
  txn : c'.txn = c.txn
  expiresAt : c'.expiresAt = c.expiresAt
  confirmed : c'.confirmed = true ∨ state.state = .terminated

/-- Only the network's side of the dialog is learnt. -/
theorem learnDialog_eq (c : Subscription) (tag : Option Text) (routeSet : List Text)
    (target : Option Text) : ∃ remoteTag routes remoteTarget, c.learnDialog tag routeSet target =
        { c with remoteTag, routeSet := routes, remoteTarget } := by
  unfold Subscription.learnDialog
  split <;> exact ⟨_, _, _, rfl⟩

theorem confirmCurrent_spec (s : RegSubscription) (req : SipRequest) (state : SubState)
    (c : Subscription) : let t := s.confirmCurrent req state c
    (∃ c', t.current = some c' ∧ c.Notified state c') ∧ t.retryAt = s.retryAt ∧
      t.stopped = s.stopped ∧ t.probing = s.probing ∧ t.lastSentAt = s.lastSentAt := by
  obtain ⟨tag, routes, target, heq⟩ := learnDialog_eq c
    ((Inbound.headerOf req "From").bind headerTag)
    (routeSetInOrder (headersAll req.headers "Record-Route"))
    ((Inbound.headerOf req "Contact").bind contactUri)
  simp only [confirmCurrent, heq]
  split
  · exact ⟨⟨_, rfl, rfl, rfl, rfl, rfl, rfl, rfl, .inl rfl⟩, rfl, rfl, rfl, rfl⟩
  rename_i hconf
  refine ⟨⟨_, rfl, rfl, rfl, rfl, rfl, rfl, rfl, ?_⟩, rfl, rfl, rfl, rfl⟩
  simp only [Bool.and_eq_true, Bool.not_eq_true', bne_iff_ne, not_and, ne_eq,
    Decidable.not_not] at hconf
  cases hc : c.confirmed with
  | true => exact .inl rfl
  | false => exact .inr (hconf hc)

theorem onNotify_frame (s : RegSubscription) (req : SipRequest) (now : Nat) :
    let t := (s.onNotify req now).1
    t.stopped = s.stopped ∧ t.probing = s.probing ∧ t.lastSentAt = s.lastSentAt := by
  rcases onNotify_cases s req now with ⟨-, heq, -⟩ | ⟨c, -, -, heq⟩
  · rw [heq]
    exact ⟨rfl, rfl, rfl⟩
  · rw [heq]
    exact (confirmCurrent_spec ..).2.2

/-- The network will have no more of the subscription. -/
def SubState.stops (state : SubState) : Prop :=
  state.reason.getD [] = "rejected" ∨ state.reason.getD [] = "noresource"

/-- What the state in a NOTIFY makes of the current subscription. -/
inductive AfterState (s : RegSubscription) (c : Subscription) (state : SubState) (now : Nat)
    (t : RegSubscription) : Prop where
  | unchanged (hstate : state.state = .missing ∨ state.state ≠ .terminated ∧ state.expires = none)
      (ht : t = s)
  | renewed (e : Nat) (hexpires : state.expires = some e) (hstate : state.state ≠ .terminated)
      (ht : t = { s with
        current := some { c with granted := some (secs e), expiresAt := some (after now (secs e)) } })
  | retried (hstate : state.state = .terminated) (hcurrent : t.current = none)
      (hretry : t.retryAt.isSome = true) (hstopped : t.stopped = s.stopped)
      (hstops : ¬ state.stops)
  | stopped (hstate : state.state = .terminated) (hcurrent : t.current = none)
      (hretry : t.retryAt = none) (hstopped : t.stopped.isSome = true)

theorem applySubscriptionState_cases (hcur : s.current = some c) (state : SubState)
    (now wall : Nat) :
    AfterState s c state now (s.applySubscriptionState state now wall) := by
  simp only [applySubscriptionState, hcur]
  cases hstate : state.state with
  | missing => exact .unchanged (.inl hstate) rfl
  | active | pending =>
    have hlive : state.state ≠ .terminated := by simp [hstate]
    cases hexp : state.expires with
    | none => exact .unchanged (.inr ⟨hlive, hexp⟩) rfl
    | some e => exact .renewed e hexp hlive rfl
  | terminated =>
    simp only [onTerminated]
    split
    case isTrue hagain =>
      refine .retried hstate (by simp) rfl (by simp [markUnconfirmed, recordFailure]) fun hstops => ?_
      rcases hagain with heq | heq <;> simp [SubState.stops, heq] at hstops
    split
    case isTrue => exact .stopped hstate (by simp) rfl rfl
    case isFalse hstops =>
      refine .retried hstate (by simp [scheduleRetry]) rfl ?_ hstops
      simp [scheduleRetry, markUnconfirmed, recordFailure]

theorem applySubscriptionState_frame (s : RegSubscription) (state : SubState) (now wall : Nat) :
    let t := s.applySubscriptionState state now wall
    t.probing = s.probing ∧ t.lastSentAt = s.lastSentAt := by
  simp only [applySubscriptionState, onTerminated]
  repeat' split
  all_goals simp [scheduleRetry, markUnconfirmed, recordFailure]

/-! ### The tick -/

/-- A retry that is due and spaced out goes out, in the dialog if there is one. -/
theorem pollRetry_cases (s : RegSubscription) (now : Nat) :
    s.pollRetry now = (s, none) ∨
      (s.retryAt.any (· ≤ now) = true ∧ s.spaced now = true ∧
        ∃ action, s.pollRetry now = ({ s with retryAt := none }, some action) ∧
          ((s.current = none ∧ action = .sendInitial s.minExpires) ∨
            ∃ c, s.current = some c ∧ c.remoteTag.isSome = true ∧
              action = .sendRefresh s.minExpires)) := by
  unfold pollRetry
  split
  case isFalse => exact .inl rfl
  case isTrue hdue =>
    obtain ⟨hretry, hspaced⟩ := Bool.and_eq_true_iff.1 hdue
    split
    case h_1 c hcur =>
      split
      case isTrue hsettle =>
        exact .inr ⟨hretry, hspaced, _, rfl,
          .inr ⟨c, hcur, (Bool.and_eq_true_iff.1 hsettle).2, rfl⟩⟩
      case isFalse => exact .inl rfl
    case h_2 hcur => exact .inr ⟨hretry, hspaced, _, rfl, .inl ⟨hcur, rfl⟩⟩

/-- With nothing in flight, a retry that is due goes out. -/
theorem pollRetry_of_none (hcur : s.current = none) (hretry : s.retryAt.any (· ≤ now) = true)
    (hspaced : s.spaced now = true) :
    s.pollRetry now = ({ s with retryAt := none }, some (.sendInitial s.minExpires)) := by
  simp [pollRetry, hretry, hspaced, hcur]

/-- Whether or not the retry goes out, only the retry is taken. -/
theorem pollRetry_frame (s : RegSubscription) (now : Nat) :
    let t := (s.pollRetry now).1
    t.current = s.current ∧ t.probing = s.probing ∧ t.stopped = s.stopped ∧
      t.lastSentAt = s.lastSentAt ∧ t.superseded = s.superseded := by
  rcases pollRetry_cases s now with heq | ⟨-, -, action, heq, -⟩
  · rw [heq]
    exact ⟨rfl, rfl, rfl, rfl, rfl⟩
  · rw [heq]
    exact ⟨rfl, rfl, rfl, rfl, rfl⟩

/-- A tick has something to give up on. -/
def Subscription.TimerOut (c : Subscription) (now : Nat) : Prop :=
  c.timerFExpired now = true ∨ c.expired now = true ∨ c.timerNExpired now = true

/-- The first timer that is out decides what a tick does; with none out, a refresh may be due. -/
@[elab_as_elim]
theorem pollCurrent_cases
    (unanswered : c.timerFExpired now = true → motive (((s.supersede now).beginProbe
      .subscribeTimeout (some c.callId) now wall force).map id some))
    (expired : c.expired now = true → motive ((s.replaceExpired now wall).pollRetry now))
    (unconfirmed : c.timerNExpired now = true →
      motive ((s.supersede now).fail now wall "accepted but no NOTIFY within 128s" none, none))
    (refreshes : ¬ c.TimerOut now → c.refreshDue now = true → s.retryAt = none →
      s.spaced now = true → motive (s, some (.sendRefresh s.minExpires)))
    (replaced : ¬ c.TimerOut now → s.retryAt = none → s.spaced now = true →
      motive ({ s.supersede now with retryAt := some now }.pollRetry now))
    (waits : ¬ c.TimerOut now → motive (s.pollRetry now)) :
    motive (s.pollCurrent c now wall force) := by
  unfold pollCurrent
  split
  case isTrue htimerF => exact unanswered htimerF
  case isFalse htimerF =>
    split
    case isTrue hexpired => exact expired hexpired
    case isFalse hexpired =>
      split
      case isTrue htimerN => exact unconfirmed htimerN
      case isFalse htimerN =>
        have hquiet : ¬ c.TimerOut now := fun h => h.elim htimerF fun h => h.elim hexpired htimerN
        split
        case isTrue hdue =>
          simp only [Bool.and_eq_true, Option.isNone_iff_eq_none] at hdue
          obtain ⟨⟨⟨-, hdue⟩, hretry⟩, hspaced⟩ := hdue
          split
          · exact refreshes hquiet hdue hretry hspaced
          · exact replaced hquiet hretry hspaced
        case isFalse => exact waits hquiet

/-- A tick drops the current subscription or leaves it as it is. -/
theorem pollCurrent_current (s : RegSubscription) (c : Subscription) (now wall : Nat)
    (force : Bool) : (s.pollCurrent c now wall force).1.current = none ∨
      (s.pollCurrent c now wall force).1.current = s.current := by
  have hdropped := supersede_current (s := s) now
  refine pollCurrent_cases ?unanswered ?expired ?unconfirmed ?refreshes ?replaced ?waits
  case unanswered =>
    intro _
    cases force with
    | true | false => exact .inl hdropped
  case expired => exact fun _ => .inl ((pollRetry_frame _ now).1.trans hdropped)
  case unconfirmed => exact fun _ => .inl hdropped
  case refreshes => exact fun _ _ _ _ => .inr rfl
  case replaced => exact fun _ _ _ => .inl ((pollRetry_frame _ now).1.trans hdropped)
  case waits => exact fun _ => .inr (pollRetry_frame _ now).1

/-- A tick while a probe is out waits for it; otherwise it is the subscription's, unless that has
been stopped. -/
@[elab_as_elim]
theorem poll_cases
    (verdict : ∀ p, s.probing = some p →
      motive ({ s.prune now with probing := none }.scheduleAfterEndpointFailure now wall,
        some (.endpointFailure p.cause p.callId)))
    (probing : s.probing.isSome = true → motive (s.prune now, none))
    (stopped : s.probing = none → s.stopped.isSome = true → motive (s.prune now, none))
    (retries : s.probing = none → s.stopped = none → s.current = none →
      motive ((s.prune now).pollRetry now))
    (ticks : ∀ c, s.probing = none → s.stopped = none → s.current = some c →
      motive ({ s.prune now with current := some (c.closeNotified now) }.pollCurrent
        (c.closeNotified now) now wall force)) :
    motive (s.poll now wall force) := by
  cases hprobe : s.probing with
  | some p =>
    rw [poll_of_probing now wall force hprobe]
    split
    · exact verdict p hprobe
    · exact probing (by simp [hprobe])
  | none =>
    cases hstop : s.stopped with
    | some reason =>
      have hsome : s.stopped.isSome = true := by simp [hstop]
      rw [poll_of_stopped now wall force hprobe hsome]
      exact stopped hprobe hsome
    | none =>
      cases hcur : s.current with
      | none =>
        rw [poll_of_none now wall force hprobe hstop hcur]
        exact retries hprobe hstop hcur
      | some c =>
        rw [poll_of_some now wall force hprobe hstop hcur]
        exact ticks c hprobe hstop hcur

theorem timerFExpired_iff :
    c.timerFExpired now = true ↔ c.notifiedSinceSend = false ∧
      ∃ cseq sentAt kind, c.txn = .pending cseq sentAt kind ∧ sentAt + timerF ≤ now := by
  unfold Subscription.timerFExpired
  split <;> simp [*]

theorem closeNotified_eq (h : c.notifiedSinceSend = false) (now : Nat) :
    c.closeNotified now = c := by
  unfold Subscription.closeNotified
  split
  · simp [h]
  · rfl

theorem closeNotified_frame (c : Subscription) (now : Nat) :
    let c' := c.closeNotified now
    c'.callId = c.callId ∧ c'.localTag = c.localTag ∧ c'.notifiedSinceSend = c.notifiedSinceSend ∧
      c'.expiresAt = c.expiresAt ∧ c'.timerN = c.timerN ∧ c'.confirmed = c.confirmed := by
  unfold Subscription.closeNotified
  split
  · split <;> exact ⟨rfl, rfl, rfl, rfl, rfl, rfl⟩
  · exact ⟨rfl, rfl, rfl, rfl, rfl, rfl⟩

end Ims.RegSubscription
