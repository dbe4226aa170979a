-- SUMMARY: Keeping the registration alive (`ims/agent/mod.rs`, `ims/agent/registration_refresh.rs`).
import GsmSipBridge.Lib.Text

/-!
# The registration

The dispatch loop keeps one registration. A refresh goes out on the live connection and is
driven from the loop's passes; when that is not possible, an idle tick registers anew in
full. The network can take the registration away by a NOTIFY that says when to come back.
Times are in milliseconds: `clock` is the monotonic clock that retries are held on, and the
wall clock dates the binding. Sockets, the SIM, the pool of P-CSCFs and the calls on the
line come with each turn; the reports to the outside are left out.
-/

namespace Ims.Registration

open Text

def retryInitialBackoff : Nat := 5000
def retryMaxBackoff : Nat := 120000
def maxConsecutiveRenewalFailures : Nat := 6
def registrationSettle : Nat := 60000
def rejectionsBeforeFallback : Nat := 2
def transactionTimeout : Nat := 128000
def t1 : Nat := 2000
def t2 : Nat := 16000
def timerF : Nat := 128000
def defaultExpires : Nat := 3600
def maxResyncs : Nat := 2
def workTimeout : Nat := 600000
def retryAfterLimit : Nat := 86400000

def nextBackoff (current max : Nat) : Nat := min (current * 2) max

/-! ## Failures -/

structure RegisterFailure where
  error : Text
  status : Option UInt16 := none
  retryAfter : Option Nat := none
  deriving DecidableEq

inductive FailureClass where
  | noRoute
  | transport
  | timeout
  | peerClosed
  | notPcscf
  deriving DecidableEq

def contains (text part : Text) : Bool := text.tails.any (part.isPrefixOf ·)

def classifyRegisterFailure (error : Text) : FailureClass :=
  let msg := toAsciiLowercase error
  if contains msg "os error 101" || contains msg "os error 113" ||
      contains msg "network is unreachable" || contains msg "no route to host" then
    .noRoute
  else if contains msg "connect to " && contains msg " failed" ||
      contains msg "tcp send failed" || contains msg "udp send failed" then
    .transport
  else if contains msg "timed out waiting for a sip response" then .timeout
  else if contains msg "connection closed by peer" || contains msg "recv failed" then
    .peerClosed
  else .notPcscf

inductive FailureCause where
  | retryAfter (pause : Nat)
  | registerTimeout
  | transport
  deriving DecidableEq

/-- What makes a failure one of the P-CSCF itself. -/
def causeOf (f : RegisterFailure) : Option FailureCause :=
  match f.status with
  | some status =>
    if status = 503 then (f.retryAfter.filter (timerF < ·)).map .retryAfter else none
  | none =>
    match classifyRegisterFailure f.error with
    | .timeout => some .registerTimeout
    | .transport => some .transport
    | .noRoute | .peerClosed | .notPcscf => none

def needsFullRegistration (status : Option UInt16) : Bool :=
  status.any fun s => s == 401 || s == 403 || s == 408 || s == 500 || s == 504

def isRejection (f : RegisterFailure) : Bool := f.status.any (· != 503)

/-! ## The state of the loop -/

inductive Kind where
  | refresh
  | resync
  | answer
  deriving DecidableEq

structure PendingRegister where
  kind : Kind
  requestedExpires : Nat
  deadline : Nat
  retransmitAt : Nat
  retransmitInterval : Nat := t1
  provisional : Bool := false
  intervalRetry : Bool := false
  resyncs : Nat := 0
  deriving DecidableEq

structure Challenged where
  started : Nat
  resyncs : Nat
  requestedExpires : Nat
  deriving DecidableEq

structure LoopState where
  clock : Nat
  expiresAt : Option Nat
  registeredAt : Option Nat
  forceRenewal : Bool := false
  nextRenewalAttempt : Option Nat := none
  backoff : Nat := retryInitialBackoff
  consecutiveRenewalFailures : Nat := 0
  ladderBeforeSuccess : Nat × Nat := (retryInitialBackoff, 0)
  lastRegistered : Nat
  earlyLossCounted : Bool := false
  /-- Until when a `rejected` holds registration off. -/
  rejection : Option Nat := none
  budgetExitOwed : Bool := false
  registrationRefresh : Option PendingRegister := none
  challenged : Option Challenged := none
  refreshRejections : Nat := 0
  refreshFallback : Bool := false
  refreshRepaired : Bool := false
  /-- When a registration procedure was begun by a REGISTER of its own. -/
  starts : List Nat := []
  /-- How many registrations and refreshes have been granted. -/
  registrations : Nat := 0
  exited : Bool := false
  deriving DecidableEq

/-- What the SIM has made of a challenge. -/
inductive SimAnswer where
  | working
  | failed
  | resynchronise
  | authenticated
  deriving DecidableEq

/-- The outside world in one turn. -/
structure Env where
  elapsed : Nat
  wall : Nat
  busy : Bool
  useTcp : Bool
  /-- Whether the session holds credentials to refresh with. -/
  hasAuth : Bool
  /-- Whether a REGISTER goes out, or with what error it does not. -/
  send : Except Text Unit
  clientAlive : Bool
  /-- Whether the Gm connection can be rebuilt. -/
  repair : Bool
  /-- Whether a REGISTER goes out on the connection that was rebuilt. -/
  resend : Except Text Unit
  sim : SimAnswer
  /-- Whether a replacement association can be set up. -/
  stages : Bool
  /-- Whether a confirmed replacement, if there is one, can be switched to. -/
  swaps : Bool
  routed : Bool
  /-- Whether the pool marks the P-CSCF that failed. -/
  marks : Bool
  /-- Whether another P-CSCF is eligible. -/
  nextEligible : Bool
  /-- Whether the keepalive or the subscription asks for a re-registration. -/
  escalates : Bool
  modemFree : Bool
  attached : Bool
  /-- The full registration: the granted lifetime in seconds. -/
  attempt : Except RegisterFailure Nat
  inboundStarts : Bool

/-- What is sent after a repair goes out on the rebuilt connection. -/
def Env.rebuilt (env : Env) : Env := { env with send := env.resend }

inductive DeregEvent where
  | deactivated
  | unregistered
  | probation
  | rejected
  deriving DecidableEq

structure Deregistration where
  event : DeregEvent
  retryAfter : Option Nat
  deriving DecidableEq

/-- The answer to the REGISTER in flight, as far as it is read. -/
structure Answer where
  status : UInt16
  reason : Text := []
  retryAfter : Option Nat := none
  minExpires : Option Nat := none
  wwwAuthenticate : Bool := false
  /-- `granted_lifetime` of a `2xx`. -/
  granted : Except Text Nat

namespace LoopState

variable (st : LoopState) (env : Env)

/-! ## The ladder -/

def countRenewalFailure : LoopState × Bool :=
  ({ st with consecutiveRenewalFailures := st.consecutiveRenewalFailures + 1 },
    maxConsecutiveRenewalFailures ≤ st.consecutiveRenewalFailures + 1)

/-- The next attempt goes on the ladder. The second component says that the budget is spent. -/
def scheduleRenewalRetry : LoopState × Bool :=
  { st with
    nextRenewalAttempt := some (st.clock + st.backoff)
    backoff := nextBackoff st.backoff retryMaxBackoff }.countRenewalFailure

def onRenewalSuccess : LoopState :=
  { st with
    ladderBeforeSuccess := (st.backoff, st.consecutiveRenewalFailures)
    lastRegistered := st.clock
    earlyLossCounted := false
    rejection := none
    backoff := retryInitialBackoff
    consecutiveRenewalFailures := 0
    nextRenewalAttempt := none
    refreshRejections := 0
    refreshFallback := false
    refreshRepaired := false
    registrations := st.registrations + 1 }

/-- Whether the failure of a renewal sends the next attempt to another P-CSCF at once. -/
def failsOver (failure : RegisterFailure) : Bool :=
  (causeOf failure).isSome && env.routed && env.marks && env.nextEligible

def onRenewalFailure (failure : RegisterFailure) : LoopState × Bool :=
  if failsOver env failure then
    { st with nextRenewalAttempt := none, forceRenewal := true }.countRenewalFailure
  else st.scheduleRenewalRetry

/-- An exit that falls into a call is owed until the call ends. -/
def oweWhileBusy (r : LoopState × Bool) : LoopState × Bool :=
  if r.2 && env.busy then ({ r.1 with budgetExitOwed := true }, false) else r

def countLoss : LoopState × Bool := oweWhileBusy env st.scheduleRenewalRetry

/-! ## Deregistration by the network -/

/-- How long a `rejected` holds registration off. -/
def rejectionHold (d : Deregistration) (cooldown : Nat) : Nat :=
  max cooldown (d.retryAfter.getD 0)

/-- The ladder is put back to where it was before the registration that did not last. -/
def restoreLadder : LoopState :=
  { st with
    backoff := st.ladderBeforeSuccess.1
    consecutiveRenewalFailures := st.ladderBeforeSuccess.2 }

def onRejected (d : Deregistration) (cooldown : Nat) : LoopState :=
  { st with
    backoff := retryInitialBackoff
    consecutiveRenewalFailures := 0
    earlyLossCounted := true
    rejection := some (st.clock + rejectionHold d cooldown)
    nextRenewalAttempt := some (st.clock + rejectionHold d cooldown) }

def onDeactivated (early : Bool) : LoopState × Bool :=
  if !early || st.earlyLossCounted then (st, false)
  else
    let st := { st with earlyLossCounted := true }.restoreLadder
    let r := st.countLoss env
    if st.consecutiveRenewalFailures = 0 then ({ r.1 with nextRenewalAttempt := none }, r.2) else r

/-- No attempt before `floor`; a cooldown that is running ends no sooner either. -/
def raiseFloor (floor : Nat) : LoopState :=
  { st with
    nextRenewalAttempt := some (max (st.nextRenewalAttempt.getD 0) floor)
    rejection := st.rejection.map (max · floor) }

def onUnregistered (d : Deregistration) (early : Bool) : LoopState × Bool :=
  let r :=
    if st.earlyLossCounted then (st, false)
    else
      let st := { st with earlyLossCounted := true }
      (if early then st.restoreLadder else st).countLoss env
  match d.retryAfter with
  | some pause => (r.1.raiseFloor (r.1.clock + pause), r.2)
  | none => r

def onNetworkDeregistration (d : Deregistration) (cooldown : Nat) : LoopState × Bool :=
  let st := { st with forceRenewal := true }
  let early := decide (st.clock - st.lastRegistered < registrationSettle)
  match d.event with
  | .rejected => (st.onRejected d cooldown, false)
  | .deactivated => st.onDeactivated env early
  | .unregistered => st.onUnregistered env d early
  | .probation => st.onUnregistered env d early

/-! ## The refresh in place -/

def refreshOffset (granted : Nat) : Nat :=
  max (if 1200000 < granted then granted - 600000 else granted / 2) 60000

def refreshDue (wall : Nat) (registeredAt : Option Nat) (expiresAt : Nat) : Bool :=
  let registeredAt := registeredAt.getD (expiresAt - defaultExpires * 1000)
  registeredAt + refreshOffset (expiresAt - registeredAt) ≤ wall

def inPlaceRefreshPossible : Bool :=
  !(st.forceRenewal || st.refreshFallback || !env.hasAuth) &&
    (!(st.expiresAt.any (· ≤ env.wall)) || env.busy)

/-- `PendingRegister::launch`: a REGISTER of the procedure, if it goes out. -/
def launch (kind : Kind) (resyncs requestedExpires : Nat) : Except Text PendingRegister :=
  env.send.map fun _ =>
    { kind, resyncs, requestedExpires
      deadline := st.clock + transactionTimeout
      retransmitAt := st.clock + t1 }

/-- `PendingRegister::start`: the ordinary refresh. -/
def start : Except Text PendingRegister :=
  if env.hasAuth then st.launch env .refresh 0 defaultExpires
  else .error "IMS error: no cached authorization to refresh the registration with"

/-- A refresh that went out is in flight. -/
def started (pending : PendingRegister) : LoopState :=
  { st with registrationRefresh := some pending, starts := st.starts ++ [st.clock] }

/-- A rejection of the refresh is counted; the second one in a row gives up on refreshing
in place. -/
def countRejection (failure : RegisterFailure) : LoopState :=
  { st with
    refreshRejections := st.refreshRejections + if isRejection failure then 1 else 0
    refreshFallback := st.refreshFallback || isRejection failure &&
      decide (rejectionsBeforeFallback ≤ st.refreshRejections + 1) }

/-- The carrier's own pause is a floor under the ladder, unless another P-CSCF is asked. -/
def honourRetryAfter (failure : RegisterFailure) : LoopState :=
  match failure.retryAfter, st.forceRenewal with
  | some pause, false =>
    { st with
      nextRenewalAttempt := some (max (st.nextRenewalAttempt.getD 0)
        (st.clock + min pause retryAfterLimit)) }
  | _, _ => st

def failRegistrationRefresh (failure : RegisterFailure) : LoopState × Bool :=
  let st := { st with registrationRefresh := none }.countRejection failure
  if needsFullRegistration failure.status then ({ st with forceRenewal := true }, false)
  else
    let r := st.onRenewalFailure env failure
    oweWhileBusy env (r.1.honourRetryAfter failure, r.2)

/-- The procedure cannot continue: a full registration is asked for. -/
def fallBackToFull : LoopState :=
  { st with registrationRefresh := none, challenged := none, forceRenewal := true }

/-- Whether the connection is to be rebuilt for a refresh that it did not carry: once, and
not one that is only silent while it carries a call. -/
def triesRepair (failure : RegisterFailure) : Bool :=
  let silentButOpen := contains failure.error "Timer F" && env.busy && env.clientAlive
  failure.status.isNone && !st.refreshRepaired && !silentButOpen

def refreshNotCarried (failure : RegisterFailure) (step : Kind) : LoopState × Bool :=
  let lost := { st with registrationRefresh := none }
  match step with
  | .resync => (lost.fallBackToFull, false)
  | .answer => (lost.fallBackToFull, false)
  | .refresh =>
    let tried :=
      { lost with refreshRepaired := st.refreshRepaired || st.triesRepair env failure }
    if st.triesRepair env failure && env.repair then
      match tried.start env.rebuilt with
      | .ok pending => (tried.started pending, false)
      | .error e => tried.failRegistrationRefresh env { error := e }
    else tried.failRegistrationRefresh env failure

/-- Retransmission and Timer F. -/
def poll (pending : PendingRegister) : Except Text (Option PendingRegister) :=
  if pending.deadline ≤ st.clock then .ok none
  else if !env.useTcp && decide (pending.retransmitAt ≤ st.clock) then
    let interval := if pending.provisional then t2 else min (pending.retransmitInterval * 2) t2
    env.send.map fun _ =>
      some { pending with retransmitInterval := interval, retransmitAt := st.clock + interval }
  else .ok (some pending)

def timedOut : Text :=
  "IMS error: IMS registration refresh timed out waiting for a SIP response (Timer F)"

def connectionClosed : Text :=
  "IMS error: the Gm client connection was closed by the network"

def zeroLifetime : Text := "IMS error: the registrar granted a zero lifetime"

def driveChallenge (challenged : Challenged) : LoopState :=
  let idle := { st with challenged := none }
  match env.sim with
  | .working => if workTimeout ≤ st.clock - challenged.started then st.fallBackToFull else st
  | .failed => st.fallBackToFull
  | .resynchronise =>
    if maxResyncs ≤ challenged.resyncs then st.fallBackToFull
    else
      match st.launch env .resync (challenged.resyncs + 1) challenged.requestedExpires with
      | .ok pending => { idle with registrationRefresh := some pending }
      | .error _ => st.fallBackToFull
  | .authenticated =>
    if !env.stages then st.fallBackToFull
    else
      match st.launch env .answer challenged.resyncs challenged.requestedExpires with
      | .ok pending => { idle with registrationRefresh := some pending }
      | .error _ => st.fallBackToFull

/-- A refresh that has fallen due goes out. -/
def startDueRefresh : LoopState × Bool :=
  match st.expiresAt with
  | none => (st, false)
  | some expiry =>
    if !refreshDue env.wall st.registeredAt expiry || !st.inPlaceRefreshPossible env ||
        st.nextRenewalAttempt.any (st.clock < ·) then (st, false)
    else if !env.clientAlive then st.refreshNotCarried env { error := connectionClosed } .refresh
    else
      match st.start env with
      | .ok pending => (st.started pending, false)
      | .error e => st.refreshNotCarried env { error := e } .refresh

def driveRegistrationRefresh : LoopState × Bool :=
  match st.challenged with
  | some challenged => (st.driveChallenge env challenged, false)
  | none =>
    match st.registrationRefresh with
    | none => st.startDueRefresh env
    | some pending =>
      match st.poll env pending with
      | .ok (some pending) => ({ st with registrationRefresh := some pending }, false)
      | .ok none => st.refreshNotCarried env { error := timedOut } pending.kind
      | .error e => st.refreshNotCarried env { error := e } pending.kind

/-! ## Answers -/

def confirmRegistrationRefresh (pending : PendingRegister) (answer : Answer) : LoopState × Bool :=
  match answer.granted with
  | .error e => st.failRegistrationRefresh env { error := e }
  | .ok 0 =>
    let r := { st with expiresAt := some env.wall }.failRegistrationRefresh env
      { error := zeroLifetime }
    if r.2 then r else ({ r.1 with forceRenewal := true }, false)
  | .ok granted =>
    let unswitched := decide (pending.kind = .answer) && !env.swaps
    ({ st with
        registeredAt := some env.wall
        expiresAt := some (env.wall + granted * 1000)
        forceRenewal := st.forceRenewal || unswitched }.onRenewalSuccess, false)

def beginChallenge (pending : PendingRegister) (answer : Answer) : LoopState :=
  let challenged : Challenged :=
    { started := st.clock
      resyncs := pending.resyncs
      requestedExpires := pending.requestedExpires }
  if answer.wwwAuthenticate then { st with challenged := some challenged } else st.fallBackToFull

def rejectedBy (answer : Answer) : RegisterFailure :=
  { error := "IMS error: registration refresh rejected: " ++
      Numeral.display answer.status.toNat ++ ' ' :: answer.reason
    status := some answer.status
    retryAfter := answer.retryAfter }

/-- A `423` is retried once with the interval that the network asks for; otherwise the
failure is reported. -/
def retryMinExpires (pending : PendingRegister) (answer : Answer) :
    Except RegisterFailure PendingRegister :=
  match answer.minExpires with
  | none => .error (rejectedBy answer)
  | some minimum =>
    if pending.intervalRetry || decide (minimum ≤ pending.requestedExpires) then
      .error (rejectedBy answer)
    else
      match env.send with
      | .error e => .error { error := e }
      | .ok () => .ok
          { pending with
            intervalRetry := true
            requestedExpires := minimum
            deadline := st.clock + transactionTimeout
            retransmitAt := st.clock + t1
            retransmitInterval := t1
            provisional := false }

/-- The answer to the REGISTER in flight; one that does not match it is not handed over. -/
def handleRegistrationAnswer (answer : Answer) : LoopState × Bool :=
  match st.registrationRefresh with
  | none => (st, false)
  | some pending =>
    let taken := { st with registrationRefresh := none }
    if answer.status < 200 then
      ({ st with registrationRefresh := some { pending with provisional := true } }, false)
    else if answer.status < 300 then taken.confirmRegistrationRefresh env pending answer
    else if answer.status = 401 ∧ pending.kind ≠ .answer then
      (taken.beginChallenge pending answer, false)
    else if answer.status = 423 then
      match taken.retryMinExpires env pending answer with
      | .ok pending => ({ taken with registrationRefresh := some pending }, false)
      | .error failure => taken.failRegistrationRefresh env failure
    else taken.failRegistrationRefresh env (rejectedBy answer)

/-! ## The idle tick -/

/-- The full registration, once nothing holds it back. -/
def renew : LoopState × Bool :=
  let st := { st with rejection := none }
  if !env.modemFree then st.scheduleRenewalRetry
  else if !env.attached then st.scheduleRenewalRetry
  else
    let st := { st with starts := st.starts ++ [st.clock] }
    match env.attempt with
    | .error failure => st.onRenewalFailure env failure
    | .ok granted =>
      if !env.inboundStarts then (st, true)
      else
        ({ st.onRenewalSuccess with
            registeredAt := some env.wall
            expiresAt := some (env.wall + granted * 1000)
            forceRenewal := false }, false)

def onIdleTick : LoopState × Bool :=
  if !env.busy && st.budgetExitOwed then ({ st with budgetExitOwed := false }, true)
  else
    let st := { st with forceRenewal := st.forceRenewal || env.escalates }
    let due := st.expiresAt.any (refreshDue env.wall st.registeredAt ·)
    if !due && !st.forceRenewal then (st, false)
    else if st.inPlaceRefreshPossible env then (st, false)
    else if env.busy then (st, false)
    else
      let st := { st with registrationRefresh := none, challenged := none }
      if st.nextRenewalAttempt.any (st.clock < ·) then (st, false) else st.renew env

end LoopState

/-! ## Runs -/

inductive Event where
  | notify (d : Deregistration) (cooldown : Nat)
  | drive
  | answer (answer : Answer)
  | idle

/-- The state in which the turn is handled. -/
def LoopState.advance (st : LoopState) (env : Env) : LoopState :=
  { st with clock := st.clock + env.elapsed }

def LoopState.handle (st : LoopState) (env : Env) : Event → LoopState × Bool
  | .notify d cooldown => st.onNetworkDeregistration env d cooldown
  | .drive => st.driveRegistrationRefresh env
  | .answer answer => st.handleRegistrationAnswer env answer
  | .idle => st.onIdleTick env

/-- One turn; an error ends the process. -/
def step (st : LoopState) (turn : Env × Event) : LoopState :=
  if st.exited then st
  else
    let r := (st.advance turn.1).handle turn.1 turn.2
    { r.1 with exited := r.2 }

namespace Sample

/-- A turn in which everything outside works. -/
def env (elapsed wall : Nat) : Env where
  elapsed
  wall
  busy := false
  useTcp := true
  hasAuth := true
  send := .ok ()
  clientAlive := true
  repair := true
  resend := .ok ()
  sim := .working
  stages := true
  swaps := true
  routed := true
  marks := true
  nextEligible := false
  escalates := false
  modemFree := true
  attached := true
  attempt := .ok 3600
  inboundStarts := true

/-- A binding of an hour, granted when the clocks started. -/
def registered : LoopState where
  clock := 0
  expiresAt := some 3600000
  registeredAt := some 0
  lastRegistered := 0

def answer (status : UInt16) : Answer where
  status
  granted := .error []

end Sample

end Ims.Registration
