-- SUMMARY: The `sms` table and its statements.
import GsmSipBridge.Lib.Assoc
import GsmSipBridge.Lib.Bytes

/-!
# The SMS table

One row for each received text. Every function is one statement, which SQLite runs
atomically; what keeps the processes that share the file apart is the condition of each
update. Times are seconds since the epoch.
-/

namespace Store

inductive Transport where
  | cs
  | vowifi
  | volte
  deriving DecidableEq, Repr

namespace Sms

/-- The values of the `forwarding_status` column. -/
inductive ForwardingStatus where
  | pending
  | sent
  | failed
  | abandoned
  | skipped
  deriving DecidableEq, Repr

/-- `forwarding_status IN ('pending','failed')`. -/
def ForwardingStatus.undelivered : ForwardingStatus → Bool
  | pending | failed => true
  | sent | abandoned | skipped => false

structure SmsRecord where
  moduleId : Text
  sender : Text
  body : Text
  receivedAt : Text
  forwardingStatus : ForwardingStatus
  transport : Transport
  retryEligible : Bool

structure Row where
  id : Nat
  moduleId : Text
  sender : Text
  body : Text
  receivedAt : Text
  forwardingStatus : ForwardingStatus
  transport : Transport
  attemptCount : Nat
  lastAttemptAt : Option Int
  firstSeenAt : Int
  claimedUntil : Option Int
  retryEligible : Bool
  forwardedAt : Option Text
  discordStatusCode : Option Int
  lastError : Option Text

def firstAttemptLeaseSecs : Int := 120

def retryLeaseSecs : Int := 120

structure SmsForwardingByTimeUpdate where
  moduleId : Text
  receivedAt : Text
  forwardingStatus : ForwardingStatus
  forwardedAt : Option Text
  discordStatusCode : Option Int
  lastError : Option Text

/-- The lease a row is inserted with. -/
def insertLease (record : SmsRecord) (now : Int) : Option Int :=
  if record.retryEligible then some (now + firstAttemptLeaseSecs) else none

def insertRow (id : Nat) (record : SmsRecord) (now : Int) : Row :=
  let attempted := record.forwardingStatus == .pending
  { id
    moduleId := record.moduleId
    sender := record.sender
    body := record.body
    receivedAt := record.receivedAt
    forwardingStatus := record.forwardingStatus
    transport := record.transport
    attemptCount := if attempted then 1 else 0
    lastAttemptAt := if attempted then some now else none
    firstSeenAt := now
    claimedUntil := insertLease record now
    retryEligible := record.retryEligible
    forwardedAt := none
    discordStatusCode := none
    lastError := none }

def insertSms (rows : List Row) (record : SmsRecord) (now : Int) : List Row :=
  rows ++ [insertRow (rows.length + 1) record now]

/-! ## The first attempt -/

/-- `WHERE module_id = ?5 AND received_at = ?6 AND forwarding_status = 'pending'`. -/
def matchesTime (moduleId receivedAt : Text) (r : Row) : Bool :=
  r.moduleId == moduleId && r.receivedAt == receivedAt && r.forwardingStatus == .pending

def updateSmsForwardingByTime (rows : List Row) (update : SmsForwardingByTimeUpdate) : List Row :=
  Table.update rows (matchesTime update.moduleId update.receivedAt) fun r =>
    { r with
      forwardingStatus := update.forwardingStatus
      forwardedAt := update.forwardedAt
      discordStatusCode := update.discordStatusCode
      lastError := update.lastError
      claimedUntil := none }

/-! ## Retries -/

/-- `claimed_until IS NULL OR claimed_until <= now`. -/
def unleased (now : Int) (r : Row) : Bool :=
  r.claimedUntil.all fun claimedUntil => decide (claimedUntil ≤ now)

/-- Eligible, undelivered and without a lease. -/
def retryable (now : Int) (r : Row) : Bool :=
  r.retryEligible && r.forwardingStatus.undelivered && unleased now r

/-- The rows a sweep works through, oldest first. -/
def candidates (rows : List Row) (now : Int) (limit : Nat) : List Row :=
  (rows.filter (retryable now)).take limit

def claimable (id : Nat) (now : Int) (r : Row) : Bool :=
  r.id == id && retryable now r

/-- The table, and whether the statement changed one row. -/
def claimForRetry (rows : List Row) (id : Nat) (now leaseSecs : Int) : List Row × Bool :=
  (Table.update rows (claimable id now) fun r =>
    { r with
      claimedUntil := some (now + leaseSecs)
      attemptCount := r.attemptCount + 1
      lastAttemptAt := some now },
    rows.countP (claimable id now) == 1)

/-- `WHERE id = ?3 AND forwarding_status != 'sent'`. -/
def unsent (id : Nat) (r : Row) : Bool :=
  r.id == id && r.forwardingStatus != .sent

def markSent (rows : List Row) (id : Nat) (forwardedAt : Text) (code : Int) : List Row :=
  Table.update rows (unsent id) fun r =>
    { r with
      forwardingStatus := .sent
      forwardedAt := some forwardedAt
      discordStatusCode := some code
      lastError := none
      claimedUntil := none }

def markFailed (rows : List Row) (id : Nat) (error : Text) (code : Option Int) : List Row :=
  Table.update rows (fun r => r.id == id && r.forwardingStatus.undelivered) fun r =>
    { r with
      forwardingStatus := .failed
      lastError := some error
      discordStatusCode := code
      claimedUntil := none }

/-- Releases the lease of a row, whoever holds it. -/
def releaseClaim (rows : List Row) (id : Nat) : List Row :=
  Table.update rows (fun r => r.id == id) fun r => { r with claimedUntil := none }

def abandonable (now maxAgeSecs : Int) (r : Row) : Bool :=
  retryable now r && decide (r.firstSeenAt < now - maxAgeSecs)

/-- The table, and how many rows were given up. -/
def abandonExpired (rows : List Row) (now maxAgeSecs : Int) : List Row × Nat :=
  (Table.update rows (abandonable now maxAgeSecs) fun r =>
    { r with forwardingStatus := .abandoned, claimedUntil := none },
    rows.countP (abandonable now maxAgeSecs))

end Sms

end Store
