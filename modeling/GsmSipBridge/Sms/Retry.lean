-- SUMMARY: The processes that post texts and retry them, and when leases keep posts apart.
import GsmSipBridge.Lib.Trace
import GsmSipBridge.Store.Sms

/-!
# Posting and retrying texts

`record_and_forward` inserts a text, posts it and records the outcome by the text's
module and time. `sweep_excluding` lists what is undelivered, claims one row after
the other, posts it and records the outcome by the row's number. The daemon and the
agents do this in processes of their own; between two statements of one of them
anything may happen. A process reads the clock some time before the statement that
uses the time.
-/

namespace Sms.Retry

open Store Store.Sms

/-- What a text is stored as: without a forwarder nobody will attempt it. A forwarder is
given by its `retry_enabled`. -/
def recordOf (forwarder : Option Bool) (moduleId sender body receivedAt : Text)
    (transport : Transport) : SmsRecord where
  moduleId := moduleId
  sender := sender
  body := body
  receivedAt := receivedAt
  forwardingStatus := if forwarder.isSome then .pending else .skipped
  transport := transport
  retryEligible := forwarder.getD false

/-- The result of a post: the status it was accepted with, or the category of the failure. -/
inductive Outcome where
  | accepted (code : Int)
  | refused (category : Text) (code : Option Int)

/-- An attempt to post one row: its first, or a sweep's with the candidates left after it. -/
inductive Attempt where
  | first (id : Nat) (moduleId receivedAt : Text) (lease : Option Int)
  | retry (id : Nat) (lease : Int) (left : List Nat)

/-- The row an attempt is about. -/
def Attempt.id : Attempt → Nat
  | first id _ _ _ | retry id _ _ => id

/-- The lease an attempt runs under; a text that is never retried has none. -/
def Attempt.lease : Attempt → Option Int
  | first _ _ _ lease => lease
  | retry _ lease _ => some lease

/-- What the first attempt records. -/
def firstUpdate (moduleId receivedAt forwardedAt : Text) : Outcome → SmsForwardingByTimeUpdate
  | .accepted code =>
    { moduleId, receivedAt, forwardingStatus := .sent, forwardedAt := some forwardedAt
      discordStatusCode := some code, lastError := none }
  | .refused category code =>
    { moduleId, receivedAt, forwardingStatus := .failed, forwardedAt := some forwardedAt
      discordStatusCode := code, lastError := some category }

/-- What a retry records. -/
def retryUpdate (rows : List Row) (id : Nat) (forwardedAt : Text) : Outcome → List Row
  | .accepted code => markSent rows id forwardedAt code
  | .refused category code => markFailed rows id category code

def sweepBatch : Nat := 50

/-- The candidates of a sweep that leaves alone the text just attempted. -/
def sweepList (rows : List Row) (now : Int) (justAttempted : Option (Text × Text)) : List Nat :=
  ((candidates rows now sweepBatch).filter fun r =>
    justAttempted != some (r.moduleId, r.receivedAt)).map Row.id

/-! ## Processes -/

structure World where
  clock : Int
  rows : List Row

/-- What an observer can see of a row: a post starts, a post succeeds, the row becomes `sent`. -/
inductive Event where
  | started (id : Nat)
  | succeeded (id : Nat)
  | sent (id : Nat)
  deriving DecidableEq

/-- The rows an update of those that match turns into `sent` ones. -/
def sentBy (rows : List Row) (p : Row → Bool) : List Event :=
  (rows.filter p).map fun r => .sent r.id

def Outcome.firstEvents (rows : List Row) (moduleId receivedAt : Text) : Outcome → List Event
  | accepted _ => sentBy rows (matchesTime moduleId receivedAt)
  | refused _ _ => []

def Outcome.retryEvents (rows : List Row) (id : Nat) : Outcome → List Event
  | accepted _ => sentBy rows (unsent id)
  | refused _ _ => []

def Outcome.events (id : Nat) : Outcome → List Event
  | accepted _ => [.succeeded id]
  | refused _ _ => []

/-- Where a process stands between two statements. -/
inductive Process where
  | idle
  /-- Inserted or claimed; the post is next. -/
  | ready (attempt : Attempt)
  /-- The post is in flight. -/
  | posting (attempt : Attempt)
  /-- The post has ended; its outcome is to be recorded. -/
  | posted (attempt : Attempt) (outcome : Outcome)
  /-- No outcome could be recorded: the lease guard releases the row. -/
  | releasing (attempt : Attempt)
  /-- A sweep before `abandon_expired`, with the time it read. -/
  | scanning (justAttempted : Option (Text × Text)) (now : Int)
  /-- A sweep before `candidates`. -/
  | listing (justAttempted : Option (Text × Text)) (now : Int)
  /-- A sweep between two candidates. -/
  | sweeping (left : List Nat)
  /-- A sweep before the `abandon_expired` of one candidate, with a new time. -/
  | aging (id : Nat) (now : Int) (left : List Nat)
  /-- A sweep before `claim_for_retry`. -/
  | claiming (id : Nat) (now : Int) (left : List Nat)

/-- The attempt a process is making. -/
def Process.attempt : Process → Option Attempt
  | ready a | posting a | posted a _ | releasing a => some a
  | idle | scanning _ _ | listing _ _ | sweeping _ | aging _ _ _ | claiming _ _ _ => none

/-- The lease of an attempt has not run out. -/
def Attempt.Unexpired (a : Attempt) (clock : Int) : Prop :=
  ∀ lease, a.lease = some lease → clock < lease

instance (a : Attempt) (clock : Int) : Decidable (a.Unexpired clock) :=
  inferInstanceAs (Decidable (∀ lease ∈ a.lease, clock < lease))

/-- No other text that waits for its first outcome has this one's module and time. -/
def Separate (rows : List Row) (id : Nat) (moduleId receivedAt : Text) : Prop :=
  ∀ r ∈ rows, matchesTime moduleId receivedAt r = true → r.id = id

instance (rows : List Row) (id : Nat) (moduleId receivedAt : Text) :
    Decidable (Separate rows id moduleId receivedAt) :=
  inferInstanceAs (Decidable (∀ r ∈ rows, matchesTime moduleId receivedAt r = true → r.id = id))

/-- What may be asked of the runs besides what the source makes sure of. -/
structure Discipline where
  /-- A first attempt records its outcome only while no other text shares module and time. -/
  separate : Bool
  /-- An outcome is recorded, and a lease released, before the lease runs out. -/
  timely : Bool

open Process

/-- One step of a process: at most one statement. -/
inductive Step (c : Discipline) (maxAgeSecs : Int) :
    World → Process → World → Process → List Event → Prop
  | tick {w} {p} (secs : Nat) : Step c maxAgeSecs w p { w with clock := w.clock + secs } p []
  -- record_and_forward
  | insert {w} (retryEnabled moduleId sender body receivedAt transport) {now}
      (hnow : now ≤ w.clock) {record : SmsRecord}
      (hrecord : record = recordOf (some retryEnabled) moduleId sender body receivedAt transport) :
      Step c maxAgeSecs w idle { w with rows := insertSms w.rows record now }
        (ready (.first (w.rows.length + 1) moduleId receivedAt (insertLease record now))) []
  | insertSkipped {w} (moduleId sender body receivedAt transport) {now} (hnow : now ≤ w.clock)
      {record : SmsRecord}
      (hrecord : record = recordOf none moduleId sender body receivedAt transport) :
      Step c maxAgeSecs w idle { w with rows := insertSms w.rows record now } idle []
  | firstOutcome {w} {id moduleId receivedAt lease} {outcome} (forwardedAt)
      (hseparate : c.separate = true → Separate w.rows id moduleId receivedAt)
      (htimely : c.timely = true →
        (Attempt.first id moduleId receivedAt lease).Unexpired w.clock) :
      Step c maxAgeSecs w (posted (.first id moduleId receivedAt lease) outcome)
        { w with
          rows := updateSmsForwardingByTime w.rows
            (firstUpdate moduleId receivedAt forwardedAt outcome) }
        idle (outcome.firstEvents w.rows moduleId receivedAt)
  -- the post
  | start {w} {a} : Step c maxAgeSecs w (ready a) w (posting a) [.started a.id]
  | finish {w} {a} (outcome : Outcome) :
      Step c maxAgeSecs w (posting a) w (posted a outcome) (outcome.events a.id)
  -- sweep_excluding
  | sweep {w} (justAttempted) :
      Step c maxAgeSecs w idle w (scanning justAttempted w.clock) []
  | abandon {w} {justAttempted now} : Step c maxAgeSecs w (scanning justAttempted now)
      { w with rows := (abandonExpired w.rows now maxAgeSecs).1 } (listing justAttempted now) []
  | list {w} {justAttempted now} : Step c maxAgeSecs w (listing justAttempted now) w
      (sweeping (sweepList w.rows now justAttempted)) []
  | next {w} {id left} :
      Step c maxAgeSecs w (sweeping (id :: left)) w (aging id w.clock left) []
  | age {w} {id now left} : Step c maxAgeSecs w (aging id now left)
      { w with rows := (abandonExpired w.rows now maxAgeSecs).1 } (claiming id now left) []
  | claim {w} {id now left}
      (hclaimed : (claimForRetry w.rows id now retryLeaseSecs).2 = true) :
      Step c maxAgeSecs w (claiming id now left)
        { w with rows := (claimForRetry w.rows id now retryLeaseSecs).1 }
        (ready (.retry id (now + retryLeaseSecs) left)) []
  | notClaimed {w} {id now left}
      (hclaimed : (claimForRetry w.rows id now retryLeaseSecs).2 = false) :
      Step c maxAgeSecs w (claiming id now left)
        { w with rows := (claimForRetry w.rows id now retryLeaseSecs).1 } (sweeping left) []
  | retryOutcome {w} {id lease left} {outcome} (forwardedAt)
      (htimely : c.timely = true → (Attempt.retry id lease left).Unexpired w.clock) :
      Step c maxAgeSecs w (posted (.retry id lease left) outcome)
        { w with rows := retryUpdate w.rows id forwardedAt outcome } (sweeping left)
        (outcome.retryEvents w.rows id)
  | release {w} {id lease left}
      (htimely : c.timely = true → (Attempt.retry id lease left).Unexpired w.clock) :
      Step c maxAgeSecs w (releasing (.retry id lease left))
        { w with rows := releaseClaim w.rows id } (sweeping left) []
  -- a statement that fails, a task that is cancelled
  | unstored {w} {id lease left} {outcome} : Step c maxAgeSecs w
      (posted (.retry id lease left) outcome) w (releasing (.retry id lease left)) []
  | cancelled {w} {id lease left} : Step c maxAgeSecs w (posting (.retry id lease left)) w
      (releasing (.retry id lease left)) []
  /-- A first attempt's task has no guard; a process may stop anywhere. -/
  | stop {w} {p} : Step c maxAgeSecs w p w idle []
  | claimFailed {w} {id now left} :
      Step c maxAgeSecs w (claiming id now left) w (sweeping left) []
  | ageFailed {w} {id now left} : Step c maxAgeSecs w (aging id now left) w (sweeping left) []

/-- Every post ends before the lease under which it runs. -/
def Punctual (w : World) : Process → Prop
  | posting a => a.Unexpired w.clock
  | _ => True

instance (w : World) (p : Process) : Decidable (Punctual w p) :=
  match p with
  | posting a => inferInstanceAs (Decidable (a.Unexpired w.clock))
  | idle | ready _ | posted _ _ | releasing _ | scanning _ _ | listing _ _ | sweeping _
  | aging _ _ _ | claiming _ _ _ => .isTrue trivial

/-- `n` processes that share a table, from the empty table on, after some steps. -/
abbrev Reachable (c : Discipline) (maxAgeSecs clock : Int) (n : Nat) :
    World → List Process → List Event → Prop :=
  Interleave.Reachable (Step c maxAgeSecs) Punctual ⟨clock, []⟩ (List.replicate n idle)

/-! ## The lease protocol

A row is posted under a lease, and no claim takes a row whose lease runs. Recording an
outcome and releasing a lease do not ask who holds the row, and the first attempt's
outcome goes to every pending row of the text's module and time. So the protocol is
safe for the runs in which these statements cannot hit a row that someone else holds,
and each of the two ways they can is a run that is not. -/

open Event List

variable {w w' : World} {p p' : Process} {a b : Attempt} {history : List Event} {clock now : Int}
  {r : Row} {q : Process} {id : Nat} {rows : List Row}

/-- What an event requires of the past: no post of a row starts once it is `sent`, and a
row becomes `sent` after a post of that very row succeeded. -/
def Fit (pre : List Event) : Event → Prop
  | .started id => .sent id ∉ pre
  | .succeeded _ => True
  | .sent id => .succeeded id ∈ pre

/-- The rows that are `sent` are those that ever became so. -/
def Recorded (w : World) (history : List Event) : Prop :=
  ∀ id, .sent id ∈ history ↔ ∃ r ∈ w.rows, r.id = id ∧ r.forwardingStatus = .sent

/-- What the leases are for. -/
structure Safe (w : World) (processes : List Process) (history : List Event) : Prop where
  /-- At most one post of a row is in flight. -/
  alone : ∀ (i j : Nat) a b, i ≠ j → processes[i]? = some (posting a) →
    processes[j]? = some (posting b) → a.id ≠ b.id
  /-- No post of a row starts after the row became `sent`. -/
  notAfterSent : ∀ pre id post, history = pre ++ .started id :: post → .sent id ∉ pre
  /-- A row that became `sent` is so for good. -/
  recorded : Recorded w history
  /-- A row becomes `sent` only after a post of that very row succeeded. -/
  earned : ∀ pre id post, history = pre ++ .sent id :: post → .succeeded id ∈ pre

/-! ### Rows under a lease -/

/-- A row while the lease of an attempt on it runs. -/
structure Kept (a : Attempt) (r : Row) : Prop where
  lease : r.claimedUntil = a.lease
  ineligible : a.lease = none → r.retryEligible = false
  undelivered : r.forwardingStatus.undelivered = true

/-- The row of an attempt is there, and kept while its lease runs. -/
def Held (w : World) (a : Attempt) : Prop :=
  ∃ r ∈ w.rows, r.id = a.id ∧ (a.Unexpired w.clock → Kept a r)

theorem Attempt.Unexpired.mono {clock' : Int} (h : a.Unexpired clock') (hle : clock ≤ clock') :
    a.Unexpired clock := fun lease hlease => Int.lt_of_le_of_lt hle (h lease hlease)

/-- No sweep takes a row whose lease runs. -/
theorem Kept.not_retryable (h : Kept a r) (ha : a.Unexpired clock) (hnow : now ≤ clock) :
    retryable now r ≠ true := by
  intro hretry
  obtain ⟨helig, hunleased⟩ := Bool.and_eq_true_iff.mp hretry
  cases hlease : a.lease with
  | none =>
    rw [h.ineligible hlease] at helig
    exact Bool.false_ne_true helig
  | some lease =>
    rw [unleased, h.lease, hlease] at hunleased
    exact absurd (Int.le_trans (of_decide_eq_true hunleased) hnow) (Int.not_le.mpr (ha lease hlease))

theorem exists_claimable {leaseSecs : Int} (h : (claimForRetry rows id now leaseSecs).2 = true) :
    ∃ r ∈ rows, claimable id now r = true := by
  have hone : rows.countP (claimable id now) = 1 := eq_of_beq h
  exact countP_pos_iff.mp (hone ▸ Nat.one_pos)

/-- The rows a process may change: the one it holds, and those without a running lease. -/
def Touches (w : World) (p : Process) (r : Row) : Prop :=
  (∃ a, p.attempt = some a ∧ r.id = a.id ∧ a.Unexpired w.clock) ∨
    ∃ now ≤ w.clock, retryable now r = true

/-- What a step of a process does to the clock and the table. -/
inductive Effect (w : World) (p : Process) : World → Prop
  | same : Effect w p w
  | tick (secs : Nat) : Effect w p { w with clock := w.clock + secs }
  | insert (r : Row) (hid : r.id = w.rows.length + 1) :
      Effect w p { w with rows := w.rows ++ [r] }
  | update (P : Row → Bool) (f : Row → Row) (hid : ∀ r, (f r).id = r.id)
      (htouches : ∀ r ∈ w.rows, P r = true → Touches w p r) :
      Effect w p { w with rows := Table.update w.rows P f }

/-- Two processes do not attempt one row under leases that both run. -/
def Apart (w : World) (p q : Process) : Prop :=
  ∀ a b, p.attempt = some a → q.attempt = some b → a.id = b.id → a.Unexpired w.clock →
    ¬ b.Unexpired w.clock

theorem Apart.symm (h : Apart w p q) : Apart w q p :=
  fun b a hb ha hid hrunb hruna => h a b ha hb hid.symm hruna hrunb

theorem Apart.mono (h : Apart w p q) (hle : w.clock ≤ w'.clock) : Apart w' p q :=
  fun a b ha hb hid hruna hrunb => h a b ha hb hid (hruna.mono hle) (hrunb.mono hle)

/-- What others do leaves an attempt its row. -/
theorem Held.effect (h : Held w b) (heffect : Effect w p w')
    (hapart : ∀ a, p.attempt = some a → a.id = b.id → a.Unexpired w.clock →
      ¬ b.Unexpired w.clock) : Held w' b := by
  obtain ⟨r, hr, hid, hkept⟩ := h
  cases heffect with
  | same => exact ⟨r, hr, hid, hkept⟩
  | tick secs =>
    have hle : w.clock ≤ w.clock + secs := Int.le_add_of_nonneg_right (Int.natCast_nonneg secs)
    exact ⟨r, hr, hid, fun hrun => hkept (hrun.mono hle)⟩
  | insert r' _ => exact ⟨r, mem_append_left _ hr, hid, hkept⟩
  | update P f hids htouches =>
    cases hP : P r with
    | false => exact ⟨r, Table.mem_update_of_spared hr hP, hid, hkept⟩
    | true =>
      refine ⟨f r, Table.mem_update_of_match hr hP, (hids r).trans hid, fun hrun => ?_⟩
      exfalso
      cases htouches r hr hP with
      | inl hown =>
        obtain ⟨a, ha, hra, hruna⟩ := hown
        exact hapart a ha (hra.symm.trans hid) hruna hrun
      | inr hfree =>
        obtain ⟨now, hnow, hretry⟩ := hfree
        exact (hkept hrun).not_retryable hrun hnow hretry

/-! ### What a process knows -/

def Knows (w : World) (history : List Event) : Process → Prop
  | idle | sweeping _ => True
  | scanning _ now | listing _ now | aging _ now _ | claiming _ now _ => now ≤ w.clock
  | ready a | posting a | releasing a => Held w a
  | posted a outcome => Held w a ∧ ∀ e ∈ outcome.events a.id, e ∈ history

theorem Knows.held (h : Knows w history p) (ha : p.attempt = some a) : Held w a := by
  cases p with
  | ready _ | posting _ | releasing _ =>
    cases ha
    exact h
  | posted _ _ =>
    cases ha
    exact h.1
  | idle | scanning _ _ | listing _ _ | sweeping _ | aging _ _ _ | claiming _ _ _ => cases ha

/-- What a process knows survives as long as its row does. -/
theorem Knows.mono (h : Knows w history p) (es : List Event) (hle : w.clock ≤ w'.clock)
    (hheld : ∀ a, p.attempt = some a → Held w' a) : Knows w' (history ++ es) p := by
  cases p with
  | idle | sweeping _ => trivial
  | scanning _ _ | listing _ _ | aging _ _ _ | claiming _ _ _ => exact Int.le_trans h hle
  | ready _ | posting _ | releasing _ => exact hheld _ rfl
  | posted a outcome => exact ⟨hheld _ rfl, fun e he => mem_append_left _ (h.2 e he)⟩

/-! ### What a step does -/

/-- The runs in which outcomes land within the lease and on the row they are about. -/
abbrev strict : Discipline := ⟨true, true⟩

variable {maxAgeSecs : Int} {es : List Event} {P : Row → Bool} {e : Event} {f : Row → Row}

theorem Touches.own (ha : p.attempt = some a) (hrun : a.Unexpired w.clock) (hid : r.id = a.id) :
    Touches w p r := .inl ⟨a, ha, hid, hrun⟩

theorem step_effect (hknows : Knows w history p) (hstep : Step strict maxAgeSecs w p w' p' es) :
    Effect w p w' := by
  cases hstep with
  | tick secs => exact .tick secs
  | insert | insertSkipped => exact .insert _ rfl
  | start | finish | sweep | list | next | unstored | cancelled | stop | claimFailed
  | ageFailed => exact .same
  | @firstOutcome _ _ _ _ outcome _ hsep htimely =>
    cases outcome with
    | accepted _ | refused _ _ =>
      exact .update _ _ (fun _ => rfl) fun r hr hmatch =>
        .own rfl (htimely rfl) (hsep rfl r hr hmatch)
  | abandon | age =>
    refine .update _ _ (fun _ => rfl) fun r _ hmatch => .inr ⟨_, hknows, ?_⟩
    exact (Bool.and_eq_true_iff.mp hmatch).1
  | claim | notClaimed =>
    refine .update _ _ (fun _ => rfl) fun r _ hmatch => .inr ⟨_, hknows, ?_⟩
    exact (Bool.and_eq_true_iff.mp hmatch).2
  | @retryOutcome _ _ _ outcome _ htimely =>
    cases outcome with
    | accepted _ | refused _ _ =>
      refine .update _ _ (fun _ => rfl) fun r _ hmatch => .own rfl (htimely rfl) ?_
      exact eq_of_beq (Bool.and_eq_true_iff.mp hmatch).1
  | release htimely =>
    exact .update _ _ (fun _ => rfl) fun r _ hmatch => .own rfl (htimely rfl) (eq_of_beq hmatch)

theorem step_clock_le {c : Discipline} (hstep : Step c maxAgeSecs w p w' p' es) :
    w.clock ≤ w'.clock := by
  cases hstep with
  | tick secs => exact Int.le_add_of_nonneg_right (Int.natCast_nonneg secs)
  | _ => exact Int.le_refl _

/-- The attempt of a process after a step is the one before it, or one whose row nobody
holds. -/
theorem step_attempt (hnum : Table.Numbered Row.id w.rows) (hknows : Knows w history p)
    (hstep : Step strict maxAgeSecs w p w' p' es) (ha : p'.attempt = some a) :
    p.attempt = some a ∨ ∀ b, Held w b → a.id = b.id → ¬ b.Unexpired w.clock := by
  cases hstep with
  | tick | start | finish | unstored | cancelled => exact .inl ha
  | insertSkipped | firstOutcome | sweep | abandon | list | next | age | notClaimed
  | retryOutcome | release | stop | claimFailed | ageFailed => cases ha
  | insert =>
    cases ha
    refine .inr fun b hheld hid => ?_
    obtain ⟨r, hr, hrb, -⟩ := hheld
    have hle := hnum.le_length hr
    have hnew : r.id = w.rows.length + 1 := hrb.trans hid.symm
    omega
  | claim hclaim =>
    cases ha
    refine .inr fun b hheld hid hrun => ?_
    obtain ⟨r, hr, hclaimable⟩ := exists_claimable hclaim
    obtain ⟨r', hr', hrb, hkept⟩ := hheld
    obtain ⟨hrid, hretry⟩ := Bool.and_eq_true_iff.mp hclaimable
    have hsame := hnum.unique hr hr' ((eq_of_beq hrid).trans (hid.trans hrb.symm))
    exact (hkept hrun).not_retryable hrun hknows (hsame ▸ hretry)

theorem Apart.step (hnum : Table.Numbered Row.id w.rows) (hknows : Knows w history p)
    (hknows' : Knows w history q) (hapart : Apart w p q)
    (hstep : Step strict maxAgeSecs w p w' p' es) : Apart w' p' q := by
  intro a b ha hb hid hruna hrunb
  have hle := step_clock_le hstep
  cases step_attempt hnum hknows hstep ha with
  | inl hsame => exact hapart a b hsame hb hid (hruna.mono hle) (hrunb.mono hle)
  | inr hfree => exact hfree b (hknows'.held hb) hid (hrunb.mono hle)

/-! ### The table and the history -/

/-- What every step keeps of the table and the history. -/
structure Shared (w : World) (history : List Event) : Prop where
  numbered : Table.Numbered Row.id w.rows
  recorded : Recorded w history
  fits : Interleave.Fits Fit history

section

variable (h : Shared w history)

include h

theorem Shared.silent (hrows : w'.rows = w.rows) : Shared w' (history ++ []) := by
  rw [append_nil]
  refine ⟨hrows ▸ h.numbered, fun id => ?_, h.fits⟩
  rw [hrows]
  exact h.recorded id

/-- An event that is not about a row becoming `sent`. -/
theorem Shared.emit (he : ∀ id, e ≠ .sent id) (hfit : Fit history e) :
    Shared w (history ++ [e]) := by
  refine ⟨h.numbered, fun id => ?_, h.fits.concat hfit⟩
  rw [← h.recorded id, mem_append, mem_singleton]
  exact or_iff_left fun heq => he id heq.symm

theorem Shared.insert (hid : r.id = w.rows.length + 1) (hstatus : r.forwardingStatus ≠ .sent) :
    Shared { w with rows := w.rows ++ [r] } (history ++ []) := by
  rw [append_nil]
  refine ⟨h.numbered.insert hid, fun id => ?_, h.fits⟩
  rw [h.recorded id]
  simp [or_and_right, exists_or, hstatus]

/-- A statement after which the same rows are `sent`. -/
theorem Shared.quiet (hid : ∀ r, (f r).id = r.id)
    (hstatus : ∀ r, P r = true → ((f r).forwardingStatus = .sent ↔ r.forwardingStatus = .sent)) :
    Shared { w with rows := Table.update w.rows P f } (history ++ []) := by
  rw [append_nil]
  refine ⟨h.numbered.update hid, fun id => ?_, h.fits⟩
  rw [h.recorded id, Table.exists_update_iff]
  refine exists_congr fun r => and_congr_right fun _ => ?_
  split
  case isTrue hP => rw [hid, hstatus r hP]
  case isFalse => rfl

end

theorem mem_sentBy : e ∈ sentBy rows P ↔ ∃ r ∈ rows, P r = true ∧ e = .sent r.id := by
  unfold sentBy
  rw [mem_map]
  constructor
  · rintro ⟨r, hr, rfl⟩
    obtain ⟨hmem, hP⟩ := mem_filter.mp hr
    exact ⟨r, hmem, hP, rfl⟩
  · rintro ⟨r, hr, hP, rfl⟩
    exact ⟨r, mem_filter.mpr ⟨hr, hP⟩, rfl⟩

/-- A statement that turns the rows it matches into `sent` ones. -/
theorem Shared.sent (h : Shared w history) (hid : ∀ r, (f r).id = r.id)
    (hsent : ∀ r, (f r).forwardingStatus = .sent)
    (hearned : ∀ r ∈ w.rows, P r = true → .succeeded r.id ∈ history) :
    Shared { w with rows := Table.update w.rows P f } (history ++ sentBy w.rows P) := by
  refine ⟨h.numbered.update hid, fun id => ?_, h.fits.append fun pre e post heq => ?_⟩
  · rw [mem_append, h.recorded id, mem_sentBy, Table.exists_update_iff, ← exists_or]
    refine exists_congr fun r => ?_
    split
    case isTrue hP => grind
    case isFalse hP => simp [hP]
  · have hmem : e ∈ sentBy w.rows P := heq ▸ mem_append_right _ mem_cons_self
    obtain ⟨r, hr, hP, rfl⟩ := mem_sentBy.mp hmem
    exact mem_append_left _ (hearned r hr hP)

theorem undelivered_ne_sent {status : ForwardingStatus} (h : status.undelivered = true) :
    status ≠ .sent := by
  intro heq
  rw [heq] at h
  exact Bool.false_ne_true h

/-- An undelivered row that gets a status other than `sent`. -/
theorem sent_iff_of_undelivered {before after : ForwardingStatus} (h : before.undelivered = true)
    (hafter : after ≠ .sent) : after = .sent ↔ before = .sent :=
  iff_of_false hafter (undelivered_ne_sent h)

theorem retryable_undelivered (h : retryable now r = true) :
    r.forwardingStatus.undelivered = true :=
  (Bool.and_eq_true_iff.mp (Bool.and_eq_true_iff.mp h).1).2

theorem matchesTime_pending {moduleId receivedAt : Text}
    (h : matchesTime moduleId receivedAt r = true) : r.forwardingStatus.undelivered = true := by
  have hpend : r.forwardingStatus = .pending := eq_of_beq (Bool.and_eq_true_iff.mp h).2
  rw [hpend]
  rfl

/-- The row of an attempt whose lease runs has not become `sent`. -/
theorem Held.not_sent (h : Held w a) (hshared : Shared w history) (hrun : a.Unexpired w.clock) :
    .sent a.id ∉ history := by
  intro hmem
  obtain ⟨r, hr, hid, hkept⟩ := h
  obtain ⟨r', hr', hid', hsent⟩ := (hshared.recorded a.id).mp hmem
  have hsame := hshared.numbered.unique hr hr' (hid.trans hid'.symm)
  exact undelivered_ne_sent (hkept hrun).undelivered (hsame ▸ hsent)

theorem step_shared (hshared : Shared w history) (hknows : Knows w history p)
    (hstep : Step strict maxAgeSecs w p w' p' es) (hpunctual : Punctual w' p') :
    Shared w' (history ++ es) := by
  cases hstep with
  | tick | sweep | list | next | unstored | cancelled | stop | claimFailed | ageFailed =>
    exact hshared.silent rfl
  | insert _ _ _ _ _ _ _ hrecord | insertSkipped _ _ _ _ _ _ hrecord =>
    subst hrecord
    exact hshared.insert rfl nofun
  | start =>
    exact hshared.emit nofun (hknows.not_sent hshared hpunctual)
  | finish outcome =>
    cases outcome with
    | accepted _ => exact hshared.emit nofun trivial
    | refused _ _ => exact hshared.silent rfl
  | @firstOutcome _ _ _ _ outcome _ hsep _ =>
    cases outcome with
    | accepted code =>
      refine hshared.sent (fun _ => rfl) (fun _ => rfl) fun r hr hmatch => ?_
      rw [hsep rfl r hr hmatch]
      exact hknows.2 _ (mem_singleton_self _)
    | refused _ _ =>
      exact hshared.quiet (fun _ => rfl) fun r hmatch =>
        sent_iff_of_undelivered (matchesTime_pending hmatch) nofun
  | abandon | age =>
    exact hshared.quiet (fun _ => rfl) fun r hmatch => sent_iff_of_undelivered
      (retryable_undelivered (Bool.and_eq_true_iff.mp hmatch).1) nofun
  | claim | notClaimed | release => exact hshared.quiet (fun _ => rfl) fun _ _ => Iff.rfl
  | @retryOutcome _ _ _ outcome _ _ =>
    cases outcome with
    | accepted code =>
      refine hshared.sent (fun _ => rfl) (fun _ => rfl) fun r hr hmatch => ?_
      rw [eq_of_beq (Bool.and_eq_true_iff.mp hmatch).1]
      exact hknows.2 _ (mem_singleton_self _)
    | refused _ _ =>
      exact hshared.quiet (fun _ => rfl) fun r hmatch =>
        sent_iff_of_undelivered (Bool.and_eq_true_iff.mp hmatch).2 nofun

theorem Held.insert {record : SmsRecord} (moduleId receivedAt : Text)
    (hstatus : record.forwardingStatus = .pending) :
    Held { w with rows := insertSms w.rows record now }
      (.first (w.rows.length + 1) moduleId receivedAt (insertLease record now)) := by
  refine ⟨_, mem_append_right _ (mem_singleton_self _), rfl, fun _ => ⟨rfl, ?_, ?_⟩⟩
  · intro hnone
    unfold insertLease at hnone
    cases helig : record.retryEligible with
    | true => rw [helig] at hnone; cases hnone
    | false => exact helig
  · change record.forwardingStatus.undelivered = true
    rw [hstatus]
    rfl

theorem Held.claim {left : List Nat}
    (hclaim : (claimForRetry w.rows id now retryLeaseSecs).2 = true) :
    Held { w with rows := (claimForRetry w.rows id now retryLeaseSecs).1 }
      (.retry id (now + retryLeaseSecs) left) := by
  obtain ⟨r, hr, hclaimable⟩ := exists_claimable hclaim
  obtain ⟨hid, hretry⟩ := Bool.and_eq_true_iff.mp hclaimable
  have hundelivered := retryable_undelivered hretry
  exact ⟨_, Table.mem_update_of_match hr hclaimable, eq_of_beq hid, fun _ =>
    ⟨rfl, nofun, hundelivered⟩⟩

theorem step_knows (hknows : Knows w history p)
    (hstep : Step strict maxAgeSecs w p w' p' es) : Knows w' (history ++ es) p' := by
  have hle := step_clock_le hstep
  cases hstep with
  | tick secs =>
    have heffect : Effect w idle { w with clock := w.clock + secs } := .tick secs
    exact hknows.mono [] hle fun a ha =>
      (hknows.held ha).effect heffect nofun
  | insert _ _ _ _ _ _ _ hrecord =>
    subst hrecord
    exact Held.insert _ _ rfl
  | insertSkipped | firstOutcome | list | notClaimed | retryOutcome | release | stop
  | claimFailed | ageFailed => trivial
  | start => exact hknows
  | finish outcome => exact ⟨hknows, fun e he => mem_append_right _ he⟩
  | sweep | next => exact Int.le_refl _
  | abandon | age => exact hknows
  | claim hclaim => exact Held.claim hclaim
  | unstored => exact hknows.1
  | cancelled => exact hknows

/-- A step of another process. -/
theorem step_other (hshared : Shared w history) (hknows : Knows w history p)
    (hknows' : Knows w history q) (hapart : Apart w p q)
    (hstep : Step strict maxAgeSecs w p w' p' es) : Knows w' (history ++ es) q ∧ Apart w' p' q := by
  have heffect := step_effect hknows hstep
  refine ⟨hknows'.mono es (step_clock_le hstep) fun b hb => ?_,
    hapart.step hshared.numbered hknows hknows' hstep⟩
  exact (hknows'.held hb).effect heffect fun a ha => hapart a b ha hb

/-- Runs in which outcomes land within the lease and on the row they are about are safe. -/
theorem strict_safe {n : Nat} {processes : List Process}
    (hreach : Reachable strict maxAgeSecs clock n w processes history) :
    Safe w processes history := by
  have hstart : Interleave.Invariant Shared Knows Apart ⟨clock, []⟩ (replicate n idle) [] := by
    have hidle : ∀ (i : Nat) p, (replicate n idle)[i]? = some p → p = idle := fun i p hp =>
      (mem_replicate.mp (mem_of_getElem? hp)).2
    refine ⟨⟨.nil, fun id => ?_, .nil⟩, fun i p hp => hidle i p hp ▸ trivial, ?_⟩
    · exact iff_of_false not_mem_nil fun ⟨_, hr, _⟩ => not_mem_nil hr
    · intro i j p q _ hp _ a b ha
      rw [hidle i p hp] at ha
      cases ha
  have hinv : Interleave.Invariant Shared Knows Apart w processes history := by
    refine hreach.invariant ?_ hstart ?_ ?_ ?_
    · intro w p q hapart
      exact hapart.symm
    · intro w history p w' p' es hshared hknows _ hstep hpunctual
      exact ⟨step_shared hshared hknows hstep hpunctual, step_knows hknows hstep⟩
    · intro w history p w' p' es q hshared hknows hknows' hapart hstep
      exact step_other hshared hknows hknows' hapart hstep
    · intro w p w' p' es q r hstep hapart
      exact hapart.mono (step_clock_le hstep)
  refine ⟨fun i j a b hij hi hj hid => ?_, fun pre id post heq => hinv.shared.fits _ _ _ heq,
    hinv.shared.recorded, fun pre id post heq => hinv.shared.fits _ _ _ heq⟩
  -- both posts are in flight, so both leases run
  have hruna : a.Unexpired w.clock := hreach.assumed _ (mem_of_getElem? hi)
  have hrunb : b.Unexpired w.clock := hreach.assumed _ (mem_of_getElem? hj)
  exact hinv.pair i j _ _ hij hi hj a b rfl rfl hid hruna hrunb

/-! ### Runs that are not safe -/

/-- Two texts of one module and time: the first one's success marks both. -/
theorem sharedTime_run (timely : Bool) :
    ∃ w processes, Reachable ⟨false, timely⟩ 86400 0 2 w processes
      [.started 1, .succeeded 1, .sent 1, .sent 2] := by
  have hstart : Reachable ⟨false, timely⟩ 86400 0 2 ⟨0, []⟩ [idle, idle] [] := .start (by decide)
  have hinserted := (hstart.step 0 rfl
    (.insert true "sim" "1" "a" "10:00" .cs (Int.le_refl 0) rfl)
    (by decide)).step 1 rfl
    (.insert true "sim" "2" "b" "10:00" .cs (Int.le_refl 0) rfl)
    (by decide)
  have hposted := (hinserted.step 0 rfl .start (by decide)).step 0 rfl (.finish (.accepted 204))
    (by decide)
  exact ⟨_, _, hposted.step 0 rfl (.firstOutcome "10:01" nofun fun _ => by decide)
    (by decide)⟩

/-- A first attempt fails in time but says so late: a sweep has claimed the row meanwhile,
loses its lease, and another one claims the row as well. -/
theorem lateOutcome_run (separate : Bool) :
    ∃ w processes history, Reachable ⟨separate, false⟩ 86400 0 3 w processes history ∧
      processes[1]? = some (posting (.retry 1 240 [])) ∧
      processes[2]? = some (posting (.retry 1 240 [])) := by
  have hstart : Reachable ⟨separate, false⟩ 86400 0 3 ⟨0, []⟩ [idle, idle, idle] [] :=
    .start (by decide)
  have hfailed := (((hstart.step 0 rfl
    (.insert true "sim" "1" "a" "10:00" .cs (Int.le_refl 0) rfl)
    (by decide)).step 0 rfl .start (by decide)).step 0 rfl (.finish (.refused "timeout" none))
    (by decide)).step 0 rfl (.tick 120) (by decide)
  have hlisted := ((hfailed.step 1 rfl (.sweep none) (by decide)).step 1 rfl .abandon
    (by decide)).step 1 rfl .list (by decide)
  have hclaim := ((hlisted.step 1 rfl .next (by decide)).step 1 rfl .age (by decide)).step 1 rfl
    (.claim rfl) (by decide)
  have hlate := (hclaim.step 1 rfl .start (by decide)).step 0 rfl
    (.firstOutcome "10:03" (fun _ => by decide) nofun) (by decide)
  have hlisted' := ((hlate.step 2 rfl (.sweep none) (by decide)).step 2 rfl .abandon
    (by decide)).step 2 rfl .list (by decide)
  have hclaim' := ((hlisted'.step 2 rfl .next (by decide)).step 2 rfl .age (by decide)).step 2 rfl
    (.claim rfl) (by decide)
  exact ⟨_, _, _, hclaim'.step 2 rfl .start (by decide), rfl, rfl⟩

/-- The protocol is safe exactly under the discipline that a first attempt's outcome finds no
other text of its module and time, and that outcomes land within their lease. -/
theorem safe_iff (c : Discipline) :
    (∀ maxAgeSecs clock n w processes history,
      Reachable c maxAgeSecs clock n w processes history → Safe w processes history) ↔
      c.separate = true ∧ c.timely = true := by
  obtain ⟨separate, timely⟩ := c
  constructor
  · intro hsafe
    constructor
    · cases separate with
      | true => rfl
      | false =>
        obtain ⟨w, processes, hreach⟩ := sharedTime_run timely
        have hearned := (hsafe _ _ _ _ _ _ hreach).earned
          [.started 1, .succeeded 1, .sent 1] 2 [] rfl
        exact absurd hearned (by decide)
    · cases timely with
      | true => rfl
      | false =>
        obtain ⟨w, processes, history, hreach, hfirst, hsecond⟩ := lateOutcome_run separate
        exact absurd rfl ((hsafe _ _ _ _ _ _ hreach).alone 1 2 _ _ (by decide) hfirst hsecond)
  · rintro ⟨rfl, rfl⟩ maxAgeSecs clock n w processes history hreach
    exact strict_safe hreach

/-- What the source alone makes sure of: a text becomes `sent` by the success of another
one of its module and time, and two posts of one row are in flight together. -/
theorem leases_not_safe :
    (∃ w processes, Reachable ⟨false, false⟩ 86400 0 2 w processes
      [.started 1, .succeeded 1, .sent 1, .sent 2]) ∧
    ∃ w processes history, Reachable ⟨false, false⟩ 86400 0 3 w processes history ∧
      processes[1]? = some (posting (.retry 1 240 [])) ∧
      processes[2]? = some (posting (.retry 1 240 [])) :=
  ⟨sharedTime_run false, lateOutcome_run false⟩

end Sms.Retry
