-- SUMMARY: The underlay guard of one line: its verdict and its hold.
import GsmSipBridge.Lib.Trace

/-!
# The underlay guard

Before each tick the tracker is handed what the loop observed, and after it the outcome.
Reasons of recoveries and marks in the log are only kept and compared.
-/

namespace Supervise.Underlay

open Clock

def routeDebounce : Nat := secs 10
def maxHold : Nat := secs 900
def livenessWait : Nat := secs 30
def lingerAfterHold : Nat := secs 30
def noResponseRetransmits : Nat := 2
def outageLookbackMax : Nat := secs 300
def outageLookbackUnheard : Nat := secs 60
def recentLife : Nat := secs 30

inductive UplinkHoldCause where
  | noRoute
  | noResponse
  deriving DecidableEq

inductive UnderlayVerdict where
  | up
  | noRoute
  | noResponse
  deriving DecidableEq

def UnderlayVerdict.holdCause : UnderlayVerdict → Option UplinkHoldCause
  | up => none
  | noRoute => some .noRoute
  | noResponse => some .noResponse

def UplinkHoldCause.verdict : UplinkHoldCause → UnderlayVerdict
  | noRoute => .noRoute
  | noResponse => .noResponse

inductive HoldEndedBy where
  | restored
  | maxHold
  | causeChanged
  deriving DecidableEq

/-- Something arrived after `after` and no later than `upTo`. -/
structure Heard where
  after : Nat
  upTo : Nat

def Heard.latest : Option Heard → Option Heard → Option Heard
  | some a, some b => some ⟨max a.after b.after, max a.upTo b.upTo⟩
  | a, b => a.or b

/-- What the loop saw before the tick; `evidence` is the log since the evidence mark. -/
structure Observation (μ : Type) where
  routeOk : Bool
  parsedFromPeer : Bool
  unansweredRetransmits : Nat
  parsedSinceTick : Bool
  rxPackets : Option Nat
  pendingLife : Option Bool
  siblingHeard : Option Heard
  mark : μ

inductive SteadyOutcome (ρ : Type) where
  | stillUp
  | pcscfChanged
  | waitingForNegotiation
  | held (cause : UplinkHoldCause) (skipped : ρ)
  | deferred (reason : ρ)
  | recovered

structure Hold (ρ : Type) where
  cause : UplinkHoldCause
  started : Nat
  startedAt : Int
  causeSince : Nat
  lastGoodAt : Int
  skipped : List ρ

structure HoldEnd (ρ : Type) where
  cause : UplinkHoldCause
  held : Nat
  endedBy : HoldEndedBy
  skipped : List ρ

structure PendingCheck (ρ μ : Type) where
  mark : μ
  rx : Option Nat
  sent : Nat
  deferred : ρ

structure PendingView (ρ : Type) where
  reason : ρ
  lifeSinceMark : Bool
  expired : Bool

structure UnderlayView (ρ : Type) where
  verdict : UnderlayVerdict
  routeOk : Bool
  pending : Option (PendingView ρ)
  heardRecently : Bool
  restored : Bool

structure Begin (ρ : Type) where
  view : UnderlayView ρ
  ended : Option (HoldEnd ρ)
  started : Option UplinkHoldCause
  heard : Option Heard

structure UnderlayTracker (ρ μ : Type) where
  verdict : UnderlayVerdict := .up
  routeFailures : Nat := 0
  firstRouteFailure : Option Nat := none
  lastRx : Option Nat := none
  tickRx : Option Nat := none
  prevTick : Option Nat := none
  heard : Option Heard := none
  evidenceMark : μ
  silenceSince : Nat
  tickMark : μ
  hold : Option (Hold ρ) := none
  pendingCheck : Option (PendingCheck ρ μ) := none
  lingerUntil : Option Nat := none
  lastOutage : Option (Nat × Nat) := none

/-- A counter that was read both times and has grown. -/
def grew : Option Nat → Option Nat → Bool
  | some before, some after => before < after
  | _, _ => false

def unixSecs (t : Int) : Nat := t.toNat / 1000000000

def Observation.siblingHeardSince {μ : Type} (obs : Observation μ) (t : Nat) : Bool :=
  obs.siblingHeard.any (t ≤ ·.after)

namespace UnderlayTracker

variable {ρ μ : Type} (t : UnderlayTracker ρ μ) (obs : Observation μ) (now : Nat) (nowAt : Int)

def new (mark : μ) (now : Nat) : UnderlayTracker ρ μ where
  evidenceMark := mark
  silenceSince := now
  tickMark := mark

def restartSilence (mark : μ) : UnderlayTracker ρ μ :=
  { t with evidenceMark := mark, silenceSince := now }

def startHold (cause : UplinkHoldCause) : UnderlayTracker ρ μ :=
  let ago := min ((t.heard.map (now - ·.after)).getD outageLookbackUnheard) outageLookbackMax
  { t with hold := some ⟨cause, now, nowAt, now, nowAt - ago, []⟩ }

def endHold : UnderlayTracker ρ μ :=
  { t with hold := none, lingerUntil := some (now + lingerAfterHold) }

end UnderlayTracker

/-- The report of the time under the current cause. -/
def Hold.report {ρ : Type} (h : Hold ρ) (endedBy : HoldEndedBy) (now : Nat) : HoldEnd ρ :=
  ⟨h.cause, now - h.causeSince, endedBy, h.skipped⟩

def Hold.skip {ρ : Type} [DecidableEq ρ] (h : Hold ρ) (reason : ρ) : Hold ρ :=
  if reason ∈ h.skipped then h else { h with skipped := h.skipped ++ [reason] }

namespace UnderlayTracker

variable {ρ μ : Type} (t : UnderlayTracker ρ μ) (obs : Observation μ) (now : Nat) (nowAt : Int)

/-! ## The first half of a tick -/

def heardNow : Option Heard :=
  if obs.parsedSinceTick || grew t.lastRx obs.rxPackets then some ⟨t.prevTick.getD now, now⟩
  else none

/-- The route check and the counter are noted. -/
def observe : UnderlayTracker ρ μ :=
  { t with
    prevTick := some now
    tickMark := obs.mark
    tickRx := obs.rxPackets
    routeFailures := if obs.routeOk then 0 else t.routeFailures + 1
    firstRouteFailure :=
      if obs.routeOk then none else if t.routeFailures = 0 then some now else t.firstRouteFailure
    lastRx := obs.rxPackets.or t.lastRx
    heard := Heard.latest t.heard (t.heardNow obs now) }

def routeDown : Bool :=
  !obs.routeOk && 2 ≤ (t.observe obs now).routeFailures &&
    (t.observe obs now).firstRouteFailure.any (routeDebounce ≤ now - ·)

/-- Alive since the silence began. -/
def heardFrom : Bool :=
  (obs.parsedFromPeer && obs.unansweredRetransmits == 0) || grew t.lastRx obs.rxPackets ||
    obs.siblingHeardSince t.silenceSince

def judge : UnderlayVerdict :=
  if t.routeDown obs now then .noRoute
  else
    match t.verdict with
    | .noResponse => if t.heardFrom obs then .up else .noResponse
    | .noRoute => .up
    | .up =>
      if noResponseRetransmits ≤ obs.unansweredRetransmits ∧ t.heardFrom obs = false then
        .noResponse
      else .up

/-- The silence is counted afresh on a line that is up with nothing outstanding. -/
def judged : UnderlayTracker ρ μ :=
  if t.judge obs now = .up ∧
      (t.verdict ≠ .up ∨ t.heardFrom obs = true ∨ obs.unansweredRetransmits = 0) then
    (t.observe obs now).restartSilence now obs.mark
  else t.observe obs now

/-- A hold starts, ends or changes its cause with the verdict. -/
def settle (verdict : UnderlayVerdict) :
    UnderlayTracker ρ μ × Option (HoldEnd ρ) × Option UplinkHoldCause :=
  match t.hold, verdict.holdCause with
  | some h, some cause =>
    if h.cause = cause then (t, none, none)
    else
      ({ t with
          hold := some { h with cause := cause, causeSince := now, skipped := [] }
          pendingCheck := none },
        some (h.report .causeChanged now), some cause)
  | some h, none =>
    ({ t.endHold now with lastOutage := some (unixSecs h.lastGoodAt, unixSecs nowAt) },
      some (h.report .restored now), none)
  | none, some cause =>
    ({ t.startHold now nowAt cause with pendingCheck := none }, none, some cause)
  | none, none => (t, none, none)

def view (unheldPass : Bool) (ended : Option (HoldEnd ρ)) : UnderlayView ρ where
  verdict := t.verdict
  routeOk := obs.routeOk || unheldPass
  pending := if unheldPass then none else t.pendingCheck.map fun p =>
    ⟨p.deferred, obs.pendingLife.getD false || grew p.rx obs.rxPackets ||
      obs.siblingHeardSince p.sent, livenessWait ≤ now - p.sent⟩
  heardRecently :=
    (Heard.latest t.heard obs.siblingHeard).any (now - ·.upTo < recentLife) || unheldPass
  restored := ended.any fun e => e.endedBy = .restored ∧ e.cause = .noRoute

def beginTick : UnderlayTracker ρ μ × Begin ρ :=
  match t.hold.filter (maxHold ≤ now - ·.started) with
  | some h =>
    -- The bound: one ordinary pass, whatever the verdict says.
    let t' := { ((t.judged obs now).endHold now).restartSilence now obs.mark with verdict := .up }
    (t', ⟨t'.view obs now true none, some (h.report .maxHold now), none, t.heardNow obs now⟩)
  | none =>
    let r := (t.judged obs now).settle now nowAt (t.judge obs now)
    let t' := { r.1 with verdict := t.judge obs now }
    (t', ⟨t'.view obs now false r.2.1, r.2.1, r.2.2, t.heardNow obs now⟩)

/-! ## The second half -/

variable [DecidableEq ρ]

def endTick (outcome : SteadyOutcome ρ) (markBeforeTick : μ) :
    UnderlayTracker ρ μ × Option UplinkHoldCause :=
  match outcome with
  | .deferred reason =>
    let check := t.pendingCheck.getD ⟨markBeforeTick, t.tickRx, now, reason⟩
    ({ t with pendingCheck := some check }, none)
  | .held cause skipped =>
    match t.hold with
    | some h => ({ t with hold := some (h.skip skipped), pendingCheck := none }, none)
    | none =>
      -- An unanswered check: the silence began when it was sent.
      let t' := match cause, t.pendingCheck with
        | .noResponse, some p => t.restartSilence p.sent p.mark
        | _, _ => t
      let t' := t'.startHold now nowAt cause
      ({ t' with
          verdict := cause.verdict
          hold := t'.hold.map (·.skip skipped)
          pendingCheck := none },
        some cause)
  | .stillUp | .pcscfChanged | .waitingForNegotiation | .recovered =>
    ({ t with pendingCheck := none }, none)

end UnderlayTracker

/-! ## Restored holds

A failed route check is debounced before it counts as no route, also on a line that is held for
one: between two checks that fail the path then counts as back. -/

variable {ρ μ : Type}

/-- A half of a tick. -/
inductive Call (ρ μ : Type) where
  | beginTick (obs : Observation μ) (now : Nat) (nowAt : Int)
  | endTick (outcome : SteadyOutcome ρ) (markBeforeTick : μ) (now : Nat) (nowAt : Int)

/-- The tracker, and when the reading of the counter it compares with was taken. -/
structure Watched (ρ μ : Type) where
  tracker : UnderlayTracker ρ μ
  rxAt : Option Nat := none

def Watched.step [DecidableEq ρ] (w : Watched ρ μ) : Call ρ μ → Watched ρ μ
  | .beginTick obs now nowAt =>
    ⟨(w.tracker.beginTick obs now nowAt).1, (obs.rxPackets.map fun _ => now).or w.rxAt⟩
  | .endTick outcome mark now nowAt =>
    { w with tracker := (w.tracker.endTick now nowAt outcome mark).1 }

/-- The ePDG was heard from since the silence began; a counter that has grown counts over a reading
that was taken in the silence. -/
def Watched.heardSince (w : Watched ρ μ) (obs : Observation μ) : Bool :=
  obs.parsedFromPeer ||
    (grew w.tracker.lastRx obs.rxPackets && w.rxAt.any (w.tracker.silenceSince ≤ ·)) ||
    obs.siblingHeardSince w.tracker.silenceSince

/-- A hold ends as restored only with the path back. -/
def PathBack (w : Watched ρ μ) : Call ρ μ → Prop
  | .beginTick obs now nowAt => ∀ e, (w.tracker.beginTick obs now nowAt).2.ended = some e →
      e.endedBy = .restored →
      match e.cause with
      | .noRoute => obs.routeOk = true
      | .noResponse => w.heardSince obs = true
  | .endTick _ _ _ _ => True

/-- On a line held for no route a check that fails comes after another one, the debounce time
after the first; and on one held for no response a counter that has grown was last read in the
silence, or the ePDG was heard from besides. -/
def Debounced (w : Watched ρ μ) : Call ρ μ → Prop
  | .beginTick obs now _ =>
    (w.tracker.verdict = .noRoute → obs.routeOk = false → 1 ≤ w.tracker.routeFailures ∧
      w.tracker.firstRouteFailure.any (routeDebounce ≤ now - ·) = true) ∧
    (w.tracker.verdict = .noResponse → grew w.tracker.lastRx obs.rxPackets = true →
      w.rxAt.any (w.tracker.silenceSince ≤ ·) = true ∨ obs.parsedFromPeer = true ∨
        obs.siblingHeardSince w.tracker.silenceSince = true)
  | .endTick _ _ _ _ => True

/-- There is a hold exactly if the verdict is not up, for the cause it gives. -/
def UnderlayTracker.Matches (t : UnderlayTracker ρ μ) : Prop :=
  t.hold.map (·.cause) = t.verdict.holdCause

theorem UnderlayVerdict.eq_elim (v : UnderlayVerdict) :
    v = v.holdCause.elim .up UplinkHoldCause.verdict := by
  cases v <;> rfl

theorem Hold.cause_skip [DecidableEq ρ] (h : Hold ρ) (reason : ρ) : (h.skip reason).cause = h.cause := by
  unfold skip
  split <;> rfl

namespace UnderlayTracker

variable {t : UnderlayTracker ρ μ} {obs : Observation μ} {now : Nat} {nowAt : Int}

theorem hold_judged : (t.judged obs now).hold = t.hold := by
  unfold judged
  split <;> rfl

theorem matches_beginTick : (t.beginTick obs now nowAt).1.Matches := by
  unfold beginTick
  split
  · rfl
  have hcause : ((t.judged obs now).settle now nowAt (t.judge obs now)).1.hold.map (·.cause) =
      (t.judge obs now).holdCause := by
    unfold settle
    split
    · next h cause hhold hcause =>
      split
      · next heq => rw [hhold, hcause, ← heq]; rfl
      · exact hcause.symm
    · next hcause => exact hcause.symm
    · next hcause => exact hcause.symm
    · next hhold hcause => rw [hhold, hcause]; rfl
  exact hcause

theorem Matches.endTick [DecidableEq ρ] (h : t.Matches) (outcome : SteadyOutcome ρ) (mark : μ) :
    (t.endTick now nowAt outcome mark).1.Matches := by
  cases outcome with
  | stillUp | pcscfChanged | waitingForNegotiation | recovered | deferred reason => exact h
  | held cause skipped =>
    unfold UnderlayTracker.endTick
    simp only
    split
    · next hold hhold =>
      refine (congrArg some (hold.cause_skip skipped)).trans (Eq.trans ?_ h)
      rw [hhold]
      rfl
    · cases cause <;> rfl

/-- A hold that ends as restored: the verdict was that of its cause and is up now. -/
theorem Matches.restored (h : t.Matches) {e : HoldEnd ρ}
    (he : (t.beginTick obs now nowAt).2.ended = some e) (hback : e.endedBy = .restored) :
    t.verdict = e.cause.verdict ∧ t.judge obs now = .up := by
  unfold beginTick at he
  split at he
  · cases he
    cases hback
  simp only [settle, hold_judged] at he
  split at he
  · split at he
    · cases he
    · cases he
      cases hback
  · next hold hhold hcause =>
    cases he
    have hwas := t.verdict.eq_elim
    rw [← h, hhold] at hwas
    have hup := (t.judge obs now).eq_elim
    rw [hcause] at hup
    exact ⟨hwas, hup⟩
  · cases he
  · cases he

end UnderlayTracker

open UnderlayTracker

section

variable {w : Watched ρ μ}

theorem UnderlayTracker.Matches.step [DecidableEq ρ] (h : w.tracker.Matches) (c : Call ρ μ) :
    (w.step c).tracker.Matches := by
  cases c with
  | beginTick obs now nowAt => exact matches_beginTick
  | endTick outcome mark now nowAt => exact h.endTick outcome mark

theorem pathBack_of_debounced (h : w.tracker.Matches) {c : Call ρ μ} (hc : Debounced w c) :
    PathBack w c := by
  cases c with
  | endTick outcome mark now nowAt => trivial
  | beginTick obs now nowAt =>
    intro e he hback
    obtain ⟨hverdict, hup⟩ := h.restored he hback
    obtain ⟨hroute, hresp⟩ := hc
    unfold judge at hup
    split at hup
    · cases hup
    next hdown =>
    rw [hverdict] at hup
    cases hcause : e.cause with
    | noRoute =>
      -- A check that fails is past the debounce here, so that the verdict stays.
      by_contra hok
      have hok : obs.routeOk = false := eq_false_of_ne_true hok
      obtain ⟨hfailures, hlong⟩ := hroute (hverdict.trans (by rw [hcause]; rfl)) hok
      refine hdown ?_
      simp [routeDown, observe, hok, Nat.one_le_iff_ne_zero.mp hfailures, hfailures, hlong]
    | noResponse =>
      rw [hcause] at hverdict hup
      by_cases hheard : w.tracker.heardFrom obs = true
      · simp only [heardFrom, Bool.or_eq_true, Bool.and_eq_true] at hheard
        rcases hheard with (⟨hparsed, -⟩ | hgrew) | hsibling
        · simp [Watched.heardSince, hparsed]
        · rcases hresp hverdict hgrew with hread | hparsed | hsibling
          · simp [Watched.heardSince, hgrew, hread]
          · simp [Watched.heardSince, hparsed]
          · simp [Watched.heardSince, hsibling]
        · simp [Watched.heardSince, hsibling]
      · cases hup.symm.trans (if_neg hheard)

end

/-- In a run whose checks are debounced a hold is reported as restored only with the path back. -/
theorem restored_only_with_path_back [DecidableEq ρ] (mark : μ) (start : Nat) (calls : List (Call ρ μ))
    (h : Trace.Each Watched.step Debounced ⟨.new mark start, none⟩ calls) :
    Trace.Each Watched.step PathBack ⟨.new mark start, none⟩ calls :=
  h.each (I := fun w => w.tracker.Matches) (fun _ _ hw => pathBack_of_debounced hw)
    (fun _ c hw _ => hw.step c) rfl

namespace Sample

def check (routeOk : Bool) : Observation Unit :=
  ⟨routeOk, false, 0, false, none, none, none, ()⟩

/-- A hold that begins with the second check that fails, and ends with one that passes. -/
def debounced : List (Call Unit Unit) :=
  [.beginTick (check false) (secs 30) 0, .endTick .stillUp () (secs 30) 0,
    .beginTick (check false) (secs 60) 0, .endTick (.held .noRoute ()) () (secs 60) 0,
    .beginTick (check true) (secs 65) 0]

/-- A hold that begins in a tick, with its first check that fails, and ends with the next one. -/
def undebounced : List (Call Unit Unit) :=
  [.beginTick (check false) (secs 30) 0, .endTick (.held .noRoute ()) () (secs 30) 0,
    .beginTick (check false) (secs 35) 0]

end Sample

theorem restored_after_second_check :
    Trace.Each Watched.step Debounced ⟨.new () 0, none⟩ Sample.debounced ∧
      Trace.Each Watched.step PathBack ⟨.new () 0, none⟩ Sample.debounced := by
  have h : Trace.Each Watched.step Debounced ⟨.new () 0, none⟩ Sample.debounced :=
    ⟨⟨by decide, by decide⟩, trivial, ⟨by decide, by decide⟩, trivial, ⟨by decide, by decide⟩, trivial⟩
  exact ⟨h, restored_only_with_path_back () 0 Sample.debounced h⟩

theorem restored_while_checks_fail :
    ¬ ∀ calls, Trace.Each Watched.step PathBack ⟨.new () 0, none⟩
      (calls : List (Call Unit Unit)) := by
  intro h
  have hback := (h Sample.undebounced).2.2.1 ⟨.noRoute, secs 5, .restored, [()]⟩ rfl rfl
  cases hback

/-! ## Bounded holds -/

/-- No tick leaves a hold that has reached the bound. -/
def Bounded (w : Watched ρ μ) : Call ρ μ → Prop
  | .beginTick obs now nowAt =>
    ∀ h ∈ (w.tracker.beginTick obs now nowAt).1.hold, now - h.started < maxHold
  | .endTick _ _ _ _ => True

theorem bounded_call (w : Watched ρ μ) (c : Call ρ μ) : Bounded w c := by
  cases c with
  | endTick => trivial
  | beginTick obs now nowAt =>
    simp only [Bounded, beginTick]
    split
    · exact nofun
    next hnone =>
    have hyoung : ∀ h ∈ (w.tracker.judged obs now).hold, now - h.started < maxHold := by
      simpa [hold_judged] using hnone
    unfold settle
    split
    · next h cause hhold hcause =>
      split
      · exact hyoung
      · rintro _ ⟨⟩
        exact hyoung h hhold
    · exact nofun
    · rintro _ ⟨⟩
      exact (Nat.sub_self now).trans_lt (by decide)
    · exact hyoung

/-- In every run a line is held as the verdict says, and no tick leaves it held for too long. -/
theorem holds_bounded [DecidableEq ρ] (mark : μ) (start : Nat) (calls : List (Call ρ μ)) :
    Trace.Always Watched.step (·.tracker.Matches) ⟨.new mark start, none⟩ calls ∧
      Trace.Each Watched.step Bounded ⟨.new mark start, none⟩ calls := by
  constructor
  · apply Trace.always_of_invariant
    · exact fun w c h => UnderlayTracker.Matches.step h c
    · rfl
  · exact Trace.each_of_invariant (I := fun _ => True) (fun _ _ => id)
      (fun w c _ => bounded_call w c) trivial calls

end Supervise.Underlay
