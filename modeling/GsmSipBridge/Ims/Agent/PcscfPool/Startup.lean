-- SUMMARY: The registration at startup (`register_via_pool` in `ims/agent/mod.rs`).
import GsmSipBridge.Ims.Agent.PcscfPool

/-!
# The registration at startup

The agent registers through the pool, and a failure of the P-CSCF itself sends it to the next
candidate at once. Nothing counts the attempts: the pass comes to its end because what has failed
is marked. The clock, the outcome of every attempt, the route and the supervisor's record of
outages come from outside.
-/

namespace Ims.PcscfPool

open List

open Registration (RegisterFailure retryMaxBackoff timerF)

variable {σ : Type} {now : Nat} {p : PcscfPool}

def outageRecheck : Nat := secs 5

/-! ## The wait -/

/-- What is outside while the marks are waited for; `recheck i` is the record of outages and the
clock after the `i`-th step. -/
structure Startup where
  outage : Option Outage
  checkedAt : Nat
  waitFrom : Nat
  recheck : Nat → Option Outage × Nat

/-- In steps, so that a path that comes back ends the wait. Every step takes from what is left, so
that `fuel` is never short if it starts as that. -/
def awaitMarks (recheck : Nat → Option Outage × Nat) : Nat → Nat → PcscfPool → Nat → PcscfPool
  | 0, _, p, _ => p
  | fuel + 1, i, p, left =>
    if left = 0 then p
    else
      let forgot := p.forgetOutage (recheck i).1
      if 0 < forgot.2 && forgot.1.hasUnmarked (recheck i).2 then forgot.1
      else awaitMarks recheck fuel (i + 1) forgot.1 (left - min left outageRecheck)

def prepare (p : PcscfPool) (env : Startup) : PcscfPool :=
  let p := (p.forgetOutage env.outage).1
  if p.hasUnmarked env.checkedAt then p
  else
    let waitFor := min (p.soonestExpiry env.waitFrom) retryMaxBackoff
    awaitMarks env.recheck waitFor 0 p waitFor

/-! ## The attempts -/

structure Attempt (σ : Type) where
  selectedAt : Nat
  outcome : Except RegisterFailure σ
  /-- Whether there is a route to the address. -/
  routed : Bool := true
  failedAt : Nat := selectedAt

structure Pass (σ : Type) where
  pool : PcscfPool
  /-- The addresses, the latest last. -/
  tried : List IpAddr := []
  result : Option (Except RegisterFailure σ) := none

/-- One turn of the loop, unless it has returned. -/
def Pass.attempt (s : Pass σ) (t : Attempt σ) : Pass σ :=
  if s.result.isSome then s
  else
    let choice := s.pool.choose t.selectedAt
    let s := { s with pool := (s.pool.select t.selectedAt).1, tried := s.tried ++ [choice.addr] }
    match t.outcome with
    | .ok session =>
      { s with pool := s.pool.onRegistered choice.addr, result := some (.ok session) }
    | .error failure =>
      match causeOf failure with
      | none => { s with result := some (.error failure) }
      | some cause =>
        if !t.routed then { s with result := some (.error failure) }
        else
          let s := { s with pool := (s.pool.onFailure t.failedAt choice.addr cause).1 }
          if (s.pool.nextEligible t.failedAt).isSome && choice.reason != .allUnavailable then s
          else { s with result := some (.error failure) }

def registerViaPool (p : PcscfPool) (env : Startup) (attempts : List (Attempt σ)) : Pass σ :=
  attempts.foldl Pass.attempt { pool := p.prepare env }

/-- The clock does not go back. -/
def Forward : Nat → List (Attempt σ) → Prop
  | _, [] => True
  | clock, t :: rest => clock ≤ t.selectedAt ∧ t.selectedAt ≤ t.failedAt ∧ Forward t.failedAt rest

/-- The next candidate is selected before a mark of what has failed in this pass ends. -/
def StillMarked (s : Pass σ) (t : Attempt σ) : Prop :=
  s.result = none → ∀ a ∈ s.tried, ∀ m ∈ s.pool.marks.lookup a, t.selectedAt < m.endsAt

/-! ## What one turn does -/

/-- The pass goes on, or it has come to its end. -/
inductive Turned (s : Pass σ) (t : Attempt σ) (s' : Pass σ) : Prop where
  | returned (hresult : s'.result.isSome = true)
      (htried : s'.tried = s.tried ++ [(s.pool.choose t.selectedAt).addr])
  | on (hresult : s'.result = none)
      (htried : s'.tried = s.tried ++ [(s.pool.choose t.selectedAt).addr])
      (hreason : (s.pool.choose t.selectedAt).reason ≠ .allUnavailable)
      (hknown : s'.pool.known = s.pool.known)
      (hmarks : ∀ a, a = (s.pool.choose t.selectedAt).addr ∨ (s.pool.marks.lookup a).isSome = true →
        (s'.pool.marks.lookup a).isSome = true)
      (hnext : s'.pool.hasUnmarked t.failedAt = true)

theorem known_onFailure (addr : IpAddr) (cause : FailureCause) :
    (p.onFailure now addr cause).1.known = p.known := by
  by_cases hactive : p.active = some addr
  · rw [onFailure_of_eq hactive]
    rfl
  · rw [onFailure_of_ne hactive]

/-- The failure of what was selected marks it, and no other mark changes. -/
theorem lookup_onFailure (p : PcscfPool) (now failedAt : Nat) (cause : FailureCause) (a : IpAddr) :
    ((p.select now).1.onFailure failedAt (p.choose now).addr cause).1.marks.lookup a =
      if a = (p.choose now).addr then
        some ((p.select now).1.markFor failedAt (p.choose now).addr cause)
      else p.marks.lookup a := by
  rw [onFailure_of_eq rfl]
  split
  case isTrue ha =>
    rw [ha]
    exact AList.lookup_insert _
  case isFalse ha => exact AList.lookup_insert_ne ha

theorem known_forgetOutage (p : PcscfPool) (outage : Option Outage) :
    (p.forgetOutage outage).1.known = p.known := by
  cases outage with
  | none | some => rfl

theorem known_awaitMarks (recheck : Nat → Option Outage × Nat) (fuel i : Nat) (p : PcscfPool)
    (left : Nat) : (awaitMarks recheck fuel i p left).known = p.known := by
  induction fuel generalizing i p left with
  | zero => rfl
  | succ fuel ih =>
    rw [awaitMarks]
    split
    · rfl
    simp only
    split
    · exact known_forgetOutage p (recheck i).1
    · exact (ih _ _ _).trans (known_forgetOutage p (recheck i).1)

/-- The wait drops marks only. -/
theorem known_prepare (env : Startup) : (p.prepare env).known = p.known := by
  simp only [prepare]
  split
  · exact known_forgetOutage p env.outage
  · exact (known_awaitMarks ..).trans (known_forgetOutage p env.outage)

theorem attempt_turned {s : Pass σ} (h : s.result = none) (t : Attempt σ) :
    Turned s t (s.attempt t) := by
  simp only [Pass.attempt, h, Option.isSome_none, Bool.false_eq_true, if_false]
  split
  · exact .returned rfl rfl
  split
  · exact .returned rfl rfl
  split
  · exact .returned rfl rfl
  split
  case isTrue hon =>
    obtain ⟨hnext, hreason⟩ := Bool.and_eq_true_iff.1 hon
    refine .on rfl rfl (by simpa using hreason) (known_onFailure ..) (fun a ha => ?_) ?_
    · rw [lookup_onFailure]
      split
      · rfl
      · exact ha.resolve_left ‹_›
    · obtain ⟨a, ha⟩ := Option.isSome_iff_exists.1 hnext
      exact hasUnmarked_iff.2 ⟨a, nextEligible_spec ha⟩
  case isFalse => exact .returned rfl rfl

theorem attempt_of_result {s : Pass σ} (h : s.result.isSome = true) (t : Attempt σ) :
    s.attempt t = s := by
  simp [Pass.attempt, h]

theorem foldl_of_result {s : Pass σ} (h : s.result.isSome = true) (attempts : List (Attempt σ)) :
    attempts.foldl Pass.attempt s = s := by
  induction attempts with
  | nil => rfl
  | cons t attempts ih => rw [foldl_cons, attempt_of_result h, ih]

/-- A mark that is not there does not come with time. -/
theorem unmarked_later {later : Nat} (h : now ≤ later) (hfree : p.hasUnmarked now = true) :
    p.hasUnmarked later = true := by
  obtain ⟨a, hknown, ha⟩ := hasUnmarked_iff.1 hfree
  refine hasUnmarked_iff.2 ⟨a, hknown, ?_⟩
  unfold isMarked at ha ⊢
  cases hm : p.marks.lookup a with
  | none => rfl
  | some m =>
    simp only [hm, Option.any_some, decide_eq_false_iff_not] at ha ⊢
    omega

/-! ## The pass -/

/-- No address of `K` is tried twice, and no other at all. -/
structure Sound (K : IpAddr → Bool) (s : Pass σ) : Prop where
  distinct : s.tried.Nodup
  within : ∀ a ∈ s.tried, K a = true

/-- A pass that goes on has somewhere to go to. -/
structure Going (K : IpAddr → Bool) (clock : Nat) (s : Pass σ) : Prop extends Sound K s where
  result : s.result = none
  same : s.pool.known = K
  marked : ∀ a ∈ s.tried, (s.pool.marks.lookup a).isSome = true
  next : s.tried ≠ [] → s.pool.hasUnmarked clock = true

variable {K : IpAddr → Bool} {clock : Nat} {s : Pass σ} {t : Attempt σ}
  {attempts : List (Attempt σ)} {cause : FailureCause} {base : Nat}

/-- The next address is a new one. -/
theorem Going.fresh (h : Going K clock s) (hclock : clock ≤ t.selectedAt)
    (hmarked : StillMarked s t) : (s.pool.choose t.selectedAt).addr ∉ s.tried := by
  intro hmem
  have hfree := unmarked_choose (unmarked_later hclock (h.next (ne_nil_of_mem hmem)))
  obtain ⟨m, hm⟩ := Option.isSome_iff_exists.1 (h.marked _ hmem)
  have hlate := hmarked h.result _ hmem m hm
  simp [isMarked, hm, hlate] at hfree

theorem Going.attempt (h : Going K clock s) (hclock : clock ≤ t.selectedAt)
    (hmarked : StillMarked s t) :
    Sound K (s.attempt t) ∧ (s.attempt t).tried.length = s.tried.length + 1 ∧
      ((s.attempt t).result.isSome = true ∨ Going K t.failedAt (s.attempt t)) := by
  have hsound : ∀ s' : Pass σ, s'.tried = s.tried ++ [(s.pool.choose t.selectedAt).addr] →
      Sound K s' ∧ s'.tried.length = s.tried.length + 1 := by
    intro s' htried
    refine ⟨⟨?_, fun a ha => ?_⟩, by simp [htried]⟩
    · rw [htried, ← concat_eq_append]
      exact h.distinct.concat (h.fresh hclock hmarked)
    · rw [htried] at ha
      rcases mem_append.1 ha with ha | ha
      · exact h.within a ha
      · rw [mem_singleton.1 ha, ← h.same]
        exact known_choose
  cases attempt_turned h.result t with
  | returned hresult htried =>
    obtain ⟨hs, hlength⟩ := hsound _ htried
    exact ⟨hs, hlength, .inl hresult⟩
  | on hresult htried _ hknown hmarks hnext =>
    obtain ⟨hs, hlength⟩ := hsound _ htried
    refine ⟨hs, hlength, .inr ⟨hs, hresult, hknown.trans h.same, fun a ha => ?_, fun _ => hnext⟩⟩
    rw [htried] at ha
    exact hmarks a ((mem_append.1 ha).symm.imp mem_singleton.1 (h.marked a))

/-- A pass over `n` addresses makes at most `n` attempts, and returns. -/
theorem Going.pass {n : Nat}
    (hcard : ∀ l : List IpAddr, l.Nodup → (∀ a ∈ l, K a = true) → l.length ≤ n)
    (h : Going K clock s) (hclock : Forward clock attempts)
    (hmarked : Trace.Each Pass.attempt StillMarked s attempts) :
    Sound K (attempts.foldl Pass.attempt s) ∧
      (n < s.tried.length + attempts.length →
        (attempts.foldl Pass.attempt s).result.isSome = true) := by
  induction attempts generalizing clock s with
  | nil =>
    refine ⟨h.toSound, fun hn => ?_⟩
    have := hcard s.tried h.distinct h.within
    simp at hn
    omega
  | cons t attempts ih =>
    obtain ⟨hselected, hfailed, hrest⟩ := hclock
    obtain ⟨hs, hlength, hret | hgoing⟩ := h.attempt hselected hmarked.1
    · rw [foldl_cons, foldl_of_result hret]
      exact ⟨hs, fun _ => hret⟩
    obtain ⟨hsound, hreturns⟩ := ih hgoing hrest hmarked.2
    refine ⟨hsound, fun hn => hreturns ?_⟩
    simp only [length_cons] at hn
    omega

/-- As many addresses as there are candidates. -/
theorem length_le_candidates {l : List IpAddr} (hdist : l.Nodup)
    (hknown : ∀ a ∈ l, p.known a = true) : l.length ≤ (p.candidates now).length :=
  (subperm_of_subset hdist fun a ha => mem_candidates.2 (hknown a ha)).length_le

/-- With every candidate marked there is one attempt. -/
theorem one_attempt {s : Pass σ} (h : s.result = none) (htried : s.tried = [])
    (hall : s.pool.hasUnmarked t.selectedAt = false) (rest : List (Attempt σ)) :
    ((t :: rest).foldl Pass.attempt s).tried.length = 1 ∧
      ((t :: rest).foldl Pass.attempt s).result.isSome = true := by
  rw [foldl_cons]
  cases attempt_turned h t with
  | returned hresult htried' =>
    rw [foldl_of_result hresult, htried', htried]
    exact ⟨rfl, hresult⟩
  | on _ _ hreason => exact absurd (reason_of_allMarked hall) hreason

/-- As long as the marks of the pass hold, every candidate is tried at most once and the pass
returns by then; with every candidate marked from the start there is one attempt. -/
theorem startup_tries_each_once (p : PcscfPool) (env : Startup) (attempts : List (Attempt σ))
    (now : Nat) (hclock : Forward 0 attempts)
    (hmarked : Trace.Each Pass.attempt StillMarked { pool := p.prepare env } attempts) :
    (registerViaPool p env attempts).tried.Nodup ∧
    (∀ a ∈ (registerViaPool p env attempts).tried, a ∈ p.candidates now) ∧
    (registerViaPool p env attempts).tried.length ≤ (p.candidates now).length ∧
    ((p.candidates now).length < attempts.length →
      (registerViaPool p env attempts).result.isSome = true) ∧
    ∀ t rest, attempts = t :: rest → (p.prepare env).hasUnmarked t.selectedAt = false →
      (registerViaPool p env attempts).tried.length = 1 ∧
        (registerViaPool p env attempts).result.isSome = true := by
  have hgoing : Going p.known 0 ({ pool := p.prepare env } : Pass σ) :=
    ⟨⟨nodup_nil, nofun⟩, rfl, known_prepare env, nofun, fun h => absurd rfl h⟩
  obtain ⟨hsound, hreturns⟩ := hgoing.pass
    (fun l hdistinct hknown => length_le_candidates hdistinct hknown) hclock hmarked
  refine ⟨hsound.distinct, fun a ha => mem_candidates.2 (hsound.within a ha),
    length_le_candidates hsound.distinct hsound.within, fun hlong => hreturns ?_, ?_⟩
  · simpa using hlong
  · rintro t rest rfl hall
    exact one_attempt (s := { pool := p.prepare env }) rfl rfl hall rest

/-! ## How long the marks hold -/

/-- Only a pause longer than Timer F is one of the P-CSCF. -/
theorem timerF_lt_of_causeOf {failure : RegisterFailure} {pause : Nat}
    (h : causeOf failure = some (.retryAfter pause)) : timerF < pause := by
  obtain ⟨cause, hcause, heq⟩ := Option.map_eq_some_iff.1 h
  cases cause with
  | registerTimeout | transport => cases heq
  | retryAfter pause =>
    cases heq
    unfold Registration.causeOf at hcause
    split at hcause
    · split at hcause
      · obtain ⟨pause', hpause, heq⟩ := Option.map_eq_some_iff.1 hcause
        cases heq
        simpa using (Option.filter_eq_some_iff.1 hpause).2
      · cases hcause
    · split at hcause
      all_goals cases hcause

/-- No mark is shorter than Timer F, if no pause is. -/
theorem timerF_lt_markFor
    (hpause : ∀ pause, cause = .retryAfter pause → timerF < pause)
    (hbase : base ≤ now) (p : PcscfPool) (addr : IpAddr) :
    base + timerF < (p.markFor now addr cause).endsAt := by
  refine Nat.lt_of_le_of_lt (Nat.add_le_add_right hbase _) ?_
  have hlong : ∀ unavailable, timerF < unavailable →
      now + timerF < (checkedAdd now unavailable).getD (now + farFuture) := by
    intro unavailable h
    unfold checkedAdd
    split
    · exact Nat.add_lt_add_left h now
    · exact Nat.add_lt_add_left (show timerF < farFuture by decide) now
  have hduration : ∀ failures, timerF < markDuration failures := by
    intro failures
    have : timerF < markExtra := by decide
    exact Nat.lt_of_lt_of_le this (Nat.le_add_left ..)
  apply hlong
  cases cause with
  | retryAfter pause => exact hpause pause rfl
  | registerTimeout | transport | endpointFailure | gmKeepalive => exact hduration _

/-- What was tried since `base` is marked for Timer F from there at least. -/
def Covered (base : Nat) (s : Pass σ) : Prop :=
  s.result = none → ∀ a ∈ s.tried, ∃ m, s.pool.marks.lookup a = some m ∧
    base + timerF < m.endsAt

theorem Covered.attempt (h : Covered base s) (t : Attempt σ) (hbase : base ≤ t.failedAt) :
    Covered base (s.attempt t) := by
  cases hresult : s.result with
  | some r =>
    rw [attempt_of_result (by simp [hresult])]
    exact h
  | none =>
    simp only [Pass.attempt, hresult, Option.isSome_none, Bool.false_eq_true, if_false]
    split
    · exact nofun
    split
    · exact nofun
    rename_i cause hcause
    split
    · exact nofun
    split
    · rintro - a ha
      rw [lookup_onFailure]
      split
      case isTrue =>
        have hlong pause (h : cause = .retryAfter pause) :=
          timerF_lt_of_causeOf (hcause.trans (congrArg some h))
        exact ⟨_, rfl, timerF_lt_markFor hlong hbase _ _⟩
      case isFalse hne =>
        apply h hresult
        rcases mem_append.1 ha with ha | ha
        · exact ha
        · exact absurd (mem_singleton.1 ha) hne
    · exact nofun

/-- The marks hold for a pass that is not longer than Timer F from its first failure. -/
theorem stillMarked_of_quick (base : Nat) (h : Covered base s)
    (hbase : ∀ t ∈ attempts, base ≤ t.failedAt)
    (hquick : ∀ t ∈ attempts, t.selectedAt ≤ base + timerF) :
    Trace.Each Pass.attempt StillMarked s attempts := by
  induction attempts generalizing s with
  | nil => trivial
  | cons t attempts ih =>
    refine ⟨fun hresult a ha => ?_, ih (h.attempt t (hbase t mem_cons_self))
      (fun u hu => hbase u (mem_cons_of_mem t hu))
      fun u hu => hquick u (mem_cons_of_mem t hu)⟩
    obtain ⟨m, hm, hends⟩ := h hresult a ha
    rintro m' hm'
    obtain rfl : m = m' := Option.some.inj (hm.symm.trans hm')
    exact Nat.lt_of_le_of_lt (hquick t mem_cons_self) hends

/-! ### Two candidates -/

/-- Refused with a pause. -/
def refusedFor (pause : Nat) : RegisterFailure where
  error := []
  status := some 503
  retryAfter := some pause

def freshStart : Startup where
  outage := none
  checkedAt := 0
  waitFrom := 0
  recheck _ := (none, 0)

/-- The first P-CSCF asks for a pause of 129 s, and the second answers. -/
def secondAnswers : List (Attempt Unit) :=
  [{ selectedAt := 0, outcome := .error (refusedFor (secs 129)), failedAt := secs 1 },
    { selectedAt := secs 1, outcome := .ok () }]

theorem startup_tries_each_once_answered :
    (registerViaPool (new first [first, second] none) freshStart secondAnswers).tried.Nodup :=
  (startup_tries_each_once (new first [first, second] none) freshStart secondAnswers 0
    ⟨by decide, by decide, by decide, by decide, trivial⟩
    (stillMarked_of_quick (secs 1) (fun _ _ h => absurd h not_mem_nil) (by decide) (by decide))).1

/-- It fails after 130 s, when that pause is over. -/
def secondFailsLate : List (Attempt Unit) :=
  [{ selectedAt := 0, outcome := .error (refusedFor (secs 129)) },
    { selectedAt := 0, outcome := .error (refusedFor (secs 600)), failedAt := secs 130 },
    { selectedAt := secs 130, outcome := .error (refusedFor (secs 600)) }]

theorem tried_twice_once_mark_has_ended :
    ¬ ∀ (p : PcscfPool) (env : Startup) (attempts : List (Attempt Unit)), Forward 0 attempts →
      (registerViaPool p env attempts).tried.Nodup := by
  intro h
  have hdistinct := h (new first [first, second] none) freshStart secondFailsLate
    ⟨by decide, by decide, by decide, by decide, by decide, by decide, trivial⟩
  exact absurd hdistinct (by decide)

/-! ## Failover

The pool is taken through attempts that all fail, each at the P-CSCF just selected. A failure
marks for longer than Timer F, so that in less time no candidate comes back, unless it was marked
before and that mark ends meanwhile. -/

/-- An attempt: when a P-CSCF is selected, and when and why it fails. -/
structure Round where
  selectedAt : Nat
  failedAt : Nat
  cause : FailureCause

/-- The attempt is made between the start and the last selection, and a pause is longer than
Timer F. -/
structure Round.Within (r : Round) (start last : Nat) : Prop where
  selected : start ≤ r.selectedAt ∧ r.selectedAt ≤ last
  failed : start ≤ r.failedAt
  pause : ∀ pause, r.cause = .retryAfter pause → timerF < pause

def attempt (p : PcscfPool) (r : Round) : PcscfPool :=
  ((p.select r.selectedAt).1.onFailure r.failedAt (p.select r.selectedAt).2.addr r.cause).1

/-- What is selected, attempt after attempt. -/
def selections (p : PcscfPool) : List Round → List Selection
  | [] => []
  | r :: rounds => (p.select r.selectedAt).2 :: selections (p.attempt r) rounds

/-- The candidates without a mark. -/
def unmarked (p : PcscfPool) (now : Nat) : List IpAddr :=
  (p.candidates now).filter (!p.isMarked now ·)

/-- The active one while it is eligible, then the others without a mark, in their order. -/
def visits (p : PcscfPool) (now : Nat) : List IpAddr :=
  match p.active.filter fun a => p.known a && !p.isMarked now a with
  | some a => a :: (p.unmarked now).filter (· ≠ a)
  | none => p.unmarked now

/-- No mark that runs at the start has ended at the last selection. -/
def Steady (p : PcscfPool) (start last : Nat) : Prop :=
  ∀ a m, p.marks.lookup a = some m → start < m.endsAt → last < m.endsAt

variable {start last : Nat} {r : Round}

/-! ### The order -/

theorem nodup_unmarked : (p.unmarked now).Nodup := nodup_candidates.filter _

theorem filter_dedup (q : IpAddr → Bool) (addrs : List IpAddr) :
    (dedup addrs).filter q = dedup (addrs.filter q) := by
  have hback : (addrs.filter q).reverse = addrs.reverse.filter q := filter_reverse.symm
  rw [dedup_eq, dedup_eq, hback]
  induction addrs.reverse with
  | nil => rfl
  | cons a l ih =>
    by_cases ha : a ∈ l <;> cases hq : q a <;> simp [ha, hq, ih]

/-- Whatever is marked: the last P-CSCF that worked, the selection, IPv4 and IPv6. -/
def order (p : PcscfPool) : List IpAddr :=
  dedup ((p.lastRegistered.filter p.known).toList ++
    p.selection :: p.pool.filter (!·.isV6) ++ p.pool.filter (·.isV6))

theorem unmarked_eq : p.unmarked now = p.order.filter (!p.isMarked now ·) := by
  unfold unmarked candidates order
  rw [filter_dedup, filter_dedup]
  cases p.lastRegistered with
  | none => rfl
  | some l => cases hknown : p.known l <;> cases hmarked : p.isMarked now l <;>
      simp [Option.filter_some, hknown, hmarked]

theorem Steady.isMarked (h : p.Steady start last) (hnow : start ≤ now ∧ now ≤ last) :
    p.isMarked now = p.isMarked start := by
  funext a
  unfold PcscfPool.isMarked
  cases hm : p.marks.lookup a with
  | none => rfl
  | some m =>
    have := h a m hm
    simp only [Option.any_some, decide_eq_decide]
    omega

/-! ### One attempt -/

/-- The first to be visited is the one selected. -/
theorem choose_visits (h : p.Steady start last) (hr : r.Within start last) :
    match p.visits start with
    | [] => (p.choose r.selectedAt).reason = .allUnavailable
    | a :: rest => (p.choose r.selectedAt).addr = a ∧ rest = (p.unmarked start).filter (· ≠ a) := by
  have hmarked := h.isMarked hr.selected
  have hnext : p.nextEligible r.selectedAt = (p.unmarked start).head? := by
    rw [nextEligible, ← head?_filter, ← unmarked, unmarked_eq, hmarked, ← unmarked_eq]
  unfold visits choose
  rw [hmarked, hnext]
  cases p.active.filter fun a => p.known a && !p.isMarked start a with
  | some a => exact ⟨rfl, rfl⟩
  | none =>
    have hdist : (p.unmarked start).Nodup := nodup_unmarked
    cases hunmarked : p.unmarked start with
    | nil => rfl
    | cons a rest =>
      rw [hunmarked, nodup_cons] at hdist
      refine ⟨rfl, ?_⟩
      rw [filter_cons_of_neg (by simp), eq_comm, filter_eq_self]
      exact fun b hb => decide_eq_true (ne_of_mem_of_not_mem hb hdist.1)

theorem lookup_attempt (hr : r.Within start last) :
    ∃ m : Mark, start + timerF < m.endsAt ∧ ∀ a, (p.attempt r).marks.lookup a =
      if a = (p.choose r.selectedAt).addr then some m else p.marks.lookup a :=
  ⟨_, timerF_lt_markFor hr.pause hr.failed _ _, lookup_onFailure p r.selectedAt r.failedAt r.cause⟩

theorem Steady.attempt (h : p.Steady start last) (hlast : last < start + timerF)
    (hr : r.Within start last) : (p.attempt r).Steady start last := by
  obtain ⟨_, hlong, hlookup⟩ := lookup_attempt hr
  intro a m hm
  rw [hlookup] at hm
  split at hm
  · cases hm
    exact fun _ => Nat.lt_trans hlast hlong
  · exact h a m hm

/-- What is left to visit are the others without a mark. -/
theorem visits_attempt (hr : r.Within start last) :
    (p.attempt r).visits start =
      (p.unmarked start).filter (· ≠ (p.choose r.selectedAt).addr) := by
  obtain ⟨_, hlong, hlookup⟩ := lookup_attempt hr
  have hmarked (a : IpAddr) : (p.attempt r).isMarked start a =
      (a = (p.choose r.selectedAt).addr || p.isMarked start a) := by
    unfold PcscfPool.isMarked
    rw [hlookup]
    split
    case isTrue ha => simp [ha, Nat.lt_of_le_of_lt (Nat.le_add_right start timerF) hlong]
    case isFalse ha => simp [ha]
  have horder : (p.attempt r).order = p.order := by
    rw [attempt, onFailure_of_eq rfl]
    rfl
  have hactive : (p.attempt r).active = some (p.choose r.selectedAt).addr := by
    rw [attempt, onFailure_of_eq rfl]
    rfl
  rw [visits, hactive, Option.filter_some, unmarked_eq, horder, unmarked_eq]
  simp [hmarked]

/-! ### Attempt after attempt -/

theorem visits_perm : (p.visits now).Perm (p.unmarked now) := by
  unfold visits
  cases hactive : p.active.filter fun a => p.known a && !p.isMarked now a with
  | none => rfl
  | some a =>
    have ha : a ∈ p.unmarked now := by
      have := (Option.filter_eq_some_iff.1 hactive).2
      simpa [unmarked, mem_candidates] using this
    simp only [← bne_iff_ne, Bool.decide_eq_true]
    rw [← nodup_unmarked.erase_eq_filter]
    exact (perm_cons_erase ha).symm

theorem selections_visits {rounds : List Round} (h : p.Steady start last)
    (hlast : last < start + timerF) (hw : ∀ r ∈ rounds, r.Within start last) :
    ((p.selections rounds).take (p.visits start).length).map Selection.addr =
        (p.visits start).take rounds.length ∧
      ∀ s ∈ (p.selections rounds).drop (p.visits start).length, s.reason = .allUnavailable := by
  induction rounds generalizing p with
  | nil => simp [selections]
  | cons r rounds ih =>
    rw [forall_mem_cons] at hw
    have hchoose := choose_visits h hw.1
    have hrest := ih (h.attempt hlast hw.1) hw.2
    rw [visits_attempt hw.1] at hrest
    cases hvisits : p.visits start with
    | nil =>
      have hnone : p.unmarked start = [] := by
        rw [← perm_nil, ← hvisits]
        exact visits_perm.symm
      rw [hvisits] at hchoose
      rw [hnone] at hrest
      exact ⟨by simp, by simpa [selections, select, hchoose] using hrest.2⟩
    | cons a rest =>
      rw [hvisits] at hchoose
      obtain ⟨haddr, rfl⟩ := hchoose
      rw [haddr] at hrest
      exact ⟨by simpa [selections, select, haddr] using hrest.1, hrest.2⟩

/-- While no mark from before ends, the attempts go once through the candidates without a mark,
the active one first and the others in their order, and every later one finds all marked. -/
theorem failover_visits_each_first (p : PcscfPool) (start last : Nat) (rounds : List Round)
    (hlast : last < start + timerF) (h : p.Steady start last)
    (hw : ∀ r ∈ rounds, r.Within start last) :
    let m := (p.unmarked start).length
    (p.visits start).Perm (p.unmarked start) ∧ (p.visits start).Nodup ∧
    ((p.selections rounds).take m).map Selection.addr = (p.visits start).take rounds.length ∧
    ∀ s ∈ (p.selections rounds).drop m, s.reason = .allUnavailable := by
  have hrun := selections_visits h hlast hw
  rw [visits_perm.length_eq] at hrun
  exact ⟨visits_perm, visits_perm.nodup_iff.2 nodup_unmarked, hrun⟩

/-- Two that time out at once, one after the other. -/
def timedOut (t : Nat) : Round := ⟨t, t, .registerTimeout⟩

theorem timedOut_within {t : Nat} (h : t ≤ 2) : (timedOut t).Within 0 2 where
  selected := ⟨Nat.zero_le t, h⟩
  failed := Nat.zero_le t
  pause := by
    intro pause hcause
    cases hcause

theorem failover_visits_each_first_two :
    let selected := (new first [first, second] none).selections [timedOut 0, timedOut 1, timedOut 2]
    selected.map Selection.reason = [.startup, .failover, .allUnavailable] ∧
      (selected.take 2).map Selection.addr = [first, second] := by
  refine ⟨by decide, (failover_visits_each_first (new first [first, second] none) 0 2
    [timedOut 0, timedOut 1, timedOut 2] (by decide) ?_ ?_).2.2.1⟩
  · intro a m hm
    cases hm
  · simp only [forall_mem_cons]
    exact ⟨timedOut_within (by decide), timedOut_within (by decide), timedOut_within (by decide),
      forall_mem_nil _⟩

/-- A mark from before ends after one attempt, and its P-CSCF is selected next: not as the last
resort, though the only candidate without a mark at the start has been visited. -/
theorem ended_mark_visited :
    let p := (new second [first, second] none).attempt (timedOut 0)
    p.unmarked 329999 = [first] ∧ p.selections [timedOut 329999, timedOut 330000] =
      [⟨first, .failover⟩, ⟨second, .failover⟩] := by
  decide

end Ims.PcscfPool
