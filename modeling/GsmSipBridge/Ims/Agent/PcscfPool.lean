-- SUMMARY: The advertised P-CSCFs and their marks (`ims/agent/pcscf_pool.rs`).
import Mathlib.Data.List.Dedup
import Mathlib.Data.List.MinMax
import GsmSipBridge.Lib.Assoc
import GsmSipBridge.Lib.IpText
import GsmSipBridge.Ims.Agent.Registration
import GsmSipBridge.Lib.Trace

/-!
# The pool of P-CSCFs

A line registers through one of the P-CSCFs it was given. A failure of the P-CSCF itself marks it
for a while, and the next attempt goes through another one. The clock is the wall clock, in
milliseconds since the epoch, and comes with every call. The state file of an earlier run is what
`new` is given; writing it is left out.
-/

namespace Ims.PcscfPool

open Text

def secs (n : Nat) : Nat := n * 1000

def markBase : Nat := secs 30
def markCap : Nat := secs 1800
def markExtra : Nat := secs 300
def farFuture : Nat := secs (100 * 365 * 24 * 3600)
def poolStateVersion : Nat := 1

/-- The last moment that a `SystemTime` can name, to the millisecond. -/
def maxTime : Nat := (2 ^ 63 - 1) * 1000 + 999

def checkedAdd (now delay : Nat) : Option Nat :=
  if now + delay ≤ maxTime then some (now + delay) else none

inductive FailureCause where
  | registerTimeout
  | transport
  | endpointFailure (cause : Text)
  | gmKeepalive
  | retryAfter (pause : Nat)
  deriving DecidableEq

def retryAfterCause : Text := "retry-after"

def FailureCause.display : FailureCause → Text
  | .registerTimeout => "register-timeout"
  | .transport => "transport"
  | .endpointFailure cause => "endpoint-failure:" ++ cause
  | .gmKeepalive => "gm-keepalive"
  | .retryAfter _ => retryAfterCause

/-- The causes that a failed registration can have. -/
def FailureCause.ofRegister : Registration.FailureCause → FailureCause
  | .registerTimeout => .registerTimeout
  | .transport => .transport
  | .retryAfter pause => .retryAfter pause

def causeOf (f : Registration.RegisterFailure) : Option FailureCause :=
  (Registration.causeOf f).map .ofRegister

/-- Everything but an answer may have been the path. -/
def couldBeThePath (cause : Text) : Bool := cause != retryAfterCause

inductive SelectReason where
  | startup
  | sticky
  | failover
  | poolReplaced
  | allUnavailable
  deriving DecidableEq, Repr

structure Selection where
  addr : IpAddr
  reason : SelectReason
  deriving DecidableEq

structure Mark where
  /-- `until` in the source. -/
  endsAt : Nat
  failures : UInt32
  cause : Text
  markedAt : Nat
  deriving DecidableEq

def markDuration (failures : UInt32) : Nat :=
  let doublings := min (failures.toNat - 1) 16
  min (markBase * 2 ^ doublings) markCap + markExtra

structure Outage where
  start : Nat
  stop : Nat
  deriving DecidableEq

/-- By whole seconds. -/
def Outage.contains (o : Outage) (t : Nat) : Bool := o.start ≤ t / 1000 && t / 1000 ≤ o.stop

structure PoolStateMark where
  addr : IpAddr
  untilUnix : Nat
  failures : UInt32
  cause : Text
  markedAtUnix : Nat
  deriving DecidableEq

/-- What an earlier run has left. -/
structure PoolState where
  version : Nat
  lastRegistered : Option IpAddr
  marks : List PoolStateMark
  deriving DecidableEq

/-- Without the later copies of an address. -/
def dedup (addrs : List IpAddr) : List IpAddr :=
  addrs.foldl (fun out a => if out.contains a then out else out ++ [a]) []

end PcscfPool

structure PcscfPool where
  pool : List IpAddr
  /-- The supervisor's single selection. -/
  selection : IpAddr
  active : Option IpAddr := none
  lastRegistered : Option IpAddr := none
  marks : AList fun _ : IpAddr => PcscfPool.Mark := ∅
  lastSelected : Option IpAddr := none
  activeReplaced : Bool := false

namespace PcscfPool

variable (p : PcscfPool) (now : Nat)

def known (addr : IpAddr) : Bool := addr == p.selection || p.pool.contains addr

def isMarked (addr : IpAddr) : Bool := (p.marks.lookup addr).any (now < ·.endsAt)

/-! ## The state file -/

def loadMark (m : PoolStateMark) : PcscfPool :=
  match checkedAdd 0 (secs m.untilUnix) with
  | none => p
  | some endsAt =>
    if p.known m.addr then
      { p with
        marks := p.marks.insert m.addr
          { endsAt, failures := m.failures, cause := m.cause
            markedAt := (checkedAdd 0 (secs m.markedAtUnix)).getD 0 } }
    else p

/-- Without a file, or with one that cannot be read, the state is left as it is. -/
def load (state : Option PoolState) : PcscfPool :=
  match state with
  | none => p
  | some persisted =>
    if persisted.version ≠ poolStateVersion then p
    else
      persisted.marks.foldl loadMark
        { p with lastRegistered := persisted.lastRegistered.filter p.known }

/-- An empty pool stands for the selection alone. -/
def published (selection : IpAddr) (pool : List IpAddr) : List IpAddr :=
  dedup (if pool.isEmpty then [selection] else pool)

def new (selection : IpAddr) (pool : List IpAddr) (state : Option PoolState) : PcscfPool :=
  { pool := published selection pool, selection : PcscfPool }.load state

/-! ## Selection -/

def candidates : List IpAddr :=
  dedup ((p.lastRegistered.filter fun l => p.known l && !p.isMarked now l).toList ++
    p.selection :: p.pool.filter (!·.isV6) ++ p.pool.filter (·.isV6))

def nextEligible : Option IpAddr := (p.candidates now).find? (!p.isMarked now ·)

def hasUnmarked : Bool := (p.candidates now).any (!p.isMarked now ·)

/-- How long the mark of an address lasts; nothing if it has none. -/
def remaining (addr : IpAddr) : Nat := ((p.marks.lookup addr).map (·.endsAt - now)).getD 0

def soonestExpiry : Nat := (((p.candidates now).map (p.remaining now)).min?).getD 0

/-- When the mark of an address ends; an address without one comes first. -/
def endOf (addr : IpAddr) : WithBot Nat := (p.marks.lookup addr).map (·.endsAt)

/-- The active one while it is eligible, then the first eligible candidate, then the one whose
mark ends first. -/
def choose : Selection :=
  match p.active.filter fun a => p.known a && !p.isMarked now a with
  | some addr => { addr, reason := .sticky }
  | none =>
    match p.nextEligible now with
    | some addr =>
      { addr
        reason := if p.activeReplaced then .poolReplaced
          else if p.active.isSome then .failover else .startup }
    | none =>
      { addr := ((p.candidates now).argmin p.endOf).getD p.selection, reason := .allUnavailable }

def select : PcscfPool × Selection :=
  ({ p with
      active := some (p.choose now).addr
      lastSelected := some (p.choose now).addr
      activeReplaced := false }, p.choose now)

/-! ## Failures and successes -/

def markFor (addr : IpAddr) (cause : FailureCause) : Mark :=
  let failures := ((p.marks.lookup addr).map Mark.failures).getD 0 + 1
  let unavailable := match cause with
    | .retryAfter pause => pause
    | _ => markDuration failures
  { endsAt := (checkedAdd now unavailable).getD (now + farFuture)
    failures
    cause := cause.display
    markedAt := now }

/-- Only the active P-CSCF is marked. -/
def onFailure (addr : IpAddr) (cause : FailureCause) : PcscfPool × Option Mark :=
  if p.active ≠ some addr then (p, none)
  else
    ({ p with marks := p.marks.insert addr (p.markFor now addr cause) },
      some (p.markFor now addr cause))

def onRegistered (addr : IpAddr) : PcscfPool :=
  { p with
    active := some addr
    lastSelected := some addr
    lastRegistered := some addr
    marks := p.marks.erase addr }

def replacePool (pool : List IpAddr) (selection : IpAddr) : PcscfPool × Bool :=
  let pool := published selection pool
  if pool.length = p.pool.length ∧ (∀ a ∈ pool, a ∈ p.pool) ∧ selection = p.selection then (p, false)
  else
    let p := { p with pool, selection }
    ({ p with
        marks := p.marks.retain fun a _ => p.known a
        lastRegistered := p.lastRegistered.filter p.known
        active := p.active.filter p.known
        activeReplaced := p.activeReplaced || p.active.any (!p.known ·) }, true)

/-- How many marks went, too. -/
def forgetOutage (outage : Option Outage) : PcscfPool × Nat :=
  match outage with
  | none => (p, 0)
  | some outage =>
    let marks := p.marks.retain fun _ m => !(outage.contains m.markedAt && couldBeThePath m.cause)
    ({ p with marks }, p.marks.entries.length - marks.entries.length)

/-! ## The candidates -/

/-- The first copies are the last ones from the back. -/
theorem dedup_eq (addrs : List IpAddr) : dedup addrs = addrs.reverse.dedup.reverse := by
  induction addrs using List.reverseRecOn with
  | nil => rfl
  | append_singleton addrs a ih =>
    rw [dedup, List.foldl_append, ← dedup, ih, List.reverse_append, List.reverse_singleton,
      List.singleton_append]
    by_cases ha : a ∈ addrs <;> simp [ha]

theorem mem_dedup {addrs : List IpAddr} {a : IpAddr} : a ∈ dedup addrs ↔ a ∈ addrs := by
  rw [dedup_eq, List.mem_reverse, List.mem_dedup, List.mem_reverse]

theorem nodup_dedup (addrs : List IpAddr) : (dedup addrs).Nodup := by
  rw [dedup_eq, List.nodup_reverse]
  exact List.nodup_dedup _

variable {p now} {a : IpAddr}

theorem known_iff : p.known a = true ↔ a = p.selection ∨ a ∈ p.pool := by simp [known]

/-- The candidates are the known addresses, whatever the time. -/
theorem mem_candidates : a ∈ p.candidates now ↔ p.known a = true := by
  rw [candidates, mem_dedup, known_iff]
  constructor
  · intro h
    simp only [List.mem_append, List.mem_cons, Option.mem_toList, List.mem_filter] at h
    rcases h with (hlast | rfl | hv4) | hv6
    · have hknown := (Option.filter_eq_some_iff.1 hlast).2
      exact known_iff.1 (Bool.and_eq_true_iff.1 hknown).1
    · exact .inl rfl
    · exact .inr hv4.1
    · exact .inr hv6.1
  · rintro (rfl | h)
    · simp
    · cases hv6 : a.isV6 with
      | true | false => simp [h, hv6]

theorem nodup_candidates : (p.candidates now).Nodup := nodup_dedup _

theorem candidates_ne_nil : p.candidates now ≠ [] :=
  List.ne_nil_of_mem (mem_candidates.2 (known_iff.2 (.inl rfl)))

/-! ## The choice -/

theorem nextEligible_spec (h : p.nextEligible now = some a) :
    p.known a = true ∧ p.isMarked now a = false := by
  refine ⟨mem_candidates.1 (List.mem_of_find?_eq_some h), ?_⟩
  simpa using List.find?_some h

theorem nextEligible_eq_none : p.nextEligible now = none ↔
    ∀ a, p.known a = true → p.isMarked now a = true := by
  simp [nextEligible, List.find?_eq_none, mem_candidates]

/-- What is chosen, and why. -/
inductive Chosen (p : PcscfPool) (now : Nat) (choice : Selection) : Prop where
  | sticky (hreason : choice.reason ≠ .allUnavailable) (hactive : p.active = some choice.addr)
      (hknown : p.known choice.addr = true) (hunmarked : p.isMarked now choice.addr = false)
  | eligible (hreason : choice.reason ≠ .allUnavailable)
      (hnext : p.nextEligible now = some choice.addr)
  | soonest (hreason : choice.reason = .allUnavailable) (hknown : p.known choice.addr = true)
      (hall : ∀ b, p.known b = true → p.isMarked now b = true)
      (hsoonest : ∀ b, p.known b = true → p.endOf choice.addr ≤ p.endOf b)

theorem choose_chosen (p : PcscfPool) (now : Nat) : Chosen p now (p.choose now) := by
  unfold choose
  split
  case h_1 a h =>
    obtain ⟨hactive, hkeep⟩ := Option.filter_eq_some_iff.1 h
    obtain ⟨hknown, hfree⟩ := Bool.and_eq_true_iff.1 hkeep
    exact .sticky nofun hactive hknown (by simpa using hfree)
  case h_2 =>
    split
    case h_1 a h =>
      refine .eligible ?_ h
      split
      · exact nofun
      · split <;> exact nofun
    case h_2 h =>
      cases ha : (p.candidates now).argmin p.endOf with
      | none => exact absurd (List.argmin_eq_none.1 ha) candidates_ne_nil
      | some a =>
        refine .soonest rfl (mem_candidates.1 (List.argmin_mem ha)) (nextEligible_eq_none.1 h) ?_
        intro b hb
        exact List.le_of_mem_argmin (mem_candidates.2 hb) ha

/-! ## What the pool speaks of

Marks, the last P-CSCF that worked and the active one are of the current pool or the supervisor's
selection. A replaced pool drops what it no longer has; only a success that is reported for an
address that was dropped meanwhile could bring one back. -/

variable {state : Option PoolState} {cause : FailureCause}

structure Consistent (p : PcscfPool) : Prop where
  marks : ∀ a m, p.marks.lookup a = some m → p.known a = true
  lastRegistered : ∀ a, p.lastRegistered = some a → p.known a = true
  active : ∀ a, p.active = some a → p.known a = true

/-! ### Runs -/

inductive Op where
  | select (now : Nat)
  | onFailure (addr : IpAddr) (cause : FailureCause) (now : Nat)
  | onRegistered (addr : IpAddr)
  | replacePool (pool : List IpAddr) (selection : IpAddr)
  | forgetOutage (outage : Option Outage)
  deriving DecidableEq

def step (p : PcscfPool) : Op → PcscfPool
  | .select now => (p.select now).1
  | .onFailure addr cause now => (p.onFailure now addr cause).1
  | .onRegistered addr => p.onRegistered addr
  | .replacePool pool selection => (p.replacePool pool selection).1
  | .forgetOutage outage => (p.forgetOutage outage).1

/-- A success is reported for an address that the pool still has. -/
def StillKnown (p : PcscfPool) (op : Op) : Prop :=
  ∀ addr, op = .onRegistered addr → p.known addr = true

/-- A success is reported for the address selected last. -/
def LastSelected (p : PcscfPool) (op : Op) : Prop :=
  ∀ addr, op = .onRegistered addr → p.lastSelected = some addr

/-! ### The state file -/

/-- A mark of an address that is known. -/
theorem Consistent.mark (h : Consistent p) (hknown : p.known a = true) (m : Mark) :
    Consistent { p with marks := p.marks.insert a m } := by
  refine ⟨fun b m' hm => ?_, h.lastRegistered, h.active⟩
  by_cases hb : b = a
  · rw [hb]
    exact hknown
  · rw [AList.lookup_insert_ne hb] at hm
    exact h.marks b m' hm

theorem Consistent.loadMark (h : Consistent p) (m : PoolStateMark) : Consistent (p.loadMark m) := by
  unfold PcscfPool.loadMark
  split
  · exact h
  · split
    case isTrue hknown => exact h.mark hknown _
    case isFalse => exact h

theorem consistent_load (h : Consistent p) : Consistent (p.load state) := by
  unfold load
  split
  · exact h
  split
  · exact h
  have hloaded : ∀ (marks : List PoolStateMark) (p : PcscfPool), Consistent p →
      Consistent (marks.foldl PcscfPool.loadMark p) := by
    intro marks
    induction marks with
    | nil => exact fun _ hp => hp
    | cons m marks ih => exact fun p hp => ih _ (hp.loadMark m)
  apply hloaded
  exact ⟨h.marks, fun a ha => (Option.filter_eq_some_iff.1 ha).2, h.active⟩

theorem consistent_new (selection : IpAddr) (pool : List IpAddr) :
    Consistent (new selection pool state) :=
  consistent_load ⟨fun _ _ h => by simp at h, fun _ h => by simp at h, fun _ h => by simp at h⟩

/-! ### One operation -/

theorem known_choose : p.known (p.choose now).addr = true := by
  cases choose_chosen p now with
  | sticky _ _ hknown | soonest _ hknown => exact hknown
  | eligible _ hnext => exact (nextEligible_spec hnext).1

theorem Consistent.select (h : Consistent p) (now : Nat) : Consistent (p.select now).1 := by
  refine ⟨h.marks, h.lastRegistered, fun a ha => ?_⟩
  obtain rfl : (p.choose now).addr = a := Option.some.inj ha
  exact known_choose

theorem onFailure_of_ne (h : p.active ≠ some a) : p.onFailure now a cause = (p, none) := by
  simp [onFailure, h]

theorem onFailure_of_eq (h : p.active = some a) :
    p.onFailure now a cause = ({ p with marks := p.marks.insert a (p.markFor now a cause) },
      some (p.markFor now a cause)) :=
  if_neg (not_not.2 h)

section

variable (h : Consistent p)

include h

theorem Consistent.onFailure (addr : IpAddr) (cause : FailureCause) (now : Nat) :
    Consistent (p.onFailure now addr cause).1 := by
  by_cases hactive : p.active = some addr
  · rw [onFailure_of_eq hactive]
    exact h.mark (h.active addr hactive) _
  · rw [onFailure_of_ne hactive]
    exact h

theorem Consistent.onRegistered {addr : IpAddr} (hknown : p.known addr = true) :
    Consistent (p.onRegistered addr) := by
  refine ⟨fun a m hm => h.marks a m (AList.lookup_of_erase hm), fun a ha => ?_, fun a ha => ?_⟩
  · cases ha
    exact hknown
  · cases ha
    exact hknown

/-- A pool that is replaced drops what it no longer has. -/
theorem Consistent.replacePool (pool : List IpAddr) (selection : IpAddr) :
    Consistent (p.replacePool pool selection).1 := by
  unfold PcscfPool.replacePool
  simp only
  split
  · exact h
  refine ⟨fun a m hm => ?_, fun a ha => ?_, fun a ha => ?_⟩
  · rw [AList.lookup_retain] at hm
    exact (Option.filter_eq_some_iff.1 hm).2
  · exact (Option.filter_eq_some_iff.1 ha).2
  · exact (Option.filter_eq_some_iff.1 ha).2

theorem Consistent.forgetOutage (outage : Option Outage) :
    Consistent (p.forgetOutage outage).1 := by
  cases outage with
  | none => exact h
  | some outage =>
    refine ⟨fun a m hm => ?_, h.lastRegistered, h.active⟩
    have hm := (AList.lookup_retain ..).symm.trans hm
    exact h.marks a m (Option.filter_eq_some_iff.1 hm).1

theorem Consistent.step {op : Op} (hop : StillKnown p op) : Consistent (step p op) := by
  cases op with
  | select now => exact h.select now
  | onFailure addr cause now => exact h.onFailure addr cause now
  | onRegistered addr => exact h.onRegistered (hop addr rfl)
  | replacePool pool selection => exact h.replacePool pool selection
  | forgetOutage outage => exact h.forgetOutage outage

end

/-! ### The choice -/

theorem hasUnmarked_iff : p.hasUnmarked now = true ↔
    ∃ a, p.known a = true ∧ p.isMarked now a = false := by
  simp [hasUnmarked, mem_candidates]

theorem reason_of_allMarked (h : p.hasUnmarked now = false) :
    (p.choose now).reason = .allUnavailable := by
  have hall : ∀ b, p.known b = true → p.isMarked now b = true := by
    intro b hb
    by_contra hfree
    have := hasUnmarked_iff.2 ⟨b, hb, by simpa using hfree⟩
    simp [h] at this
  cases choose_chosen p now with
  | sticky _ _ hknown hfree => simp [hall _ hknown] at hfree
  | eligible _ hnext =>
    obtain ⟨hknown, hfree⟩ := nextEligible_spec hnext
    simp [hall _ hknown] at hfree
  | soonest hreason => exact hreason

theorem unmarked_choose (h : p.hasUnmarked now = true) :
    p.isMarked now (p.choose now).addr = false := by
  obtain ⟨b, hknown, hfree⟩ := hasUnmarked_iff.1 h
  cases choose_chosen p now with
  | sticky _ _ _ hfree => exact hfree
  | eligible _ hnext => exact (nextEligible_spec hnext).2
  | soonest _ _ hall => simp [hall b hknown] at hfree

theorem choose_active (hactive : p.active = some a) (hknown : p.known a = true)
    (hfree : p.isMarked now a = false) : (p.choose now).addr = a := by
  have hkept : (p.active.filter fun a => p.known a && !p.isMarked now a) = some a :=
    Option.filter_eq_some_iff.2 ⟨hactive, by simp [hknown, hfree]⟩
  simp [choose, hkept]

/-- Of what is marked, how long it lasts is when it ends. -/
theorem endsAt_of_isMarked (h : p.isMarked now a = true) :
    ∃ m, p.marks.lookup a = some m ∧ m.endsAt = now + p.remaining now a := by
  obtain ⟨m, hm, hlater⟩ := (Option.any_eq_true ..).1 h
  refine ⟨m, hm, ?_⟩
  have hlater : now < m.endsAt := by simpa using hlater
  simp only [remaining, hm, Option.map_some, Option.getD_some]
  omega

theorem soonest_choose (h : p.hasUnmarked now = false) :
    ∃ m, p.marks.lookup (p.choose now).addr = some m ∧ m.endsAt = now + p.soonestExpiry now := by
  cases choose_chosen p now with
  | sticky hreason | eligible hreason => exact absurd (reason_of_allMarked h) hreason
  | soonest _ hknown hall hsoonest =>
    obtain ⟨m, hm, hends⟩ := endsAt_of_isMarked (hall _ hknown)
    -- The candidate with the first end is the one with the least left.
    have hleast : ((p.candidates now).map (p.remaining now)).min? =
        some (p.remaining now (p.choose now).addr) := by
      rw [List.min?_eq_some_iff]
      refine ⟨List.mem_map_of_mem (mem_candidates.2 hknown), ?_⟩
      intro r hr
      obtain ⟨b, hb, rfl⟩ := List.mem_map.1 hr
      have hbknown := mem_candidates.1 hb
      obtain ⟨m', hm', hends'⟩ := endsAt_of_isMarked (hall b hbknown)
      have hle := hsoonest b hbknown
      simp only [endOf, hm, hm', Option.map_some] at hle
      have hle : m.endsAt ≤ m'.endsAt := WithBot.coe_le_coe.1 hle
      omega
    exact ⟨m, hm, by rw [hends, soonestExpiry, hleast, Option.getD_some]⟩

/-- What the pool speaks of is known to it throughout, and in any state it chooses well and marks
nothing but the active P-CSCF. -/
theorem pool_consistent_throughout :
    (∀ selection pool state ops, Trace.Each step StillKnown (new selection pool state) ops →
      Trace.Always step Consistent (new selection pool state) ops) ∧
    ∀ (p : PcscfPool) (now : Nat), p.known (p.select now).2.addr = true ∧
      (p.hasUnmarked now = true → p.isMarked now (p.select now).2.addr = false) ∧
      (∀ a, p.active = some a → p.known a = true → p.isMarked now a = false →
        (p.select now).2.addr = a) ∧
      (p.hasUnmarked now = false → ∃ m, p.marks.lookup (p.select now).2.addr = some m ∧
        m.endsAt = now + p.soonestExpiry now) ∧
      ∀ addr cause, p.active ≠ some addr → (p.onFailure now addr cause).1 = p := by
  refine ⟨fun selection pool state ops h => ?_, fun p now => ⟨known_choose, unmarked_choose,
    fun a => choose_active, soonest_choose, fun addr cause hne => ?_⟩⟩
  · exact h.always (fun _ => id) (fun _ _ hp => hp.step) (consistent_new selection pool)
  · rw [onFailure_of_ne hne]

/-- Two P-CSCFs. -/
def first : IpAddr := .v4 10 0 0 1
def second : IpAddr := .v4 10 0 0 2

theorem pool_consistent_throughout_selected :
    Trace.Always step Consistent (new first [first, second] none) [.select 0, .onRegistered first] := by
  apply pool_consistent_throughout.1
  refine ⟨nofun, ?_, trivial⟩
  intro addr haddr
  cases haddr
  decide

/-- The pool is replaced while a registration through the first one is on its way. -/
def replacedMeanwhile : List Op :=
  [.select 0, .replacePool [second] second, .onRegistered first]

theorem late_success_of_dropped_address :
    ¬ ∀ selection pool state ops, Trace.Each step LastSelected (new selection pool state) ops →
      Trace.Always step Consistent (new selection pool state) ops := by
  intro h
  have hsuccess : LastSelected (step (step (new first [first, second] none) (.select 0))
      (.replacePool [second] second)) (.onRegistered first) := by
    intro addr haddr
    cases haddr
    decide
  obtain ⟨-, -, -, hlast⟩ := h first [first, second] none replacedMeanwhile
    ⟨nofun, nofun, hsuccess, trivial⟩
  exact absurd (hlast.active first rfl) (by decide)

end Ims.PcscfPool
