-- SUMMARY: The Gm security associations (`ims/gm_ipsec.rs`), staged, switched over and removed.
import GsmSipBridge.Lib.IpText
import GsmSipBridge.Lib.Assoc

/-!
# Gm security associations

A generation of associations is four ESP states and sixteen policies in the kernel. A refresh
stages the next generation beside the working one, switches over once it is confirmed, and
removes the old one after a drain. The kernel is a table in which a selector holds one policy;
the keys of a state are left out.
-/

namespace Ims.GmIpsec

/-- Our half of the negotiation. -/
structure SaProposal where
  spiC : UInt32
  spiS : UInt32
  portC : UInt16
  portS : UInt16
  deriving DecidableEq

/-- The network's half. -/
structure SecurityServerParams where
  spiC : UInt32
  spiS : UInt32
  portC : UInt16
  portS : UInt16
  deriving DecidableEq

structure GmEndpoints where
  localC : SocketAddr
  localS : SocketAddr
  remoteC : SocketAddr
  remoteS : SocketAddr
  deriving DecidableEq

def GmEndpoints.new (localIp remoteIp : IpAddr) (ours : SaProposal) (theirs : SecurityServerParams) :
    GmEndpoints where
  localC := ⟨localIp, ours.portC⟩
  localS := ⟨localIp, ours.portS⟩
  remoteC := ⟨remoteIp, theirs.portC⟩
  remoteS := ⟨remoteIp, theirs.portS⟩

structure StateSpec where
  src : IpAddr
  dst : IpAddr
  spi : UInt32
  deriving DecidableEq

inductive Proto where
  | tcp
  | udp
  deriving DecidableEq

/-- What the kernel keys a policy on. -/
structure Selector where
  src : SocketAddr
  dst : SocketAddr
  proto : Proto
  dirIn : Bool
  deriving DecidableEq

structure PolicySpec where
  selector : Selector
  /-- The template's SPI, `none` for any. -/
  spi : Option UInt32
  deriving DecidableEq

/-! ## The kernel -/

structure Table where
  states : StateSpec → Bool
  policies : Selector → Option (Option UInt32)

inductive Op where
  | stateAdd (s : StateSpec)
  | stateDel (s : StateSpec)
  | policyAdd (p : PolicySpec)
  | policyUpdate (p : PolicySpec)
  | policyDel (p : PolicySpec)
  deriving DecidableEq

open Function

/-- What is there cannot be added, and what is not cannot be updated or deleted. -/
def Table.exec (t : Table) : Op → Option Table
  | .stateAdd s => if t.states s then none else some { t with states := update t.states s true }
  | .stateDel s => if t.states s then some { t with states := update t.states s false } else none
  | .policyAdd p =>
    if (t.policies p.selector).isSome then none
    else some { t with policies := update t.policies p.selector (some p.spi) }
  | .policyUpdate p =>
    if (t.policies p.selector).isSome then
      some { t with policies := update t.policies p.selector (some p.spi) }
    else none
  | .policyDel p =>
    if (t.policies p.selector).isSome then
      some { t with policies := update t.policies p.selector none }
    else none

/-- The table, and the tables after every operation so far, the latest first. -/
structure Kernel where
  table : Table
  log : List Table := []

def Kernel.run (k : Kernel) (op : Op) : Option Kernel :=
  (k.table.exec op).map fun t => ⟨t, t :: k.log⟩

/-- An operation on the way forward, which may also fail for a reason of its own. -/
def Kernel.forward (fault : Op → Bool) (k : Kernel) (op : Op) : Option Kernel :=
  if fault op then none else k.run op

/-- An operation whose failure is only logged. -/
def Kernel.attempt (k : Kernel) (op : Op) : Kernel := (k.run op).getD k

def Kernel.attemptAll (k : Kernel) (ops : List Op) : Kernel := ops.foldl Kernel.attempt k

/-! ## One generation -/

structure SaSet where
  endpoints : GmEndpoints
  ours : SaProposal
  theirs : SecurityServerParams
  deriving DecidableEq

namespace SaSet

variable (g : SaSet)

def states : List StateSpec :=
  let (e, o, t) := (g.endpoints, g.ours, g.theirs)
  [⟨e.localC.ip, e.remoteS.ip, t.spiS⟩, ⟨e.localS.ip, e.remoteC.ip, t.spiC⟩,
    ⟨e.remoteC.ip, e.localS.ip, o.spiS⟩, ⟨e.remoteS.ip, e.localC.ip, o.spiC⟩]

/-- Every combination of our two ports with theirs. -/
def policiesFor (proto : Proto) : List PolicySpec :=
  let (e, o, t) := (g.endpoints, g.ours, g.theirs)
  let policy (src dst : SocketAddr) (spi : UInt32) (dirIn : Bool) : PolicySpec :=
    ⟨⟨src, dst, proto, dirIn⟩, some spi⟩
  [policy e.localC e.remoteS t.spiS false, policy e.localS e.remoteC t.spiC false,
    policy e.remoteC e.localS o.spiS true, policy e.remoteS e.localC o.spiC true,
    policy e.localC e.remoteC t.spiC false, policy e.localS e.remoteS t.spiS false,
    policy e.remoteC e.localC o.spiC true, policy e.remoteS e.localS o.spiS true]

def policies : List PolicySpec := g.policiesFor .tcp ++ g.policiesFor .udp

/-- The policy of a selector. -/
def find (sel : Selector) : Option PolicySpec := g.policies.find? (·.selector == sel)

end SaSet

/-! ## Staging -/

structure StagedSas where
  old : SaSet
  new : SaSet
  states : List StateSpec := []
  added : List PolicySpec := []
  /-- Inbound policies widened to any SPI, as the old generation has them. -/
  widened : List PolicySpec := []
  /-- Outbound policies to repoint, with what the old generation has. -/
  repoint : List (PolicySpec × PolicySpec) := []
  deriving DecidableEq

structure RetiredSas where
  states : List StateSpec
  policies : List PolicySpec
  deriving DecidableEq

namespace StagedSas

variable (fault : Op → Bool)

def installState (p : StagedSas × Kernel) (state : StateSpec) :
    Except (StagedSas × Kernel) (StagedSas × Kernel) :=
  match p.2.forward fault (.stateAdd state) with
  | none => .error p
  | some k => .ok ({ p.1 with states := p.1.states ++ [state] }, k)

/-- A selector that both generations use holds one policy: inbound it is widened at once, and
outbound it is repointed at the switch. -/
def installPolicy (p : StagedSas × Kernel) (policy : PolicySpec) :
    Except (StagedSas × Kernel) (StagedSas × Kernel) :=
  match p.1.old.find policy.selector with
  | none =>
    match p.2.forward fault (.policyAdd policy) with
    | none => .error p
    | some k => .ok ({ p.1 with added := p.1.added ++ [policy] }, k)
  | some current =>
    if policy.selector.dirIn then
      match p.2.forward fault (.policyUpdate { policy with spi := none }) with
      | none => .error p
      | some k => .ok ({ p.1 with widened := p.1.widened ++ [current] }, k)
    else .ok ({ p.1 with repoint := p.1.repoint ++ [(policy, current)] }, p.2)

def install (p : StagedSas × Kernel) : Except (StagedSas × Kernel) (StagedSas × Kernel) :=
  (p.1.new.states.foldlM (installState fault) p).bind fun q =>
    q.1.new.policies.foldlM (installPolicy fault) q

def rollBack (s : StagedSas) (k : Kernel) : Kernel :=
  ((k.attemptAll (s.added.map .policyDel)).attemptAll (s.widened.map .policyUpdate)).attemptAll
    (s.states.map .stateDel)

/-- A failure part-way undoes what was done. -/
def stage (k : Kernel) (old new : SaSet) : Kernel × Option StagedSas :=
  if new.states.any old.states.contains then (k, none)
  else
    match install fault ({ old, new }, k) with
    | .ok (staged, k) => (k, some staged)
    | .error (staged, k) => (staged.rollBack k, none)

/-- The selectors in turn; those moved so far go back if one cannot be. -/
def repointAll : List (PolicySpec × PolicySpec) → List (PolicySpec × PolicySpec) → Kernel →
    Kernel × Bool
  | _, [], k => (k, true)
  | moved, (new, was) :: rest, k =>
    match k.forward fault (.policyUpdate new) with
    | some k => repointAll (moved ++ [(new, was)]) rest k
    | none => (k.attemptAll (moved.map fun m => .policyUpdate m.2), false)

/-- What only the old generation used. -/
def retire (s : StagedSas) : RetiredSas where
  states := s.old.states
  policies := s.old.policies.filter fun o => (s.new.find o.selector).isNone

/-- Without success the staged generation is dropped. -/
def activate (s : StagedSas) (k : Kernel) : Kernel × Option RetiredSas :=
  match repointAll fault [] s.repoint k with
  | (k, true) => (k, some s.retire)
  | (k, false) => (s.rollBack k, none)

end StagedSas

def RetiredSas.remove (r : RetiredSas) (k : Kernel) : Kernel :=
  (k.attemptAll (r.policies.map .policyDel)).attemptAll (r.states.map .stateDel)

/-! ## Operations that are only attempted -/

section Attempts

variable {k : Kernel}

/-- Taking away what is not there changes nothing. -/
theorem update_absent {α β : Type} [DecidableEq α] {f : α → β} {a : α} {b : β} (h : f a = b) :
    update f a b = f := by
  rw [← h, update_eq_self]

theorem attempt_stateDel (s : StateSpec) :
    (k.attempt (.stateDel s)).table =
      ⟨update k.table.states s false, k.table.policies⟩ := by
  unfold Kernel.attempt Kernel.run Table.exec
  cases h : k.table.states s with
  | true => simp [h]
  | false => simp [h, update_absent h]

theorem attempt_policyDel (p : PolicySpec) :
    (k.attempt (.policyDel p)).table =
      ⟨k.table.states, update k.table.policies p.selector none⟩ := by
  unfold Kernel.attempt Kernel.run Table.exec
  cases h : k.table.policies p.selector with
  | some spi => simp [h]
  | none => simp [h, update_absent h]

theorem attempt_policyUpdate (p : PolicySpec) :
    (k.attempt (.policyUpdate p)).table =
      ⟨k.table.states, update k.table.policies p.selector
        ((k.table.policies p.selector).map fun _ => p.spi)⟩ := by
  unfold Kernel.attempt Kernel.run Table.exec
  cases h : k.table.policies p.selector with
  | some spi => simp [h]
  | none => simp [h, update_absent h]

theorem attemptAll_cons (op : Op) (ops : List Op) :
    k.attemptAll (op :: ops) = (k.attempt op).attemptAll ops := rfl

/-- Deleted states are gone and nothing else. -/
theorem table_stateDel (states : List StateSpec) (k : Kernel) :
    (k.attemptAll (states.map .stateDel)).table =
      ⟨fun s => k.table.states s && !states.contains s, k.table.policies⟩ := by
  induction states generalizing k with
  | nil => simp [Kernel.attemptAll]
  | cons a states ih =>
    rw [List.map_cons, attemptAll_cons, ih, attempt_stateDel]
    congr 1
    funext s
    by_cases hs : s = a <;> simp [hs]

theorem table_policyDel (policies : List PolicySpec) (k : Kernel) :
    (k.attemptAll (policies.map .policyDel)).table =
      ⟨k.table.states, fun sel =>
        if policies.any (·.selector == sel) then none else k.table.policies sel⟩ := by
  induction policies generalizing k with
  | nil => simp [Kernel.attemptAll]
  | cons a policies ih =>
    rw [List.map_cons, attemptAll_cons, ih, attempt_policyDel]
    congr 1
    funext sel
    by_cases hsel : sel = a.selector
    · simp [hsel]
    · have hne : (a.selector == sel) = false := by simpa using fun h => hsel h.symm
      simp [List.any_cons, hne, update_of_ne hsel]

/-- Of updates to distinct selectors each takes effect where there is a policy. -/
theorem table_policyUpdate (policies : List PolicySpec) (k : Kernel)
    (hdist : (policies.map PolicySpec.selector).Nodup) :
    (k.attemptAll (policies.map .policyUpdate)).table =
      ⟨k.table.states, fun sel =>
        match policies.find? (·.selector == sel) with
        | some p => (k.table.policies sel).map fun _ => p.spi
        | none => k.table.policies sel⟩ := by
  induction policies generalizing k with
  | nil => simp [Kernel.attemptAll]
  | cons a policies ih =>
    rw [List.map_cons, attemptAll_cons, ih _ (List.nodup_cons.1 hdist).2, attempt_policyUpdate]
    congr 1
    funext sel
    by_cases hsel : sel = a.selector
    · simp [Keyed.find_tail hdist, hsel]
    · have hne : (a.selector == sel) = false := by simpa using fun h => hsel h.symm
      simp [hne, update_of_ne hsel]

end Attempts

/-! ## The table while a generation is staged

The record of a staged generation is determined by how far its installation has come, and so is the
table over the one before. Rolling back gives that table again, with the inbound selectors that
both generations use as the old generation has them. -/

open List

variable {fault : Op → Bool} {g old new : SaSet} {t : Table} {sel : Selector} {p c : PolicySpec}
  {done : List StateSpec} {ps : List PolicySpec} {k : Kernel}

/-! ### Selectors -/

theorem find_some (h : g.find sel = some p) : p ∈ g.policies ∧ p.selector = sel :=
  ⟨mem_of_find?_eq_some h, by simpa using find?_some h⟩

theorem find_none : g.find sel = none ↔ ∀ p ∈ g.policies, p.selector ≠ sel := by
  simp [SaSet.find, find?_eq_none]

/-- A generation that the kernel can hold beside nothing: one address on each side, two ports, and
four states. -/
structure SaSet.Proper (g : SaSet) : Prop where
  localIp : g.endpoints.localC.ip = g.endpoints.localS.ip
  remoteIp : g.endpoints.remoteC.ip = g.endpoints.remoteS.ip
  localPorts : g.endpoints.localC ≠ g.endpoints.localS
  remotePorts : g.endpoints.remoteC ≠ g.endpoints.remoteS
  states : g.states.Nodup

theorem SaSet.Proper.selectors (h : g.Proper) : (g.policies.map PolicySpec.selector).Nodup := by
  have hlocal := h.localPorts
  have hremote := h.remotePorts
  simp [SaSet.policies, SaSet.policiesFor, hlocal, hremote, hlocal.symm, hremote.symm]

theorem SaSet.Proper.find_eq (h : g.Proper) (hp : p ∈ g.policies) : g.find p.selector = some p :=
  Keyed.find_of_mem h.selectors hp

/-- An outbound policy names one of the generation's states. -/
theorem SaSet.Proper.named (h : g.Proper) (hp : p ∈ g.policies) (hout : p.selector.dirIn = false) :
    ∃ s ∈ g.states, s.src = p.selector.src.ip ∧ s.dst = p.selector.dst.ip ∧ p.spi = some s.spi := by
  have hlocal := h.localIp
  simp only [SaSet.policies, SaSet.policiesFor, mem_append, mem_cons, not_mem_nil, or_false] at hp
  rcases hp with (rfl | rfl | rfl | rfl | rfl | rfl | rfl | rfl) |
    (rfl | rfl | rfl | rfl | rfl | rfl | rfl | rfl)
  all_goals simp_all [SaSet.states]

/-! ### The installation -/

/-- The record once some states and policies of the new generation are installed. -/
def StagedSas.record (old new : SaSet) (done : List StateSpec) (ps : List PolicySpec) :
    StagedSas where
  old := old
  new := new
  states := done
  added := ps.filter fun p => (old.find p.selector).isNone
  widened := ps.filterMap fun p => if p.selector.dirIn then old.find p.selector else none
  repoint := ps.filterMap fun p =>
    if p.selector.dirIn then none else (old.find p.selector).map (p, ·)

/-- The table then. -/
def Table.staged (t : Table) (old : SaSet) (done : List StateSpec) (ps : List PolicySpec) : Table where
  states s := t.states s || done.contains s
  policies sel :=
    match ps.find? (·.selector == sel) with
    | none => t.policies sel
    | some p =>
      match old.find sel with
      | none => some p.spi
      | some _ => if sel.dirIn then some none else t.policies sel

/-- An installation over `t` that has come so far, and every table on the way has `Q`. -/
structure Reached (Q : Table → Prop) (t : Table) (old new : SaSet) (done : List StateSpec)
    (ps : List PolicySpec) (q : StagedSas × Kernel) : Prop where
  record : q.1 = .record old new done ps
  table : q.2.table = t.staged old done ps
  states : ∀ s ∈ done, t.states s = false
  free : ∀ p ∈ ps, old.find p.selector = none → t.policies p.selector = none
  log : ∀ t' ∈ q.2.log, Q t'

theorem forward_eq_some {k' : Kernel} {op : Op} (h : k.forward fault op = some k') :
    k.table.exec op = some k'.table ∧ k'.log = k'.table :: k.log := by
  unfold Kernel.forward at h
  split at h
  · cases h
  · obtain ⟨t, ht, rfl⟩ := Option.map_eq_some_iff.1 h
    exact ⟨ht, rfl⟩

/-- How one policy changes the table. -/
theorem staged_concat (hnew : ∀ r ∈ ps, r.selector ≠ p.selector) :
    t.staged old done (ps ++ [p]) =
      ⟨(t.staged old done ps).states, update (t.staged old done ps).policies p.selector
        (match old.find p.selector with
        | none => some p.spi
        | some _ => if p.selector.dirIn then some none else t.policies p.selector)⟩ := by
  simp only [Table.staged, Table.mk.injEq, true_and]
  funext sel
  rw [Keyed.find_concat hnew, update_apply]
  by_cases hsel : sel = p.selector
  · simp [hsel]
  · rw [if_neg hsel, if_neg hsel]

variable (old t done) in
theorem staged_of_new (hnew : ∀ r ∈ ps, r.selector ≠ p.selector) :
    (t.staged old done ps).policies p.selector = t.policies p.selector := by
  have hnone := Keyed.find_of_new hnew
  simp [Table.staged, hnone]

/-- What holds at the end, or where it failed. -/
def Ends {σ : Type} (P E : σ → Prop) : Except σ σ → Prop
  | .ok s => P s
  | .error s => E s

/-- A loop that stops where a step fails is as far as the steps before it came. -/
theorem foldlM_reached {σ α : Type} {f : σ → α → Except σ σ} {I : List α → σ → Prop} {l : List α}
    (hstep : ∀ xs x s, xs ++ [x] <+: l → I xs s → Ends (I (xs ++ [x])) (· = s) (f s x))
    {xs rest : List α} (hl : xs ++ rest = l) {s : σ} (h : I xs s) :
    Ends (I l) (fun s' => ∃ ys, ys <+: l ∧ I ys s') (rest.foldlM f s) := by
  induction rest generalizing xs s with
  | nil =>
    rw [← hl, append_nil]
    exact h
  | cons x rest ih =>
    rw [foldlM_cons]
    have hnext := hstep xs x s ⟨rest, by simpa using hl⟩ h
    cases hresult : f s x with
    | error s' =>
      rw [hresult] at hnext
      cases hnext
      exact ⟨xs, ⟨_, hl⟩, h⟩
    | ok s' =>
      rw [hresult] at hnext
      exact ih (by simpa using hl) hnext

section Install

variable {Q : Table → Prop} (hQ : ∀ done ps, Q (t.staged old done ps)) {q : StagedSas × Kernel}

include hQ

/-- A step that takes the table on. -/
theorem Reached.next {op : Op} {done' : List StateSpec} {ps' : List PolicySpec}
    (h : Reached Q t old new done ps q) (hfwd : q.2.forward fault op = some k)
    (htable : k.table = t.staged old done' ps') (hstates : ∀ s ∈ done', t.states s = false)
    (hfree : ∀ p ∈ ps', old.find p.selector = none → t.policies p.selector = none) {s : StagedSas}
    (hrecord : s = .record old new done' ps') : Reached Q t old new done' ps' (s, k) := by
  refine ⟨hrecord, htable, hstates, hfree, ?_⟩
  rw [(forward_eq_some hfwd).2]
  exact forall_mem_cons.2 ⟨htable ▸ hQ done' ps', h.log⟩

variable (fault)

open StagedSas

theorem reached_installState (h : Reached Q t old new done [] q) (state : StateSpec) :
    Ends (Reached Q t old new (done ++ [state]) []) (· = q)
      (installState fault q state) := by
  unfold installState
  cases hfwd : q.2.forward fault (.stateAdd state) with
  | none => rfl
  | some k =>
    have hexec := (forward_eq_some hfwd).1
    simp only [Table.exec, h.table] at hexec
    split at hexec
    · cases hexec
    rename_i hnew
    have hfree : t.states state = false ∧ state ∉ done := by
      simpa [Table.staged] using hnew
    apply h.next hQ hfwd
    · rw [← Option.some.inj hexec]
      simp only [Table.staged, Table.mk.injEq, and_true]
      funext s
      by_cases hs : s = state <;> simp [hs]
    · exact forall_mem_append.2 ⟨h.states, forall_mem_singleton.2 hfree.1⟩
    · exact nofun
    · rw [h.record]
      rfl

theorem reached_installPolicy (h : Reached Q t old new done ps q) (policy : PolicySpec)
    (hnew : ∀ r ∈ ps, r.selector ≠ policy.selector) :
    Ends (Reached Q t old new done (ps ++ [policy])) (· = q)
      (installPolicy fault q policy) := by
  have hold : q.1.old = old := by rw [h.record]; rfl
  have hsame := staged_of_new old t done hnew
  unfold installPolicy
  rw [hold]
  cases hfind : old.find policy.selector with
  | none =>
    cases hfwd : q.2.forward fault (.policyAdd policy) with
    | none => rfl
    | some k =>
      have hexec := (forward_eq_some hfwd).1
      simp only [Table.exec, h.table, hsame] at hexec
      split at hexec
      · cases hexec
      rename_i hfree
      apply h.next hQ hfwd _ h.states
      · exact forall_mem_append.2
          ⟨h.free, forall_mem_singleton.2 fun _ => by simpa using hfree⟩
      · rw [h.record]
        simp [record, hfind]
      · rw [← Option.some.inj hexec, staged_concat hnew, hfind]
  | some current =>
    have hfree' : ∀ r ∈ ps ++ [policy], old.find r.selector = none → t.policies r.selector = none :=
      forall_mem_append.2
        ⟨h.free, forall_mem_singleton.2 fun hnone => nomatch hfind.symm.trans hnone⟩
    cases hdir : policy.selector.dirIn with
    | true =>
      cases hfwd : q.2.forward fault (.policyUpdate { policy with spi := none }) with
      | none => rfl
      | some k =>
        have hexec := (forward_eq_some hfwd).1
        simp only [Table.exec, h.table] at hexec
        split at hexec
        · apply h.next hQ hfwd _ h.states hfree'
          · rw [h.record]
            simp [record, hfind, hdir]
          · rw [← Option.some.inj hexec, staged_concat hnew, hfind]
            simp [hdir]
        · cases hexec
    | false =>
      refine ⟨?_, ?_, h.states, hfree', h.log⟩
      · rw [h.record]
        simp [record, hfind, hdir]
      · rw [h.table, staged_concat hnew, hfind]
        simp [hdir, ← hsame]

/-- An installation comes to its end, or stops somewhere. -/
theorem reached_install (hproper : new.Proper) (k : Kernel) (htable : k.table = t)
    (hlog : ∀ t' ∈ k.log, Q t') :
    Ends (Reached Q t old new new.states new.policies)
      (fun q => ∃ done ps, ps <+: new.policies ∧ Reached Q t old new done ps q)
      (install fault ({ old, new }, k)) := by
  have hstart : Reached Q t old new [] [] ({ old, new }, k) := by
    refine ⟨rfl, ?_, nofun, nofun, hlog⟩
    rw [htable]
    simp [Table.staged]
  unfold install
  have hstates := foldlM_reached (I := fun done q => Reached Q t old new done [] q)
    (fun _ state _ _ h => reached_installState fault hQ h state) (nil_append new.states) hstart
  cases hresult : new.states.foldlM (installState fault) ({ old, new }, k) with
  | error q =>
    rw [hresult] at hstates
    obtain ⟨done, -, hreach⟩ := hstates
    exact ⟨done, [], nil_prefix, hreach⟩
  | ok q =>
    rw [hresult] at hstates
    have hq : q.1.new = new := by rw [hstates.record]; rfl
    have hpols := foldlM_reached (I := Reached Q t old new new.states)
      (fun ps policy _ hpart h => reached_installPolicy fault hQ h policy fun r hr heq => by
        have hdist := (hpart.sublist.map PolicySpec.selector).nodup hproper.selectors
        rw [map_append, nodup_append] at hdist
        exact hdist.2.2 _ (mem_map_of_mem hr) _ mem_cons_self heq)
      (nil_append new.policies) hstates
    simp only [Except.bind, hq]
    cases hend : new.policies.foldlM (installPolicy fault) q with
    | error q' =>
      rw [hend] at hpols
      obtain ⟨ps, hpart, hreach⟩ := hpols
      exact ⟨new.states, ps, hpart, hreach⟩
    | ok q' =>
      rw [hend] at hpols
      exact hpols

end Install

/-! ### Rolling back -/

/-- The table with the inbound selectors that both generations use as the old one has them. -/
def Table.restored (t : Table) (old : SaSet) (ps : List PolicySpec) : Table where
  states := t.states
  policies sel :=
    match ps.find? (·.selector == sel), old.find sel with
    | some _, some c => if sel.dirIn then some c.spi else t.policies sel
    | _, _ => t.policies sel

section Kept

variable {β : Type} {f : PolicySpec → Option β} (key : β → Selector)
  (hf : ∀ p c, f p = some c → key c = p.selector)

include hf

/-- What is kept of a list with distinct selectors is found under the same selector. -/
theorem find_filterMap (hdist : (ps.map PolicySpec.selector).Nodup) (sel : Selector) :
    (ps.filterMap f).find? (key · == sel) = (ps.find? (·.selector == sel)).bind f := by
  induction ps with
  | nil => rfl
  | cons a ps ih =>
    have hrest := ih (nodup_cons.1 hdist).2
    by_cases hsel : a.selector = sel
    · have hnone : ps.find? (·.selector == sel) = none := hsel ▸ Keyed.find_tail hdist
      rw [hnone, Option.bind_none] at hrest
      rw [find?_cons_of_pos (by simpa using hsel), Option.bind_some]
      cases hfa : f a with
      | none => rw [filterMap_cons_none hfa, hrest]
      | some c =>
        rw [filterMap_cons_some hfa, find?_cons_of_pos]
        simpa [hf a c hfa] using hsel
    · rw [find?_cons_of_neg (by simpa using hsel), ← hrest]
      cases hfa : f a with
      | none => rw [filterMap_cons_none hfa]
      | some c =>
        rw [filterMap_cons_some hfa, find?_cons_of_neg]
        simpa [hf a c hfa] using hsel

theorem selectors_filterMap (hdist : (ps.map PolicySpec.selector).Nodup) :
    ((ps.filterMap f).map key).Nodup := by
  rw [Nodup, pairwise_map] at hdist ⊢
  refine pairwise_filterMap.2 (hdist.imp fun hne c hc d hd heq => hne ?_)
  rw [← hf _ c hc, ← hf _ d hd, heq]

end Kept

theorem any_filter (q : PolicySpec → Bool) (hdist : (ps.map PolicySpec.selector).Nodup)
    (sel : Selector) :
    (ps.filter q).any (·.selector == sel) = (ps.find? (·.selector == sel)).any q := by
  have hkept : ∀ p c, Option.guard q p = some c → c.selector = p.selector := by
    intro p c h
    rw [(Option.guard_eq_some_iff.1 h).1]
  rw [← isSome_find?, ← filterMap_eq_filter, find_filterMap _ hkept hdist]
  cases ps.find? (·.selector == sel) with
  | none => rfl
  | some p => cases hq : q p <;> simp [Option.guard, hq]

theorem rollBack_table (hdist : (ps.map PolicySpec.selector).Nodup)
    (htable : k.table = t.staged old done ps) (hstates : ∀ s ∈ done, t.states s = false)
    (hfree : ∀ p ∈ ps, old.find p.selector = none → t.policies p.selector = none) :
    ((StagedSas.record old new done ps).rollBack k).table = t.restored old ps := by
  have hkept : ∀ p c : PolicySpec,
      (if p.selector.dirIn then old.find p.selector else none) = some c →
        c.selector = p.selector := by
    intro p c h
    split at h
    · exact (find_some h).2
    · cases h
  simp only [StagedSas.rollBack, StagedSas.record]
  rw [table_stateDel, table_policyUpdate _ _ (selectors_filterMap _ hkept hdist), table_policyDel,
    htable]
  simp only [Table.restored, Table.mk.injEq]
  constructor
  · funext s
    by_cases hs : s ∈ done
    · simp [Table.staged, hs, hstates s hs]
    · simp [Table.staged, hs]
  · funext sel
    rw [find_filterMap _ hkept hdist, any_filter _ hdist]
    simp only [Table.staged]
    cases hfind : ps.find? (·.selector == sel) with
    | none => simp
    | some p =>
      obtain rfl : p.selector = sel := by simpa using find?_some hfind
      cases hold : old.find p.selector with
      | none =>
        have := hfree p (mem_of_find?_eq_some hfind) hold
        simp [hold, this]
      | some c => cases hdir : p.selector.dirIn <;> simp [hold, hdir]

/-! ### Switching over -/

/-- The table with some outbound selectors moved to the new generation. -/
def Table.repointed (t : Table) (moved : List (PolicySpec × PolicySpec)) : Table where
  states := t.states
  policies sel :=
    match moved.find? (·.1.selector == sel) with
    | some m => some m.1.spi
    | none => t.policies sel

variable {moved rest : List (PolicySpec × PolicySpec)}

/-- One more selector is moved. -/
theorem repointed_concat {m : PolicySpec × PolicySpec}
    (hnew : ∀ r ∈ moved, r.1.selector ≠ m.1.selector) :
    t.repointed (moved ++ [m]) =
      ⟨t.states, update (t.repointed moved).policies m.1.selector (some m.1.spi)⟩ := by
  simp only [Table.repointed, Table.mk.injEq, true_and]
  funext sel
  rw [Keyed.find_concat hnew, update_apply]
  by_cases hsel : sel = m.1.selector
  · simp [hsel]
  · rw [if_neg hsel, if_neg hsel]

/-- What was moved goes back to what it was. -/
theorem repointed_undo (htable : k.table = t.repointed moved)
    (hdist : (moved.map (·.1.selector)).Nodup)
    (hwas : ∀ m ∈ moved, m.2.selector = m.1.selector ∧ t.policies m.1.selector = some m.2.spi) :
    (k.attemptAll (moved.map fun m => .policyUpdate m.2)).table = t := by
  have hselectors : (moved.map Prod.snd).map PolicySpec.selector = moved.map (·.1.selector) := by
    rw [map_map]
    exact map_congr_left fun m hm => (hwas m hm).1
  rw [show moved.map (fun m => Op.policyUpdate m.2) = (moved.map Prod.snd).map .policyUpdate by
    rw [map_map]; rfl, table_policyUpdate _ _ (hselectors ▸ hdist), htable]
  simp only [Table.repointed]
  obtain ⟨states, policies⟩ := t
  congr 1
  funext sel
  cases hfind : (moved.map Prod.snd).find? (·.selector == sel) with
  | some w =>
    obtain ⟨m, hm, rfl⟩ := mem_map.1 (mem_of_find?_eq_some hfind)
    obtain ⟨hsame, hpolicy⟩ := hwas m hm
    obtain rfl : m.2.selector = sel := by simpa using find?_some hfind
    rw [hsame]
    simp only at hpolicy
    cases moved.find? (·.1.selector == m.1.selector) with
    | some | none => simp [hpolicy]
  | none =>
    have hnone : moved.find? (·.1.selector == sel) = none := by
      rw [find?_eq_none] at hfind ⊢
      exact fun m hm => (hwas m hm).1 ▸ hfind m.2 (mem_map_of_mem hm)
    simp [hnone]

theorem repointAll_table (htable : k.table = t.repointed moved)
    (hdist : ((moved ++ rest).map (·.1.selector)).Nodup)
    (hwas : ∀ m ∈ moved ++ rest, m.2.selector = m.1.selector ∧
      t.policies m.1.selector = some m.2.spi) :
    (StagedSas.repointAll fault moved rest k).1.table =
      if (StagedSas.repointAll fault moved rest k).2 then t.repointed (moved ++ rest) else t := by
  induction rest generalizing moved k with
  | nil => simpa [StagedSas.repointAll] using htable
  | cons m rest ih =>
    have hdist' := hdist
    rw [map_append, nodup_append] at hdist'
    unfold StagedSas.repointAll
    cases hfwd : k.forward fault (.policyUpdate m.1) with
    | none =>
      exact repointed_undo htable hdist'.1 fun m hm => hwas m (mem_append_left _ hm)
    | some k' =>
      have hnew : ∀ r ∈ moved, r.1.selector ≠ m.1.selector := fun r hr =>
        hdist'.2.2 _ (mem_map_of_mem hr) _ mem_cons_self
      have hexec := (forward_eq_some hfwd).1
      simp only [Table.exec, htable] at hexec
      split at hexec
      · have htable' : k'.table = t.repointed (moved ++ [m]) := by
          rw [← Option.some.inj hexec, repointed_concat hnew]
          rfl
        have happend : moved ++ [m] ++ rest = moved ++ m :: rest := by simp
        have hrest := ih htable' (happend ▸ hdist) (happend ▸ hwas)
        rw [happend] at hrest
        exact hrest
      · cases hexec

/-! ### Service

A generation is in service if each of its outbound selectors names a state that is there, and each
of its inbound selectors accepts its SPI. The operations that touch its selectors or its states are
few, and none takes it out of service. -/

variable {A : List StateSpec} {t' : Table}

/-- A policy in the table. Outbound it names one of the states `A`, which is there; inbound it
accepts the SPI of `p`. -/
structure Serves (A : List StateSpec) (t : Table) (p : PolicySpec) : Prop where
  out : p.selector.dirIn = false → ∃ s ∈ A, t.states s = true ∧ s.src = p.selector.src.ip ∧
    s.dst = p.selector.dst.ip ∧ t.policies p.selector = some (some s.spi)
  inn : p.selector.dirIn = true →
    t.policies p.selector = some none ∨ t.policies p.selector = some p.spi

def InService (A : List StateSpec) (g : SaSet) (t : Table) : Prop := ∀ p ∈ g.policies, Serves A t p

/-- In service, with all the states that may be named. -/
structure Carries (A : List StateSpec) (g : SaSet) (t : Table) : Prop where
  present : ∀ s ∈ A, t.states s = true
  serves : InService A g t

theorem Carries.not_mem_of_free (h : Carries A g t) (hfree : ∀ s ∈ done, t.states s = false) :
    ∀ s ∈ done, s ∉ A := fun s hs hin =>
  absurd ((hfree s hs).symm.trans (h.present s hin)) Bool.false_ne_true

theorem Serves.isSome (h : Serves A t p) : (t.policies p.selector).isSome = true := by
  cases hdir : p.selector.dirIn with
  | false =>
    obtain ⟨s, -, -, -, -, hpolicy⟩ := h.out hdir
    simp [hpolicy]
  | true =>
    rcases h.inn hdir with hpolicy | hpolicy <;> simp [hpolicy]

theorem Serves.mono {B : List StateSpec} (hAB : ∀ s ∈ A, s ∈ B) (h : Serves A t p) :
    Serves B t p := by
  refine ⟨fun hdir => ?_, h.inn⟩
  obtain ⟨s, hs, hrest⟩ := h.out hdir
  exact ⟨s, hAB s hs, hrest⟩

/-- An operation on something else. -/
theorem Serves.congr (h : Serves A t p) (hstates : ∀ s ∈ A, t.states s = true → t'.states s = true)
    (hpolicy : t'.policies p.selector = t.policies p.selector) : Serves A t' p := by
  refine ⟨fun hdir => ?_, fun hdir => ?_⟩
  · obtain ⟨s, hs, hthere, hsrc, hdst, hnames⟩ := h.out hdir
    exact ⟨s, hs, hstates s hs hthere, hsrc, hdst, hpolicy.trans hnames⟩
  · rw [hpolicy]
    exact h.inn hdir

/-! #### One operation -/

/-- An operation that leaves a generation in service. -/
def Harmless (A : List StateSpec) (g : SaSet) : Op → Prop
  | .stateAdd _ => True
  | .stateDel s => s ∉ A
  | .policyAdd _ => True
  | .policyUpdate p => ∀ c ∈ g.policies, c.selector = p.selector →
    (p.selector.dirIn = false → ∃ s ∈ A, s.src = p.selector.src.ip ∧ s.dst = p.selector.dst.ip ∧
      p.spi = some s.spi) ∧
    (p.selector.dirIn = true → p.spi = none ∨ p.spi = c.spi)
  | .policyDel p => g.find p.selector = none

theorem Carries.exec {op : Op} (h : Carries A g t) (hop : Harmless A g op)
    (hexec : t.exec op = some t') : Carries A g t' := by
  have hother : ∀ {p : PolicySpec} {sel : Selector} {spi : Option (Option UInt32)},
      p ∈ g.policies → p.selector ≠ sel →
      Serves A { t with policies := update t.policies sel spi } p := fun hp hne =>
    (h.serves _ hp).congr (fun _ _ => id) (update_of_ne hne ..)
  cases op with
  | stateAdd s =>
    simp only [Table.exec] at hexec
    split at hexec
    · cases hexec
    cases hexec
    have hmore : ∀ r, t.states r = true → update t.states s true r = true := by
      intro r hr
      by_cases hrs : r = s
      · simp [hrs]
      · rwa [update_of_ne hrs]
    exact ⟨fun r hr => hmore r (h.present r hr),
      fun p hp => (h.serves p hp).congr (fun r _ => hmore r) rfl⟩
  | stateDel s =>
    simp only [Table.exec] at hexec
    split at hexec
    · cases hexec
      have hkept : ∀ r ∈ A, update t.states s false r = t.states r := by
        intro r hr
        have hne : r ≠ s := fun heq => hop (heq ▸ hr)
        exact update_of_ne hne ..
      exact ⟨fun r hr => (hkept r hr).trans (h.present r hr),
        fun p hp => (h.serves p hp).congr (fun r hr => (hkept r hr).trans) rfl⟩
    · cases hexec
  | policyAdd q =>
    simp only [Table.exec] at hexec
    split at hexec
    case isTrue => cases hexec
    case isFalse hfree =>
      cases hexec
      refine ⟨h.present, fun p hp => hother hp fun heq => ?_⟩
      exact hfree (heq ▸ (h.serves p hp).isSome)
  | policyUpdate q =>
    simp only [Table.exec] at hexec
    split at hexec
    · cases hexec
      refine ⟨h.present, fun p hp => ?_⟩
      by_cases heq : p.selector = q.selector
      · obtain ⟨hout, hinn⟩ := hop p hp heq
        refine ⟨fun hdir => ?_, fun hdir => ?_⟩
        · obtain ⟨s, hs, hsrc, hdst, hspi⟩ := hout (heq ▸ hdir)
          refine ⟨s, hs, h.present s hs, heq ▸ hsrc, heq ▸ hdst, ?_⟩
          simp [heq, hspi]
        · simp only [heq, update_self]
          exact (hinn (heq ▸ hdir)).imp (congrArg some) (congrArg some)
      · exact hother hp heq
    · cases hexec
  | policyDel q =>
    simp only [Table.exec] at hexec
    split at hexec
    · cases hexec
      exact ⟨h.present, fun p hp => hother hp (find_none.1 hop p hp)⟩
    · cases hexec

/-! #### Many operations -/

/-- The generation is carried now, and all tables so far have `Q`. -/
structure Logged (Q : Table → Prop) (A : List StateSpec) (g : SaSet) (k : Kernel) : Prop where
  now : Carries A g k.table
  log : ∀ t ∈ k.log, Q t

section Logged

variable {Q : Table → Prop} (hQ : ∀ t, Carries A g t → Q t) (h : Logged Q A g k)
  {op : Op}

include hQ h

theorem Logged.run {k' : Kernel} (hop : Harmless A g op) (hexec : k.table.exec op = some k'.table)
    (hlog : k'.log = k'.table :: k.log) : Logged Q A g k' := by
  have hnow := h.now.exec hop hexec
  refine ⟨hnow, ?_⟩
  rw [hlog]
  exact List.forall_mem_cons.2 ⟨hQ _ hnow, h.log⟩

theorem Logged.attempt (hop : Harmless A g op) : Logged Q A g (k.attempt op) := by
  unfold Kernel.attempt Kernel.run
  cases hexec : k.table.exec op with
  | none => exact h
  | some t =>
    exact h.run hQ hop hexec rfl

theorem Logged.attemptAll {ops : List Op} (hops : ∀ op ∈ ops, Harmless A g op) :
    Logged Q A g (k.attemptAll ops) := by
  induction ops generalizing k with
  | nil => exact h
  | cons op ops ih =>
    exact ih (h.attempt hQ (hops op List.mem_cons_self)) fun o ho => hops o (List.mem_cons_of_mem op ho)

theorem Logged.repointAll {moved rest : List (PolicySpec × PolicySpec)}
    (hmoved : ∀ m ∈ moved ++ rest, Harmless A g (.policyUpdate m.1) ∧
      Harmless A g (.policyUpdate m.2)) :
    Logged Q A g (StagedSas.repointAll fault moved rest k).1 := by
  induction rest generalizing moved k with
  | nil => exact h
  | cons m rest ih =>
    unfold StagedSas.repointAll
    cases hfwd : k.forward fault (.policyUpdate m.1) with
    | none =>
      exact h.attemptAll hQ (forall_mem_map.2 fun r hr => (hmoved r (mem_append_left _ hr)).2)
    | some k' =>
      have hrun := forward_eq_some hfwd
      have hop := (hmoved m (by simp)).1
      have happend : moved ++ [m] ++ rest = moved ++ m :: rest := by simp
      exact ih (h.run hQ hop hrun.1 hrun.2) (happend ▸ hmoved)

end Logged

/-! #### What is done to the working generation -/

/-- A staged generation leaves the working one as it is, or wider. -/
theorem carries_staged (h : Carries A old t) (hproper : old.Proper) (done : List StateSpec)
    (ps : List PolicySpec) : Carries A old (t.staged old done ps) := by
  refine ⟨fun s hs => by simp [Table.staged, h.present s hs], fun p hp => ?_⟩
  have hpols : (t.staged old done ps).policies p.selector = t.policies p.selector ∨
      p.selector.dirIn = true ∧ (t.staged old done ps).policies p.selector = some none := by
    simp only [Table.staged]
    cases ps.find? (·.selector == p.selector) with
    | none => exact .inl rfl
    | some q =>
      simp only [hproper.find_eq hp]
      cases p.selector.dirIn with
      | true => exact .inr ⟨rfl, rfl⟩
      | false => exact .inl rfl
  rcases hpols with heq | ⟨hin, heq⟩
  · exact (h.serves p hp).congr (fun s _ hthere => by simp [Table.staged, hthere]) heq
  · exact ⟨fun hdir => absurd (hdir.symm.trans hin) Bool.false_ne_true, fun _ => .inl heq⟩

/-- Rolling back does not touch it but to narrow what was widened. -/
theorem Logged.rollBack {Q : Table → Prop} (hQ : ∀ t, Carries A old t → Q t) {k : Kernel}
    (h : Logged Q A old k) (new : SaSet) (ps : List PolicySpec) (hdone : ∀ s ∈ done, s ∉ A)
    (hproper : old.Proper) : Logged Q A old ((StagedSas.record old new done ps).rollBack k) := by
  apply ((h.attemptAll hQ ?_).attemptAll hQ ?_).attemptAll hQ
  · exact forall_mem_map.2 hdone
  · exact forall_mem_map.2 fun p hp => Option.isNone_iff_eq_none.1 (mem_filter.1 hp).2
  · refine forall_mem_map.2 fun w hw c hc heq => ?_
    obtain ⟨p, -, hw⟩ := mem_filterMap.1 hw
    split at hw
    case isTrue hdir =>
      obtain ⟨hmem, hsel⟩ := find_some hw
      have hsame : c = w := Option.some.inj
        ((hproper.find_eq hc).symm.trans (heq ▸ hproper.find_eq hmem))
      refine ⟨fun hout => ?_, fun _ => .inr (by rw [hsame])⟩
      rw [hsel, hdir] at hout
      cases hout
    case isFalse => cases hw

end Ims.GmIpsec
