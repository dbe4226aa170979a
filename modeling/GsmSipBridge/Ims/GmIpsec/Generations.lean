-- SUMMARY: What the kernel table holds over runs of refreshes; the working generation stays intact.
import Mathlib.Data.List.Perm.Basic
import GsmSipBridge.Ims.GmIpsec

/-!
# Generations

One generation works, at most one is staged over it, and those it took over from wait for the end
of their drain. With nothing staged the table is settled: it holds what the working generation and
the retired ones have, and nothing twice. With one staged it is a settled table and the staged
generation beside it.
-/

namespace Ims.GmIpsec

open List StagedSas

structure Gm where
  table : Table
  working : SaSet
  staged : Option StagedSas
  retired : List RetiredSas

/-- What a caller may do. Forward operations fail as `fault` says. -/
inductive Act where
  | stage (new : SaSet) (fault : Op → Bool)
  | drop
  | activate (fault : Op → Bool)
  | remove (i : Nat)

/-- The state after an act, and the tables on the way, the latest first. -/
def Gm.act (s : Gm) : Act → Gm × List Table
  | .stage new fault =>
    match s.staged with
    | some _ => (s, [])
    | none =>
      let (k, staged) := stage fault ⟨s.table, []⟩ s.working new
      (⟨k.table, s.working, staged, s.retired⟩, k.log)
  | .drop =>
    match s.staged with
    | none => (s, [])
    | some g =>
      let k := g.rollBack ⟨s.table, []⟩
      (⟨k.table, s.working, none, s.retired⟩, k.log)
  | .activate fault =>
    match s.staged with
    | none => (s, [])
    | some g =>
      match g.activate fault ⟨s.table, []⟩ with
      | (k, none) => (⟨k.table, s.working, none, s.retired⟩, k.log)
      | (k, some r) => (⟨k.table, g.new, none, r :: s.retired⟩, k.log)
  | .remove i =>
    match s.retired[i]? with
    | none => (s, [])
    | some r =>
      let k := r.remove ⟨s.table, []⟩
      (⟨k.table, s.working, s.staged, s.retired.eraseIdx i⟩, k.log)

def Gm.step (s : Gm) (a : Act) : Gm := (s.act a).1

open Gm

def Gm.run (s : Gm) (acts : List Act) : Gm := acts.foldl step s

/-- The table of one generation, fully installed. -/
def Table.installed (g : SaSet) : Table where
  states s := g.states.contains s
  policies sel := (g.find sel).map (·.spi)

def Gm.start (g : SaSet) : Gm := ⟨.installed g, g, none, []⟩

/-! ## Settled tables -/

def RetiredSas.uses (r : RetiredSas) (sel : Selector) : Bool := r.policies.any (·.selector == sel)

/-- Two retired generations that have nothing in common. -/
structure RetiredSas.Apart (r r' : RetiredSas) : Prop where
  states : r.states.Disjoint r'.states
  uses : ∀ sel, r.uses sel = true → r'.uses sel = false

theorem RetiredSas.Apart.symm {r r' : RetiredSas} (h : r.Apart r') : r'.Apart r := by
  refine ⟨fun _ hr' hr => h.states hr hr', fun sel hsel => Bool.eq_false_iff.2 fun huses => ?_⟩
  simp [h.uses sel huses] at hsel

/-- The table holds what the working generation and the retired ones have. The working generation's
outbound templates are its own, and its inbound ones are too or are open to any SPI. -/
structure Settled (g : SaSet) (R : List RetiredSas) (t : Table) : Prop where
  proper : g.Proper
  out : ∀ p ∈ g.policies, p.selector.dirIn = false → t.policies p.selector = some p.spi
  inn : ∀ p ∈ g.policies, p.selector.dirIn = true →
    t.policies p.selector = some none ∨ t.policies p.selector = some p.spi
  states : ∀ s, t.states s = true ↔ s ∈ g.states ∨ ∃ r ∈ R, s ∈ r.states
  policies : ∀ sel, (t.policies sel).isSome = true ↔
    (g.find sel).isSome = true ∨ ∃ r ∈ R, r.uses sel = true
  apartStates : ∀ r ∈ R, r.states.Disjoint g.states
  apartUses : ∀ r ∈ R, ∀ sel, r.uses sel = true → g.find sel = none
  retired : R.Pairwise RetiredSas.Apart

section Settled

variable {g new : SaSet} {R : List RetiredSas} {t : Table} {r : RetiredSas}

theorem settled_installed (h : g.Proper) : Settled g [] (.installed g) where
  proper := h
  out p hp _ := by simp [Table.installed, h.find_eq hp]
  inn p hp _ := .inr (by simp [Table.installed, h.find_eq hp])
  states s := by simp [Table.installed]
  policies sel := by simp [Table.installed]
  apartStates := forall_mem_nil _
  apartUses := forall_mem_nil _
  retired := .nil

/-- A settled generation is in service, by its own states. -/
theorem Settled.carries (h : Settled g R t) : Carries g.states g t := by
  have hpresent : ∀ s ∈ g.states, t.states s = true := fun s hs => (h.states s).2 (.inl hs)
  refine ⟨hpresent, fun p hp => ⟨fun hdir => ?_, h.inn p hp⟩⟩
  obtain ⟨s, hs, hsrc, hdst, hspi⟩ := h.proper.named hp hdir
  refine ⟨s, hs, hpresent s hs, hsrc, hdst, ?_⟩
  rw [h.out p hp hdir, hspi]

theorem Settled.perm {R' : List RetiredSas} (h : Settled g R t) (hperm : R.Perm R') :
    Settled g R' t :=
  { h with
    states := fun s => by simpa [hperm.mem_iff] using h.states s
    policies := fun sel => by simpa [hperm.mem_iff] using h.policies sel
    apartStates := fun r hr => h.apartStates r (hperm.mem_iff.2 hr)
    apartUses := fun r hr => h.apartUses r (hperm.mem_iff.2 hr)
    retired := (hperm.pairwise_iff RetiredSas.Apart.symm).1 h.retired }

/-! ### What a rollback leaves -/

theorem restored_policies (t : Table) (old : SaSet) (ps : List PolicySpec) (sel : Selector) :
    (t.restored old ps).policies sel = t.policies sel ∨
      ∃ p ∈ ps, p.selector = sel ∧ ∃ c, old.find sel = some c ∧ sel.dirIn = true ∧
        (t.restored old ps).policies sel = some c.spi := by
  simp only [Table.restored]
  cases hfind : ps.find? (·.selector == sel) with
  | none => exact .inl rfl
  | some p =>
    cases hold : old.find sel with
    | none => exact .inl rfl
    | some c =>
      cases hdir : sel.dirIn with
      | false => exact .inl rfl
      | true =>
        refine .inr ⟨p, mem_of_find?_eq_some hfind, by simpa using find?_some hfind, c, rfl,
          rfl, rfl⟩

theorem Settled.restored (h : Settled g R t) (ps : List PolicySpec) :
    Settled g R (t.restored g ps) := by
  refine { h with out := fun p hp hdir => ?_, inn := fun p hp hdir => ?_, policies := fun sel => ?_ }
  · rcases restored_policies t g ps p.selector with heq | ⟨-, -, -, -, -, hin, -⟩
    · rw [heq]
      exact h.out p hp hdir
    · rw [hdir] at hin
      cases hin
  · rcases restored_policies t g ps p.selector with heq | ⟨-, -, -, c, hc, -, heq⟩
    · rw [heq]
      exact h.inn p hp hdir
    · rw [h.proper.find_eq hp] at hc
      cases hc
      exact .inr heq
  · rcases restored_policies t g ps sel with heq | ⟨-, -, -, c, hc, -, heq⟩
    · rw [heq]
      exact h.policies sel
    · simp [heq, hc]

/-- Two tables that differ at most in templates of inbound selectors that both generations use and
that were open to any SPI. -/
structure Alike (old new : SaSet) (t t' : Table) : Prop where
  states : t'.states = t.states
  policies : ∀ sel, t'.policies sel = t.policies sel ∨
    sel.dirIn = true ∧ (old.find sel).isSome = true ∧ (new.find sel).isSome = true ∧
      t.policies sel = some none ∧ (t'.policies sel).isSome = true

theorem Settled.alike_restored (h : Settled g R t) {ps : List PolicySpec}
    (hps : ∀ p ∈ ps, p ∈ new.policies) : Alike g new t (t.restored g ps) := by
  refine ⟨rfl, fun sel => ?_⟩
  rcases restored_policies t g ps sel with heq | ⟨p, hp, hsel, c, hc, hdir, heq⟩
  · exact .inl heq
  obtain ⟨hmem, hcsel⟩ := find_some hc
  subst hcsel
  rcases h.inn c hmem hdir with hopen | hown
  · have hnew : (new.find c.selector).isSome = true := by
      rw [SaSet.find, find?_isSome]
      exact ⟨p, hps p hp, by simpa using hsel⟩
    exact .inr ⟨hdir, by simp [hc], hnew, hopen, by simp [heq]⟩
  · exact .inl (heq.trans hown.symm)

/-! ### What a removal leaves -/

/-- The table without what a retired generation had for itself. -/
def Table.without (t : Table) (r : RetiredSas) : Table where
  states s := t.states s && !r.states.contains s
  policies sel := if r.uses sel then none else t.policies sel

theorem remove_table (r : RetiredSas) (k : Kernel) : (r.remove k).table = k.table.without r := by
  rw [RetiredSas.remove, table_stateDel, table_policyDel]
  rfl

theorem Settled.uses_eq_false (h : Settled g R t) (hr : r ∈ R) {p : PolicySpec}
    (hp : p ∈ g.policies) : r.uses p.selector = false := by
  refine Bool.eq_false_iff.2 fun huses => ?_
  have hnone := h.apartUses r hr p.selector huses
  simp [h.proper.find_eq hp] at hnone

theorem Settled.without (h : Settled g (r :: R) t) : Settled g R (t.without r) := by
  have hr : r ∈ r :: R := mem_cons_self
  obtain ⟨hfirst, hrest⟩ := pairwise_cons.1 h.retired
  have hkept : ∀ p ∈ g.policies, (t.without r).policies p.selector = t.policies p.selector := by
    intro p hp
    simp [Table.without, h.uses_eq_false hr hp]
  refine ⟨h.proper, ?_, ?_, ?_, ?_, ?_, ?_, hrest⟩
  · intro p hp hdir
    rw [hkept p hp]
    exact h.out p hp hdir
  · intro p hp hdir
    rw [hkept p hp]
    exact h.inn p hp hdir
  · intro s
    have hstates := h.states s
    simp only [mem_cons, exists_eq_or_imp] at hstates
    simp only [Table.without, Bool.and_eq_true, hstates, Bool.not_eq_true', contains_eq_mem,
      decide_eq_false_iff_not]
    constructor
    · rintro ⟨hg | hin | hR, hout⟩
      · exact .inl hg
      · exact absurd hin hout
      · exact .inr hR
    · rintro (hg | ⟨r', hr', hs⟩)
      · exact ⟨.inl hg, fun hin => h.apartStates r hr hin hg⟩
      · exact ⟨.inr (.inr ⟨r', hr', hs⟩), fun hin => (hfirst r' hr').states hin hs⟩
  · intro sel
    have hpols := h.policies sel
    simp only [Table.without]
    cases huses : r.uses sel with
    | false => simpa [huses] using hpols
    | true =>
      simp only [if_true, Option.isSome_none, Bool.false_eq_true, false_iff, not_or, not_exists,
        not_and]
      exact ⟨by simp [h.apartUses r hr sel huses],
        fun r' hr' => Bool.eq_false_iff.1 ((hfirst r' hr').uses sel huses)⟩
  · exact fun r' hr' => h.apartStates r' (mem_cons_of_mem r hr')
  · exact fun r' hr' => h.apartUses r' (mem_cons_of_mem r hr')

/-! ### What an activation leaves -/

/-- A generation that may stand beside a settled table. -/
structure Fits (g new : SaSet) (t : Table) : Prop where
  proper : new.Proper
  states : ∀ s ∈ new.states, t.states s = false
  free : ∀ p ∈ new.policies, g.find p.selector = none → t.policies p.selector = none

/-- Nothing of it is a retired generation's. -/
theorem Settled.new_apart (h : Settled g R t) (hfits : Fits g new t) (hr : r ∈ R) :
    r.states.Disjoint new.states ∧ ∀ sel, r.uses sel = true → new.find sel = none := by
  constructor
  · intro s hs hnew
    simpa [hfits.states s hnew] using (h.states s).2 (.inr ⟨r, hr, hs⟩)
  · intro sel huses
    cases hfind : new.find sel with
    | none => rfl
    | some p =>
      obtain ⟨hp, hsel⟩ := find_some hfind
      have hsome := (h.policies sel).2 (.inr ⟨r, hr, huses⟩)
      rw [← hsel] at huses hsome
      rw [hfits.free p hp (h.apartUses r hr _ huses)] at hsome
      cases hsome

theorem Fits.without (hfits : Fits g new t) (r : RetiredSas) : Fits g new (t.without r) where
  proper := hfits.proper
  states s hs := by simp [Table.without, hfits.states s hs]
  free p hp hnone := by simp [Table.without, hfits.free p hp hnone]

/-- A removal does not notice what is staged. -/
theorem Settled.staged_without (h : Settled g R t) (hfits : Fits g new t) (hr : r ∈ R) :
    (t.staged g new.states new.policies).without r =
      (t.without r).staged g new.states new.policies := by
  obtain ⟨hstates, huses⟩ := h.new_apart hfits hr
  simp only [Table.without, Table.staged, Table.mk.injEq]
  constructor
  · funext s
    by_cases hs : s ∈ new.states
    · have hout : s ∉ r.states := fun hin => hstates hin hs
      simp [hs, hout]
    · simp [hs]
  · funext sel
    cases hr : r.uses sel with
    | false => simp
    | true =>
      have hnone : new.policies.find? (·.selector == sel) = none := huses sel hr
      simp [hnone]

theorem retire_uses (h : g.Proper) (sel : Selector) (s : StagedSas) (hold : s.old = g) :
    s.retire.uses sel = ((g.find sel).isSome && (s.new.find sel).isNone) := by
  rw [RetiredSas.uses, retire, hold, any_filter _ h.selectors]
  change (g.find sel).any _ = _
  cases hfind : g.find sel with
  | none => rfl
  | some p => simp [(find_some hfind).2]

/-- A policy is moved under its own selector. -/
theorem selector_of_repoint (p : PolicySpec) (m : PolicySpec × PolicySpec)
    (hm : (if p.selector.dirIn then none else (g.find p.selector).map (p, ·)) = some m) :
    m.1.selector = p.selector := by
  split at hm
  · cases hm
  · obtain ⟨c, -, rfl⟩ := Option.map_eq_some_iff.1 hm
    rfl

theorem selectors_repoint (h : new.Proper) :
    ((record g new new.states new.policies).repoint.map (·.1.selector)).Nodup :=
  selectors_filterMap (fun m : PolicySpec × PolicySpec => m.1.selector) selector_of_repoint h.selectors

/-- The outbound selectors that both use are moved, and no others. -/
theorem find_repoint (h : new.Proper) (sel : Selector) :
    (record g new new.states new.policies).repoint.find? (·.1.selector == sel) =
      (new.find sel).bind fun p => if sel.dirIn then none else (g.find sel).map (p, ·) := by
  refine (find_filterMap (fun m : PolicySpec × PolicySpec => m.1.selector) selector_of_repoint
    h.selectors sel).trans ?_
  change (new.find sel).bind _ = _
  cases hfind : new.find sel with
  | none => rfl
  | some p => simp [(find_some hfind).2]

/-- The table after the switch. -/
def Table.switched (t : Table) (g new : SaSet) : Table :=
  (t.staged g new.states new.policies).repointed
    (record g new new.states new.policies).repoint

theorem switched_policies (h : new.Proper) (sel : Selector) :
    (t.switched g new).policies sel =
      match new.find sel with
      | none => t.policies sel
      | some p => if sel.dirIn && (g.find sel).isSome then some none else some p.spi := by
  have hps : new.policies.find? (·.selector == sel) = new.find sel := rfl
  simp only [Table.switched, Table.repointed, find_repoint h, Table.staged, hps]
  cases new.find sel with
  | none => rfl
  | some p =>
    cases sel.dirIn with
    | true | false => cases g.find sel <;> rfl

theorem Settled.switched (h : Settled g R t) (hfits : Fits g new t) :
    Settled new ((record g new new.states new.policies).retire :: R)
      (t.switched g new) := by
  have huses (sel : Selector) :
      (record g new new.states new.policies).retire.uses sel =
        ((g.find sel).isSome && (new.find sel).isNone) := retire_uses h.proper sel _ rfl
  have hfind {p : PolicySpec} (hp : p ∈ new.policies) := hfits.proper.find_eq hp
  refine ⟨hfits.proper, ?_, ?_, ?_, ?_, ?_, ?_, ?_⟩
  · intro p hp hdir
    rw [switched_policies hfits.proper, hfind hp]
    simp [hdir]
  · intro p hp hdir
    rw [switched_policies hfits.proper, hfind hp]
    cases g.find p.selector <;> simp [hdir]
  · intro s
    have hstates := h.states s
    simp only [Table.switched, Table.repointed, Table.staged, Bool.or_eq_true, hstates,
      contains_eq_mem, decide_eq_true_eq, mem_cons, exists_eq_or_imp]
    exact or_comm
  · intro sel
    have hpols := h.policies sel
    rw [switched_policies hfits.proper]
    simp only [mem_cons, exists_eq_or_imp, huses]
    cases hnew : new.find sel with
    | none => simpa using hpols
    | some p => simp only [Option.isSome_some, true_or, iff_true]; split <;> rfl
  · refine forall_mem_cons.2 ⟨fun s hs hnew => ?_, fun r hr => (h.new_apart hfits hr).1⟩
    exact h.carries.not_mem_of_free hfits.states s hnew hs
  · refine forall_mem_cons.2 ⟨fun sel hsel => ?_, fun r hr => (h.new_apart hfits hr).2⟩
    rw [huses, Bool.and_eq_true] at hsel
    exact Option.isNone_iff_eq_none.1 hsel.2
  · refine pairwise_cons.2 ⟨fun r hr => ?_, h.retired⟩
    refine RetiredSas.Apart.symm ⟨h.apartStates r hr, fun sel hsel => ?_⟩
    rw [huses, h.apartUses r hr sel hsel]
    rfl

end Settled

/-! ## The working generation stays intact

Every state of a run is a settled one, alone or with a generation beside it. What an act does is
said once for each of the two, and the tables on its way are all in service. -/

variable {s : Gm} {new : SaSet} {fault : Op → Bool}

/-- The state with a generation staged over it. -/
def Gm.beside (s : Gm) (new : SaSet) : Gm where
  table := s.table.staged s.working new.states new.policies
  working := s.working
  staged := some (.record s.working new new.states new.policies)
  retired := s.retired

structure Gm.Alone (s : Gm) : Prop where
  staged : s.staged = none
  settled : Settled s.working s.retired s.table

/-- Every state that a run reaches. -/
inductive Gm.Sound : Gm → Prop
  | alone {s : Gm} (h : s.Alone) : Sound s
  | beside {s : Gm} {new : SaSet} (h : s.Alone) (hfits : Fits s.working new s.table) :
    Sound (s.beside new)

/-- The states that outbound templates of the working generation may name while an act is on. -/
def Gm.named (s : Gm) : Act → List StateSpec
  | .activate _ => s.working.states ++ (s.staged.map (·.new.states)).getD []
  | _ => s.working.states

/-- The tables on the way of an act keep the working generation in service. -/
def Gm.Serving (s : Gm) (a : Act) : Prop :=
  ∀ t ∈ (s.act a).2, InService (s.named a) s.working t

/-- The state after a rollback. -/
def Gm.restored (s : Gm) (ps : List PolicySpec) : Gm where
  table := s.table.restored s.working ps
  working := s.working
  staged := none
  retired := s.retired

theorem Gm.Alone.restored (h : s.Alone) (ps : List PolicySpec) : (s.restored ps).Alone :=
  ⟨rfl, h.settled.restored ps⟩

theorem carries_beside (h : s.Alone) (new : SaSet) :
    Carries s.working.states s.working (s.beside new).table :=
  carries_staged h.settled.carries h.settled.proper ..

/-! ### Staging -/

variable (fault) in
/-- A stage comes to its end, or leaves what a rollback does. -/
theorem act_stage (h : s.Alone) (hnew : new.Proper) :
    ((Fits s.working new s.table ∧ s.step (.stage new fault) = s.beside new) ∨
      ∃ ps, ps <+: new.policies ∧ s.step (.stage new fault) = s.restored ps) ∧
    s.Serving (.stage new fault) := by
  have hproper := h.settled.proper
  have hcarry := h.settled.carries
  simp only [Gm.Serving, named, step, act, h.staged, stage]
  split
  · refine ⟨.inr ⟨[], nil_prefix, ?_⟩, forall_mem_nil _⟩
    simp [restored, Table.restored]
  have hinstall := reached_install fault
    (Q := InService s.working.states s.working) (t := s.table)
    (fun done ps => (carries_staged hcarry hproper done ps).serves) hnew ⟨s.table, []⟩ rfl
    (forall_mem_nil _)
  cases hresult : install fault (⟨s.working, new, [], [], [], []⟩, ⟨s.table, []⟩) with
  | ok q =>
    rw [hresult] at hinstall
    refine ⟨.inl ⟨⟨hnew, hinstall.states, hinstall.free⟩, ?_⟩, hinstall.log⟩
    simp [beside, hinstall.record, hinstall.table]
  | error q =>
    rw [hresult] at hinstall
    obtain ⟨done, ps, hpart, hreach⟩ := hinstall
    have hdist : (ps.map PolicySpec.selector).Nodup :=
      (hpart.sublist.map PolicySpec.selector).nodup hnew.selectors
    have hlogged : Logged (InService s.working.states s.working) s.working.states s.working q.2 :=
      ⟨hreach.table ▸ carries_staged hcarry hproper done ps, hreach.log⟩
    have hback := hlogged.rollBack (fun _ ht => ht.serves) new ps
      (hcarry.not_mem_of_free hreach.states) hproper
    simp only [hreach.record]
    refine ⟨.inr ⟨ps, hpart, ?_⟩, hback.log⟩
    simp only [restored]
    rw [rollBack_table hdist hreach.table hreach.states hreach.free]

/-! ### Dropping -/

theorem logged_rollBack {Q : Table → Prop} (hQ : ∀ t, Carries s.working.states s.working t → Q t)
    (h : s.Alone) (hfits : Fits s.working new s.table) {k : Kernel}
    (htable : k.table = (s.beside new).table) (hlog : ∀ t ∈ k.log, Q t) :
    let k' := (record s.working new new.states new.policies).rollBack k
    k'.table = (s.restored new.policies).table ∧ ∀ t ∈ k'.log, Q t := by
  have hdone := h.settled.carries.not_mem_of_free hfits.states
  have hlogged : Logged Q s.working.states s.working k := ⟨htable ▸ carries_beside h new, hlog⟩
  constructor
  · exact rollBack_table hfits.proper.selectors htable hfits.states hfits.free
  · exact (hlogged.rollBack hQ new new.policies hdone h.settled.proper).log

theorem act_drop (h : s.Alone) (hfits : Fits s.working new s.table) :
    (s.beside new).step .drop = s.restored new.policies ∧ (s.beside new).Serving .drop := by
  obtain ⟨htable, hlog⟩ := logged_rollBack
    (fun _ ht => ht.serves) h hfits (k := ⟨(s.beside new).table, []⟩) rfl (forall_mem_nil _)
  refine ⟨?_, hlog⟩
  simp only [step, act, beside] at htable ⊢
  rw [htable]
  rfl

/-! ### Activating -/

/-- The selectors to move are the working generation's and the new one's, outbound. -/
theorem mem_repoint {g : SaSet} {ps : List PolicySpec} {done : List StateSpec}
    {m : PolicySpec × PolicySpec} (hm : m ∈ (record g new done ps).repoint) :
    m.1 ∈ ps ∧ m.2 ∈ g.policies ∧ m.2.selector = m.1.selector ∧ m.1.selector.dirIn = false := by
  obtain ⟨p, hp, hm⟩ := mem_filterMap.1 hm
  split at hm
  case isTrue => cases hm
  case isFalse hdir =>
    obtain ⟨c, hc, rfl⟩ := Option.map_eq_some_iff.1 hm
    obtain ⟨hmem, hsel⟩ := find_some hc
    exact ⟨hp, hmem, hsel, by simpa using hdir⟩

theorem harmless_outbound {g g' : SaSet} {A : List StateSpec} {p : PolicySpec} (hproper : g'.Proper)
    (hp : p ∈ g'.policies) (hdir : p.selector.dirIn = false) (hA : ∀ x ∈ g'.states, x ∈ A) :
    Harmless A g (.policyUpdate p) := by
  intro c hc hsel
  refine ⟨fun _ => ?_, fun hin => ?_⟩
  · obtain ⟨x, hx, hrest⟩ := hproper.named hp hdir
    exact ⟨x, hA x hx, hrest⟩
  · rw [hdir] at hin
    cases hin

variable (fault) in
/-- The table after the switch, or as it was. -/
theorem repointAll_beside (h : s.Alone) (hfits : Fits s.working new s.table) :
    ∃ k done, repointAll fault []
        (record s.working new new.states new.policies).repoint
        ⟨(s.beside new).table, []⟩ = (k, done) ∧
      (k.table = if done then s.table.switched s.working new else (s.beside new).table) ∧
      ∀ t ∈ k.log, InService (s.working.states ++ new.states) s.working t := by
  have hcarry := carries_beside h new
  refine ⟨_, _, rfl, ?_, ?_⟩
  · apply repointAll_table (t := (s.beside new).table)
    · simp [Table.repointed]
    · exact selectors_repoint hfits.proper
    · intro m hm
      rw [nil_append] at hm
      obtain ⟨-, hc, hsel, hdir⟩ := mem_repoint hm
      have hsame := h.settled.out m.2 hc (hsel ▸ hdir)
      rw [hsel] at hsame
      refine ⟨hsel, ?_⟩
      rw [← hsame]
      simp only [beside, Table.staged, hdir]
      have hfound := h.settled.proper.find_eq hc
      rw [hsel] at hfound
      rw [hfound]
      cases new.policies.find? (·.selector == m.1.selector) <;> rfl
  · apply Logged.log
    apply Logged.repointAll (A := s.working.states ++ new.states) (fun t ht => ht.serves)
    · refine ⟨⟨forall_mem_append.2 ⟨hcarry.present, fun x hx => ?_⟩, fun p hp => ?_⟩,
        forall_mem_nil _⟩
      · simp [beside, Table.staged, hx]
      · exact (hcarry.serves p hp).mono fun x hx => mem_append_left _ hx
    · intro m hm
      rw [nil_append] at hm
      obtain ⟨hp, hc, hsel, hdir⟩ := mem_repoint hm
      constructor
      · exact harmless_outbound hfits.proper hp hdir fun x hx => mem_append_right _ hx
      · exact harmless_outbound h.settled.proper hc (hsel ▸ hdir)
          fun x hx => mem_append_left _ hx

/-- The state after the switch. -/
def Gm.switched (s : Gm) (new : SaSet) : Gm where
  table := s.table.switched s.working new
  working := new
  staged := none
  retired := (record s.working new new.states new.policies).retire :: s.retired

theorem Gm.Alone.switched (h : s.Alone) (hfits : Fits s.working new s.table) :
    (s.switched new).Alone := ⟨rfl, h.settled.switched hfits⟩

def Gm.activates (s : Gm) (fault : Op → Bool) : Bool :=
  s.staged.any fun g => (g.activate fault ⟨s.table, []⟩).2.isSome

variable (fault) in
/-- An activation switches over, or leaves what a drop does. -/
theorem act_activate (h : s.Alone) (hfits : Fits s.working new s.table) :
    (s.beside new).step (.activate fault) =
        (if (s.beside new).activates fault then s.switched new else s.restored new.policies) ∧
      (s.beside new).Serving (.activate fault) := by
  obtain ⟨k, done, hmoved, htable, hlog⟩ := repointAll_beside fault h hfits
  have hactivates : (s.beside new).activates fault = done := by
    simp only [activates, beside] at hmoved ⊢
    cases done <;> simp [activate, hmoved]
  simp only [Gm.Serving, step]
  rw [hactivates]
  cases done with
  | true =>
    have hact : (s.beside new).act (.activate fault) = (s.switched new, k.log) := by
      simp only [act, beside] at hmoved ⊢
      simp only [activate, hmoved, htable]
      rfl
    rw [hact]
    exact ⟨rfl, hlog⟩
  | false =>
    obtain ⟨hback, hbacklog⟩ := logged_rollBack
      (Q := InService (s.working.states ++ new.states) s.working)
      (fun t ht p hp => (ht.serves p hp).mono fun x hx => mem_append_left _ hx) h hfits
      (k := k) htable hlog
    have hact : (s.beside new).act (.activate fault) = (s.restored new.policies,
        ((record s.working new new.states new.policies).rollBack k).log) := by
      simp only [act, beside] at hmoved ⊢
      simp only [activate, hmoved, hback]
      rfl
    rw [hact]
    exact ⟨rfl, hbacklog⟩

/-! ### Removing -/

theorem remove_serving {g : SaSet} {t : Table} {r : RetiredSas}
    (hstates : r.states.Disjoint g.states) (huses : ∀ sel, r.uses sel = true → g.find sel = none)
    (hcarry : Carries g.states g t) : ∀ t' ∈ (r.remove ⟨t, []⟩).log, InService g.states g t' := by
  apply Logged.log
  have hstart : Logged (InService g.states g) g.states g ⟨t, []⟩ := ⟨hcarry, forall_mem_nil _⟩
  apply (hstart.attemptAll (fun _ ht => ht.serves) ?_).attemptAll fun _ ht => ht.serves
  · exact forall_mem_map.2 fun _ hx => hstates hx
  · exact forall_mem_map.2 fun p hp => huses p.selector (any_eq_true.2 ⟨p, hp, by simp⟩)

/-- A removal leaves the state alone, and it does the same with a generation beside it. -/
theorem act_remove (h : s.Alone) (i : Nat) :
    (s.step (.remove i)).Alone ∧ (s.step (.remove i)).working = s.working ∧ s.Serving (.remove i) ∧
    ∀ new, Fits s.working new s.table →
      Fits s.working new (s.step (.remove i)).table ∧
      (s.beside new).step (.remove i) = (s.step (.remove i)).beside new ∧
      (s.beside new).Serving (.remove i) := by
  cases hi : s.retired[i]? with
  | none =>
    have hsame : s.act (.remove i) = (s, []) := by simp [act, hi]
    have hbeside (new : SaSet) : (s.beside new).act (.remove i) = (s.beside new, []) := by
      simp [act, beside, hi]
    simp only [step, Gm.Serving, hsame, hbeside]
    exact ⟨h, trivial, forall_mem_nil _, fun new hfits => ⟨hfits, trivial, forall_mem_nil _⟩⟩
  | some r =>
    have hr : r ∈ s.retired := mem_of_getElem? hi
    have hperm : s.retired.Perm (r :: s.retired.eraseIdx i) := by
      obtain ⟨hlt, rfl⟩ := List.getElem?_eq_some_iff.1 hi
      exact (getElem_cons_eraseIdx_perm hlt).symm
    have hstates := h.settled.apartStates r hr
    have huses := h.settled.apartUses r hr
    simp only [step, Gm.Serving, act, beside, named, hi, remove_table]
    refine ⟨⟨h.staged, (h.settled.perm hperm).without⟩, trivial,
      remove_serving hstates huses h.settled.carries, fun new hfits => ⟨hfits.without r, ?_, ?_⟩⟩
    · rw [h.settled.staged_without hfits hr]
    · exact remove_serving hstates huses (carries_beside h new)

/-! ### Runs -/

/-- A stage is of a generation that the kernel can hold. -/
def Act.Proper : Act → Prop
  | .stage new _ => new.Proper
  | _ => True

theorem Gm.Sound.idle (h : s.Sound) {a : Act} (hsame : s.act a = (s, [])) :
    (s.step a).Sound ∧ s.Serving a := by
  simp only [step, Gm.Serving, hsame]
  exact ⟨h, forall_mem_nil _⟩

theorem Gm.Sound.step (h : s.Sound) {a : Act} (ha : a.Proper) : (s.step a).Sound ∧ s.Serving a := by
  cases h with
  | alone h =>
    cases a with
    | stage new fault =>
      obtain ⟨hstep, hserve⟩ := act_stage fault h ha
      refine ⟨?_, hserve⟩
      rcases hstep with ⟨hfits, hstep⟩ | ⟨ps, -, hstep⟩
      · rw [hstep]
        exact .beside h hfits
      · rw [hstep]
        exact .alone (h.restored ps)
    | drop | activate => exact (Gm.Sound.alone h).idle (by simp [act, h.staged])
    | remove i =>
      obtain ⟨halone, -, hserve, -⟩ := act_remove h i
      exact ⟨.alone halone, hserve⟩
  | @beside s new h hfits =>
    cases a with
    | stage => exact (Gm.Sound.beside h hfits).idle rfl
    | drop =>
      obtain ⟨hstep, hserve⟩ := act_drop h hfits
      rw [hstep]
      exact ⟨.alone (h.restored _), hserve⟩
    | activate fault =>
      obtain ⟨hstep, hserve⟩ := act_activate fault h hfits
      rw [hstep]
      refine ⟨?_, hserve⟩
      split
      · exact .alone (h.switched hfits)
      · exact .alone (h.restored _)
    | remove i =>
      obtain ⟨halone, hwork, -, hbeside⟩ := act_remove h i
      obtain ⟨hfits', hstep, hserve⟩ := hbeside new hfits
      rw [hstep]
      exact ⟨.beside halone (hwork.symm ▸ hfits'), hserve⟩

theorem Gm.Sound.run (h : s.Sound) {acts : List Act} (hacts : ∀ a ∈ acts, a.Proper) :
    (s.run acts).Sound := by
  induction acts generalizing s with
  | nil => exact h
  | cons a acts ih =>
    apply ih (h.step (hacts a mem_cons_self)).1
    exact fun b hb => hacts b (mem_cons_of_mem a hb)

theorem sound_start {g : SaSet} (h : g.Proper) : (start g).Sound :=
  .alone ⟨rfl, settled_installed h⟩

/-- Removals while a generation is staged do what they do without it. -/
theorem Gm.Alone.removals (h : s.Alone) (hfits : Fits s.working new s.table) (is : List Nat) :
    (s.run (is.map .remove)).Alone ∧ (s.run (is.map .remove)).working = s.working ∧
      Fits s.working new (s.run (is.map .remove)).table ∧
      (s.beside new).run (is.map .remove) = (s.run (is.map .remove)).beside new := by
  induction is generalizing s with
  | nil => exact ⟨h, rfl, hfits, rfl⟩
  | cons i is ih =>
    obtain ⟨halone, hwork, -, hbeside⟩ := act_remove h i
    obtain ⟨hfits', hstep, -⟩ := hbeside new hfits
    obtain ⟨hend, hwork', hfits'', hrun⟩ := ih halone (hwork.symm ▸ hfits')
    change (run (s.step _) _).Alone ∧ (run (s.step _) _).working = _ ∧
      Fits _ _ (run (s.step _) _).table ∧ run ((s.beside new).step _) _ = _
    rw [hstep, hrun]
    exact ⟨hend, hwork'.trans hwork, hwork ▸ hfits'', rfl⟩

/-- What gives up a staged generation. -/
def Gm.Abandons (s : Gm) : Act → Prop
  | .drop => True
  | .activate fault => s.activates fault = false
  | _ => False

/-- What a refresh leaves of the working generation. -/
structure Gm.Intact (s : Gm) : Prop where
  proper : s.working.Proper
  serves : InService s.working.states s.working s.table
  serving : ∀ a : Act, a.Proper → s.Serving a
  refused : ∀ new fault, new.Proper → s.staged = none → (s.step (.stage new fault)).staged = none →
    Alike s.working new s.table (s.step (.stage new fault)).table
  abandoned : ∀ new fault, new.Proper → s.staged = none →
    (s.step (.stage new fault)).staged.isSome = true → ∀ (is : List Nat) (a : Act),
      ((s.step (.stage new fault)).run (is.map .remove)).Abandons a →
        Alike s.working new (s.run (is.map .remove)).table
          (((s.step (.stage new fault)).run (is.map .remove)).step a).table
  drained : s.staged = none → s.retired = [] →
    (∀ x, s.table.states x = true ↔ x ∈ s.working.states) ∧
      ∀ sel, (s.table.policies sel).isSome = true ↔ ∃ p ∈ s.working.policies, p.selector = sel

theorem Gm.Alone.refused (h : s.Alone) (hnew : new.Proper)
    (hstaged : (s.step (.stage new fault)).staged = none) :
    Alike s.working new s.table (s.step (.stage new fault)).table := by
  rcases (act_stage fault h hnew).1 with ⟨-, hstep⟩ | ⟨ps, hpart, hstep⟩
  · rw [hstep] at hstaged
    cases hstaged
  · rw [hstep]
    exact h.settled.alike_restored fun p hp => hpart.subset hp

theorem Gm.Alone.abandoned (h : s.Alone) (hnew : new.Proper)
    (hstaged : (s.step (.stage new fault)).staged.isSome = true) (is : List Nat) (a : Act)
    (ha : ((s.step (.stage new fault)).run (is.map .remove)).Abandons a) :
    Alike s.working new (s.run (is.map .remove)).table
      (((s.step (.stage new fault)).run (is.map .remove)).step a).table := by
  rcases (act_stage fault h hnew).1 with ⟨hfits, hstep⟩ | ⟨ps, -, hstep⟩
  case inr =>
    rw [hstep] at hstaged
    cases hstaged
  case inl =>
    obtain ⟨halone, hwork, hfits', hrun⟩ := h.removals hfits is
    rw [hstep, hrun] at ha ⊢
    have hfits' : Fits (s.run (is.map .remove)).working new (s.run (is.map .remove)).table :=
      hwork.symm ▸ hfits'
    have hback : ((s.run (is.map .remove)).beside new).step a =
        (s.run (is.map .remove)).restored new.policies := by
      cases a with
      | drop => exact (act_drop halone hfits').1
      | activate fault =>
        have hend := (act_activate fault halone hfits').1
        rw [show ((s.run (is.map .remove)).beside new).activates fault = false from ha] at hend
        exact hend
      | stage | remove => exact ha.elim
    rw [hback, ← hwork]
    exact halone.settled.alike_restored fun p hp => hp

theorem Gm.Sound.intact (h : s.Sound) : s.Intact := by
  have hserve : ∀ a : Act, a.Proper → s.Serving a := fun a ha => (h.step ha).2
  cases h with
  | alone h =>
    refine ⟨h.settled.proper, h.settled.carries.serves, hserve, ?_, ?_, ?_⟩
    · exact fun new fault hnew _ hstaged => h.refused hnew hstaged
    · exact fun new fault hnew _ hstaged is a ha => h.abandoned hnew hstaged is a ha
    · intro _ hretired
      have hstates := h.settled.states
      have hpols := h.settled.policies
      simp only [hretired, not_mem_nil, false_and, exists_false, or_false] at hstates hpols
      refine ⟨hstates, fun sel => (hpols sel).trans ?_⟩
      simp [SaSet.find, find?_isSome]
  | @beside s new h hfits =>
    have hstaged : (s.beside new).staged ≠ none := Option.some_ne_none _
    exact ⟨h.settled.proper, (carries_beside h new).serves, hserve,
      fun _ _ _ hnone => absurd hnone hstaged, fun _ _ _ hnone => absurd hnone hstaged,
      fun hnone => absurd hnone hstaged⟩

/-- In every run of refreshes each state leaves the working generation intact. -/
theorem working_generation_intact {g : SaSet} (hg : g.Proper) (acts : List Act)
    (hacts : ∀ a ∈ acts, a.Proper) : ((start g).run acts).Intact :=
  ((sound_start hg).run hacts).intact

/-- A generation on the usual ports, but for our client port. -/
def sampleGeneration (portC : UInt16) (spi : UInt32) : SaSet :=
  let ours : SaProposal := ⟨spi, spi + 1, portC, 5061⟩
  let theirs : SecurityServerParams := ⟨spi + 2, spi + 3, 6000, 6001⟩
  ⟨.new (.v4 10 0 0 1) (.v4 10 0 0 2) ours theirs, ours, theirs⟩

/-- A refresh that succeeds, and the drain after it. -/
def sampleRefresh (new : SaSet) : List Act :=
  [.stage new fun _ => false, .activate fun _ => false, .remove 0]

theorem working_generation_intact_refreshed :
    ((start (sampleGeneration 5062 100)).run
      (sampleRefresh (sampleGeneration 5063 200))).Intact := by
  apply working_generation_intact
  · exact ⟨rfl, rfl, by decide, by decide, by decide⟩
  · intro a ha
    simp only [sampleRefresh, mem_cons, not_mem_nil, or_false] at ha
    rcases ha with rfl | rfl | rfl
    · exact ⟨rfl, rfl, by decide, by decide, by decide⟩
    · trivial
    · trivial

/-- The switch moves the shared selectors one at a time, so part-way neither generation is served by
its own states alone. And a template that one refresh leaves open is narrowed when the next one is
dropped. -/
theorem shared_selectors_are_seen_to_change :
    (∃ t ∈ (((start (sampleGeneration 5062 100)).step
        (.stage (sampleGeneration 5063 200) fun _ => false)).act (.activate fun _ => false)).2,
      ¬ InService (sampleGeneration 5062 100).states (sampleGeneration 5062 100) t ∧
      ¬ InService (sampleGeneration 5063 200).states (sampleGeneration 5063 200) t) ∧
    let s := (start (sampleGeneration 5062 100)).run (sampleRefresh (sampleGeneration 5063 200))
    (s.run [.stage (sampleGeneration 5064 300) fun _ => false, .drop]).table ≠ s.table := by
  constructor
  · refine ⟨_, mem_of_getElem? (i := 3) rfl, fun h => ?_, fun h => ?_⟩
    · let sel : Selector := ⟨⟨.v4 10 0 0 1, 5061⟩, ⟨.v4 10 0 0 2, 6000⟩, .tcp, false⟩
      obtain ⟨x, hx, -, -, -, hpolicy⟩ := (h ⟨sel, some 102⟩ (by decide)).out rfl
      revert x
      decide
    · let sel : Selector := ⟨⟨.v4 10 0 0 1, 5061⟩, ⟨.v4 10 0 0 2, 6001⟩, .udp, false⟩
      obtain ⟨x, hx, -, -, -, hpolicy⟩ := (h ⟨sel, some 203⟩ (by decide)).out rfl
      revert x
      decide
  · intro s heq
    have hpolicies := congrArg
      (fun t => t.policies ⟨⟨.v4 10 0 0 2, 6000⟩, ⟨.v4 10 0 0 1, 5061⟩, .tcp, true⟩) heq
    revert hpolicies
    decide

end Ims.GmIpsec
