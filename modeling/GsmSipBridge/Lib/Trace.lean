-- SUMMARY: Runs of machines: turn by turn, with outputs, in lockstep, and interleaved.
import Mathlib.Data.List.Destutter
import Mathlib.Data.List.Infix
import Mathlib.Init

/-!
# Turns of a run

A machine takes one input at a time. A property that is meant to hold throughout a run
is compared with a condition on each turn, which speaks of the input and of the state
the turn is taken in.
-/

namespace Trace

variable {σ α : Type} {step : σ → α → σ} {s : σ} {C : σ → α → Prop} {as : List α} {I P : σ → Prop}
  {D : σ → α → Prop}

/-- The property holds at the start and after every turn. -/
def Always (step : σ → α → σ) (P : σ → Prop) : σ → List α → Prop
  | s, [] => P s
  | s, a :: as => P s ∧ Always step P (step s a) as

/-- Every turn meets the condition, in the state it is taken in. -/
def Each (step : σ → α → σ) (C : σ → α → Prop) : σ → List α → Prop
  | _, [] => True
  | s, a :: as => C s a ∧ Each step C (step s a) as

/-- What every turn keeps, a run does. -/
theorem always_of_invariant (hkeep : ∀ s a, I s → I (step s a)) (hs : I s) (as : List α) :
    Always step I s as := by
  induction as generalizing s with
  | nil => exact hs
  | cons a as ih => exact ⟨hs, ih (hkeep s a hs)⟩

theorem Always.imp {Q : σ → Prop} (hPQ : ∀ s, P s → Q s) (h : Always step P s as) :
    Always step Q s as := by
  induction as generalizing s with
  | nil => exact hPQ s h
  | cons a as ih => exact ⟨hPQ s h.1, ih h.2⟩

/-- An invariant that the turns of a run keep, because they meet a condition, gives what holds
throughout it. -/
theorem Each.always (hgives : ∀ s, I s → P s) (hkeep : ∀ s a, I s → C s a → I (step s a)) (hs : I s)
    (h : Each step C s as) : Always step P s as := by
  induction as generalizing s with
  | nil => exact hgives s hs
  | cons a as ih => exact ⟨hgives s hs, ih (hkeep s a hs h.1) h.2⟩

/-- The same for what holds of every turn. -/
theorem Each.each (hgives : ∀ s a, I s → C s a → D s a) (hkeep : ∀ s a, I s → C s a → I (step s a))
    (hs : I s) (h : Each step C s as) : Each step D s as := by
  induction as generalizing s with
  | nil => trivial
  | cons a as ih => exact ⟨hgives s a hs h.1, ih (hkeep s a hs h.1) h.2⟩

/-- What an invariant gives of one turn holds of every turn. -/
theorem each_of_invariant (hkeep : ∀ s a, I s → I (step s a)) (hgives : ∀ s a, I s → D s a)
    (hs : I s) (as : List α) : Each step D s as := by
  induction as generalizing s with
  | nil => trivial
  | cons a as ih => exact ⟨hgives s a hs, ih (hkeep s a hs)⟩

/-- Two conditions hold of the same runs, turn for turn, if an invariant makes them agree
on a turn and one of them keeps it. -/
theorem each_iff_each (hkeep : ∀ s a, I s → C s a → I (step s a))
    (hiff : ∀ s a, I s → (D s a ↔ C s a)) (hs : I s) : Each step D s as ↔ Each step C s as := by
  induction as generalizing s with
  | nil => rfl
  | cons a as ih =>
    constructor
    · intro h
      have hmet := (hiff s a hs).1 h.1
      exact ⟨hmet, (ih (hkeep s a hs hmet)).1 h.2⟩
    · intro h
      exact ⟨(hiff s a hs).2 h.1, (ih (hkeep s a hs h.1)).2 h.2⟩

/-- The last turn of a run, in the state that the turns before it lead to. -/
theorem Each.last {a : α} (h : Each step C s (as ++ [a])) : C (as.foldl step s) a := by
  induction as generalizing s with
  | nil => exact h.1
  | cons b as ih => exact ih h.2

theorem Always.head (h : Always step P s as) : P s := by
  cases as with
  | nil => exact h
  | cons a as => exact h.1

/-- A property that an invariant gives holds throughout exactly the runs whose turns all
meet the condition, if meeting it keeps the invariant and failing it breaks the property.
`H` is what is assumed of every input. -/
theorem always_iff_each_of {H : α → Prop} (hgives : ∀ s, I s → P s)
    (hkeep : ∀ s a, H a → I s → C s a → I (step s a))
    (hbreak : ∀ s a, H a → I s → P (step s a) → C s a) (hs : I s) (has : ∀ a ∈ as, H a) :
    Always step P s as ↔ Each step C s as := by
  induction as generalizing s with
  | nil => exact ⟨fun _ => trivial, fun _ => hgives s hs⟩
  | cons a as ih =>
    have ha := has a List.mem_cons_self
    have hrest : ∀ a ∈ as, H a := fun b hb => has b (List.mem_cons_of_mem a hb)
    constructor
    · intro h
      have hmet := hbreak s a ha hs h.2.head
      exact ⟨hmet, (ih (hkeep s a ha hs hmet) hrest).1 h.2⟩
    · intro h
      exact ⟨hgives s hs, (ih (hkeep s a ha hs h.1) hrest).2 h.2⟩

theorem always_iff_each (hgives : ∀ s, I s → P s) (hkeep : ∀ s a, I s → C s a → I (step s a))
    (hbreak : ∀ s a, I s → P (step s a) → C s a) (hs : I s) :
    Always step P s as ↔ Each step C s as :=
  always_iff_each_of hgives (fun s a _ => hkeep s a)
    (fun s a _ => hbreak s a) hs fun _ _ => trivial

end Trace

/-! ## Histories

A run as the list of its inputs with the latest first, so that what happened before a turn is
the tail of the list. Every initial part of a run is a history of its own: what is shown of every
history holds in every state that a run passes through. -/

namespace History

variable {σ α : Type} (step : σ → α → σ) (start : σ)

/-- The state that a history leads to. -/
def after : List α → σ
  | [] => start
  | a :: past => step (after past) a

/-- Every turn met the condition in the state it was taken in. -/
def Met (C : σ → α → Prop) : List α → Prop
  | [] => True
  | a :: past => Met C past ∧ C (after step start past) a

variable {step start}

theorem Met.imp {C D : σ → α → Prop} (hCD : ∀ s a, C s a → D s a) {past : List α}
    (h : Met step start C past) : Met step start D past := by
  induction past with
  | nil => trivial
  | cons a past ih => exact ⟨ih h.1, hCD _ a h.2⟩

/-- What holds at the start and is kept by every turn. -/
theorem after_of_invariant {I : σ → Prop} (hstart : I start) (hkeep : ∀ s a, I s → I (step s a))
    (past : List α) : I (after step start past) := by
  induction past with
  | nil => exact hstart
  | cons a past ih => exact hkeep _ a ih

end History

/-! ## Machines in lockstep

An implementation `f` and a reference `g` read the same inputs. `Sync` is the
relation an agreeing pair of states is in, `Agree` what an observer can check.
When a step that meets `Good` keeps the pair in sync and one that does not is
observed at once, the observer sees agreement all along a run exactly when every
step of it is good. -/

namespace Lockstep

variable {σ τ α : Type} {C : σ → α → Prop} {g : σ → α → σ} {s : σ}

/-- Every step of a run of `g` meets `C` in the state it starts from. -/
def Along (g : σ → α → σ) (C : σ → α → Prop) : σ → List α → Prop
  | _, [] => True
  | s, a :: as => C s a ∧ Along g C (g s a) as

@[simp] theorem along_nil : Along g C s [] := trivial

@[simp] theorem along_cons {a : α} {as : List α} :
    Along g C s (a :: as) ↔ C s a ∧ Along g C (g s a) as := Iff.rfl

instance decidableAlong {g : σ → α → σ} {C : σ → α → Prop} [∀ s a, Decidable (C s a)] :
    (s : σ) → (as : List α) → Decidable (Along g C s as)
  | _, [] => .isTrue trivial
  | s, a :: as =>
    have : Decidable (Along g C (g s a) as) := decidableAlong (g s a) as
    inferInstanceAs (Decidable (C s a ∧ Along g C (g s a) as))

section Rule

variable {f : τ → α → τ} {Domain Good : σ → α → Prop} {Sync Agree : τ → σ → Prop}

/-- Agreement after every prefix of the inputs is goodness of every step. -/
theorem agree_iff_along (hagree : ∀ t s, Sync t s → Agree t s)
    (hgood : ∀ t s a, Sync t s → Domain s a → Good s a → Sync (f t a) (g s a))
    (hbad : ∀ t s a, Sync t s → Domain s a → ¬ Good s a → ¬ Agree (f t a) (g s a)) {t : τ}
    (hsync : Sync t s) {as : List α} (hdom : Along g Domain s as) :
    (∀ seen, seen <+: as → Agree (seen.foldl f t) (seen.foldl g s)) ↔ Along g Good s as := by
  induction as generalizing t s with
  | nil =>
    refine ⟨fun _ => along_nil, fun _ seen hseen => ?_⟩
    rw [List.prefix_nil.mp hseen]
    exact hagree t s hsync
  | cons a as ih =>
    obtain ⟨hd, hdom⟩ := hdom
    constructor
    · intro hall
      have hg : Good s a := by
        by_contra hb
        exact hbad t s a hsync hd hb (hall [a] (by simp))
      refine ⟨hg, (ih (hgood t s a hsync hd hg) hdom).mp fun seen hseen => ?_⟩
      exact hall (a :: seen) (List.cons_prefix_cons.mpr ⟨rfl, hseen⟩)
    · rintro ⟨hg, hrest⟩ seen hseen
      cases seen with
      | nil => exact hagree t s hsync
      | cons b seen =>
        obtain ⟨rfl, htail⟩ := List.cons_prefix_cons.mp hseen
        exact (ih (hgood t s b hsync hd hg) hdom).mpr hrest seen htail

end Rule

end Lockstep

/-! ## Runs

A machine takes one operation at a time, changes its state and emits a list. A
run folds the operations from the left and concatenates what was emitted. The
rules below are the only induction over runs the instances need: an invariant
may mention the operations so far, the state and everything emitted. -/

namespace Run

open List

variable {σ α β : Type}

/-- State and concatenated outputs after a list of operations. -/
def run (step : σ → α → σ × List β) (s : σ) : List α → σ × List β
  | [] => (s, [])
  | a :: as =>
    let r := run step (step s a).1 as
    (r.1, (step s a).2 ++ r.2)

variable {step : σ → α → σ × List β} {s : σ} {i : Nat} {l : List β} {p q : β} {x : β}

@[simp] theorem run_nil : run step s [] = (s, []) := rfl

@[simp] theorem run_cons {a : α} {as : List α} :
    run step s (a :: as) =
      ((run step (step s a).1 as).1, (step s a).2 ++ (run step (step s a).1 as).2) := rfl

theorem run_append (as bs : List α) :
    run step s (as ++ bs) =
      ((run step (run step s as).1 bs).1,
        (run step s as).2 ++ (run step (run step s as).1 bs).2) := by
  induction as generalizing s with
  | nil => simp
  | cons a as ih => simp [ih]

/-- The last operation of a run, peeled off. -/
theorem run_concat (as : List α) (a : α) :
    run step s (as ++ [a]) =
      ((step (run step s as).1 a).1, (run step s as).2 ++ (step (run step s as).1 a).2) := by
  simp [run_append]

/-- The invariant rule: what holds of the empty history and survives one more
operation holds of every run. -/
theorem run_induction {I : List α → σ → List β → Prop} (hinit : I [] s [])
    (hstep : ∀ as a t out, I as t out → I (as ++ [a]) (step t a).1 (out ++ (step t a).2))
    (as : List α) : I as (run step s as).1 (run step s as).2 := by
  induction as using reverseRecOn with
  | nil => exact hinit
  | append_singleton as a ih =>
    rw [run_concat]
    exact hstep as a _ _ ih

/-- An invariant of the state alone needs no history. -/
theorem run_invariant {I : σ → Prop} (hinit : I s)
    (hstep : ∀ t a, I t → I (step t a).1) (as : List α) : I (run step s as).1 :=
  run_induction (I := fun _ t _ => I t) hinit (fun _ a t _ h => hstep t a h) as

/-! ### Neighbouring outputs -/

/-- `p` and `q` stand at positions `i` and `i + 1`. -/
def Adjacent (l : List β) (i : Nat) (p q : β) : Prop :=
  l[i]? = some p ∧ l[i + 1]? = some q

/-- Neighbours of a concatenation lie in the first part, across the seam, or in
the second part. -/
theorem Adjacent.append {r : List β} (h : Adjacent (l ++ r) i p q) :
    Adjacent l i p q ∨
    (l.getLast? = some p ∧ r.head? = some q ∧ i + 1 = l.length) ∨
    (∃ j, i = l.length + j ∧ Adjacent r j p q) := by
  obtain ⟨hp, hq⟩ := h
  rcases Nat.lt_trichotomy (i + 1) l.length with hlt | heq | hgt
  · left
    rw [getElem?_append_left (by omega)] at hp hq
    exact ⟨hp, hq⟩
  · right; left
    rw [getElem?_append_left (by omega)] at hp
    rw [getElem?_append_right (by omega), heq, Nat.sub_self] at hq
    refine ⟨?_, ?_, heq⟩
    · rw [getLast?_eq_getElem?, ← heq]
      exact hp
    · rw [head?_eq_getElem?]
      exact hq
  · right; right
    refine ⟨i - l.length, by omega, ?_, ?_⟩
    · rwa [getElem?_append_right (by omega)] at hp
    · rw [getElem?_append_right (by omega)] at hq
      rwa [show i - l.length + 1 = i + 1 - l.length by omega]

theorem not_adjacent_nil : ¬ Adjacent ([] : List β) i p q := by
  simp [Adjacent]

theorem adjacent_cons_zero (h : Adjacent (x :: l) 0 p q) : p = x ∧ l.head? = some q := by
  obtain ⟨hp, hq⟩ := h
  simp only [getElem?_cons_zero, Option.some.injEq] at hp
  refine ⟨hp.symm, ?_⟩
  rw [head?_eq_getElem?]
  simpa using hq

theorem adjacent_cons_succ (h : Adjacent (x :: l) (i + 1) p q) : Adjacent l i p q := by
  simpa [Adjacent] using h

/-! ### Collapsed outputs

`List.destutter (· ≠ ·)` keeps one of each block of equal neighbours. -/

section Collapse

variable [DecidableEq β]

theorem destutter'_concat (a x : β) (l : List β) :
    (l ++ [x]).destutter' (· ≠ ·) a =
      if (a :: l).getLast? = some x then l.destutter' (· ≠ ·) a
      else l.destutter' (· ≠ ·) a ++ [x] := by
  induction l generalizing a with
  | nil =>
    by_cases h : a = x <;> simp [destutter', h]
  | cons b l ih =>
    rw [cons_append, getLast?_cons_cons]
    by_cases h : a = b
    · subst h
      simp only [destutter', ne_eq, not_true_eq_false, if_false]
      exact ih a
    · simp only [destutter', ne_eq, h, not_false_eq_true, if_true, ih b]
      split <;> rfl

/-- One more element extends the collapsed list unless it repeats the last. -/
theorem destutter_concat (l : List β) (x : β) :
    (l ++ [x]).destutter (· ≠ ·) =
      if l.getLast? = some x then l.destutter (· ≠ ·) else l.destutter (· ≠ ·) ++ [x] := by
  cases l with
  | nil => rfl
  | cons a l => exact destutter'_concat a x l

/-- Repetitions of the last element collapse into it. -/
theorem destutter_append_of_last {r : List β} (h : ∀ y ∈ r, l.getLast? = some y) :
    (l ++ r).destutter (· ≠ ·) = l.destutter (· ≠ ·) := by
  induction r using reverseRecOn with
  | nil => rw [append_nil]
  | append_singleton r y ih =>
    have hlast : (l ++ r).getLast? = some y := by
      have hy := h y (by simp)
      cases hr : r.getLast? with
      | none =>
        rw [getLast?_eq_none_iff.mp hr, append_nil]
        exact hy
      | some z =>
        have hz := h z (by simp [mem_of_getLast? hr])
        rw [getLast?_append, hr, ← hz, hy, Option.some_or]
    rw [← append_assoc, destutter_concat, if_pos hlast]
    exact ih fun z hz => h z (by simp [hz])

end Collapse

end Run

/-! ## Interleaved processes

Any number of processes share a store. One step is one process reading and writing
the store, moving to its next state and emitting events; a run is any sequence of
such steps. What the runs are assumed to keep to is a property of the store and each
process, and holds after every step. An invariant is a property of the store and the
history, one of each process and one of each two processes. -/

namespace Interleave

open List

variable {σ π ε : Type}

/-- The store, the processes and the history after some steps. -/
inductive Reachable (step : σ → π → σ → π → List ε → Prop) (ok : σ → π → Prop) (start : σ)
    (processes : List π) : σ → List π → List ε → Prop
  | start (hok : ∀ p ∈ processes, ok start p) :
      Reachable step ok start processes start processes []
  | step {s s' : σ} {P : List π} {h es : List ε} {p p' : π} (i : Nat) :
      Reachable step ok start processes s P h → P[i]? = some p → step s p s' p' es →
      (∀ q ∈ P.set i p', ok s' q) →
      Reachable step ok start processes s' (P.set i p') (h ++ es)

variable {step : σ → π → σ → π → List ε → Prop} {ok : σ → π → Prop} {start : σ}
  {processes : List π} {P : List π} {s : σ}

/-- Every configuration of a run is as the runs are assumed to be. -/
theorem Reachable.assumed {h : List ε} (hreach : Reachable step ok start processes s P h) :
    ∀ p ∈ P, ok s p := by
  cases hreach with
  | start hok | step i _ _ _ hok => exact hok

/-- A process after one of them moved: the one that did, or another one as it was. -/
theorem getElem?_set_cases {i j : Nat} {p' q : π} (h : (P.set i p')[j]? = some q) :
    (j = i ∧ q = p') ∨ (j ≠ i ∧ P[j]? = some q) := by
  by_cases hj : i = j
  · subst hj
    obtain ⟨hlt, heq⟩ := List.getElem?_eq_some_iff.mp h
    rw [getElem_set_self] at heq
    exact .inl ⟨rfl, heq.symm⟩
  · rw [getElem?_set_ne hj] at h
    exact .inr ⟨fun heq => hj heq.symm, h⟩

/-- The store, every process and every two processes. -/
structure Invariant (Shared : σ → List ε → Prop) (Local : σ → List ε → π → Prop)
    (Pair : σ → π → π → Prop) (s : σ) (P : List π) (h : List ε) : Prop where
  shared : Shared s h
  each : ∀ (i : Nat) p, P[i]? = some p → Local s h p
  pair : ∀ (i j : Nat) p q, i ≠ j → P[i]? = some p → P[j]? = some q → Pair s p q

/-- The invariant rule: a step keeps the invariant of the process that moves, and does not
interfere with the others. -/
theorem Reachable.invariant {Shared : σ → List ε → Prop} {Local : σ → List ε → π → Prop}
    {Pair : σ → π → π → Prop} (hsymm : ∀ s p q, Pair s p q → Pair s q p)
    (hstart : Invariant Shared Local Pair start processes [])
    (hstep : ∀ s h p s' p' es, Shared s h → Local s h p → ok s p → step s p s' p' es → ok s' p' →
      Shared s' (h ++ es) ∧ Local s' (h ++ es) p')
    (hother : ∀ s h p s' p' es q, Shared s h → Local s h p → Local s h q → Pair s p q →
      step s p s' p' es → Local s' (h ++ es) q ∧ Pair s' p' q)
    (hothers : ∀ s p s' p' es q r, step s p s' p' es → Pair s q r → Pair s' q r) {h : List ε}
    (hreach : Reachable step ok start processes s P h) : Invariant Shared Local Pair s P h := by
  induction hreach with
  | start => exact hstart
  | @step s s' P h es p p' i hreach hp hs hok ih =>
    have hlocal := ih.each i p hp
    have hokp' : ok s' p' := by
      obtain ⟨hlt, -⟩ := List.getElem?_eq_some_iff.mp hp
      exact hok p' (mem_set hlt p')
    obtain ⟨hshared', hlocal'⟩ := hstep _ _ _ _ _ _ ih.shared hlocal
      (hreach.assumed p (mem_of_getElem? hp)) hs hokp'
    have hnonint : ∀ (j : Nat) q, j ≠ i → P[j]? = some q → Local s' (h ++ es) q ∧ Pair s' p' q :=
      fun j q hj hq => hother _ _ _ _ _ _ _ ih.shared hlocal (ih.each j q hq)
        (ih.pair i j p q hj.symm hp hq) hs
    refine ⟨hshared', fun j q hq => ?_, fun j k q r hjk hq hr => ?_⟩
    · obtain ⟨-, rfl⟩ | ⟨hj, hq⟩ := getElem?_set_cases hq
      · exact hlocal'
      · exact (hnonint j q hj hq).1
    · obtain ⟨hji, hqp⟩ | ⟨hj, hq'⟩ := getElem?_set_cases hq <;>
        obtain ⟨hki, hrp⟩ | ⟨hk, hr'⟩ := getElem?_set_cases hr
      · exact absurd (hji.trans hki.symm) hjk
      · exact hqp ▸ (hnonint k r hk hr').2
      · exact hrp ▸ hsymm _ _ _ (hnonint j q hj hq').2
      · exact hothers _ _ _ _ _ _ _ hs (ih.pair j k q r hjk hq' hr')

/-! ### Histories -/

variable {Q : List ε → ε → Prop} {h es : List ε}

/-- Every event fits what happened before it. -/
def Fits (Q : List ε → ε → Prop) (h : List ε) : Prop :=
  ∀ pre e post, h = pre ++ e :: post → Q pre e

theorem Fits.nil : Fits Q [] := fun _ _ _ heq =>
  absurd heq.symm (append_ne_nil_of_right_ne_nil _ (cons_ne_nil _ _))

theorem Fits.append (hfits : Fits Q h)
    (hes : ∀ pre e post, es = pre ++ e :: post → Q (h ++ pre) e) : Fits Q (h ++ es) := by
  intro pre e post heq
  obtain ⟨t, rfl, ht⟩ | ⟨t, rfl, ht⟩ := append_eq_append_iff.mp heq
  · exact hes t e post ht
  cases t with
  | nil =>
    have hfit := hes [] e post ht.symm
    rwa [append_nil, append_nil] at hfit
  | cons e' t =>
    obtain ⟨rfl, -⟩ := List.cons.inj ht
    exact hfits pre e t rfl

theorem Fits.concat {e : ε} (hfits : Fits Q h) (he : Q h e) : Fits Q (h ++ [e]) := by
  refine hfits.append fun pre e' post heq => ?_
  cases pre with
  | nil =>
    obtain ⟨rfl, -⟩ := List.cons.inj heq
    rw [append_nil]
    exact he
  | cons _ pre =>
    obtain ⟨-, htail⟩ := List.cons.inj heq
    exact absurd htail.symm (append_ne_nil_of_right_ne_nil _ (cons_ne_nil _ _))

end Interleave

/-! ## Clock

Times and durations are counted in nanoseconds. -/

namespace Clock

def secs (n : Nat) : Nat := n * 1000000000

theorem secs_pos {n : Nat} (h : 0 < n) : 0 < secs n :=
  Nat.mul_pos h (by decide)

end Clock
