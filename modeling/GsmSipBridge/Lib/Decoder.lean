-- SUMMARY: Fallible stateful decoders: composition, truncation and simulation.
import Mathlib.Data.List.Infix

/-!
# Decoders

A decoder reads from a state and fails without a reason, as a chain of `?` on
options does. Three properties are closed under sequencing, and everything said
about a concrete decoder is said through them:

* `Reads p enc a`: in front of any input, `enc` is read as `a`;
* `Takes p P`: whatever is read was an encoding of the result, and the two satisfy `P`;
* `Simulates f p q`: `p` behaves as `q` on the abstraction `f` of its state.

A decoder that only takes encodings `Extends` to longer inputs and `Ensures` what
`P` says of the result.
-/

abbrev Decoder (σ α : Type) := StateT σ Option α

namespace Decoder

open List

variable {σ τ α β γ κ : Type} {p : Decoder (List β) α}

theorem pure_apply (a : α) (s : σ) : (pure a : Decoder σ α) s = some (a, s) := rfl

theorem bind_apply (p : Decoder σ α) (k : α → Decoder σ β) (s : σ) :
    (p >>= k) s = (p s).bind fun x => k x.1 x.2 := by
  change (p s).bind _ = _
  cases p s <;> rfl

theorem bind_eq_some {p : Decoder σ α} {k : α → Decoder σ β} {s s₂ : σ} {b : β}
    (h : (p >>= k) s = some (b, s₂)) : ∃ a s₁, p s = some (a, s₁) ∧ k a s₁ = some (b, s₂) := by
  obtain ⟨⟨a, s₁⟩, hp, hk⟩ := Option.bind_eq_some_iff.mp h
  exact ⟨a, s₁, hp, hk⟩

/-- A pure partial step: `?` on something that reads nothing. -/
def ofOption (o : Option α) : Decoder σ α :=
  fun s => o.map fun a => (a, s)

/-- The next item of a list. -/
def next : Decoder (List β) β
  | [] => none
  | b :: l => some (b, l)

/-- The next `n` items of a list. -/
def take (n : Nat) : Decoder (List β) (List β) :=
  fun l => if n ≤ l.length then some (l.take n, l.drop n) else none

/-! ## Encodings -/

/-- `enc`, followed by anything, is read as `a` and leaves what followed. -/
def Reads (p : Decoder (List β) α) (enc : List β) (a : α) : Prop :=
  ∀ rest, p (enc ++ rest) = some (a, rest)

namespace Reads

variable {a : α}

theorem pure (a : α) : Reads (Pure.pure a : Decoder (List β) α) [] a :=
  fun _ => rfl

theorem bind {k : α → Decoder (List β) γ} {e₁ e₂ : List β} {c : γ} (hp : Reads p e₁ a)
    (hk : Reads (k a) e₂ c) : Reads (p >>= k) (e₁ ++ e₂) c := by
  intro rest
  rw [append_assoc, bind_apply, hp]
  exact hk rest

theorem bind_pure {e : List β} (hp : Reads p e a) (g : α → γ) :
    Reads (p >>= fun x => Pure.pure (g x)) e (g a) := by
  rw [← append_nil e]
  exact bind hp (pure (g a))

theorem ofOption {o : Option α} (h : o = some a) :
    Reads (Decoder.ofOption o : Decoder (List β) α) [] a := by
  subst h
  exact fun _ => rfl

theorem next (b : β) : Reads Decoder.next [b] b :=
  fun _ => rfl

theorem take {l : List β} {n : Nat} (h : l.length = n) : Reads (Decoder.take n) l l := by
  intro rest
  subst h
  rw [Decoder.take, if_pos (by simp), take_left, drop_left]

/-- A list of items, each read after its own key. -/
theorem mapM {p : κ → Decoder (List β) α} {key : α → κ} {enc : α → List β} {xs : List α}
    (h : ∀ x ∈ xs, Reads (p (key x)) (enc x) x) :
    Reads ((xs.map key).mapM p) (xs.flatMap enc) xs := by
  induction xs with
  | nil => exact pure []
  | cons x xs ih =>
    rw [map_cons, mapM_cons]
    refine bind (h x (by simp)) ?_
    exact bind_pure (ih fun y hy => h y (by simp [hy])) (x :: ·)

end Reads

/-! ## Inversion -/

/-- What is read was at the front as an encoding of the result, and `P` holds of both. -/
def Takes (p : Decoder (List β) α) (P : List β → α → Prop) : Prop :=
  ∀ l a r, p l = some (a, r) → ∃ enc, l = enc ++ r ∧ Reads p enc a ∧ P enc a

namespace Takes

variable {P : List β → α → Prop}

theorem pure {a : α} (h : P [] a) : Takes (Pure.pure a) P := by
  intro l b r hb
  cases hb
  exact ⟨[], rfl, Reads.pure a, h⟩

theorem bind {k : α → Decoder (List β) γ} {Q : List β → γ → Prop} (hp : Takes p P)
    (hk : ∀ enc a, P enc a → Takes (k a) fun rest c => Q (enc ++ rest) c) : Takes (p >>= k) Q := by
  intro l c r h
  obtain ⟨a, s, ha, hc⟩ := bind_eq_some h
  obtain ⟨e₁, rfl, hread₁, h₁⟩ := hp l a s ha
  obtain ⟨e₂, rfl, hread₂, h₂⟩ := hk e₁ a h₁ s c r hc
  exact ⟨e₁ ++ e₂, (append_assoc ..).symm, hread₁.bind hread₂, h₂⟩

theorem ofOption (o : Option α) :
    Takes (Decoder.ofOption o : Decoder (List β) α) fun enc a => enc = [] ∧ o = some a := by
  intro l a r h
  obtain ⟨b, rfl, heq⟩ := Option.map_eq_some_iff.mp h
  cases heq
  exact ⟨[], rfl, Reads.ofOption rfl, rfl, rfl⟩

theorem next : Takes (Decoder.next : Decoder (List β) β) fun enc b => enc = [b] := by
  intro l b r h
  cases l with
  | nil => cases h
  | cons _ l =>
    cases h
    exact ⟨[b], rfl, Reads.next b, rfl⟩

theorem take (n : Nat) :
    Takes (Decoder.take n : Decoder (List β) (List β)) fun enc m => enc = m ∧ m.length = n := by
  intro l m r h
  unfold Decoder.take at h
  split at h
  · have hlen := length_take_of_le ‹_›
    cases h
    exact ⟨_, (take_append_drop n l).symm, Reads.take hlen, rfl, hlen⟩
  · cases h

/-- Each item read after a key relates to that key. -/
theorem mapM {p : κ → Decoder (List β) α} {P : κ → α → Prop} (h : ∀ k, Takes (p k) fun _ => P k)
    (ks : List κ) : Takes (ks.mapM p) fun _ => List.Forall₂ P ks := by
  induction ks with
  | nil => exact pure .nil
  | cons k ks ih =>
    rw [mapM_cons]
    exact (h k).bind fun _ a ha => ih.bind fun _ as has => pure (.cons ha has)

end Takes

/-- More input leaves the result alone and is left over. -/
def Extends (p : Decoder (List β) α) : Prop :=
  ∀ l a r x, p l = some (a, r) → p (l ++ x) = some (a, r ++ x)

theorem Takes.extends {P : List β → α → Prop} (h : Takes p P) : Extends p := by
  intro l a r x hl
  obtain ⟨enc, rfl, hread, -⟩ := h l a r hl
  rw [append_assoc]
  exact hread (r ++ x)

/-- A proper prefix of an encoding is refused. -/
theorem Reads.truncated {enc l : List β} {a : α} (h : Reads p enc a) (hext : Extends p)
    (hl : l <+: enc) (hne : l ≠ enc) : p l = none := by
  obtain ⟨y, rfl⟩ := hl
  cases hp : p l with
  | none => rfl
  | some x =>
    have hfull := h []
    rw [append_nil, hext l x.1 x.2 y hp] at hfull
    have hnil : x.2 ++ y = [] := congrArg Prod.snd (Option.some.inj hfull)
    rw [(append_eq_nil_iff.mp hnil).2, append_nil] at hne
    exact absurd rfl hne

/-- Whatever is read satisfies `P`. -/
def Ensures (p : Decoder σ α) (P : α → Prop) : Prop :=
  ∀ s a r, p s = some (a, r) → P a

theorem Takes.ensures {P : α → Prop} (h : Takes p fun _ => P) : Ensures p P := by
  intro l a r hl
  obtain ⟨enc, -, -, ha⟩ := h l a r hl
  exact ha

/-! ## Simulation -/

/-- On the abstraction `f` of its state, `p` is `q`. -/
def Simulates (f : σ → τ) (p : Decoder σ α) (q : Decoder τ α) : Prop :=
  ∀ s, (p s).map (Prod.map id f) = q (f s)

namespace Simulates

variable {f : σ → τ} {q : Decoder τ α}

theorem pure (a : α) : Simulates f (Pure.pure a) (Pure.pure a) :=
  fun _ => rfl

theorem bind {p : Decoder σ α} {k : α → Decoder σ β} {k' : α → Decoder τ β} (hp : Simulates f p q)
    (hk : ∀ a, Simulates f (k a) (k' a)) : Simulates f (p >>= k) (q >>= k') := by
  intro s
  rw [bind_apply, bind_apply, ← hp s]
  cases p s with
  | none => rfl
  | some x => exact hk x.1 x.2

theorem ofOption (o : Option α) : Simulates f (Decoder.ofOption o) (Decoder.ofOption o) := by
  intro s
  cases o <;> rfl

theorem mapM {p : κ → Decoder σ α} {q : κ → Decoder τ α} (h : ∀ k, Simulates f (p k) (q k))
    (ks : List κ) : Simulates f (ks.mapM p) (ks.mapM q) := by
  induction ks with
  | nil => exact pure []
  | cons k ks ih =>
    rw [mapM_cons, mapM_cons]
    exact bind (h k) fun a => bind ih fun as => pure (a :: as)

/-- The results, without what is left over, are the same. -/
theorem result {p : Decoder σ α} (h : Simulates f p q) (s : σ) :
    (p s).map Prod.fst = (q (f s)).map Prod.fst := by
  rw [← h s, Option.map_map]
  rfl

end Simulates

end Decoder
