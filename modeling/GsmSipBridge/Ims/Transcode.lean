-- SUMMARY: The clock of a transcoded stream (`ims/transcode.rs`), without overflow.
import Mathlib.Data.List.DropRight
import Mathlib.Algebra.Group.Int.Even

/-!
# Source time

`SourceClock` turns the timestamps of a source into those of the other side. It keeps
the source's time as an `i64`, whose sums and products are checked here: a result that
does not fit is `none`.
-/

namespace Ims.Transcode

open List

variable (ts : List UInt32)

/-- `n as i32`, widened. -/
def asI32 (n : UInt32) : Int :=
  if n.toNat < 2 ^ 31 then n.toNat else n.toNat - 2 ^ 32

/-- `n as u32`. -/
def asU32 (n : Int) : UInt32 :=
  UInt32.ofNat (n % 2 ^ 32).toNat

def checkedI64 (n : Int) : Option Int :=
  if -2 ^ 63 ≤ n ∧ n < 2 ^ 63 then some n else none

structure SourceClock where
  sourceRate : Nat
  destinationRate : Nat
  /-- The source and timestamp of the last packet. -/
  previous : Option (UInt32 × UInt32)
  extendedTimestamp : Int

namespace SourceClock

def new (sourceRate destinationRate : Nat) : SourceClock :=
  { sourceRate, destinationRate, previous := none, extendedTimestamp := 0 }

/-- The new `extended_timestamp`. -/
def extend (c : SourceClock) (ssrc timestamp : UInt32) : Option Int :=
  match c.previous with
  | some (previousSsrc, previousTs) =>
    if previousSsrc = ssrc then checkedI64 (c.extendedTimestamp + asI32 (timestamp - previousTs))
    else some timestamp.toNat
  | none => some timestamp.toNat

def timestamp (c : SourceClock) (ssrc timestamp : UInt32) : Option (SourceClock × UInt32) := do
  let extended ← c.extend ssrc timestamp
  let product ← checkedI64 (extended * c.destinationRate)
  return ({ c with previous := some (ssrc, timestamp), extendedTimestamp := extended },
    asU32 (product / c.sourceRate))

/-- The clock after the packets of a call. -/
def run (c : SourceClock) (packets : List (UInt32 × UInt32)) : Option SourceClock :=
  packets.foldlM (fun c p => (c.timestamp p.1 p.2).map Prod.fst) c

end SourceClock

/-! ## Unwrapped time -/

/-- The steps between timestamps, each a signed difference. -/
def drift : List UInt32 → Int
  | a :: b :: ts => asI32 (b - a) + drift (b :: ts)
  | _ => 0

/-- The time of the last of some timestamps, counted from the first. -/
def unwrap (ts : List UInt32) : Int :=
  (ts.head?.elim 0 fun t => t.toNat) + drift ts

/-- The timestamps of a source since it last became current. -/
def stream (ssrc : UInt32) (packets : List (UInt32 × UInt32)) : List UInt32 :=
  (packets.rtakeWhile (·.1 == ssrc)).map Prod.snd

/-- The unwrapped time of a packet behind others. -/
def extended (packets : List (UInt32 × UInt32)) (ssrc timestamp : UInt32) : Int :=
  unwrap (stream ssrc packets ++ [timestamp])

theorem asI32_range (n : UInt32) : -2 ^ 31 ≤ asI32 n ∧ asI32 n < 2 ^ 31 := by
  have := n.toNat_lt
  unfold asI32
  split <;> omega

theorem asI32_emod (a b : UInt32) : (a.toNat + asI32 (b - a)) % 2 ^ 32 = b.toNat := by
  have ha := a.toNat_lt
  have hb := b.toNat_lt
  unfold asI32
  rw [UInt32.toNat_sub]
  split <;> omega

theorem drift_concat (a b : UInt32) : drift (ts ++ [a, b]) = drift (ts ++ [a]) + asI32 (b - a) := by
  induction ts with
  | nil => simp [drift]
  | cons t ts ih =>
    cases ts with
    | nil => simp [drift]
    | cons u ts =>
      simp only [cons_append, drift] at ih ⊢
      rw [ih, Int.add_assoc]

theorem unwrap_concat (a b : UInt32) :
    unwrap (ts ++ [a] ++ [b]) = unwrap (ts ++ [a]) + asI32 (b - a) := by
  have hhead : (ts ++ [a] ++ [b]).head? = (ts ++ [a]).head? := by
    cases ts <;> rfl
  rw [unwrap, unwrap, hhead, append_assoc, singleton_append, drift_concat, Int.add_assoc]

/-- A timestamp stays what it is modulo `2 ^ 32`, and each step moves by less than half of that. -/
theorem unwrap_bounds (t : UInt32) :
    unwrap (ts ++ [t]) % 2 ^ 32 = t.toNat ∧
    -(ts.length * 2 ^ 31 : Int) ≤ unwrap (ts ++ [t]) ∧
      unwrap (ts ++ [t]) < 2 ^ 32 + ts.length * 2 ^ 31 := by
  induction ts using reverseRecOn generalizing t with
  | nil =>
    have := t.toNat_lt
    simp only [unwrap, drift, nil_append, head?_cons, Option.elim_some, length_nil]
    omega
  | append_singleton ts a ih =>
    obtain ⟨hmod, hlow, hhigh⟩ := ih a
    have hstep := asI32_emod a t
    have hrange := asI32_range (t - a)
    rw [unwrap_concat, length_append, length_singleton]
    omega

theorem extended_concat (packets : List (UInt32 × UInt32)) (ssrc a b : UInt32) :
    extended (packets ++ [(ssrc, a)]) ssrc b = extended packets ssrc a + asI32 (b - a) := by
  simp only [extended, stream, rtakeWhile_concat, beq_self_eq_true, if_true,
    map_append, map_cons, map_nil]
  exact unwrap_concat _ _ _

theorem stream_length_le (ssrc : UInt32) (packets : List (UInt32 × UInt32)) :
    (stream ssrc packets).length ≤ packets.length := by
  rw [stream, length_map]
  exact (rtakeWhile_suffix _ _).length_le

/-! ## The clock -/

/-- The clock has seen these packets. -/
structure Tracks (src dst : Nat) (packets : List (UInt32 × UInt32)) (c : SourceClock) : Prop where
  sourceRate : c.sourceRate = src
  destinationRate : c.destinationRate = dst
  previous : c.previous = packets.getLast?
  unwrapped : ∀ before ssrc ts, packets = before ++ [(ssrc, ts)] →
    c.extendedTimestamp = extended before ssrc ts

section Clock

variable {src dst : Nat} {packets : List (UInt32 × UInt32)} {c : SourceClock}

theorem extended_fits (hdst : dst = 8000 ∨ dst = 16000) (hlen : packets.length < 2 ^ 18)
    (ssrc ts : UInt32) :
    checkedI64 (extended packets ssrc ts) = some (extended packets ssrc ts) ∧
      checkedI64 (extended packets ssrc ts * dst) = some (extended packets ssrc ts * dst) := by
  obtain ⟨-, hlow, hhigh⟩ := unwrap_bounds (stream ssrc packets) ts
  have hstream := stream_length_le ssrc packets
  generalize hE : extended packets ssrc ts = E
  rw [← extended] at hlow hhigh
  have hproduct : -2 ^ 63 ≤ E * dst ∧ E * dst < 2 ^ 63 := by
    rcases hdst with rfl | rfl <;> omega
  exact ⟨if_pos (by omega), if_pos hproduct⟩

/-- One packet. -/
theorem Tracks.timestamp (h : Tracks src dst packets c) (hdst : dst = 8000 ∨ dst = 16000)
    (hlen : packets.length < 2 ^ 18) (ssrc ts : UInt32) :
    ∃ c', c.timestamp ssrc ts = some (c', asU32 (extended packets ssrc ts * dst / src)) ∧
      Tracks src dst (packets ++ [(ssrc, ts)]) c' := by
  obtain ⟨hfits, hproduct⟩ := extended_fits hdst hlen ssrc ts
  have hextended : c.extend ssrc ts = some (extended packets ssrc ts) := by
    rw [SourceClock.extend, h.previous]
    cases packets using reverseRecOn with
    | nil => simp [extended, stream, unwrap, drift]
    | append_singleton before last =>
      obtain ⟨previousSsrc, previousTs⟩ := last
      rw [getLast?_concat]
      simp only
      split
      next heq =>
        subst heq
        rw [h.unwrapped before previousSsrc previousTs rfl]
        rw [extended_concat] at hfits ⊢
        exact hfits
      next hne =>
        simp [extended, stream, hne, unwrap, drift]
  refine ⟨{ c with previous := some (ssrc, ts), extendedTimestamp := extended packets ssrc ts },
    ?_, h.sourceRate, h.destinationRate, getLast?_concat.symm, ?_⟩
  · rw [SourceClock.timestamp, hextended, h.destinationRate, h.sourceRate]
    simp only [bind, Option.bind, hproduct]
    rfl
  · intro before ssrc' ts' heq
    obtain ⟨rfl, hlast⟩ := append_inj' heq rfl
    cases hlast
    rfl

theorem tracks_run (hdst : dst = 8000 ∨ dst = 16000) (hlen : packets.length ≤ 2 ^ 18) :
    ∃ c, (SourceClock.new src dst).run packets = some c ∧ Tracks src dst packets c := by
  induction packets using reverseRecOn with
  | nil => exact ⟨_, rfl, rfl, rfl, rfl, fun before ssrc ts heq => by simp at heq⟩
  | append_singleton packets p ih =>
    rw [length_append, length_singleton] at hlen
    obtain ⟨c, hrun, htracks⟩ := ih (by omega)
    obtain ⟨c', hstep, htracks'⟩ := htracks.timestamp hdst (by omega) p.1 p.2
    refine ⟨c', ?_, htracks'⟩
    rw [SourceClock.run] at hrun ⊢
    rw [foldlM_append, hrun]
    simp [hstep]

end Clock

theorem asU32_eq {n : Int} {t : UInt32} (h : n % 2 ^ 32 = t.toNat) : asU32 n = t := by
  rw [asU32, h, Int.toNat_natCast, UInt32.ofNat_toNat]

theorem asU32_add (n : Int) (k : UInt32) : asU32 (n + k.toNat) = asU32 n + k := by
  apply UInt32.toNat_inj.mp
  simp only [asU32, UInt32.toNat_add, UInt32.toNat_ofNat']
  omega

/-- Every packet of a call of up to `2 ^ 18` is given its source's unwrapped time, scaled.
Between equal clocks that is its own timestamp; from 16 to 8 kHz a step of `2 * k` is one
of `k`, across the wrap too. -/
theorem source_clock_exact {src dst : Nat} (hsrc : src = 8000 ∨ src = 16000)
    (hdst : dst = 8000 ∨ dst = 16000) (packets : List (UInt32 × UInt32))
    (hlen : packets.length < 2 ^ 18) (ssrc ts : UInt32) :
    ∃ c c', (SourceClock.new src dst).run packets = some c ∧
      c.timestamp ssrc ts = some (c', asU32 (extended packets ssrc ts * dst / src)) ∧
      (src = dst → asU32 (extended packets ssrc ts * dst / src) = ts) ∧
      (src = 2 * dst → packets.length + 1 < 2 ^ 18 → ∀ k : UInt32, k.toNat < 2 ^ 30 →
        (c'.timestamp ssrc (ts + 2 * k)).map Prod.snd =
          some (asU32 (extended packets ssrc ts * dst / src) + k)) := by
  obtain ⟨c, hrun, htracks⟩ := tracks_run hdst (Nat.le_of_lt hlen)
  obtain ⟨c', hstep, htracks'⟩ := htracks.timestamp hdst hlen ssrc ts
  obtain ⟨hmod, -⟩ := unwrap_bounds (stream ssrc packets) ts
  refine ⟨c, c', hrun, hstep, ?_, ?_⟩
  · rintro rfl
    refine asU32_eq ?_
    rw [Int.mul_ediv_cancel _ (by omega)]
    exact hmod
  · rintro hhalf hlen' k hk
    obtain ⟨c'', hstep', -⟩ := htracks'.timestamp hdst (by simpa using hlen') ssrc (ts + 2 * k)
    have hdiff : asI32 (ts + 2 * k - ts) = 2 * k.toNat := by
      have hdouble : (2 * k).toNat = 2 * k.toNat := by
        exact Nat.mod_eq_of_lt (show 2 * k.toNat < 2 ^ 32 by omega)
      rw [UInt32.add_comm, UInt32.add_sub_cancel, asI32, hdouble, if_pos (by omega)]
      rfl
    have hscaled : (extended packets ssrc ts + 2 * k.toNat) * dst / src =
        extended packets ssrc ts * dst / src + k.toNat := by
      rcases hdst with rfl | rfl
      · subst hhalf
        omega
      · omega
    rw [hstep', extended_concat, hdiff, hscaled, Option.map_some, asU32_add]

/-- A packet that wraps. -/
theorem source_clock_exact_wrap :
    ∃ c c', (SourceClock.new 16000 8000).run [(42, 0xfffffec0)] = some c ∧
      c.timestamp 42 0 = some (c', 0x80000000) := by
  obtain ⟨c, c', hrun, hstep, -⟩ :=
    source_clock_exact (.inr rfl) (.inl rfl) [(42, 0xfffffec0)] (by decide) 42 0
  exact ⟨c, c', hrun, hstep⟩

end Ims.Transcode
