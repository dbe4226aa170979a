-- SUMMARY: Receive accounting (`ims/media_stats.rs`), and exactly when it is right.
import Mathlib.Data.UInt
import GsmSipBridge.Lib.Trace

/-!
# Receive accounting

`ReceiveTracker` extends 16-bit sequence numbers to an unbounded counter by
comparing each arrival with the one before it. The reference is a receiver that
is told the true, unbounded index of every packet. The tracker agrees with it as
long as every step stays in the 2^16-cycle of the arrival before it or goes to
the next one by at most half a cycle; the first other step is already counted
wrong, because the cycle count never goes back.
-/

namespace Ims.MediaStats

/-- What the receive side observed in transit. `jitter` is in seconds, before
its conversion to a `Duration`. -/
structure ReceiveStats where
  receivedPackets : Nat
  lostPackets : Nat
  reorderedPackets : Nat
  jitter : Float

/-- The `u64` counters are naturals: a packet advances the cycle count and the
other counters by at most one. -/
structure ReceiveTracker where
  baseExtended : Option Nat
  highestExtended : Nat
  cycles : Nat
  lastSeq : UInt16
  received : Nat
  reordered : Nat
  jitterUnits : Float
  lastTransit : Option Int64

namespace ReceiveTracker

def new : ReceiveTracker where
  baseExtended := none
  highestExtended := 0
  cycles := 0
  lastSeq := 0
  received := 0
  reordered := 0
  jitterUnits := 0
  lastTransit := none

/-- `Duration::as_secs_f64`, for a duration in nanoseconds. -/
def asSecsF64 (duration : Nat) : Float :=
  Float.ofNat (duration / 1000000000) + Float.ofNat (duration % 1000000000) / 1000000000

/-- The sequence half of `on_packet`. -/
def onSeq (t : ReceiveTracker) (seq : UInt16) : ReceiveTracker :=
  match t.baseExtended with
  | none =>
    { t with
      baseExtended := some seq.toNat
      highestExtended := seq.toNat
      lastSeq := seq }
  | some _ =>
    -- A large backwards jump is a wrap forwards.
    let cycles :=
      if seq < t.lastSeq ∧ 32767 < t.lastSeq - seq then t.cycles + 1 else t.cycles
    let extended := cycles * 65536 + seq.toNat
    if t.highestExtended < extended then
      { t with cycles := cycles, highestExtended := extended, lastSeq := seq }
    else
      { t with cycles := cycles, reordered := t.reordered + 1, lastSeq := seq }

/-- The timing half of `on_packet`: RFC 3550 inter-arrival jitter. -/
def onTiming (t : ReceiveTracker) (rtpTimestamp : UInt32) (arrival : Nat) (clockRate : UInt32) :
    ReceiveTracker :=
  if 0 < clockRate then
    let arrivalUnits := (asSecsF64 arrival * clockRate.toFloat).round.toInt64
    let transit := arrivalUnits - rtpTimestamp.toUInt64.toInt64
    { t with
      jitterUnits := match t.lastTransit with
        | some prev => t.jitterUnits + ((transit - prev).abs.toFloat - t.jitterUnits) / 16
        | none => t.jitterUnits
      lastTransit := some transit }
  else t

def onPacket (t : ReceiveTracker) (seq : UInt16) (rtpTimestamp : UInt32) (arrival : Nat)
    (clockRate : UInt32) : ReceiveTracker :=
  let t := t.onSeq seq
  { t with received := t.received + 1 }.onTiming rtpTimestamp arrival clockRate

def stats (t : ReceiveTracker) (clockRate : UInt32) : ReceiveStats :=
  let expected := match t.baseExtended with
    | none => 0
    | some base => t.highestExtended - base + 1
  { receivedPackets := t.received
    lostPackets := expected - t.received
    reorderedPackets := t.reordered
    jitter := if 0 < clockRate then t.jitterUnits / clockRate.toFloat else 0 }

def highestExtendedSeq (t : ReceiveTracker) : Option UInt32 :=
  t.baseExtended.map fun _ => UInt32.ofNat t.highestExtended

/-! ## One packet -/

theorem onTiming_frame (t : ReceiveTracker) (rtpTimestamp : UInt32) (arrival : Nat)
    (clockRate : UInt32) : ∃ jitterUnits lastTransit, t.onTiming rtpTimestamp arrival clockRate =
      { t with jitterUnits := jitterUnits, lastTransit := lastTransit } := by
  unfold onTiming
  split <;> exact ⟨_, _, rfl⟩

variable {arrival : Nat} {seq : UInt16} {clockRate rtpTimestamp : UInt32}

/-- The first packet opens the counters. -/
theorem onPacket_first :
    let t := new.onPacket seq rtpTimestamp arrival clockRate
    t.baseExtended = some seq.toNat ∧ t.highestExtended = seq.toNat ∧ t.cycles = 0 ∧
    t.lastSeq = seq ∧ t.received = 1 ∧ t.reordered = 0 := by
  obtain ⟨j, l, hr⟩ := onTiming_frame { new.onSeq seq with received := 1 } rtpTimestamp arrival
    clockRate
  intro t
  have ht : t = _ := hr
  rw [ht]
  exact ⟨rfl, rfl, rfl, rfl, rfl, rfl⟩

/-- A later packet: the cycle count moves first, then the extended number is
above the highest or counts as reordered. -/
theorem onPacket_later {t : ReceiveTracker} {base : Nat} (hbase : t.baseExtended = some base) :
    let t' := t.onPacket seq rtpTimestamp arrival clockRate
    let cycles := if seq < t.lastSeq ∧ 32767 < t.lastSeq - seq then t.cycles + 1 else t.cycles
    let extended := cycles * 65536 + seq.toNat
    t'.baseExtended = some base ∧ t'.cycles = cycles ∧ t'.lastSeq = seq ∧
    t'.received = t.received + 1 ∧ t'.highestExtended = max t.highestExtended extended ∧
    t'.reordered = t.reordered + (if extended ≤ t.highestExtended then 1 else 0) := by
  intro t' cycles extended
  obtain ⟨j, l, hr⟩ := onTiming_frame
    { t.onSeq seq with received := (t.onSeq seq).received + 1 } rtpTimestamp arrival clockRate
  have ht : t' = _ := hr
  have hseq : t.onSeq seq =
      if t.highestExtended < extended then
        { t with cycles := cycles, highestExtended := extended, lastSeq := seq }
      else { t with cycles := cycles, reordered := t.reordered + 1, lastSeq := seq } := by
    unfold onSeq
    rw [hbase]
  rw [ht, hseq]
  by_cases hlt : t.highestExtended < extended
  · rw [if_pos hlt, if_neg (by omega), max_eq_right (by omega)]
    exact ⟨hbase, rfl, rfl, rfl, rfl, rfl⟩
  · rw [if_neg hlt, if_pos (by omega), max_eq_left (by omega)]
    exact ⟨hbase, rfl, rfl, rfl, rfl, rfl⟩

end ReceiveTracker

/-! ## The reference receiver -/

/-- A packet on its way: its true index, of which the wire carries the low 16
bits, and its timing. -/
structure Packet where
  index : Nat
  rtpTimestamp : UInt32
  arrival : Nat
  clockRate : UInt32

/-- What a receiver knows that sees true indices. -/
structure Ideal where
  first : Nat
  highest : Nat
  last : Nat
  received : Nat
  -- Arrivals not above the highest index before them.
  late : Nat

namespace Ideal

def start (p : Packet) : Ideal where
  first := p.index
  highest := p.index
  last := p.index
  received := 1
  late := 0

def observe (s : Ideal) (p : Packet) : Ideal where
  first := s.first
  highest := max s.highest p.index
  last := p.index
  received := s.received + 1
  late := s.late + if p.index ≤ s.highest then 1 else 0

/-- The next arrival is less than 2^15 away from the highest index so far and
not below the first. -/
def InReach (s : Ideal) (p : Packet) : Prop :=
  s.first ≤ p.index ∧ p.index < s.highest + 2 ^ 15 ∧ s.highest < p.index + 2 ^ 15

/-- The next arrival is in the cycle of the one before it, or in the following
cycle at most 2^15 further on. -/
def Followed (s : Ideal) (p : Packet) : Prop :=
  p.index / 2 ^ 16 = s.last / 2 ^ 16 ∨
  (p.index / 2 ^ 16 = s.last / 2 ^ 16 + 1 ∧ p.index ≤ s.last + 2 ^ 15)

instance (s : Ideal) : DecidablePred (InReach s) := fun _ => inferInstanceAs (Decidable (_ ∧ _))

instance (s : Ideal) : DecidablePred (Followed s) := fun _ => inferInstanceAs (Decidable (_ ∨ _))

end Ideal

namespace ReceiveTracker

variable {s : Ideal} {t : ReceiveTracker} {p : Packet}

/-- The tracker fed a packet as the wire carries it. -/
def receive (t : ReceiveTracker) (p : Packet) : ReceiveTracker :=
  t.onPacket (UInt16.ofNat p.index) p.rtpTimestamp p.arrival p.clockRate

/-- The counters say what the reference receiver knows. -/
def Agrees (t : ReceiveTracker) (s : Ideal) : Prop :=
  t.highestExtended = s.first % 2 ^ 16 + (s.highest - s.first) ∧
  ∀ clockRate, (t.stats clockRate).reorderedPackets = s.late ∧
    (t.stats clockRate).lostPackets = (s.highest - s.first + 1) - s.received

/-- The tracker's internal state is the reference's. -/
structure Synced (t : ReceiveTracker) (s : Ideal) : Prop where
  base : t.baseExtended = some (s.first % 2 ^ 16)
  highest : t.highestExtended = s.first % 2 ^ 16 + (s.highest - s.first)
  cycles : t.cycles + s.first / 2 ^ 16 = s.last / 2 ^ 16
  lastSeq : t.lastSeq.toNat = s.last % 2 ^ 16
  received : t.received = s.received
  reordered : t.reordered = s.late
  first_le : s.first ≤ s.last
  last_le : s.last ≤ s.highest
  last_near : s.highest < s.last + 2 ^ 15

theorem Synced.agrees (h : Synced t s) : Agrees t s := by
  refine ⟨h.highest, fun clockRate => ⟨h.reordered, ?_⟩⟩
  simp only [stats, h.base, h.highest, h.received]
  omega

theorem synced_start (p : Packet) : Synced (new.receive p) (Ideal.start p) := by
  obtain ⟨hbase, hhigh, hcycles, hlast, hrec, hre⟩ :=
    onPacket_first
  constructor
  · exact hbase.trans (by rw [UInt16.toNat_ofNat']; rfl)
  · exact hhigh.trans (by simp [UInt16.toNat_ofNat', Ideal.start])
  · exact (congrArg (· + _) hcycles).trans (Nat.zero_add _)
  · exact (congrArg UInt16.toNat hlast).trans UInt16.toNat_ofNat'
  · exact hrec
  · exact hre
  · exact Nat.le_refl _
  · exact Nat.le_refl _
  · exact Nat.lt_add_of_pos_right (by decide)

/-- What the wrap test sees, in true indices: it fires exactly when the arrival
is in a later cycle and at most 2^15 ahead of the one before it. -/
theorem wrap_iff {lastSeq : UInt16} (hlast : lastSeq.toNat = s.last % 2 ^ 16)
    (hle : s.last ≤ s.highest) (hnear : s.highest < s.last + 2 ^ 15) (hreach : s.InReach p) :
    (UInt16.ofNat p.index < lastSeq ∧ 32767 < lastSeq - UInt16.ofNat p.index) ↔
    (p.index / 2 ^ 16 = s.last / 2 ^ 16 + 1 ∧ p.index ≤ s.last + 2 ^ 15) := by
  obtain ⟨-, hup, hdown⟩ := hreach
  rw [UInt16.lt_iff_toNat_lt, UInt16.lt_iff_toNat_lt, UInt16.toNat_sub, UInt16.toNat_ofNat']
  simp only [UInt16.reduceToNat]
  omega

/-- A followed step keeps the states in sync. -/
theorem synced_receive (h : Synced t s) (hreach : s.InReach p) (hgood : s.Followed p) :
    Synced (t.receive p) (s.observe p) := by
  obtain ⟨hbase, hcycles, hlast, hrec, hhigh, hre⟩ :=
    onPacket_later h.base
  have hwrap := wrap_iff h.lastSeq h.last_le h.last_near hreach
  obtain ⟨hfirst, hup, hdown⟩ := hreach
  have hcycle : (if UInt16.ofNat p.index < t.lastSeq ∧ 32767 < t.lastSeq - UInt16.ofNat p.index
      then t.cycles + 1 else t.cycles) + s.first / 2 ^ 16 = p.index / 2 ^ 16 := by
    have := h.cycles
    cases hgood with
    | inl hsame =>
      rw [if_neg (fun hw => by have := (hwrap.mp hw).1; omega)]
      omega
    | inr hnext =>
      rw [if_pos (hwrap.mpr hnext)]
      omega
  have hextended : (if UInt16.ofNat p.index < t.lastSeq ∧ 32767 < t.lastSeq - UInt16.ofNat p.index
      then t.cycles + 1 else t.cycles) * 65536 + (UInt16.ofNat p.index).toNat =
      s.first % 2 ^ 16 + (p.index - s.first) := by
    rw [UInt16.toNat_ofNat']
    omega
  have hfl := h.first_le
  have hll := h.last_le
  rw [hextended, h.highest] at hhigh hre
  constructor
  · exact hbase
  · refine hhigh.trans ?_
    simp only [Ideal.observe]
    omega
  · exact (congrArg (· + _) hcycles).trans hcycle
  · exact (congrArg UInt16.toNat hlast).trans UInt16.toNat_ofNat'
  · exact hrec.trans (congrArg (· + 1) h.received)
  · refine hre.trans ?_
    simp only [Ideal.observe, h.reordered]
    split <;> split <;> omega
  · exact hfirst
  · exact Nat.le_max_right _ _
  · exact Nat.max_lt.mpr ⟨hdown, Nat.lt_add_of_pos_right (by decide)⟩

/-- Any other step leaves a wrong highest number: a cycle too high when the
arrival went back over a wrap, a cycle too low when a wrap went unseen. -/
theorem receive_disagrees (h : Synced t s) (hreach : s.InReach p) (hbad : ¬ s.Followed p) :
    ¬ Agrees (t.receive p) (s.observe p) := by
  rintro ⟨hagree, -⟩
  obtain ⟨-, -, -, -, hhigh, -⟩ :=
    onPacket_later h.base
  have hwrap := wrap_iff h.lastSeq h.last_le h.last_near hreach
  rw [if_neg (fun hw => hbad (.inr (hwrap.mp hw))), h.highest] at hhigh
  have hcycles := h.cycles
  have hnear := h.last_near
  obtain ⟨hf, hup, hdown⟩ := hreach
  have heq : max (s.first % 2 ^ 16 + (s.highest - s.first)) (t.cycles * 65536 + p.index % 2 ^ 16) =
      s.first % 2 ^ 16 + (max s.highest p.index - s.first) := hhigh.symm.trans hagree
  simp only [Ideal.Followed, not_or, not_and] at hbad
  omega

end ReceiveTracker

open ReceiveTracker Lockstep

/-- **Receive accounting is exact as far as it can follow.** For arrivals that
are each less than 2^15 away from the highest index so far and not below the
first, the counters are right after every arrival exactly when every arrival is
in the cycle of the one before it or follows it into the next by at most 2^15. -/
theorem receive_stats_exact_iff (p : Packet) (rest : List Packet)
    (hreach : Along Ideal.observe Ideal.InReach (Ideal.start p) rest) :
    (∀ seen, seen <+: rest →
      Agrees (seen.foldl receive (new.receive p)) (seen.foldl Ideal.observe (Ideal.start p))) ↔
    Along Ideal.observe Ideal.Followed (Ideal.start p) rest := by
  apply agree_iff_along _ _ _ (synced_start p) hreach
  · intro t s h
    exact h.agrees
  · intro t s q h hd hgood
    exact synced_receive h hd hgood
  · intro t s q h hd hbad
    exact receive_disagrees h hd hbad

/-- A stream that wraps in order, with one late packet before the wrap. -/
theorem receive_stats_exact_iff_wrap :
    let packet := fun i => (⟨i, 0, 0, 0⟩ : Packet)
    let rest := [65533, 65532, 65535, 65536].map packet
    Along Ideal.observe Ideal.InReach (Ideal.start (packet 65531)) rest ∧
    Agrees (rest.foldl receive (new.receive (packet 65531)))
      (rest.foldl Ideal.observe (Ideal.start (packet 65531))) := by
  intro packet rest
  have hreach : Along Ideal.observe Ideal.InReach (Ideal.start (packet 65531)) rest := by decide
  exact ⟨hreach, (receive_stats_exact_iff (packet 65531) rest hreach).mpr (by decide) rest
    (List.prefix_refl rest)⟩

/-- The packet before the wrap arrives right after the one behind it. All three
packets arrived, yet 65535 count as lost and none as reordered. -/
theorem late_across_wrap_counts_as_loss :
    let packet := fun i => (⟨i, 0, 0, 0⟩ : Packet)
    let rest := [65536, 65535].map packet
    let t := rest.foldl receive (new.receive (packet 65534))
    Along Ideal.observe Ideal.InReach (Ideal.start (packet 65534)) rest ∧
    (rest.foldl Ideal.observe (Ideal.start (packet 65534))).highest = 65536 ∧
    (rest.foldl Ideal.observe (Ideal.start (packet 65534))).late = 1 ∧
    t.highestExtended = 131071 ∧ (t.stats 0).lostPackets = 65535 ∧
    (t.stats 0).reorderedPackets = 0 := by
  decide +kernel

end Ims.MediaStats
