-- SUMMARY: AMR payload framing (`ims/amr_rtp.rs`): bits, frames, and complete frames.
import GsmSipBridge.Lib.Bits

/-!
# AMR payload framing

RFC 4867 payloads in the octet-aligned and the bandwidth-efficient format. The
bit reader and writer are modelled bit by bit as the source has them; their
specifications say which bit string they read or append, so that nothing above
them looks at positions again.
-/

namespace Ims.AmrRtp

open Bits Decoder List

inductive AmrKind where
  | nb
  | wb
  deriving DecidableEq, Repr

/-- Number of speech bits in one 20 ms frame, per frame type; `none` for a type
that is not speech. -/
def speechBits (kind : AmrKind) (frameType : UInt8) : Option Nat :=
  let table := match kind with
    | .nb => [95, 103, 118, 134, 148, 159, 204, 244]
    | .wb => [132, 177, 253, 285, 317, 365, 397, 461, 477]
  table[frameType.toNat]?

/-! ## The bit reader -/

structure BitReader where
  bytes : Bytes
  pos : Nat

namespace BitReader

variable {n : Nat} {r : BitReader} {out : UInt8} {pre : List Bool}

def new (bytes : Bytes) : BitReader where
  bytes := bytes
  pos := 0

/-- The body both reading loops share. -/
def readBit : Decoder BitReader UInt8 := fun r =>
  match r.bytes[r.pos / 8]? with
  | none => none
  | some byte => some (bitAt byte (7 - r.pos % 8), { r with pos := r.pos + 1 })

def readLoop (out : UInt8) : Nat → Decoder BitReader UInt8
  | 0 => pure out
  | n + 1 => do
    let bit ← readBit
    readLoop (out <<< 1 ||| bit) n

/-- Reads `n` bits (`n ≤ 8`) as a number. -/
def read (n : Nat) : Decoder BitReader UInt8 :=
  readLoop 0 n

def readBitsLoop (i : Nat) (out : Bytes) : Nat → Decoder BitReader Bytes
  | 0 => pure out
  | n + 1 => do
    let bit ← readBit
    readBitsLoop (i + 1) (out.modify (i / 8) fun b => b ||| bit <<< UInt8.ofNat (7 - i % 8)) n

/-- Reads `n` bits into left-aligned, zero-padded bytes. -/
def readBitsToBytes (n : Nat) : Decoder BitReader Bytes :=
  readBitsLoop 0 (List.replicate ((n + 7) / 8) 0) n

/-! ### What is left to read -/

def rest (r : BitReader) : List Bool :=
  (bits r.bytes).drop r.pos

theorem readBit_nil (h : r.rest = []) : readBit r = none := by
  have hnone := bits_getElem? r.bytes r.pos
  rw [getElem?_eq_none (drop_eq_nil_iff.mp h)] at hnone
  unfold readBit
  rw [Option.map_eq_none_iff.mp hnone.symm]

theorem readBit_cons {b : Bool} {l : List Bool} (h : r.rest = b :: l) :
    readBit r = some (b.toUInt8, { r with pos := r.pos + 1 }) ∧
    rest { r with pos := r.pos + 1 } = l := by
  have hbit : (bits r.bytes)[r.pos]? = some b := by
    rw [← head?_drop]
    exact congrArg head? h
  rw [bits_getElem?] at hbit
  obtain ⟨byte, hbyte, rfl⟩ := Option.map_eq_some_iff.mp hbit
  constructor
  · unfold readBit
    simp [hbyte, bitAt_eq (show 7 - r.pos % 8 < 8 by omega)]
  · rw [rest, ← tail_drop]
    exact congrArg tail h

theorem shl_or_toNat (h : out.toNat < 2 ^ 7) (b : Bool) :
    (out <<< 1 ||| b.toUInt8).toNat = 2 * out.toNat + b.toNat := by
  have hshl : (out <<< 1).toNat = 2 * out.toNat := by
    exact Nat.mod_eq_of_lt (show 2 * out.toNat < 2 ^ 8 by omega)
  have hb : b.toUInt8.toNat = b.toNat := by cases b <;> rfl
  have hor := Nat.two_pow_add_eq_or_of_lt (i := 1) (b := b.toNat) (by cases b <;> decide) out.toNat
  rw [UInt8.toNat_or, hshl, hb, ← hor]

/-- The loop appends the bits it reads to those `out` already holds. -/
theorem readLoop_simulates (hlen : pre.length + n ≤ 8) (hout : out.toNat = value pre) :
    Simulates rest (readLoop out n) (Decoder.take n >>= fun l => pure (UInt8.ofNat (value (pre ++ l)))) := by
  induction n generalizing pre out with
  | zero =>
    intro r
    rw [bind_apply, Decoder.take, if_pos (Nat.zero_le _), Option.bind_some, take_zero,
      append_nil, ← hout, UInt8.ofNat_toNat]
    rfl
  | succ n ih =>
    intro r
    rw [readLoop, bind_apply, bind_apply, Decoder.take]
    cases hrest : r.rest with
    | nil =>
      rw [readBit_nil hrest]
      rfl
    | cons b l =>
      obtain ⟨hread, hnext⟩ := readBit_cons hrest
      have hlt : out.toNat < 2 ^ 7 := by
        rw [hout]
        exact Nat.lt_of_lt_of_le (value_lt pre) (Nat.pow_le_pow_right (by decide) (by omega))
      have hout' : (out <<< 1 ||| b.toUInt8).toNat = value (pre ++ [b]) := by
        rw [shl_or_toNat hlt, value_concat, hout]
      have hlen' : (pre ++ [b]).length + n ≤ 8 := by
        rw [length_append, length_singleton]
        omega
      have hstep := ih hlen' hout' { r with pos := r.pos + 1 }
      rw [hread, Option.bind_some, hstep, hnext, bind_apply, Decoder.take]
      simp only [length_cons, Nat.add_le_add_iff_right, append_assoc, cons_append,
        nil_append, take_succ_cons, drop_succ_cons]
      split <;> rfl

theorem read_simulates (hn : n ≤ 8) : Simulates rest (read n) (readNumber n) := by
  have hlen : ([] : List Bool).length + n ≤ 8 := by simpa using hn
  exact readLoop_simulates hlen rfl

/-- The loop sets bit after bit of a buffer that is zero from `pre` on. -/
theorem readBitsLoop_spec {out : Bytes} {m : Nat} (r : BitReader) (hm : n ≤ m)
    (hout : bits out = pre ++ List.replicate m false) :
    (n ≤ r.rest.length → ∃ out', readBitsLoop pre.length out n r =
        some (out', { r with pos := r.pos + n }) ∧
      bits out' = pre ++ r.rest.take n ++ replicate (m - n) false) ∧
    (r.rest.length < n → readBitsLoop pre.length out n r = none) := by
  induction n generalizing pre out m r with
  | zero => exact ⟨fun _ => ⟨out, rfl, by simpa using hout⟩, fun h => absurd h (Nat.not_lt_zero _)⟩
  | succ n ih =>
    rw [readBitsLoop, bind_apply]
    cases hrest : r.rest with
    | nil =>
      rw [readBit_nil hrest]
      exact ⟨fun h => absurd h (by simp), fun _ => rfl⟩
    | cons b l =>
      obtain ⟨hread, hnext⟩ := readBit_cons hrest
      obtain ⟨m, rfl⟩ : ∃ k, m = k + 1 := ⟨m - 1, by omega⟩
      have hfree : (bits out)[pre.length]? = some false := by
        rw [hout, getElem?_append_right (Nat.le_refl _), Nat.sub_self]
        rfl
      have hset : bits (out.modify (pre.length / 8)
          fun c => c ||| b.toUInt8 <<< UInt8.ofNat (7 - pre.length % 8)) =
          (pre ++ [b]) ++ replicate m false := by
        rw [bits_modify hfree, hout, set_append_right _ _ (Nat.le_refl _), Nat.sub_self,
          append_assoc]
        rfl
      have hstep := ih { r with pos := r.pos + 1 } (Nat.le_of_succ_le_succ hm) hset
      rw [hnext, length_append] at hstep
      rw [hread]
      constructor
      · intro hle
        obtain ⟨out', hloop, hbits⟩ := hstep.1 (by simpa using hle)
        refine ⟨out', hloop.trans (by rw [Nat.add_assoc, Nat.add_comm 1]), ?_⟩
        rw [hbits]
        simp [Nat.add_sub_add_right]
      · intro hlt
        exact hstep.2 (by simpa using hlt)

theorem readBitsToBytes_simulates (n : Nat) :
    Simulates rest (readBitsToBytes n) (Decoder.take n >>= fun l => pure (pack l)) := by
  intro r
  have hzero : bits (replicate ((n + 7) / 8) 0) =
      [] ++ replicate (8 * ((n + 7) / 8)) false := bits_replicate_zero _
  have hspec := readBitsLoop_spec (n := n) r (by omega) hzero
  rw [bind_apply, Decoder.take]
  rcases Nat.lt_or_ge r.rest.length n with hlt | hle
  · rw [if_neg (by omega)]
    exact congrArg (Option.map _) (hspec.2 hlt)
  obtain ⟨out, hloop, hbits⟩ := hspec.1 hle
  have hpacks : Packs out (r.rest.take n) := ⟨8 * ((n + 7) / 8) - n, by omega, by simpa using hbits⟩
  rw [if_pos hle, readBitsToBytes, show readBitsLoop 0 _ n r = _ from hloop, Option.bind_some,
    ← hpacks.eq_pack]
  simp [pure_apply, rest, drop_drop]

end BitReader

/-! ## The bit writer -/

structure BitWriter where
  bytes : Bytes
  bits : Nat

namespace BitWriter

variable {l : List Bool} {w : BitWriter} {n : Nat} {src : Bytes}

def default : BitWriter where
  bytes := []
  bits := 0

def writeBit (w : BitWriter) (bit : UInt8) : BitWriter where
  bytes := (if w.bits % 8 = 0 then w.bytes ++ [0] else w.bytes).modify (w.bits / 8)
    fun b => b ||| bit <<< UInt8.ofNat (7 - w.bits % 8)
  bits := w.bits + 1

/-- Appends the low `n` bits (`n ≤ 8`) of `value`. -/
def write (w : BitWriter) (value : UInt8) : Nat → BitWriter
  | 0 => w
  | i + 1 => (w.writeBit (bitAt value i)).write value i

def writeBitsLoop (w : BitWriter) (src : Bytes) (i : Nat) : Nat → BitWriter
  | 0 => w
  | n + 1 => (w.write (bitAt (src.byteAt (i / 8)) (7 - i % 8)) 1).writeBitsLoop src (i + 1) n

/-- Appends the first `n` bits of `src`, which the callers have checked to be
long enough. -/
def writeBitsFromBytes (w : BitWriter) (src : Bytes) (n : Nat) : BitWriter :=
  w.writeBitsLoop src 0 n

/-- The writer holds the bit string `l`. -/
structure Holds (w : BitWriter) (l : List Bool) : Prop where
  count : w.bits = l.length
  packs : Packs w.bytes l

theorem holds_default : Holds default [] := ⟨rfl, Packs.nil⟩

variable (h : Holds w l)

include h

theorem Holds.writeBit (v : Bool) : Holds (w.writeBit v.toUInt8) (l ++ [v]) := by
  constructor
  · rw [length_append, ← h.count]
    rfl
  · have hpacks := h.packs.concat v
    rw [← h.count] at hpacks
    exact hpacks

theorem Holds.write (v : UInt8) (hn : n ≤ 8) : Holds (w.write v n) (l ++ low v.toNat n) := by
  induction n generalizing w l with
  | zero => exact (append_nil l).symm ▸ h
  | succ n ih =>
    have hbit := h.writeBit (v.toNat.testBit n)
    rw [← bitAt_eq (by omega)] at hbit
    have hrest := ih hbit (by omega)
    rwa [append_assoc] at hrest

theorem Holds.writeBitsLoop {i : Nat} (hn : i + n ≤ 8 * src.length) :
    Holds (w.writeBitsLoop src i n) (l ++ ((Bits.bits src).drop i).take n) := by
  induction n generalizing w l i with
  | zero =>
    rw [take_zero, append_nil]
    exact h
  | succ n ih =>
    have hi : i < (Bits.bits src).length := by
      rw [bits_length]
      omega
    have hget := bits_getElem? src i
    rw [getElem?_eq_getElem hi] at hget
    obtain ⟨byte, hbyte, hbit⟩ := Option.map_eq_some_iff.mp hget.symm
    have hat : src.byteAt (i / 8) = byte := by
      rw [Bytes.byteAt, getD_eq_getElem?_getD, hbyte]
      rfl
    have hone := h.write (bitAt byte (7 - i % 8)) (n := 1) (by decide)
    have hlow : low (bitAt byte (7 - i % 8)).toNat 1 = [(Bits.bits src)[i]] := by
      rw [bitAt_eq (by omega), hbit]
      cases (Bits.bits src)[i] <;> rfl
    rw [hlow] at hone
    have hrest := ih hone (i := i + 1) (by omega)
    rw [append_assoc] at hrest
    rw [BitWriter.writeBitsLoop, hat, drop_eq_getElem_cons hi]
    exact hrest

theorem Holds.writeBitsFromBytes (hn : n ≤ 8 * src.length) :
    Holds (w.writeBitsFromBytes src n) (l ++ (Bits.bits src).take n) := by
  have hloop := h.writeBitsLoop (show 0 + n ≤ 8 * src.length by omega)
  rwa [drop_zero] at hloop

end BitWriter

/-! ## Codec frames -/

def cmrNoRequest : UInt8 := 0x0f

open BitReader

/-- The bandwidth-efficient half of `payload_to_frame`. -/
def readFrame (kind : AmrKind) : Decoder BitReader Bytes := do
  let _cmr ← read 4
  let _f ← read 1
  let frameType ← read 4
  let quality ← read 1
  let bits ← ofOption (speechBits kind frameType)
  let speech ← readBitsToBytes bits
  -- The header byte the decoder expects, `F = 0`: a single frame.
  pure ((frameType <<< 3 ||| quality <<< 2) :: speech)

/-- One RTP payload as the codec libraries' frame: header byte and speech bytes. -/
def payloadToFrame (payload : Bytes) (kind : AmrKind) (octetAligned : Bool) : Option Bytes :=
  if octetAligned then
    if payload.length < 2 then none
    else
      let toc := payload.byteAt 1
      match speechBits kind (toc >>> 3 &&& 0x0f) with
      | none => none
      | some _ => some (payload.drop 1)
  else (readFrame kind (new payload)).map Prod.fst

/-- The inverse: one encoder frame as an RTP payload. -/
def frameToPayload (frame : Bytes) (kind : AmrKind) (octetAligned : Bool) : Option Bytes :=
  match frame with
  | [] => none
  | header :: speech =>
    let frameType := header >>> 3 &&& 0x0f
    let quality := header >>> 2 &&& 1
    match speechBits kind frameType with
    | none => none
    | some bits =>
      if octetAligned then some (cmrNoRequest <<< 4 :: frame)
      else if speech.length < (bits + 7) / 8 then none
      else
        let w := BitWriter.default.write cmrNoRequest 4
        let w := w.write 0 1
        let w := w.write frameType 4
        let w := w.write quality 1
        some (w.writeBitsFromBytes speech bits).bytes

/-- The frame's header byte names a speech type and all bytes of that type are
there. The decoder reads as many without being told how many there are. -/
def Complete (kind : AmrKind) (frame : Bytes) : Prop :=
  ∃ bits, speechBits kind (frame.byteAt 0 >>> 3 &&& 0x0f) = some bits ∧
    1 + (bits + 7) / 8 ≤ frame.length

variable {kind : AmrKind} {frameType quality : UInt8} {speech : Bytes} {n : Nat}

theorem speechBits_lt (h : speechBits kind frameType = some n) : frameType.toNat < 9 := by
  cases kind with
  | nb => exact Nat.lt_trans (List.getElem?_eq_some_iff.mp h).1 (by decide)
  | wb => exact (List.getElem?_eq_some_iff.mp h).1

/-! ### The bandwidth-efficient format as a bit string -/

/-- Header byte of a single frame. -/
def frameHeader (frameType quality : UInt8) : UInt8 :=
  frameType <<< 3 ||| quality <<< 2

theorem frameHeader_fields (hft : frameType.toNat < 2 ^ 4) (hq : quality.toNat < 2 ^ 1) :
    frameHeader frameType quality >>> 3 &&& 0x0f = frameType ∧
      frameHeader frameType quality >>> 2 &&& 1 = quality := by
  have hall : ∀ (f : Fin 16) (q : Fin 2),
      frameHeader (UInt8.ofNat f.val) (UInt8.ofNat q.val) >>> 3 &&& 0x0f = UInt8.ofNat f.val ∧
        frameHeader (UInt8.ofNat f.val) (UInt8.ofNat q.val) >>> 2 &&& 1 = UInt8.ofNat q.val := by
    decide +kernel
  have h := hall ⟨frameType.toNat, hft⟩ ⟨quality.toNat, hq⟩
  rwa [UInt8.ofNat_toNat, UInt8.ofNat_toNat] at h

/-- `readFrame` on the bits it sees. -/
def frameOfBits (kind : AmrKind) : Decoder (List Bool) Bytes := do
  let _cmr ← readNumber 4
  let _f ← readNumber 1
  let frameType ← readNumber 4
  let quality ← readNumber 1
  let bits ← ofOption (speechBits kind frameType)
  let speech ← (take bits >>= fun l => pure (pack l) : Decoder (List Bool) Bytes)
  pure (frameHeader frameType quality :: speech)

theorem payloadToFrame_bits (payload : Bytes) (kind : AmrKind) :
    payloadToFrame payload kind false = (frameOfBits kind (bits payload)).map Prod.fst := by
  have hreads : Simulates rest (readFrame kind) (frameOfBits kind) := by
    refine (read_simulates (by decide)).bind fun _ => ?_
    refine (read_simulates (by decide)).bind fun _ => ?_
    refine (read_simulates (by decide)).bind fun frameType => ?_
    refine (read_simulates (by decide)).bind fun quality => ?_
    refine (Simulates.ofOption _).bind fun bits => ?_
    exact (readBitsToBytes_simulates bits).bind fun speech => Simulates.pure _
  unfold payloadToFrame
  rw [hreads.result]
  rfl

/-- The bit string of a bandwidth-efficient payload, before padding. -/
def payloadBits (cmr : UInt8) (f : UInt8) (frameType quality : UInt8) (l : List Bool) : List Bool :=
  low cmr.toNat 4 ++ (low f.toNat 1 ++ (low frameType.toNat 4 ++ (low quality.toNat 1 ++ l)))

/-- A payload that is read has the bits of a frame at its front. -/
theorem takes_frameOfBits (kind : AmrKind) :
    Takes (frameOfBits kind) fun enc frame => ∃ cmr f frameType quality m,
      enc = payloadBits cmr f frameType quality m ∧
      frame = frameHeader frameType quality :: pack m ∧ frameType.toNat < 2 ^ 4 ∧
      quality.toNat < 2 ^ 1 ∧ speechBits kind frameType = some m.length := by
  refine (takes_readNumber (by decide)).bind ?_
  rintro _ cmr ⟨rfl, -⟩
  refine (takes_readNumber (by decide)).bind ?_
  rintro _ f ⟨rfl, -⟩
  refine (takes_readNumber (by decide)).bind ?_
  rintro _ frameType ⟨rfl, hft⟩
  refine (takes_readNumber (by decide)).bind ?_
  rintro _ quality ⟨rfl, hq⟩
  refine (Takes.ofOption _).bind ?_
  rintro _ n ⟨rfl, hn⟩
  have hspeech : Takes (take n >>= fun l => pure (pack l) : Decoder (List Bool) Bytes)
      fun m speech => speech = pack m ∧ m.length = n := by
    refine (Takes.take n).bind ?_
    rintro m _ ⟨rfl, hlen⟩
    exact Takes.pure (by simp [hlen])
  refine hspeech.bind ?_
  rintro m _ ⟨rfl, rfl⟩
  refine Takes.pure ⟨cmr, f, frameType, quality, m, ?_, rfl, hft, hq, hn⟩
  rw [append_nil, nil_append, payloadBits]

/-- **Completeness of codec frames.** A frame handed to the decoder is complete
exactly when, in the octet-aligned format, the payload holds all the bytes its
table of contents announces. The bandwidth-efficient format needs no condition:
there the reader runs out of bits instead. -/
theorem payloadToFrame_complete_iff (payload : Bytes) (kind : AmrKind) (octetAligned : Bool) :
    (∀ frame, payloadToFrame payload kind octetAligned = some frame → Complete kind frame) ↔
    (octetAligned = true → 2 ≤ payload.length →
      ∀ bits, speechBits kind (payload.byteAt 1 >>> 3 &&& 0x0f) = some bits →
        2 + (bits + 7) / 8 ≤ payload.length) := by
  cases octetAligned with
  | false =>
    refine ⟨fun _ h => absurd h (by decide), fun _ frame hframe => ?_⟩
    rw [payloadToFrame_bits] at hframe
    obtain ⟨⟨_, r⟩, hread, rfl⟩ := Option.map_eq_some_iff.mp hframe
    obtain ⟨_, -, -, _, _, frameType, quality, m, -, rfl, hft, hq, hbits⟩ :=
      takes_frameOfBits kind _ _ _ hread
    refine ⟨m.length, ?_, ?_⟩
    · change speechBits kind (frameHeader frameType quality >>> 3 &&& 0x0f) = _
      rw [(frameHeader_fields hft hq).1, hbits]
    · rw [length_cons, (packs_pack m).length_eq, Nat.add_comm]
  | true =>
    have hhead : Bytes.byteAt (payload.drop 1) 0 = payload.byteAt 1 := by
      cases payload <;> rfl
    constructor
    · intro hall _ hlen bits hbits
      have hsome : payloadToFrame payload kind true = some (payload.drop 1) := by
        simp only [payloadToFrame, if_true, if_neg (Nat.not_lt.mpr hlen), hbits]
      obtain ⟨bits', hbits', hle⟩ := hall _ hsome
      rw [hhead, hbits] at hbits'
      cases hbits'
      rw [length_drop] at hle
      omega
    · intro hcond frame hframe
      simp only [payloadToFrame, if_true] at hframe
      split at hframe
      · cases hframe
      rename_i hlen
      split at hframe
      · cases hframe
      rename_i bits hbits
      cases hframe
      refine ⟨bits, hhead.symm ▸ hbits, ?_⟩
      have := hcond rfl (Nat.not_lt.mp hlen) bits hbits
      rw [length_drop]
      omega

/-- Two bytes that announce a 244-bit speech frame are handed on as a frame of
one byte. -/
theorem payloadToFrame_truncated :
    payloadToFrame [0xf0, 0x3c] .nb true = some [0x3c] ∧
    speechBits .nb ((0x3c : UInt8) >>> 3 &&& 0x0f) = some 244 ∧ ¬ Complete .nb [0x3c] := by
  refine ⟨by decide, by decide, ?_⟩
  rintro ⟨bits, hbits, hle⟩
  cases hbits
  exact absurd hle (by decide)

/-! ## There and back -/

/-- The bytes hold `n` bits, and zero padding behind them. -/
structure Padded (speech : Bytes) (n : Nat) : Prop where
  length : speech.length = (n + 7) / 8
  zero : ∀ b ∈ (bits speech).drop n, b = false

theorem Padded.packs (h : Padded speech n) : Packs speech ((bits speech).take n) := by
  have hlen := h.length
  refine ⟨8 * speech.length - n, by omega, ?_⟩
  conv_lhs => rw [← take_append_drop n (bits speech)]
  congr 1
  rw [eq_replicate_iff, length_drop, bits_length]
  exact ⟨rfl, h.zero⟩

theorem frameToPayload_bits (hft : frameType.toNat < 2 ^ 4) (hq : quality.toNat < 2 ^ 1)
    (hn : speechBits kind frameType = some n) (hlen : (n + 7) / 8 ≤ speech.length) :
    frameToPayload (frameHeader frameType quality :: speech) kind false =
      some (pack (payloadBits cmrNoRequest 0 frameType quality ((bits speech).take n))) := by
  obtain ⟨htype, hqual⟩ := frameHeader_fields hft hq
  have hcmr := BitWriter.holds_default.write cmrNoRequest (n := 4) (by decide)
  have hflag := hcmr.write 0 (n := 1) (by decide)
  have hft' := hflag.write frameType (n := 4) (by decide)
  have hq' := hft'.write quality (n := 1) (by decide)
  have hspeech := hq'.writeBitsFromBytes (show n ≤ 8 * speech.length by omega)
  simp only [frameToPayload, htype, hqual, hn, Bool.false_eq_true, if_false,
    if_neg (Nat.not_lt.mpr hlen), hspeech.packs.eq_pack]
  simp [payloadBits]

theorem reads_frameOfBits {cmr f : UInt8} {l : List Bool} (hcmr : cmr.toNat < 2 ^ 4)
    (hf : f.toNat < 2 ^ 1) (hft : frameType.toNat < 2 ^ 4) (hq : quality.toNat < 2 ^ 1)
    (hn : speechBits kind frameType = some l.length) :
    Reads (frameOfBits kind) (payloadBits cmr f frameType quality l)
      (frameHeader frameType quality :: pack l) := by
  refine (reads_readNumber hcmr).bind ((reads_readNumber hf).bind ((reads_readNumber hft).bind
    ((reads_readNumber hq).bind ((Reads.ofOption hn).bind ?_))))
  exact ((Reads.take rfl).bind_pure pack).bind_pure (frameHeader frameType quality :: ·)

/-- Every speech frame survives framing, in either format, and takes ten bits more in the
bandwidth-efficient one. A payload in that format that is read at all is framed again as
the same bits, but for the mode request, the flag and what lies behind the speech. -/
theorem amr_framing_round_trip (kind : AmrKind) :
    (∀ frameType quality speech n, speechBits kind frameType = some n → quality.toNat < 2 →
      Padded speech n → ∀ octetAligned, ∃ payload,
        frameToPayload (frameHeader frameType quality :: speech) kind octetAligned = some payload ∧
        payloadToFrame payload kind octetAligned =
          some (frameHeader frameType quality :: speech) ∧
        (octetAligned = false → payload.length = (10 + n + 7) / 8)) ∧
    ∀ payload frame, payloadToFrame payload kind false = some frame →
      ∃ cmr f frameType quality l tail payload', speechBits kind frameType = some l.length ∧
        bits payload = payloadBits cmr f frameType quality l ++ tail ∧
        frameToPayload frame kind false = some payload' ∧
        Packs payload' (payloadBits cmrNoRequest 0 frameType quality l) := by
  constructor
  · intro frameType quality speech n hn hq hspeech octetAligned
    have hft := Nat.lt_trans (speechBits_lt hn) (show 9 < 2 ^ 4 by decide)
    have hheader := (frameHeader_fields hft hq).1
    cases octetAligned with
    | true =>
      refine ⟨cmrNoRequest <<< 4 :: frameHeader frameType quality :: speech, ?_, ?_,
        fun h => (by cases h)⟩
      · simp [frameToPayload, hheader, hn]
      · have htoc : Bytes.byteAt (cmrNoRequest <<< 4 :: frameHeader frameType quality :: speech) 1 =
            frameHeader frameType quality := rfl
        simp only [payloadToFrame, if_true, htoc, hheader, hn]
        exact if_neg (by simp)
    | false =>
      have hlen : ((bits speech).take n).length = n := by
        rw [length_take, bits_length, hspeech.length]
        omega
      have hpacks := packs_pack (payloadBits cmrNoRequest 0 frameType quality ((bits speech).take n))
      refine ⟨_, frameToPayload_bits hft hq hn (Nat.le_of_eq hspeech.length.symm), ?_, fun _ => ?_⟩
      · rw [payloadToFrame_bits, hpacks.pad,
          reads_frameOfBits (by decide) (by decide) hft hq (hn.trans (by rw [hlen])),
          ← hspeech.packs.eq_pack]
        rfl
      · rw [hpacks.length_eq]
        simp only [payloadBits, length_append, low_length, hlen]
        omega
  · intro payload frame h
    rw [payloadToFrame_bits] at h
    obtain ⟨⟨_, tail⟩, hread, rfl⟩ := Option.map_eq_some_iff.mp h
    obtain ⟨_, hbits, -, cmr, f, frameType, quality, l, rfl, rfl, hft, hq, hn⟩ :=
      takes_frameOfBits kind _ _ _ hread
    have hpacks := packs_pack l
    have hframed := frameToPayload_bits hft hq hn (Nat.le_of_eq hpacks.length_eq.symm)
    rw [hpacks.take_eq] at hframed
    exact ⟨cmr, f, frameType, quality, l, tail, _, hn, hbits, hframed, packs_pack _⟩

end Ims.AmrRtp
