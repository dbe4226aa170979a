-- SUMMARY: The two AMR packings carry the same packets, through building, parsing and repacking.
import GsmSipBridge.AmrForward.Repack

/-!
# The two packings

A well-formed packet has one encoding in each packing. `octets` and `bitString`
give them as concatenations, and the decoders are shown to read exactly them:
the octet-aligned one directly, the bandwidth-efficient one through its view of
the payload as a bit string. Round trips, truncation and the mode scan then
follow from the rules for decoders.
-/

namespace AmrForward.Repack

open Ims.AmrRtp Decoder Bits List UInt8 Nat

/-! ## Well-formed packets -/

/-- A frame of a known type with exactly its bits, the pad bits zero. -/
structure Frame.WellFormed (kind : AmrKind) (f : Frame) : Prop where
  quality : f.quality.toNat < 2 ^ 1
  known : ∃ n, frameBits kind f.frameType = some n ∧ f.bits.length = (n + 7) / 8 ∧
    canonical f.bits n = f.bits

structure Packet.WellFormed (kind : AmrKind) (p : Packet) : Prop where
  cmr : p.cmr.toNat < 2 ^ 4
  nonempty : p.frames ≠ []
  frames : ∀ f ∈ p.frames, f.WellFormed kind

variable {kind : AmrKind} {frames : List Frame} {p : Packet} {payload : Bytes} {octetAligned : Bool}
  {b : UInt8} {f : Frame} {n : Nat} {data : Bytes} {l : List Bool} {w : BitWriter}
  {e : UInt8 × UInt8}

/-- Every type of known size fits the four bits of an entry. -/
theorem frameBits_lt {ft : UInt8} (h : frameBits kind ft = some n) : ft.toNat < 2 ^ 4 := by
  unfold frameBits at h
  split at h
  · exact lt_trans (speechBits_lt ‹_›) (by decide)
  split at h
  · omega
  · omega
  · omega
  · omega
  · cases h

theorem canonical_append_singleton (init : Bytes) (hn : n % 8 ≠ 0) :
    canonical (init ++ [b]) n = init ++ [b &&& 0xff <<< UInt8.ofNat (8 - n % 8)] := by
  rw [canonical, if_neg hn, length_append, length_singleton, Nat.add_sub_cancel]
  induction init with
  | nil => rfl
  | cons a init ih =>
    rw [cons_append, cons_append, length_cons, modify_succ_cons, ih]

/-- Masking the last byte packs the first `n` bits. -/
theorem canonical_packs (h : data.length = (n + 7) / 8) :
    Packs (canonical data n) ((bits data).take n) := by
  by_cases hn : n % 8 = 0
  · rw [canonical, if_pos hn, take_of_length_le (by rw [bits_length]; omega)]
    exact Packs.self
  cases data using reverseRecOn with
  | nil => exact absurd h (by simp; omega)
  | append_singleton init b =>
    rw [length_append, length_singleton] at h
    have hlen : n = (bits init).length + n % 8 := by
      rw [bits_length]
      omega
    rw [canonical_append_singleton init hn]
    refine ⟨8 - n % 8, by omega, ?_⟩
    conv_rhs => rw [hlen]
    rw [bits_append, bits_append, take_length_add_append, bits_cons, bits_cons, bits_nil,
      append_nil, byteBits_mask (by omega) (by omega), append_assoc]
    congr 3
    omega

/-- The bits a frame contributes. -/
def Frame.bitString (kind : AmrKind) (f : Frame) : List Bool :=
  (Bits.bits f.bits).take ((frameBits kind f.frameType).getD 0)

theorem Frame.WellFormed.packs (h : f.WellFormed kind) : Packs f.bits (f.bitString kind) := by
  obtain ⟨n, hn, hlen, hcanon⟩ := h.known
  have hpacks := canonical_packs hlen
  rw [hcanon] at hpacks
  rw [bitString, hn]
  exact hpacks

/-! ## Encodings -/

@[simp] theorem follows_singleton : follows [f] = [(false, f)] := rfl

@[simp] theorem follows_cons_cons (f g : Frame) (fs : List Frame) :
    follows (f :: g :: fs) = (true, f) :: follows (g :: fs) := by
  simp [follows, mapIdx_cons]

/-- The octet-aligned encoding. -/
def Packet.octets (p : Packet) : Bytes :=
  [p.cmr <<< 4] ++ ((follows p.frames).map octetEntry ++ p.frames.flatMap Frame.bits)

def entryBits (x : Bool × Frame) : List Bool :=
  low x.1.toUInt8.toNat 1 ++ (low x.2.frameType.toNat 4 ++ low x.2.quality.toNat 1)

/-- The bandwidth-efficient encoding, before padding. -/
def Packet.bitString (kind : AmrKind) (p : Packet) : List Bool :=
  low p.cmr.toNat 4 ++
    ((follows p.frames).flatMap entryBits ++ p.frames.flatMap (Frame.bitString kind))

theorem foldlM_putOctetFrame (h : ∀ f ∈ frames, f.WellFormed kind) (out : Bytes) :
    frames.foldlM (putOctetFrame kind) out = some (out ++ frames.flatMap Frame.bits) := by
  induction frames generalizing out with
  | nil => simp
  | cons f fs ih =>
    obtain ⟨n, hn, hlen, -⟩ := (h f (by simp)).known
    have hput : putOctetFrame kind out f = some (out ++ f.bits) := by
      unfold putOctetFrame
      simp only [hn]
      rw [if_neg (by omega), take_of_length_le (by omega)]
    rw [foldlM_cons, hput, flatMap_cons, ← append_assoc]
    exact ih (fun g hg => h g (by simp [hg])) _

theorem build_octets (h : p.WellFormed kind) : build p kind true = some p.octets := by
  unfold build
  rw [if_neg (by simpa using h.nonempty), foldlM_putOctetFrame h.frames]
  rfl

theorem foldl_putBitEntry (h : w.Holds l) (entries : List (Bool × Frame)) :
    (entries.foldl putBitEntry w).Holds (l ++ entries.flatMap entryBits) := by
  induction entries generalizing w l with
  | nil => simpa using h
  | cons x entries ih =>
    rw [flatMap_cons, ← append_assoc]
    apply ih
    have hflag := h.write x.1.toUInt8 (n := 1) (by decide)
    have htype := hflag.write x.2.frameType (n := 4) (by decide)
    have hqual := htype.write x.2.quality (n := 1) (by decide)
    rwa [append_assoc, append_assoc] at hqual

theorem foldlM_putBitFrame (h : ∀ f ∈ frames, f.WellFormed kind) (hw : w.Holds l) :
    ∃ w', frames.foldlM (putBitFrame kind) w = some w' ∧
      w'.Holds (l ++ frames.flatMap (Frame.bitString kind)) := by
  induction frames generalizing w l with
  | nil => exact ⟨w, rfl, by simpa using hw⟩
  | cons f fs ih =>
    obtain ⟨n, hn, hlen, -⟩ := (h f (by simp)).known
    have hput : putBitFrame kind w f = some (w.writeBitsFromBytes f.bits n) := by
      unfold putBitFrame
      simp only [hn]
      rw [if_neg (by omega)]
    have hholds : (w.writeBitsFromBytes f.bits n).Holds (l ++ f.bitString kind) := by
      rw [Frame.bitString, hn]
      exact hw.writeBitsFromBytes (by omega)
    rw [foldlM_cons, hput, flatMap_cons, ← append_assoc]
    exact ih (fun g hg => h g (by simp [hg])) hholds

theorem build_bits (h : p.WellFormed kind) :
    build p kind false = some (pack (p.bitString kind)) := by
  have hcmr := BitWriter.holds_default.write p.cmr (n := 4) (by decide)
  have htoc := foldl_putBitEntry hcmr (follows p.frames)
  obtain ⟨w, hw, hholds⟩ := foldlM_putBitFrame h.frames htoc
  unfold build
  rw [if_neg (by simpa using h.nonempty)]
  simp only [hw, Option.map_some]
  rw [hholds.packs.eq_pack]
  rfl

/-! ## Reading octets -/

/-- What the table of contents says about a frame. -/
def Frame.key (f : Frame) : UInt8 × UInt8 :=
  (f.frameType, f.quality)

/-- The fields of an octet-aligned entry can be read back. -/
theorem octetEntry_fields (flag : Bool) (hft : f.frameType.toNat < 2 ^ 4)
    (hq : f.quality.toNat < 2 ^ 1) :
    octetEntry (flag, f) >>> 3 &&& 0x0f = f.frameType ∧
    octetEntry (flag, f) >>> 2 &&& 1 = f.quality ∧
    (octetEntry (flag, f) &&& 0x80 = 0 ↔ flag = false) := by
  have hall : ∀ (flag : Bool) (t : Fin 16) (q : Fin 2),
      let e := flag.toUInt8 <<< 7 ||| ofNat t.val <<< 3 ||| ofNat q.val <<< 2
      e >>> 3 &&& 0x0f = ofNat t.val ∧ e >>> 2 &&& 1 = ofNat q.val ∧
      (e &&& 0x80 = 0 ↔ flag = false) := by
    decide +kernel
  have h := hall flag ⟨f.frameType.toNat, hft⟩ ⟨f.quality.toNat, hq⟩
  simp only [UInt8.ofNat_toNat] at h
  exact h

theorem reads_octetToc (hne : frames ≠ []) (h : ∀ f ∈ frames, f.WellFormed kind) :
    Reads octetToc ((follows frames).map octetEntry) (frames.map Frame.key) := by
  intro rest
  induction frames with
  | nil => exact absurd rfl hne
  | cons f fs ih =>
    have hf := h f (by simp)
    obtain ⟨n, hn, -⟩ := hf.known
    cases fs with
    | nil =>
      obtain ⟨htype, hqual, hflag⟩ := octetEntry_fields false (frameBits_lt hn) hf.quality
      simp only [follows_singleton, map_cons, map_nil, cons_append, nil_append, octetToc]
      rw [if_pos (hflag.mpr rfl), htype, hqual]
      rfl
    | cons g fs =>
      obtain ⟨htype, hqual, hflag⟩ := octetEntry_fields true (frameBits_lt hn) hf.quality
      have htail := ih (by simp) fun x hx => h x (mem_cons_of_mem f hx)
      rw [follows_cons_cons, map_cons, cons_append, octetToc]
      rw [if_neg (fun hz => absurd (hflag.mp hz) (by decide)), htail, htype, hqual]
      rfl

/-- Entries are in range and there is at least one. -/
def TocOk (toc : List (UInt8 × UInt8)) : Prop :=
  toc ≠ [] ∧ ∀ e ∈ toc, e.2.toNat < 2 ^ 1

theorem tocOk_singleton (h : e.2.toNat < 2 ^ 1) : TocOk [e] :=
  ⟨by simp, by simpa using h⟩

theorem TocOk.cons {toc : List (UInt8 × UInt8)} (h : TocOk toc) (he : e.2.toNat < 2 ^ 1) :
    TocOk (e :: toc) :=
  ⟨by simp, forall_mem_cons.mpr ⟨he, h.2⟩⟩

theorem takes_octetToc : Takes octetToc fun _ => TocOk := by
  have hq : ∀ entry : UInt8, (entry >>> 2 &&& 1).toNat < 2 ^ 1 := by
    intro entry
    rw [UInt8.toNat_and, UInt8.toNat_one, and_one_is_mod]
    exact mod_lt _ (by decide)
  intro l
  induction l with
  | nil =>
    intro a r h
    cases h
  | cons entry l ih =>
    intro a r h
    simp only [octetToc] at h
    split at h
    · cases h
      exact ⟨[entry], rfl, fun x => if_pos ‹_›, tocOk_singleton (hq entry)⟩
    obtain ⟨⟨toc, r'⟩, hrec, heq⟩ := Option.map_eq_some_iff.mp h
    cases heq
    obtain ⟨enc, rfl, hread, htoc⟩ := ih _ _ hrec
    refine ⟨entry :: enc, rfl, fun x => ?_, htoc.cons (hq entry)⟩
    rw [cons_append, octetToc, if_neg ‹_›, hread]
    rfl

theorem canonical_length (data : Bytes) (n : Nat) : (canonical data n).length = data.length := by
  unfold canonical
  split
  · rfl
  · exact length_modify ..

theorem canonical_canonical (h : data.length = (n + 7) / 8) :
    canonical (canonical data n) n = canonical data n := by
  have hpacks := canonical_packs h
  have hagain := canonical_packs ((canonical_length data n).trans h)
  have hlen : ((bits data).take n).length = n := by
    rw [length_take, bits_length]
    omega
  have htake := hpacks.take_eq
  rw [hlen] at htake
  rw [htake] at hagain
  exact hagain.unique hpacks

theorem reads_octetFrame (h : f.WellFormed kind) : Reads (octetFrame kind f.key) f.bits f := by
  obtain ⟨n, hn, hlen, hcanon⟩ := h.known
  have hdata := (Reads.take hlen).bind_pure fun data =>
    (⟨f.frameType, f.quality, canonical data n⟩ : Frame)
  simp only [hcanon] at hdata
  exact (Reads.ofOption hn).bind hdata

/-- A frame read after an entry is the entry's and well formed. -/
def FrameOf (kind : AmrKind) (e : UInt8 × UInt8) (f : Frame) : Prop :=
  f.key = e ∧ (e.2.toNat < 2 ^ 1 → f.WellFormed kind)

theorem takes_octetFrame (kind : AmrKind) (e : UInt8 × UInt8) :
    Takes (octetFrame kind e) fun _ => FrameOf kind e := by
  refine (Takes.ofOption _).bind fun _ n hn => ?_
  refine (Takes.take _).bind fun _ data hdata =>
    Takes.pure ⟨rfl, fun hq => ⟨hq, n, hn.2, ?_, ?_⟩⟩
  · exact (canonical_length data n).trans hdata.2
  · exact canonical_canonical hdata.2

section Frames

variable {toc : List (UInt8 × UInt8)} (h : List.Forall₂ (FrameOf kind) toc frames)
include h

theorem keys_of_forall₂ : frames.map Frame.key = toc := by
  induction h with
  | nil => rfl
  | cons hf _ ih => rw [map_cons, hf.1, ih]

theorem wellFormed_of_forall₂ {cmr : UInt8} (hcmr : cmr.toNat < 2 ^ 4)
    (htoc : TocOk toc) : Packet.WellFormed kind ⟨cmr, frames⟩ := by
  obtain ⟨hne, hq⟩ := htoc
  refine ⟨hcmr, fun hnil => hne ?_, ?_⟩
  · rw [← keys_of_forall₂ h, show frames = [] from hnil]
    rfl
  · clear hne
    induction h with
    | nil => exact forall_mem_nil _
    | cons hf _ ih =>
      obtain ⟨hfirst, hrest⟩ := forall_mem_cons.mp hq
      exact forall_mem_cons.mpr ⟨hf.2 hfirst, ih hrest⟩

end Frames

theorem reads_octetPacket (h : p.WellFormed kind) : Reads (octetPacket kind) p.octets p := by
  have hcmr : p.cmr <<< 4 >>> 4 = p.cmr := by
    have hall : ∀ c : Fin 16, ofNat c.val <<< 4 >>> 4 = ofNat c.val := by decide
    have hc := hall ⟨p.cmr.toNat, h.cmr⟩
    rwa [UInt8.ofNat_toNat] at hc
  refine (Reads.next _).bind ((reads_octetToc h.nonempty h.frames).bind ?_)
  have hframes : Reads ((p.frames.map Frame.key).mapM (octetFrame kind))
      (p.frames.flatMap Frame.bits) p.frames :=
    Reads.mapM fun f hf => reads_octetFrame (h.frames f hf)
  rw [hcmr]
  exact hframes.bind_pure fun frames => (⟨p.cmr, frames⟩ : Packet)

theorem octetPacket_cons (rest : Bytes) :
    octetPacket kind (b :: rest) = (octetToc rest).bind fun x =>
      (x.1.mapM (octetFrame kind) x.2).map fun y => (⟨b >>> 4, y.1⟩, y.2) := by
  rw [octetPacket, bind_apply, Decoder.next, Option.bind_some, bind_apply]
  refine Option.bind_congr fun x _ => ?_
  rw [bind_apply]
  cases x.1.mapM (octetFrame kind) x.2 <;> rfl

theorem high_lt (b : UInt8) : (b >>> 4).toNat < 2 ^ 4 := by
  rw [UInt8.toNat_shiftRight, shiftRight_eq_div_pow]
  exact Nat.div_lt_of_lt_mul b.toNat_lt

theorem takes_octetPacket (kind : AmrKind) :
    Takes (octetPacket kind) fun _ => Packet.WellFormed kind := by
  refine Takes.next.bind fun _ first _ => takes_octetToc.bind fun _ toc htoc => ?_
  refine (Takes.mapM (takes_octetFrame kind) toc).bind fun _ frames hframes => Takes.pure ?_
  exact wellFormed_of_forall₂ hframes (high_lt first) htoc

/-! ## Reading bits

The bandwidth-efficient decoder on the bit string it sees. -/

def tocOfBits : Nat → Decoder (List Bool) (List (UInt8 × UInt8))
  | 0 => ofOption none
  | fuel + 1 => do
    let follow ← readNumber 1
    let frameType ← readNumber 4
    let quality ← readNumber 1
    if follow = 0 then pure [(frameType, quality)]
    else do
      let toc ← tocOfBits fuel
      pure ((frameType, quality) :: toc)

def frameOfBits (kind : AmrKind) (entry : UInt8 × UInt8) : Decoder (List Bool) Frame := do
  let bits ← ofOption (frameBits kind entry.1)
  let data ← (take bits >>= fun l => pure (pack l) : Decoder (List Bool) Bytes)
  pure { frameType := entry.1, quality := entry.2, bits := data }

def packetOfBits (kind : AmrKind) (fuel : Nat) : Decoder (List Bool) Packet := do
  let cmr ← readNumber 4
  let toc ← tocOfBits fuel
  let frames ← toc.mapM (frameOfBits kind)
  pure { cmr := cmr, frames := frames }

variable {fuel : Nat} {c : UInt8} {k : Nat} {fuel' : Nat}

theorem bitToc_simulates : Simulates BitReader.rest (bitToc fuel) (tocOfBits fuel) := by
  induction fuel with
  | zero => exact Simulates.ofOption none
  | succ fuel ih =>
    refine (BitReader.read_simulates (by decide)).bind fun follow => ?_
    refine (BitReader.read_simulates (by decide)).bind fun frameType => ?_
    refine (BitReader.read_simulates (by decide)).bind fun quality => ?_
    split
    · exact Simulates.pure _
    · exact ih.bind fun toc => Simulates.pure _

theorem bitPacket_simulates :
    Simulates BitReader.rest (bitPacket kind fuel) (packetOfBits kind fuel) := by
  refine (BitReader.read_simulates (by decide)).bind fun cmr => ?_
  refine bitToc_simulates.bind fun toc => ?_
  refine (Simulates.mapM (fun entry => ?_) toc).bind fun frames => Simulates.pure _
  refine (Simulates.ofOption _).bind fun bits => ?_
  exact (BitReader.readBitsToBytes_simulates bits).bind fun data => Simulates.pure _

theorem parse_bits (payload : Bytes) (kind : AmrKind) :
    parse payload kind false =
      (packetOfBits kind (8 * payload.length) (bits payload)).map Prod.fst := by
  unfold parse
  rw [bitPacket_simulates.result]
  rfl

/-- Fuel for every bit left is enough, and more changes nothing. -/
theorem tocOfBits_fuel (h : l.length ≤ fuel) (h' : l.length ≤ fuel') :
    tocOfBits fuel l = tocOfBits fuel' l := by
  induction fuel generalizing fuel' l with
  | zero =>
    rw [length_eq_zero_iff.mp (le_zero.mp h)]
    cases fuel' <;> rfl
  | succ fuel ih =>
    cases fuel' with
    | zero =>
      rw [length_eq_zero_iff.mp (le_zero.mp h')]
      rfl
    | succ fuel' =>
      simp only [tocOfBits, bind_apply]
      refine Option.bind_congr fun x hx => Option.bind_congr fun y hy =>
        Option.bind_congr fun z hz => ?_
      have hlx := readNumber_length hx
      have hly := readNumber_length hy
      have hlz := readNumber_length hz
      split
      · rfl
      · have hrec := ih (show z.2.length ≤ fuel by omega) (show z.2.length ≤ fuel' by omega)
        rw [bind_apply, bind_apply, hrec]

theorem packetOfBits_fuel (h : l.length ≤ fuel) (h' : l.length ≤ fuel') :
    packetOfBits kind fuel l = packetOfBits kind fuel' l := by
  simp only [packetOfBits, bind_apply]
  refine Option.bind_congr fun x hx => ?_
  have hlen := readNumber_length hx
  rw [tocOfBits_fuel (show x.2.length ≤ fuel by omega) (show x.2.length ≤ fuel' by omega)]

theorem reads_tocOfBits (hne : frames ≠ []) (h : ∀ f ∈ frames, f.WellFormed kind)
    (hfuel : frames.length ≤ fuel) :
    Reads (tocOfBits fuel) ((follows frames).flatMap entryBits) (frames.map Frame.key) := by
  induction frames generalizing fuel with
  | nil => exact absurd rfl hne
  | cons f fs ih =>
    obtain ⟨fuel, rfl⟩ : ∃ k, fuel = k + 1 := ⟨fuel - 1, by simp at hfuel; omega⟩
    have hf := h f (by simp)
    obtain ⟨n, hn, -⟩ := hf.known
    have htype := reads_readNumber (frameBits_lt hn)
    have hqual := reads_readNumber hf.quality
    cases fs with
    | nil =>
      have hflag : Reads (readNumber 1) (low (false.toUInt8).toNat 1) 0 := reads_readNumber (by decide)
      have hlast := hqual.bind_pure fun q => [(f.frameType, q)]
      exact hflag.bind (htype.bind hlast)
    | cons g fs =>
      have hflag : Reads (readNumber 1) (low (true.toUInt8).toNat 1) 1 := reads_readNumber (by decide)
      have htail := ih (by simp) (fun x hx => h x (mem_cons_of_mem f hx))
        (le_of_succ_le_succ hfuel)
      have hcons := htail.bind_pure fun toc => f.key :: toc
      rw [follows_cons_cons, flatMap_cons, entryBits]
      exact hflag.bind (htype.bind (hqual.bind hcons))

theorem reads_frameOfBits (h : f.WellFormed kind) :
    Reads (frameOfBits kind f.key) (f.bitString kind) f := by
  obtain ⟨n, hn, hlen, -⟩ := h.known
  have hbits : (f.bitString kind).length = n := by
    rw [Frame.bitString, hn, Option.getD_some, length_take, bits_length]
    omega
  have hdata := (Reads.take hbits).bind_pure pack
  rw [← h.packs.eq_pack] at hdata
  exact (Reads.ofOption hn).bind
    (hdata.bind_pure fun data => (⟨f.frameType, f.quality, data⟩ : Frame))

theorem reads_packetOfBits (h : p.WellFormed kind) (hfuel : p.frames.length ≤ fuel) :
    Reads (packetOfBits kind fuel) (p.bitString kind) p := by
  have hframes : Reads ((p.frames.map Frame.key).mapM (frameOfBits kind))
      (p.frames.flatMap (Frame.bitString kind)) p.frames :=
    Reads.mapM fun f hf => reads_frameOfBits (h.frames f hf)
  refine (reads_readNumber h.cmr).bind ((reads_tocOfBits h.nonempty h.frames hfuel).bind ?_)
  exact hframes.bind_pure fun frames => (⟨p.cmr, frames⟩ : Packet)

theorem takes_tocOfBits : Takes (tocOfBits fuel) fun _ => TocOk := by
  induction fuel with
  | zero =>
    intro l a r h
    cases h
  | succ fuel ih =>
    refine (takes_readNumber (by decide)).bind fun _ follow _ => ?_
    refine (takes_readNumber (by decide)).bind fun _ frameType _ => ?_
    refine (takes_readNumber (by decide)).bind fun _ quality hq => ?_
    split
    · exact Takes.pure (tocOk_singleton hq.2)
    · exact ih.bind fun _ toc htoc => Takes.pure (htoc.cons hq.2)

theorem canonical_of_packs (h : Packs data l) : canonical data l.length = data := by
  have hcanon := canonical_packs h.length_eq
  rw [h.take_eq] at hcanon
  exact hcanon.unique h

theorem takes_frameOfBits (kind : AmrKind) (e : UInt8 × UInt8) :
    Takes (frameOfBits kind e) fun _ => FrameOf kind e := by
  refine (Takes.ofOption _).bind fun _ n hn => ?_
  have hdata : Takes (take n >>= fun l => pure (pack l) : Decoder (List Bool) Bytes)
      fun _ data => ∃ l, Packs data l ∧ l.length = n :=
    (Takes.take n).bind fun _ l hl => Takes.pure ⟨l, packs_pack l, hl.2⟩
  refine hdata.bind fun _ data ⟨l, hpacks, hl⟩ =>
    Takes.pure ⟨rfl, fun hq => ⟨hq, n, hn.2, ?_, ?_⟩⟩
  · exact hl ▸ hpacks.length_eq
  · exact hl ▸ canonical_of_packs hpacks

theorem takes_packetOfBits : Takes (packetOfBits kind fuel) fun _ => Packet.WellFormed kind := by
  refine (takes_readNumber (by decide)).bind fun _ cmr hcmr => ?_
  refine takes_tocOfBits.bind fun _ toc htoc => ?_
  refine (Takes.mapM (takes_frameOfBits kind) toc).bind fun _ frames hframes => Takes.pure ?_
  exact wellFormed_of_forall₂ hframes hcmr.2 htoc

/-! ## Payloads -/

theorem parse_octets_eq_some :
    parse payload kind true = some p ↔ octetPacket kind payload = some (p, []) := by
  unfold parse
  rw [if_pos rfl]
  split
  · rename_i q heq
    rw [heq]
    simp
  · rename_i hnot
    refine ⟨fun h => (by cases h), fun h => absurd h (hnot p)⟩

/-- Only well-formed packets are read. -/
theorem parse_wellFormed (h : parse payload kind octetAligned = some p) : p.WellFormed kind := by
  cases octetAligned with
  | true => exact (takes_octetPacket kind).ensures _ _ _ (parse_octets_eq_some.mp h)
  | false =>
    rw [parse_bits] at h
    obtain ⟨⟨p', r⟩, hread, rfl⟩ := Option.map_eq_some_iff.mp h
    exact takes_packetOfBits.ensures _ _ _ hread

/-- The encoding of a packet in a packing. -/
def Packet.encoding (kind : AmrKind) (p : Packet) : Bool → Bytes
  | true => p.octets
  | false => pack (p.bitString kind)

theorem build_eq (h : p.WellFormed kind) :
    build p kind octetAligned = some (p.encoding kind octetAligned) := by
  cases octetAligned with
  | true => exact build_octets h
  | false => exact build_bits h

theorem entries_length : ((follows frames).flatMap entryBits).length = 6 * frames.length := by
  have hentry : ∀ x ∈ follows frames, (entryBits x).length = 6 := fun x _ => by simp [entryBits]
  rw [length_flatMap, map_congr_left hentry, map_const', sum_replicate_nat,
    follows, length_mapIdx, mul_comm]

/-- A bandwidth-efficient encoding gives its reader enough fuel. -/
theorem frames_length_le (kind : AmrKind) (p : Packet) :
    p.frames.length ≤ (p.bitString kind).length := by
  rw [Packet.bitString, length_append, length_append, entries_length]
  omega

theorem parse_encoding (h : p.WellFormed kind) :
    parse (p.encoding kind octetAligned) kind octetAligned = some p := by
  cases octetAligned with
  | true =>
    refine parse_octets_eq_some.mpr ?_
    have hread := reads_octetPacket h []
    rwa [append_nil] at hread
  | false =>
    have hpacks := packs_pack (p.bitString kind)
    have hfuel : p.frames.length ≤ 8 * (pack (p.bitString kind)).length := by
      have := frames_length_le kind p
      rw [hpacks.length_eq]
      omega
    rw [parse_bits, Packet.encoding, hpacks.pad, reads_packetOfBits h hfuel]
    rfl

/-- No part of an encoding is read as anything. -/
theorem parse_truncated (h : p.WellFormed kind) {l : Bytes}
    (hl : l <+: p.encoding kind octetAligned) (hne : l ≠ p.encoding kind octetAligned) :
    parse l kind octetAligned = none := by
  cases octetAligned with
  | true =>
    have hnone := (reads_octetPacket h).truncated (takes_octetPacket kind).extends hl hne
    cases hparse : parse l kind true with
    | none => rfl
    | some q =>
      rw [parse_octets_eq_some, hnone] at hparse
      cases hparse
  | false =>
    -- Fewer bytes are fewer bits than the encoding has before padding.
    have hpacks := packs_pack (p.bitString kind)
    have hlt : (bits l).length < (p.bitString kind).length := by
      have hlen := lt_of_le_of_ne hl.length_le fun heq => hne (hl.eq_of_length heq)
      change l.length < (pack (p.bitString kind)).length at hlen
      rw [hpacks.length_eq] at hlen
      rw [bits_length]
      omega
    have hprefix : bits l <+: p.bitString kind :=
      prefix_of_prefix_length_le (bits_mono hl) hpacks.isPrefix (le_of_lt hlt)
    have hnone := (reads_packetOfBits h (frames_length_le kind p)).truncated
      takes_packetOfBits.extends hprefix fun heq => absurd hlt (by rw [heq]; exact lt_irrefl _)
    rw [parse_bits, packetOfBits_fuel (by rw [bits_length]) (le_of_lt hlt), hnone]
    rfl

theorem repack_eq :
    repack payload kind octetAligned (!octetAligned) =
      (parse payload kind octetAligned).map (Packet.encoding kind · (!octetAligned)) := by
  unfold repack
  rw [if_neg (by cases octetAligned <;> decide)]
  cases h : parse payload kind octetAligned with
  | none => rfl
  | some p => exact build_eq (parse_wellFormed h)

theorem repack_encoding (h : p.WellFormed kind) :
    repack (p.encoding kind octetAligned) kind octetAligned (!octetAligned) =
      some (p.encoding kind (!octetAligned)) := by
  rw [repack_eq, parse_encoding h]
  rfl

/-- A repacked payload reads as the same packet. -/
theorem parse_repack {q : Bytes} {src dst : Bool} (h : repack payload kind src dst = some q) :
    parse q kind dst = parse payload kind src := by
  by_cases hsame : src = dst
  · rw [repack, if_pos hsame] at h
    cases h
    rw [hsame]
  obtain rfl : dst = !src := (Bool.eq_not_of_ne (Ne.symm hsame))
  rw [repack_eq] at h
  obtain ⟨p, hp, rfl⟩ := Option.map_eq_some_iff.mp h
  rw [parse_encoding (parse_wellFormed hp), hp]

/-! ## The mode request -/

theorem shl_or_low_toNat (hc : c.toNat < 2 ^ 4) :
    (c <<< 4 ||| b &&& 0x0f).toNat = c.toNat * 2 ^ 4 + b.toNat % 2 ^ 4 := by
  have hor := shiftLeft_add_eq_or_of_lt (mod_lt b.toNat (show 0 < 2 ^ 4 by decide)) c.toNat
  rw [UInt8.toNat_or, UInt8.toNat_and, UInt8.toNat_shiftLeft,
    show (4 : UInt8).toNat % 8 = 4 from rfl, show (0x0f : UInt8).toNat = 2 ^ 4 - 1 from rfl,
    and_two_pow_sub_one_eq_mod, mod_eq_of_lt (by rw [shiftLeft_eq]; omega), ← hor, shiftLeft_eq]

theorem byteBits_setCmr (hc : c.toNat < 2 ^ 4) :
    byteBits (c <<< 4 ||| b &&& 0x0f) = low c.toNat 4 ++ (byteBits b).drop 4 := by
  have hlow : b.toNat / 2 ^ 0 % 2 ^ 4 = value ((byteBits b).drop 4) :=
    value_byteBits b ▸ value_field (m := 4) (n := 4) (le_refl 8)
  apply value_injective (by simp)
  rw [value_byteBits, shl_or_low_toNat hc, value_append, value_low, ← hlow, mod_eq_of_lt hc,
    pow_zero, Nat.div_one]
  rfl

theorem readNumber_append {v : UInt8} (hv : v.toNat < 2 ^ 4) (l : List Bool) :
    readNumber 4 (low v.toNat 4 ++ l) = some (v, l) :=
  reads_readNumber hv l

/-- Setting the mode request of a payload sets that of the packet it reads as. -/
theorem parse_setCmr (h : parse payload kind octetAligned = some p) (hc : c.toNat < 2 ^ 4) :
    cmrOf payload = some p.cmr ∧
    parse (setCmr payload c) kind octetAligned = some { p with cmr := c } := by
  cases octetAligned with
  | true =>
    cases payload with
    | nil => cases h
    | cons b rest =>
      have hcmr : (c <<< 4 ||| b &&& 0x0f) >>> 4 = c := by
        apply UInt8.toNat_inj.mp
        rw [UInt8.toNat_shiftRight, shl_or_low_toNat hc, shiftRight_eq_div_pow]
        change (c.toNat * 2 ^ 4 + b.toNat % 2 ^ 4) / 2 ^ 4 = c.toNat
        omega
      rw [parse_octets_eq_some, octetPacket_cons] at h
      obtain ⟨⟨toc, l⟩, htoc, hmap⟩ := Option.bind_eq_some_iff.mp h
      obtain ⟨⟨frames, r⟩, hframes, heq⟩ := Option.map_eq_some_iff.mp hmap
      cases heq
      refine ⟨rfl, ?_⟩
      rw [parse_octets_eq_some, setCmr, octetPacket_cons, hcmr, htoc, Option.bind_some, hframes]
      rfl
  | false =>
    rw [parse_bits] at h
    obtain ⟨⟨_, r⟩, hread, rfl⟩ := Option.map_eq_some_iff.mp h
    obtain ⟨cmr, l, hcmr, hread⟩ := bind_eq_some hread
    cases payload with
    | nil => cases hcmr
    | cons b rest =>
      obtain ⟨toc, l₂, htoc, hread⟩ := bind_eq_some hread
      obtain ⟨frames, l₃, hframes, hpure⟩ := bind_eq_some hread
      cases hpure
      -- The byte has the mode request that it is set to when nothing changes.
      have hsame : (b >>> 4) <<< 4 ||| b &&& 0x0f = b := by
        apply UInt8.toNat_inj.mp
        rw [shl_or_low_toNat (high_lt b), UInt8.toNat_shiftRight, shiftRight_eq_div_pow]
        exact div_add_mod' b.toNat (2 ^ 4)
      have hnibble := byteBits_setCmr (b := b) (high_lt b)
      rw [hsame] at hnibble
      rw [bits_cons, hnibble, append_assoc, readNumber_append (high_lt b)] at hcmr
      cases hcmr
      refine ⟨rfl, ?_⟩
      rw [parse_bits, setCmr, bits_cons, byteBits_setCmr hc, append_assoc, packetOfBits,
        bind_apply, readNumber_append hc, Option.bind_some, bind_apply]
      simp only [length_cons] at htoc ⊢
      rw [htoc, Option.bind_some, bind_apply, hframes]
      rfl

/-! ## The mode scan -/

/-- The speech types among the entries. -/
def modesOf (kind : AmrKind) (toc : List (UInt8 × UInt8)) : List UInt8 :=
  (toc.map Prod.fst).filter (· ≤ speechMax kind)

theorem modesOf_cons (kind : AmrKind) (e : UInt8 × UInt8) (toc : List (UInt8 × UInt8))
    (modes : List UInt8) :
    (if e.1 ≤ speechMax kind then modes ++ [e.1] else modes) ++ modesOf kind toc =
      modes ++ modesOf kind (e :: toc) := by
  rw [modesOf, modesOf, map_cons]
  split <;> simp_all

theorem le_speechMax_iff (ft : UInt8) : ft ≤ speechMax kind ↔ (speechBits kind ft).isSome := by
  rw [le_iff_toNat_le]
  cases kind <;> simp [speechMax, speechBits, Nat.lt_succ_iff]

theorem speechModesLoop_octets (payload : Bytes) (kind : AmrKind)
    (hfuel : (payload.drop (1 + k)).length < fuel) (modes : List UInt8) :
    speechModesLoop payload kind true fuel k modes =
      .ok ((octetToc (payload.drop (1 + k))).map fun t => modes ++ modesOf kind t.1) := by
  induction fuel generalizing k modes with
  | zero => exact absurd hfuel (not_lt_zero _)
  | succ fuel ih =>
    have hhead : payload[1 + k]? = (payload.drop (1 + k)).head? := head?_drop.symm
    simp only [speechModesLoop, tocEntry, if_true]
    cases hrest : payload.drop (1 + k) with
    | nil =>
      rw [hhead, hrest]
      rfl
    | cons entry rest =>
      have hnext : payload.drop (1 + (k + 1)) = rest := by
        rw [← add_assoc, ← tail_drop, hrest]
        rfl
      rw [hrest, length_cons] at hfuel
      have hrec := ih (by rw [hnext]; omega)
      rw [hhead, hrest, octetToc]
      by_cases hlast : entry &&& 0x80 = 0
      · simp only [head?_cons, Option.map_some, hlast, if_true, ne_eq, not_true_eq_false,
          decide_false, bind, Except.bind]
        rw [← modesOf_cons]
        simp [modesOf]
      · simp only [head?_cons, Option.map_some, hlast, if_false, ne_eq, not_false_eq_true,
          decide_true, bind, Except.bind, if_true]
        rw [hrec, hnext, Option.map_map]
        congr 2
        funext t
        exact modesOf_cons kind (entry >>> 3 &&& 0x0f, entry >>> 2 &&& 1) t.1 modes

/-- The six bits a 16-bit window is shifted down to. -/
theorem window_toNat (hi lo : UInt8) {m : Nat} (hm : m ≤ 10) :
    ((hi.toUInt16 <<< 8 ||| lo.toUInt16) >>> UInt16.ofNat (10 - m) &&& 0x3f).toNat =
      value (((byteBits hi ++ byteBits lo).drop m).take 6) := by
  have hword : (hi.toUInt16 <<< 8 ||| lo.toUInt16).toNat = value (byteBits hi ++ byteBits lo) := by
    have hhi := hi.toNat_lt
    have hor := shiftLeft_add_eq_or_of_lt (show lo.toNat < 2 ^ 8 from lo.toNat_lt) hi.toNat
    rw [UInt16.toNat_or, UInt16.toNat_shiftLeft, toNat_toUInt16, toNat_toUInt16,
      value_append, value_byteBits, value_byteBits, byteBits_length,
      show (8 : UInt16).toNat % 16 = 8 from rfl, mod_eq_of_lt (by rw [shiftLeft_eq]; omega),
      ← hor, shiftLeft_eq]
  have hlen : (byteBits hi ++ byteBits lo).length = 16 := rfl
  have hfield := value_field (show m + 6 ≤ (byteBits hi ++ byteBits lo).length by omega)
  rw [hlen, show 16 - (m + 6) = 10 - m by omega] at hfield
  rw [UInt16.toNat_and, UInt16.toNat_shiftRight, hword, UInt16.toNat_ofNat',
    mod_eq_of_lt (show 10 - m < 2 ^ 16 by omega), mod_eq_of_lt (show 10 - m < 16 by omega),
    shiftRight_eq_div_pow, show (0x3f : UInt16).toNat = 2 ^ 6 - 1 from rfl,
    and_two_pow_sub_one_eq_mod, hfield]

/-- The two bytes at an entry hold its six bits, also at the end of the payload. -/
theorem window_bits {bit : Nat} (h : bit + 6 ≤ 8 * payload.length) {hi : UInt8}
    (hhi : payload[bit / 8]? = some hi) :
    ((byteBits hi ++ byteBits (payload[bit / 8 + 1]?.getD 0)).drop (bit % 8)).take 6 =
      ((bits payload).drop bit).take 6 := by
  have hdrop : (bits payload).drop bit =
      (byteBits hi ++ bits (payload.drop (bit / 8 + 1))).drop (bit % 8) := by
    obtain ⟨hlt, rfl⟩ := List.getElem?_eq_some_iff.mp hhi
    conv_lhs => rw [← div_add_mod bit 8, ← drop_drop, ← bits_drop,
      drop_eq_getElem_cons hlt, bits_cons]
  rw [hdrop]
  cases hrest : payload.drop (bit / 8 + 1) with
  | nil =>
    have hend : payload.length ≤ bit / 8 + 1 := drop_eq_nil_iff.mp hrest
    rw [bits_nil, append_nil, drop_append_of_le_length (by rw [byteBits_length]; omega),
      take_append_of_le_length (by rw [length_drop, byteBits_length]; omega)]
  | cons lo rest =>
    have hlo : payload[bit / 8 + 1]? = some lo := by
      rw [← head?_drop, hrest]
      rfl
    have hlen : (byteBits hi ++ byteBits lo).length = 16 := rfl
    rw [hlo, Option.getD_some, bits_cons, ← append_assoc,
      drop_append_of_le_length (show bit % 8 ≤ (byteBits hi ++ byteBits lo).length by omega),
      take_append_of_le_length (by rw [length_drop]; omega)]

theorem tocEntry_short (h : ((bits payload).drop (4 + 6 * k)).length < 6) :
    tocEntry payload false k = .ok none := by
  rw [length_drop, bits_length] at h
  unfold tocEntry
  rw [if_neg (by decide), if_pos (by omega)]

theorem tocEntry_bits {f a b c d q : Bool} {rest : List Bool}
    (h : (bits payload).drop (4 + 6 * k) = f :: a :: b :: c :: d :: q :: rest) :
    tocEntry payload false k = .ok (some (f, UInt8.ofNat (value [a, b, c, d]))) := by
  have hlen := congrArg length h
  simp only [length_drop, bits_length, length_cons] at hlen
  have hlt : (4 + 6 * k) / 8 < payload.length := by omega
  have hhi := getElem?_eq_getElem hlt
  have hwindow := window_bits (show 4 + 6 * k + 6 ≤ 8 * payload.length by omega) hhi
  rw [h] at hwindow
  have hsix := window_toNat payload[(4 + 6 * k) / 8] (payload[(4 + 6 * k) / 8 + 1]?.getD 0)
    (show (4 + 6 * k) % 8 ≤ 10 by omega)
  rw [hwindow] at hsix
  have hfields : ∀ f a b c d q : Bool,
      decide (UInt16.ofNat (value [f, a, b, c, d, q]) &&& 0x20 ≠ 0) = f ∧
      (UInt16.ofNat (value [f, a, b, c, d, q]) >>> 1 &&& 0x0f).toUInt8 =
        ofNat (value [a, b, c, d]) := by
    decide
  obtain ⟨hflag, htype⟩ := hfields f a b c d q
  have heq := UInt16.ofNat_toNat.symm.trans (congrArg UInt16.ofNat hsix)
  unfold tocEntry
  rw [if_neg (by decide), if_neg (by omega), Bytes.index_ok hhi]
  simp only [bind, Except.bind, heq]
  simp only [take_succ_cons, take_zero, htype]
  exact congrArg (fun flag => Except.ok (some (flag, _))) hflag

theorem tocOfBits_cons (fuel : Nat) (f a b c d q : Bool) (rest : List Bool) :
    tocOfBits (fuel + 1) (f :: a :: b :: c :: d :: q :: rest) =
      (let e := (ofNat (value [a, b, c, d]), ofNat (value [q]))
       if f then (tocOfBits fuel rest).map fun x => (e :: x.1, x.2) else some ([e], rest)) := by
  have hone : ∀ (b : Bool) (l : List Bool),
      readNumber 1 (b :: l) = some (ofNat (value [b]), l) := fun b l =>
    (Reads.take (rfl : [b].length = 1)).bind_pure (fun l => ofNat (value l)) l
  have hfour : readNumber 4 (a :: b :: c :: d :: q :: rest) =
      some (ofNat (value [a, b, c, d]), q :: rest) :=
    (Reads.take (rfl : [a, b, c, d].length = 4)).bind_pure (fun l => ofNat (value l)) (q :: rest)
  rw [tocOfBits, bind_apply, hone, Option.bind_some, bind_apply, hfour, Option.bind_some,
    bind_apply, hone, Option.bind_some]
  cases f with
  | false => rfl
  | true =>
    rw [if_neg (show ¬ ofNat (value [true]) = 0 by decide), bind_apply]
    cases tocOfBits fuel rest <;> rfl

theorem speechModesLoop_bits (payload : Bytes) (kind : AmrKind)
    (hfuel : ((bits payload).drop (4 + 6 * k)).length < fuel) (modes : List UInt8) :
    speechModesLoop payload kind false fuel k modes =
      .ok ((tocOfBits fuel ((bits payload).drop (4 + 6 * k))).map
        fun t => modes ++ modesOf kind t.1) := by
  induction fuel generalizing k modes with
  | zero => exact absurd hfuel (not_lt_zero _)
  | succ fuel ih =>
    rw [speechModesLoop]
    match hrest : (bits payload).drop (4 + 6 * k) with
    | f :: a :: b :: c :: d :: q :: rest =>
      have hnext : (bits payload).drop (4 + 6 * (k + 1)) = rest := by
        rw [mul_succ, ← add_assoc, ← drop_drop, hrest]
        rfl
      have hrec := ih (by rw [hnext]; rw [hrest] at hfuel; simp at hfuel; omega)
      rw [tocEntry_bits hrest, tocOfBits_cons]
      cases f with
      | false =>
        simp only [bind, Except.bind, Bool.false_eq_true, if_false, Option.map_some]
        rw [← modesOf_cons]
        simp [modesOf]
      | true =>
        simp only [bind, Except.bind, if_true, hrec, hnext, Option.map_map]
        congr 2
        funext t
        exact modesOf_cons kind (_, ofNat (value [q])) t.1 modes
    | [] | [_] | [_, _] | [_, _, _] | [_, _, _, _] | [_, _, _, _, _] =>
      rw [tocEntry_short (by simp [hrest])]
      rfl

/-- The scan is total, and on a payload that parses it names the speech types of
the frames. -/
theorem speechModes_total (payload : Bytes) (kind : AmrKind) (octetAligned : Bool) :
    ∃ r, speechModes payload kind octetAligned = .ok r := by
  cases octetAligned with
  | true => exact ⟨_, speechModesLoop_octets payload kind (by rw [length_drop]; omega) []⟩
  | false =>
    exact ⟨_, speechModesLoop_bits payload kind (by rw [length_drop, bits_length]; omega) []⟩

theorem modesOf_keys (kind : AmrKind) (frames : List Frame) :
    modesOf kind (frames.map Frame.key) =
      (frames.map Frame.frameType).filter fun ft => (speechBits kind ft).isSome := by
  rw [modesOf, map_map]
  refine filter_congr fun ft _ => ?_
  rw [Bool.eq_iff_iff, decide_eq_true_iff]
  exact le_speechMax_iff ft

theorem speechModes_eq (h : parse payload kind octetAligned = some p) :
    speechModes payload kind octetAligned =
      .ok (some ((p.frames.map Frame.frameType).filter fun ft => (speechBits kind ft).isSome)) := by
  cases octetAligned with
  | true =>
    obtain ⟨first, l₁, hfirst, hread⟩ := bind_eq_some (parse_octets_eq_some.mp h)
    obtain ⟨toc, l₂, htoc, hread⟩ := bind_eq_some hread
    obtain ⟨frames, l₃, hframes, hpure⟩ := bind_eq_some hread
    cases hpure
    have hkeys := keys_of_forall₂ ((Takes.mapM (takes_octetFrame kind) _).ensures _ _ _ hframes)
    obtain ⟨_, rfl, -, rfl⟩ := Takes.next _ _ _ hfirst
    have hfuel : (([first] ++ l₁).drop (1 + 0)).length < 8 * ([first] ++ l₁).length + 1 := by
      rw [length_drop]
      omega
    have hloop := speechModesLoop_octets ([first] ++ l₁) kind hfuel []
    rw [show ([first] ++ l₁).drop (1 + 0) = l₁ from rfl, htoc, Option.map_some, ← hkeys,
      modesOf_keys] at hloop
    exact hloop
  | false =>
    rw [parse_bits] at h
    obtain ⟨⟨_, r⟩, hread, rfl⟩ := Option.map_eq_some_iff.mp h
    obtain ⟨cmr, l₁, hcmr, hread⟩ := bind_eq_some hread
    obtain ⟨toc, l₂, htoc, hread⟩ := bind_eq_some hread
    obtain ⟨frames, l₃, hframes, hpure⟩ := bind_eq_some hread
    cases hpure
    have hkeys := keys_of_forall₂ ((Takes.mapM (takes_frameOfBits kind) _).ensures _ _ _ hframes)
    have hlen := readNumber_length hcmr
    rw [bits_length] at hlen
    obtain ⟨_, hbits, -, rfl, -⟩ := takes_readNumber (by decide) _ _ _ hcmr
    have hdrop : (bits payload).drop (4 + 6 * 0) = l₁ := by
      rw [hbits, drop_left' (low_length _ _)]
    have hfuel : ((bits payload).drop (4 + 6 * 0)).length < 8 * payload.length + 1 := by
      rw [length_drop, bits_length]
      omega
    have hloop := speechModesLoop_bits payload kind hfuel []
    rw [hdrop, tocOfBits_fuel (show l₁.length ≤ 8 * payload.length + 1 by omega)
      (show l₁.length ≤ 8 * payload.length by omega), htoc, Option.map_some, ← hkeys,
      modesOf_keys] at hloop
    exact hloop

/-- **Repacking loses nothing.** On well-formed packets the two packings convert
into each other; whatever is repacked reads as the same packet on both sides; no
proper prefix of an encoding is accepted; and the mode scan, which never indexes
out of range, agrees with the parser. -/
theorem repack_loses_nothing (kind : AmrKind) :
    (∀ p : Packet, p.WellFormed kind → ∃ a b,
      build p kind true = some a ∧ build p kind false = some b ∧
      repack a kind true false = some b ∧ repack b kind false true = some a) ∧
    (∀ payload q octetAligned, repack payload kind octetAligned (!octetAligned) = some q →
      ∃ p, parse payload kind octetAligned = some p ∧ parse q kind (!octetAligned) = some p) ∧
    (∀ p : Packet, p.WellFormed kind → ∀ octetAligned q, build p kind octetAligned = some q →
      ∀ l, l <+: q → l ≠ q → repack l kind octetAligned (!octetAligned) = none) ∧
    (∀ payload octetAligned p, parse payload kind octetAligned = some p →
      speechModes payload kind octetAligned =
        .ok (some ((p.frames.map Frame.frameType).filter fun ft => (speechBits kind ft).isSome))) ∧
    (∀ payload octetAligned, ∃ r, speechModes payload kind octetAligned = .ok r) := by
  refine ⟨fun p h => ?_, fun payload q octetAligned hq => ?_, fun p h octetAligned q hq l hl hne => ?_,
    fun payload octetAligned p h => speechModes_eq h, fun payload octetAligned =>
      speechModes_total payload kind octetAligned⟩
  · exact ⟨_, _, build_octets h, build_bits h, repack_encoding h, repack_encoding h⟩
  · rw [repack_eq] at hq
    obtain ⟨p, hp, rfl⟩ := Option.map_eq_some_iff.mp hq
    exact ⟨p, hp, parse_encoding (parse_wellFormed hp)⟩
  · rw [build_eq h] at hq
    cases hq
    rw [repack_eq, parse_truncated h hl hne]
    rfl

end AmrForward.Repack
