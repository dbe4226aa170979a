-- SUMMARY: The AMR forwarder sends what it received, relabelled, repacked and within its guard.
import Mathlib.Data.Nat.Bitwise
import GsmSipBridge.AmrForward.Packing

/-!
# Transparency of the AMR forwarder

Guard and translation are specified apart: `Guarded` relates the packet before
and after the guard, `Translated` the one before and after translation. A pass
is their composition, and the frames it carries are followed through it with the
results on the two packings.
-/

namespace AmrForward.Relay

open Ims.AmrRtp Ims.Rtp Repack

variable {g : ModeGuard}

/-! ## The mode set -/

theorem ModeGuard.allows_iff (g : ModeGuard) (m : UInt8) :
    g.allows m = true ↔ m.toNat < 16 ∧ g.modes.toNat.testBit m.toNat = true := by
  have hm : m < 16 ↔ m.toNat < 16 := UInt8.lt_iff_toNat_lt
  simp only [allows, Bool.and_eq_true, decide_eq_true_iff, hm, bne_iff_ne, ne_eq]
  refine and_congr_right fun hlt => ?_
  have hone : (1 <<< m.toUInt16 : UInt16).toNat = 2 ^ m.toNat := by
    rw [UInt16.toNat_shiftLeft, UInt8.toNat_toUInt16, Nat.mod_eq_of_lt hlt, UInt16.toNat_one,
      Nat.one_shiftLeft, Nat.mod_eq_of_lt (Nat.pow_lt_pow_right (by decide) hlt)]
  rw [← UInt16.toNat_inj, UInt16.toNat_and, hone, Nat.and_two_pow]
  cases g.modes.toNat.testBit m.toNat with
  | false | true => simp

/-- The highest mode of a non-empty set is in it and nothing in it is higher. -/
theorem ModeGuard.highest_isGreatest (h : g.modes ≠ 0) :
    IsGreatest {m : UInt8 | g.allows m = true} g.highest := by
  have hne : g.modes.toNat ≠ 0 := fun hz => h (UInt16.toNat_inj.mp hz)
  have hlog : g.modes.toNat.log2 < 16 := (Nat.log2_lt hne).mpr g.modes.toNat_lt
  have hhigh : g.highest.toNat = g.modes.toNat.log2 := by
    rw [highest, leadingZeros, if_neg h, UInt8.toNat_ofNat']
    omega
  constructor
  · exact (g.allows_iff _).mpr ⟨by omega, by rw [hhigh]; exact Nat.testBit_log2 hne⟩
  · intro m hm
    obtain ⟨-, hbit⟩ := (g.allows_iff m).mp hm
    rw [UInt8.le_iff_toNat_le, hhigh]
    by_contra hlt
    rw [Nat.testBit_lt_two_pow ((Nat.log2_lt hne).mp (Nat.not_le.mp hlt))] at hbit
    cases hbit

theorem ModeGuard.highest_lt (h : g.modes ≠ 0) : g.highest.toNat < 2 ^ 4 :=
  ((g.allows_iff _).mp (highest_isGreatest h).1).1

/-! ## The guard -/

/-- What the guard lets through. -/
structure Guarded (pump : Pump) (p p' : ParsedPacket) : Prop where
  header : p' = { p with payload := p'.payload }
  other : p.payloadType ≠ pump.src.payloadType → p'.payload = p.payload
  kept : (∀ g, pump.guard = some g → pump.direction = .aToB →
    ∀ c, cmrOf p.payload = some c → g.allows c = true) → p'.payload = p.payload
  clamped : ∀ g c, pump.guard = some g → pump.direction = .aToB →
    p.payloadType = pump.src.payloadType → cmrOf p.payload = some c → g.allows c = false →
    p'.payload = setCmr p.payload g.highest
  policed : ∀ g, pump.guard = some g → pump.direction = .bToA → g.drop = true →
    p.payloadType = pump.src.payloadType →
    ∀ modes, speechModes p.payload pump.kind pump.src.octetAligned = .ok (some modes) →
    ∀ m ∈ modes, g.allows m = true

variable {p : ParsedPacket} {buf : Bytes} {pump : Pump}

/-- Setting the mode request in the buffer sets it in the payload. -/
theorem parsePacket_setCmr (h : parsePacket buf = some p) {first : UInt8} {rest : Bytes}
    (hpay : p.payload = first :: rest) (c : UInt8) : let start := (payloadStart buf).getD 0
    let buf' := buf.take start ++ setCmr (buf.drop start) c
    parsePacket buf' = some { p with payload := setCmr p.payload c } ∧
    Bytes.byteAt buf' 1 = buf.byteAt 1 := by
  cases laid_of_parsePacket h with
  | mk head marker seq timestamp ssrc csrc ext payload pad version csrcs extension padding =>
    cases hpay
    intro start buf'
    have hbuf : buf' = header head marker seq timestamp ssrc ++
        (csrc ++ (ext ++ (setCmr (first :: rest) c ++ pad))) := by
      simp only [buf', start, payloadStart_laid csrcs extension, Option.getD_some]
      rw [header_append_assoc, List.take_left, List.drop_left, header_append_assoc]
      rfl
    rw [hbuf]
    exact ⟨parsePacket_laid (.mk _ _ _ _ _ _ _ _ _ version csrcs extension padding), rfl⟩

/-- A packet that is neither clamped nor dropped is let through as it is. -/
theorem Guarded.same
    (hclamp : ∀ g, pump.guard = some g → pump.direction = .aToB →
      p.payloadType = pump.src.payloadType → ∀ c, cmrOf p.payload = some c → g.allows c = true)
    (hpolice : ∀ g, pump.guard = some g → pump.direction = .bToA → g.drop = true →
      p.payloadType = pump.src.payloadType →
      ∀ modes, speechModes p.payload pump.kind pump.src.octetAligned = .ok (some modes) →
      ∀ m ∈ modes, g.allows m = true) :
    Guarded pump p p where
  header := rfl
  other := fun _ => rfl
  kept := fun _ => rfl
  clamped := by
    intro g c hg hdir hpt hc hnot
    rw [hclamp g hg hdir hpt c hc] at hnot
    cases hnot
  policed := hpolice

/-- What `applyGuard_spec` says of a result. -/
def Passes (pump : Pump) (buf : Bytes) (p : ParsedPacket)
    (r : Except Bytes.Fault (Bool × Bytes × GuardStats)) : Prop :=
  ∃ goesOn buf' stats', r = .ok (goesOn, buf', stats') ∧
    (goesOn = true → ∃ p', parsePacket buf' = some p' ∧ Bytes.byteAt buf' 1 = buf.byteAt 1 ∧
      Guarded pump p p')

theorem passes_same (h : parsePacket buf = some p) (stats : GuardStats) (hsame : Guarded pump p p) :
    Passes pump buf p (.ok (true, buf, stats)) :=
  ⟨true, buf, stats, rfl, fun _ => ⟨p, h, rfl, hsame⟩⟩

section Guard

variable (kind : AmrKind) (src dst : Leg) (g : ModeGuard) (stats : GuardStats)
  (h : parsePacket buf = some p) (hpt : p.payloadType = src.payloadType)

include h hpt

/-- From the carrier: the mode request is clamped. -/
theorem applyGuard_aToB :
    Passes ⟨kind, src, dst, .aToB, some g⟩ buf p
      (Pump.applyGuard ⟨kind, src, dst, .aToB, some g⟩ stats buf) := by
  simp only [Pump.applyGuard, h]
  rw [if_neg (not_not.mpr hpt), if_pos trivial]
  cases hpay : p.payload with
  | nil =>
    refine passes_same h stats (.same (fun _ _ _ _ c hc => ?_) fun _ _ hd => nomatch hd)
    rw [hpay] at hc
    cases hc
  | cons first rest =>
    have hcmr : cmrOf p.payload = some (first >>> 4) := by rw [hpay]; rfl
    cases hallow : g.allows (first >>> 4) with
    | true =>
      rw [if_neg (by simp [cmrOf, hallow])]
      refine passes_same h stats (.same ?_ fun _ _ hd => nomatch hd)
      rintro _ ⟨⟩ - - c hc
      cases hcmr.symm.trans hc
      exact hallow
    | false =>
      obtain ⟨hparse, hbyte⟩ := parsePacket_setCmr h hpay g.highest
      rw [if_pos (by simp [cmrOf, hallow])]
      refine ⟨true, _, _, rfl, fun _ => ⟨_, hparse, hbyte, rfl, fun hne => absurd hpt hne, ?_, ?_,
        fun _ _ hd => nomatch hd⟩⟩
      · exact fun hall => nomatch hallow.symm.trans (hall g rfl rfl _ hcmr)
      · rintro _ c ⟨⟩ - - - -
        rfl

/-- From the client: packets with a speech mode outside the set are counted and
dropped when the guard says so. -/
theorem applyGuard_bToA :
    Passes ⟨kind, src, dst, .bToA, some g⟩ buf p
      (Pump.applyGuard ⟨kind, src, dst, .bToA, some g⟩ stats buf) := by
  obtain ⟨r, hmodes⟩ := speechModes_total p.payload kind src.octetAligned
  simp only [Pump.applyGuard, h]
  rw [if_neg (not_not.mpr hpt), hmodes]
  cases r with
  | none =>
    refine passes_same h stats (.same (fun _ _ hd => nomatch hd) fun _ _ _ _ _ modes hm => ?_)
    cases hmodes.symm.trans hm
  | some modes =>
    simp only [bind, Except.bind]
    by_cases hbad : (modes.filter fun m => !g.allows m).length = 0
    · rw [if_pos hbad]
      refine passes_same h _ (.same (fun _ _ hd => nomatch hd) ?_)
      rintro _ ⟨⟩ - - - modes' hm m hmem
      cases hmodes.symm.trans hm
      simpa using List.filter_eq_nil_iff.mp (List.length_eq_zero_iff.mp hbad) m hmem
    · rw [if_neg hbad]
      cases hdrop : g.drop with
      | true => exact ⟨false, _, _, rfl, fun hgo => nomatch hgo⟩
      | false =>
        refine passes_same h _ (.same (fun _ _ hd => nomatch hd) ?_)
        rintro _ ⟨⟩ - hd
        cases hdrop.symm.trans hd

end Guard

/-- The guard never panics, and lets through only what `Guarded` describes. -/
theorem applyGuard_spec (pump : Pump) (stats : GuardStats) (h : parsePacket buf = some p) :
    Passes pump buf p (pump.applyGuard stats buf) := by
  obtain ⟨kind, src, dst, direction, guard⟩ := pump
  cases guard with
  | none => exact passes_same h stats (.same (fun _ hg => nomatch hg) fun _ hg => nomatch hg)
  | some g =>
    by_cases hpt : p.payloadType = src.payloadType
    · cases direction with
      | aToB => exact applyGuard_aToB kind src dst g stats h hpt
      | bToA => exact applyGuard_bToA kind src dst g stats h hpt
    simp only [Pump.applyGuard, h]
    rw [if_pos hpt]
    exact passes_same h stats (.same (fun _ _ _ heq => absurd heq hpt)
      fun _ _ _ _ heq => absurd heq hpt)

/-! ## The translation -/

/-- The relabelled byte has the old marker and the new payload type. -/
theorem relabel_fields (m d : UInt8) :
    (m &&& 0x80 ||| d &&& 0x7f) &&& 0x7f = d &&& 0x7f ∧
    (m &&& 0x80 ||| d &&& 0x7f) &&& 0x80 = m &&& 0x80 := by
  constructor
  all_goals
    apply UInt8.toNat_inj.mp
    simp [Nat.and_or_distrib_right, Nat.and_assoc]

/-- What a translated packet keeps. -/
structure Translated (pump : Pump) (p q : ParsedPacket) : Prop where
  seq : q.seq = p.seq
  timestamp : q.timestamp = p.timestamp
  ssrc : q.ssrc = p.ssrc
  known : pump.src.dtmfPayloadType = some p.payloadType ∨ p.payloadType = pump.src.payloadType
  event : pump.src.dtmfPayloadType = some p.payloadType →
    (∃ d, pump.dst.dtmfPayloadType = some d ∧ q.payloadType = d &&& 0x7f) ∧ q.payload = p.payload
  audio : pump.src.dtmfPayloadType ≠ some p.payloadType →
    q.payloadType = pump.dst.payloadType &&& 0x7f ∧
    repack p.payload pump.kind pump.src.octetAligned pump.dst.octetAligned = some q.payload

theorem repack_same (payload : Bytes) (kind : AmrKind) {src dst : Bool} (h : src = dst) :
    repack payload kind src dst = some payload := by
  rw [repack, if_pos h]

theorem translate_spec (pump : Pump) (h : parsePacket buf = some p) :
    ∃ out, pump.translate buf = .ok out ∧ ∀ sent, out = some sent → ∃ q,
      parsePacket sent = some q ∧ Bytes.byteAt sent 1 &&& 0x80 = buf.byteAt 1 &&& 0x80 ∧
      Translated pump p q := by
  cases laid_of_parsePacket h with
  | mk head marker seq timestamp ssrc csrc ext payload pad version csrcs extension padding =>
    have hindex : Bytes.index (header head marker seq timestamp ssrc ++
        (csrc ++ (ext ++ (payload ++ pad)))) 1 = .ok marker := rfl
    have hrelabelled : ∀ b, parsePacket (List.set (header head marker seq timestamp ssrc ++
        (csrc ++ (ext ++ (payload ++ pad)))) 1 b) =
          some { seq, timestamp, ssrc, payloadType := b &&& 0x7f, payload } :=
      fun b => parsePacket_laid (.mk _ b _ _ _ _ _ _ _ version csrcs extension padding)
    unfold Pump.translate
    rw [hindex]
    simp only [bind, Except.bind]
    split
    · rename_i hevent
      cases hdst : pump.dst.dtmfPayloadType with
      | none => exact ⟨none, rfl, nofun⟩
      | some d =>
        obtain ⟨htype, hmarker⟩ := relabel_fields marker d
        refine ⟨_, rfl, fun sent hs => ?_⟩
        cases hs
        refine ⟨_, hrelabelled _, hmarker, rfl, rfl, rfl,
          .inl hevent.symm, fun _ => ⟨⟨d, hdst, htype⟩, rfl⟩, fun hne => absurd hevent.symm hne⟩
    · rename_i hevent
      have hnot : pump.src.dtmfPayloadType ≠ some (marker &&& 0x7f) := Ne.symm hevent
      split
      · exact ⟨none, rfl, nofun⟩
      rename_i haudio
      have haudio := not_not.mp haudio
      obtain ⟨htype, hmarker⟩ := relabel_fields marker pump.dst.payloadType
      split
      · rename_i hsame
        refine ⟨_, rfl, fun sent hs => ?_⟩
        cases hs
        exact ⟨_, hrelabelled _, hmarker, rfl, rfl, rfl, .inr haudio,
          fun hev => absurd hev hnot, fun _ => ⟨htype, repack_same _ _ hsame⟩⟩
      · simp only [h]
        cases hrepack : repack payload pump.kind pump.src.octetAligned pump.dst.octetAligned with
        | none => exact ⟨none, rfl, nofun⟩
        | some out =>
          refine ⟨_, rfl, fun sent hs => ?_⟩
          cases hs
          have hplain := parsePacket_laid (.mk 0x80 (marker &&& 0x80 ||| pump.dst.payloadType &&& 0x7f)
            seq timestamp ssrc [] [] out [] (by decide) rfl rfl rfl)
          rw [List.append_nil] at hplain
          exact ⟨_, hplain, hmarker, rfl, rfl, rfl, .inr haudio,
            fun hev => absurd hev hnot, fun _ => ⟨htype, hrepack⟩⟩

/-! ## A pass -/

/-- The mode request after a pass: from the carrier under a guard, one outside
the set becomes the highest mode of the set; any other is kept. -/
def Requests (pump : Pump) (cmr cmr' : UInt8) : Prop :=
  (∀ g, pump.guard = some g → pump.direction = .aToB → g.allows cmr = false →
    IsGreatest {m : UInt8 | g.allows m = true} cmr') ∧
  ((∀ g, pump.guard = some g → pump.direction = .aToB → g.allows cmr = true) → cmr' = cmr)

/-- `sent`, read as `q`, stands for `data`, read as `p`. -/
structure Forwarded (pump : Pump) (data : Bytes) (p : ParsedPacket) (sent : Bytes)
    (q : ParsedPacket) : Prop where
  seq : q.seq = p.seq
  timestamp : q.timestamp = p.timestamp
  ssrc : q.ssrc = p.ssrc
  marker : sent.byteAt 1 &&& 0x80 = data.byteAt 1 &&& 0x80
  eventType : (∃ d, pump.dst.dtmfPayloadType = some d ∧ q.payloadType = d &&& 0x7f) ↔
    pump.src.dtmfPayloadType = some p.payloadType
  event : pump.src.dtmfPayloadType = some p.payloadType → q.payload = p.payload
  audio : pump.src.dtmfPayloadType ≠ some p.payloadType →
    q.payloadType = pump.dst.payloadType &&& 0x7f ∧
    ∀ k, parse p.payload pump.kind pump.src.octetAligned = some k →
      ∃ k', parse q.payload pump.kind pump.dst.octetAligned = some k' ∧
        k'.frames = k.frames ∧ Requests pump k.cmr k'.cmr
  policed : ∀ g, pump.guard = some g → pump.direction = .bToA → g.drop = true →
    q.payloadType = pump.dst.payloadType &&& 0x7f →
    ∀ k, parse q.payload pump.kind pump.dst.octetAligned = some k →
      ∀ f ∈ k.frames, (speechBits pump.kind f.frameType).isSome = true →
        g.allows f.frameType = true

/-- The frames of a guarded payload, and its mode request. -/
theorem Guarded.parse {p' : ParsedPacket} (h : Guarded pump p p')
    (hguard : ∀ g, pump.guard = some g → g.modes ≠ 0) (hpt : p.payloadType = pump.src.payloadType)
    {k : Packet} (hk : parse p.payload pump.kind pump.src.octetAligned = some k) :
    ∃ k', Repack.parse p'.payload pump.kind pump.src.octetAligned = some k' ∧
      k'.frames = k.frames ∧ Requests pump k.cmr k'.cmr := by
  have hcmr : cmrOf p.payload = some k.cmr := (parse_setCmr hk (c := 0) (by decide)).1
  by_cases hall : ∀ g, pump.guard = some g → pump.direction = .aToB → g.allows k.cmr = true
  · have hsame : p'.payload = p.payload := h.kept fun g hg hdir c hc => by
      rw [hcmr] at hc
      cases hc
      exact hall g hg hdir
    refine ⟨k, hsame ▸ hk, rfl, fun g hg hdir hnot => ?_, fun _ => rfl⟩
    cases (hall g hg hdir).symm.trans hnot
  · push Not at hall
    obtain ⟨g, hg, hdir, hne⟩ := hall
    have hnot : g.allows k.cmr = false := Bool.eq_false_iff.mpr hne
    have hset := (parse_setCmr hk (g.highest_lt (hguard g hg))).2
    rw [← h.clamped g k.cmr hg hdir hpt hcmr hnot] at hset
    refine ⟨{ k with cmr := g.highest }, hset, rfl, fun g' hg' _ _ => ?_,
      fun hok => absurd (hok g hg hdir) hne⟩
    rw [hg] at hg'
    cases hg'
    exact g.highest_isGreatest (hguard g hg)

/-- **The forwarder is transparent.** A pass over a datagram that parses does
not panic; it drops an unknown payload type; and what it sends parses with the
same sequence number, timestamp, source and marker, with the destination's
payload type of the same role, and with the payload of an event or the frames of
an audio packet, within the guard. -/
theorem pass_transparent (pump : Pump) (stats : GuardStats) {data : Bytes} {p : ParsedPacket}
    (hparse : parsePacket data = some p)
    (hsrc : pump.src.dtmfPayloadType ≠ some pump.src.payloadType)
    (hdst : ∀ d, pump.dst.dtmfPayloadType = some d →
      d &&& 0x7f ≠ pump.dst.payloadType &&& 0x7f)
    (hguard : ∀ g, pump.guard = some g → g.modes ≠ 0) :
    ∃ out stats', pump.pass stats data = .ok (out, stats') ∧
      (p.payloadType ≠ pump.src.payloadType →
        pump.src.dtmfPayloadType ≠ some p.payloadType → out = none) ∧
      ∀ sent, out = some sent → ∃ q, parsePacket sent = some q ∧ Forwarded pump data p sent q := by
  obtain ⟨goesOn, buf, stats', happly, hgoes⟩ := applyGuard_spec pump stats hparse
  unfold Pump.pass
  rw [happly]
  cases goesOn with
  | false => exact ⟨none, stats', rfl, fun _ _ => rfl, nofun⟩
  | true =>
    obtain ⟨p', hbuf, hbyte, hg⟩ := hgoes rfl
    obtain ⟨payload, rfl⟩ : ∃ payload, p' = { p with payload } := ⟨_, hg.header⟩
    obtain ⟨out, htranslate, hsent⟩ := translate_spec pump hbuf
    refine ⟨out, stats', ?_, fun hne hnot => ?_, fun sent hs => ?_⟩
    · simp only [bind, Except.bind, if_true, htranslate]
    · cases out with
      | none => rfl
      | some sent =>
        obtain ⟨q, -, -, ht⟩ := hsent sent rfl
        exact absurd (ht.known.resolve_left hnot) hne
    · obtain ⟨q, hq, hmarker, ht⟩ := hsent sent hs
      have haudio : pump.src.dtmfPayloadType ≠ some p.payloadType →
          p.payloadType = pump.src.payloadType := ht.known.resolve_left
      have hevent : (∃ d, pump.dst.dtmfPayloadType = some d ∧ q.payloadType = d &&& 0x7f) ↔
          pump.src.dtmfPayloadType = some p.payloadType := by
        refine ⟨fun ⟨d, hd, hqt⟩ => ?_, fun hev => (ht.event hev).1⟩
        by_contra hnot
        exact hdst d hd (hqt.symm.trans (ht.audio hnot).1)
      refine ⟨q, hq, ht.seq, ht.timestamp, ht.ssrc, hmarker.trans (by rw [hbyte]), hevent, ?_, ?_, ?_⟩
      · intro hev
        have hother : p.payloadType ≠ pump.src.payloadType := fun heq => hsrc (heq ▸ hev)
        exact (ht.event hev).2.trans (hg.other hother)
      · intro hnot
        obtain ⟨htype, hrepack⟩ := ht.audio hnot
        refine ⟨htype, fun k hk => ?_⟩
        obtain ⟨k', hk', hframes, hreq⟩ := hg.parse hguard (haudio hnot) hk
        exact ⟨k', (parse_repack hrepack).trans hk', hframes, hreq⟩
      · intro g hgs hdir hdrop htype k hk f hf hspeech
        -- An audio packet from the client goes on with its own payload.
        have hnot : pump.src.dtmfPayloadType ≠ some p.payloadType := fun hev => by
          obtain ⟨d, hd, hqt⟩ := hevent.mpr hev
          exact hdst d hd (hqt.symm.trans htype)
        have hsame : payload = p.payload := hg.kept fun _ _ hd => nomatch hdir.symm.trans hd
        have hk' : parse p.payload pump.kind pump.src.octetAligned = some k := by
          rw [← hsame, ← parse_repack (ht.audio hnot).2, hk]
        refine hg.policed g hgs hdir hdrop (haudio hnot) _ (speechModes_eq hk') f.frameType ?_
        exact List.mem_filter.mpr ⟨List.mem_map_of_mem hf, hspeech⟩

/-- A carrier packet without speech and without a mode request, under a guard
that allows modes 0 to 2, repacked for the client. -/
theorem pass_transparent_clamped :
    let pump : Pump := ⟨.wb, ⟨104, some 105, true⟩, ⟨96, some 101, false⟩, .aToB, some ⟨7, false⟩⟩
    let data := buildPacket 9 160 77 104 [0xf0, 0x7c]
    ∃ sent stats q k, pump.pass ⟨0, 0, 0, 0⟩ data = .ok (some sent, stats) ∧
      parsePacket sent = some q ∧ q.seq = 9 ∧ q.payloadType = 96 ∧
      parse q.payload .wb false = some k ∧
      IsGreatest {m : UInt8 | ModeGuard.allows ⟨7, false⟩ m = true} k.cmr := by
  intro pump data
  have hparse : parsePacket data = some ⟨9, 160, 77, 104, [0xf0, 0x7c]⟩ := by decide
  have hpass : (pump.pass ⟨0, 0, 0, 0⟩ data).toOption =
      some (some (buildPacket 9 160 77 96 [0x27, 0xc0]), ⟨1, 0, 0, 0⟩) := by decide +kernel
  obtain ⟨out, stats, hout, -, hsent⟩ := pass_transparent pump ⟨0, 0, 0, 0⟩ hparse (by decide)
    (fun d hd => by cases hd; decide) (fun g hg => by cases hg; decide)
  rw [hout] at hpass
  cases hpass
  obtain ⟨q, hq, hf⟩ := hsent _ rfl
  obtain ⟨htype, hframes⟩ := hf.audio (by decide)
  obtain ⟨k, hk, -, hreq⟩ := hframes ⟨15, [⟨15, 1, []⟩]⟩ (by decide)
  exact ⟨_, _, q, k, hout, hq, hf.seq, htype.trans (by decide), hk,
    hreq.1 ⟨7, false⟩ rfl rfl (by decide)⟩

end AmrForward.Relay
