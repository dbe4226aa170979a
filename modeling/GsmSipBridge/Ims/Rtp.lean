-- SUMMARY: RTP framing (`ims/rtp.rs`): building, parsing, and changing bytes in place.
import GsmSipBridge.Lib.Bytes

/-!
# RTP framing

`parsePacket` follows the source check by check: version, CSRC list, header
extension, padding. `payloadStart` and `payloadEnd` are its two inner stages,
named because later layers rewrite header bytes in place and need to know that
neither stage moves.
-/

namespace Ims.Rtp

open Bytes List

def rtpHeaderLen : Nat := 12

def rtpVersion : UInt8 := 2

/-- Build one RTP packet carrying `payload`: V=2, P=0, X=0, CC=0, M=0. -/
def buildPacket (seq : UInt16) (timestamp ssrc : UInt32) (payloadType : UInt8)
    (payload : Bytes) : Bytes :=
  [rtpVersion <<< 6, payloadType &&& 0x7f] ++ ofU16 seq ++ ofU32 timestamp ++ ofU32 ssrc ++ payload

/-- A parsed packet's header fields and its payload. -/
structure ParsedPacket where
  seq : UInt16
  timestamp : UInt32
  ssrc : UInt32
  payloadType : UInt8
  payload : Bytes
  deriving DecidableEq, Repr

/-- Where the payload starts: after the CSRC list and, when the `X` bit is set,
after the extension header and its declared 32-bit words. -/
def payloadStart (data : Bytes) : Option Nat :=
  let cc := (data.byteAt 0 &&& 0x0f).toNat
  let start := rtpHeaderLen + cc * 4
  if data.length < start then none
  else if data.byteAt 0 &&& 0x10 = 0 then some start
  else if data.length < start + 4 then none
  else
    let extWords := (u16Be (data.byteAt (start + 2)) (data.byteAt (start + 3))).toNat
    let start := start + (4 + extWords * 4)
    if data.length < start then none else some start

/-- Where the payload ends: at the end of the datagram, less the padding its
last byte counts when the `P` bit is set. -/
def payloadEnd (data : Bytes) (start : Nat) : Option Nat :=
  if data.byteAt 0 &&& 0x20 = 0 then some data.length
  else
    let padLen := (data.byteAt (data.length - 1)).toNat
    if padLen = 0 ∨ data.length - start < padLen then none else some (data.length - padLen)

def parsePacket (data : Bytes) : Option ParsedPacket :=
  if data.length < rtpHeaderLen then none
  else if data.byteAt 0 >>> 6 ≠ rtpVersion then none
  else
    match payloadStart data with
    | none => none
    | some start =>
      match payloadEnd data start with
      | none => none
      | some stop =>
        some {
          seq := u16Be (data.byteAt 2) (data.byteAt 3)
          timestamp := u32Be (data.byteAt 4) (data.byteAt 5) (data.byteAt 6) (data.byteAt 7)
          ssrc := u32Be (data.byteAt 8) (data.byteAt 9) (data.byteAt 10) (data.byteAt 11)
          payloadType := data.byteAt 1 &&& 0x7f
          payload := data.slice start stop }

/-! ## The packets that are accepted -/

def header (first marker : UInt8) (seq : UInt16) (timestamp ssrc : UInt32) : Bytes :=
  [first, marker] ++ ofU16 seq ++ ofU32 timestamp ++ ofU32 ssrc

/-- Two bytes of profile, two that count the 32-bit words behind them. -/
def Extension (ext : Bytes) : Prop :=
  ∃ a b n0 n1 words, ext = [a, b, n0, n1] ++ words ∧ words.length = (u16Be n0 n1).toNat * 4

/-- Padding ends with its own length. -/
def Padding (pad : Bytes) : Prop :=
  ∃ fill last, pad = fill ++ [last] ∧ last.toNat = pad.length

/-- A version 2 header, the sources its first byte counts, an extension and padding as that
byte says. -/
inductive Laid : Bytes → ParsedPacket → Prop
  | mk (first marker : UInt8) (seq : UInt16) (timestamp ssrc : UInt32)
      (csrc ext payload pad : Bytes) (version : first >>> 6 = rtpVersion)
      (csrcs : csrc.length = (first &&& 0x0f).toNat * 4)
      (extension : if first &&& 0x10 = 0 then ext = [] else Extension ext)
      (padding : if first &&& 0x20 = 0 then pad = [] else Padding pad) :
      Laid (header first marker seq timestamp ssrc ++ (csrc ++ (ext ++ (payload ++ pad))))
        { seq, timestamp, ssrc, payloadType := marker &&& 0x7f, payload }

theorem exists_append_of_le {data : Bytes} {n : Nat} (h : n ≤ data.length) :
    ∃ front rest, data = front ++ rest ∧ front.length = n :=
  ⟨data.take n, data.drop n, (take_append_drop n data).symm, length_take_of_le h⟩

theorem exists_header {data : Bytes} (h : rtpHeaderLen ≤ data.length) :
    ∃ first marker seq timestamp ssrc rest,
      data = header first marker seq timestamp ssrc ++ rest := by
  match data, h with
  | first :: marker :: s0 :: s1 :: t0 :: t1 :: t2 :: t3 :: c0 :: c1 :: c2 :: c3 :: rest, _ =>
    refine ⟨first, marker, u16Be s0 s1, u32Be t0 t1 t2 t3, u32Be c0 c1 c2 c3, rest, ?_⟩
    rw [header, ofU16_u16Be, ofU32_u32Be, ofU32_u32Be]
    rfl

section Sections

variable {first marker : UInt8} {seq : UInt16} {timestamp ssrc : UInt32} {csrc rest : Bytes}

theorem parsePacket_header :
    parsePacket (header first marker seq timestamp ssrc ++ rest) =
      if first >>> 6 ≠ rtpVersion then none
      else
        (payloadStart (header first marker seq timestamp ssrc ++ rest)).bind fun start =>
          (payloadEnd (header first marker seq timestamp ssrc ++ rest) start).map fun stop =>
            { seq, timestamp, ssrc, payloadType := marker &&& 0x7f
              payload := slice (header first marker seq timestamp ssrc ++ rest) start stop } := by
  change (if first >>> 6 ≠ rtpVersion then none else _) = _
  congr 1
  cases payloadStart (header first marker seq timestamp ssrc ++ rest) with
  | none => rfl
  | some start =>
    cases hstop : payloadEnd (header first marker seq timestamp ssrc ++ rest) start with
    | none => simp [hstop]
    | some stop =>
      simp only [hstop, Option.bind_some, Option.map_some]
      rw [Option.some.injEq, ParsedPacket.mk.injEq]
      exact ⟨u16Be_ofU16 seq, u32Be_ofU32 timestamp, u32Be_ofU32 ssrc, rfl, rfl⟩

/-- Behind the header and the sources, the payload starts where the extension ends. -/
theorem payloadStart_iff {start : Nat} (hcsrc : csrc.length = (first &&& 0x0f).toNat * 4) :
    payloadStart (header first marker seq timestamp ssrc ++ (csrc ++ rest)) = some start ↔
      ∃ ext tail, rest = ext ++ tail ∧
        start = (header first marker seq timestamp ssrc ++ (csrc ++ ext)).length ∧
        if first &&& 0x10 = 0 then ext = [] else Extension ext := by
  generalize hdata : header first marker seq timestamp ssrc ++ (csrc ++ rest) = data
  have h0 : data.byteAt 0 = first := hdata ▸ rfl
  have hlen : data.length = 12 + csrc.length + rest.length := by
    rw [← hdata, length_append, length_append, ← Nat.add_assoc]
    rfl
  have hbyte : ∀ i, data.byteAt (12 + csrc.length + i) = byteAt rest i := by
    intro i
    have := byteAt_append (header first marker seq timestamp ssrc ++ csrc) rest i
    rwa [length_append, append_assoc, hdata] at this
  have hend : ∀ ext : Bytes, (header first marker seq timestamp ssrc ++ (csrc ++ ext)).length =
      12 + csrc.length + ext.length := by
    intro ext
    rw [length_append, length_append, ← Nat.add_assoc]
    rfl
  simp only [payloadStart, rtpHeaderLen, h0, hlen, ← hcsrc, hend]
  rw [if_neg (by omega)]
  split
  · constructor
    · rintro h
      cases h
      exact ⟨[], rest, rfl, rfl, rfl⟩
    · rintro ⟨ext, tail, -, rfl, rfl⟩
      rfl
  · rw [hbyte, hbyte]
    constructor
    · intro h
      split at h
      · cases h
      split at h
      · cases h
      cases h
      obtain ⟨front, rest, rfl, hfront⟩ := exists_append_of_le (show 4 ≤ rest.length by omega)
      match front, hfront with
      | [a, b, n0, n1], _ =>
        rename_i hshort hlong
        change ¬ 12 + csrc.length + (rest.length + 4) <
          12 + csrc.length + (4 + (u16Be n0 n1).toNat * 4) at hlong
        obtain ⟨words, tail, rfl, hwords⟩ :=
          exists_append_of_le (show (u16Be n0 n1).toNat * 4 ≤ rest.length by omega)
        refine ⟨[a, b, n0, n1] ++ words, tail, rfl, ?_, a, b, n0, n1, words, rfl, hwords⟩
        rw [length_append, hwords]
        rfl
    · rintro ⟨ext, tail, rfl, rfl, a, b, n0, n1, words, rfl, hwords⟩
      change (if _ then none else if _ < 12 + csrc.length + (4 + (u16Be n0 n1).toNat * 4) then none
        else some (12 + csrc.length + (4 + (u16Be n0 n1).toNat * 4))) = _
      simp only [length_append, length_cons, length_nil, ← hwords]
      rw [if_neg (by omega), if_neg (by omega)]

end Sections

theorem byteAt_last (front : Bytes) (last : UInt8) :
    byteAt (front ++ [last]) ((front ++ [last]).length - 1) = last := by
  rw [length_append]
  exact byteAt_append front [last] 0

/-- The payload ends where the padding begins. -/
theorem payloadEnd_iff {front tail : Bytes} {first : UInt8} {stop : Nat}
    (hfirst : byteAt (front ++ tail) 0 = first) :
    payloadEnd (front ++ tail) front.length = some stop ↔
      ∃ payload pad, tail = payload ++ pad ∧ stop = front.length + payload.length ∧
        if first &&& 0x20 = 0 then pad = [] else Padding pad := by
  rw [payloadEnd, hfirst]
  split
  · constructor
    · rintro h
      cases h
      exact ⟨tail, [], by simp, by simp, rfl⟩
    · rintro ⟨payload, pad, rfl, rfl, rfl⟩
      simp
  · constructor
    · intro h
      simp only at h
      split at h
      · cases h
      rename_i hpad
      cases h
      generalize hlast : byteAt (front ++ tail) ((front ++ tail).length - 1) = last at hpad ⊢
      rw [length_append] at hpad
      obtain ⟨payload, pad, rfl, hpay⟩ := exists_append_of_le (Nat.sub_le tail.length last.toNat)
      rw [length_append] at hpay hpad
      refine ⟨payload, pad, rfl, ?_, ?_⟩
      · simp only [length_append]
        omega
      · cases eq_nil_or_concat pad with
        | inl hnil =>
          rw [hnil, length_nil] at hpay hpad
          omega
        | inr hconcat =>
          obtain ⟨fill, x, rfl⟩ := hconcat
          have hbyte := byteAt_last (front ++ (payload ++ fill)) x
          simp only [append_assoc, concat_eq_append] at hbyte hlast
          obtain rfl : x = last := hbyte.symm.trans hlast
          exact ⟨fill, x, concat_eq_append, by omega⟩
    · rintro ⟨payload, pad, rfl, rfl, fill, last, rfl, hlast⟩
      have hbyte := byteAt_last (front ++ (payload ++ fill)) last
      simp only [append_assoc] at hbyte
      simp only [hbyte, hlast]
      simp only [length_append, length_singleton]
      rw [if_neg (by omega)]
      congr 1
      omega

section Laid

variable {first marker : UInt8} {seq : UInt16} {timestamp ssrc : UInt32}
  {csrc ext payload pad tail : Bytes}

theorem payloadStart_laid (csrcs : csrc.length = (first &&& 0x0f).toNat * 4)
    (extension : if first &&& 0x10 = 0 then ext = [] else Extension ext) :
    payloadStart (header first marker seq timestamp ssrc ++ (csrc ++ (ext ++ tail))) =
      some (header first marker seq timestamp ssrc ++ (csrc ++ ext)).length :=
  (payloadStart_iff csrcs).mpr ⟨ext, tail, rfl, rfl, extension⟩

theorem header_append_assoc :
    header first marker seq timestamp ssrc ++ (csrc ++ (ext ++ tail)) =
      header first marker seq timestamp ssrc ++ (csrc ++ ext) ++ tail := by
  simp

end Laid

variable {data : Bytes} {p : ParsedPacket}

theorem parsePacket_laid (h : Laid data p) : parsePacket data = some p := by
  obtain ⟨first, marker, seq, timestamp, ssrc, csrc, ext, payload, pad, version, csrcs, extension,
    padding⟩ := h
  have hfirst : byteAt (header first marker seq timestamp ssrc ++ (csrc ++ ext) ++ (payload ++ pad))
      0 = first := rfl
  rw [parsePacket_header, if_neg (not_not.mpr version), payloadStart_laid csrcs extension,
    Option.bind_some, header_append_assoc,
    (payloadEnd_iff hfirst).mpr ⟨payload, pad, rfl, rfl, padding⟩, Option.map_some, slice_append]

theorem laid_of_parsePacket (h : parsePacket data = some p) : Laid data p := by
  by_cases hlen : rtpHeaderLen ≤ data.length
  · obtain ⟨first, marker, seq, timestamp, ssrc, rest, rfl⟩ := exists_header hlen
    rw [parsePacket_header] at h
    split at h
    · cases h
    rename_i version
    obtain ⟨start, hstart, hmap⟩ := Option.bind_eq_some_iff.mp h
    obtain ⟨stop, hstop, rfl⟩ := Option.map_eq_some_iff.mp hmap
    have hcsrcs : (first &&& 0x0f).toNat * 4 ≤ rest.length := by
      by_contra hshort
      have hnone : payloadStart (header first marker seq timestamp ssrc ++ rest) = none := by
        refine if_pos ?_
        change rest.length + 12 < 12 + (first &&& 0x0f).toNat * 4
        omega
      cases hnone.symm.trans hstart
    obtain ⟨csrc, rest, rfl, csrcs⟩ := exists_append_of_le hcsrcs
    obtain ⟨ext, tail, rfl, rfl, extension⟩ := (payloadStart_iff csrcs).mp hstart
    rw [header_append_assoc] at hstop ⊢
    obtain ⟨payload, pad, rfl, rfl, padding⟩ := (payloadEnd_iff rfl).mp hstop
    rw [slice_append, ← header_append_assoc]
    exact .mk _ _ _ _ _ _ _ _ _ (not_not.mp version) csrcs extension padding
  · rw [parsePacket, if_pos (Nat.not_le.mp hlen)] at h
    cases h

/-! ## The indices -/

def readStart (data : Bytes) : Except Fault (Option Nat) := do
  let first ← data.index 0
  let start := rtpHeaderLen + (first &&& 0x0f).toNat * 4
  if data.length < start then return none
  else if first &&& 0x10 = 0 then return some start
  else if data.length < start + 4 then return none
  else
    let n0 ← data.index (start + 2)
    let n1 ← data.index (start + 3)
    let start := start + (4 + (u16Be n0 n1).toNat * 4)
    if data.length < start then return none else return some start

def readEnd (data : Bytes) (start : Nat) : Except Fault (Option Nat) := do
  let first ← data.index 0
  if first &&& 0x20 = 0 then return some data.length
  else
    let padLen ← data.index (data.length - 1)
    if padLen.toNat = 0 ∨ data.length - start < padLen.toNat then return none
    else return some (data.length - padLen.toNat)

def readPacket (data : Bytes) : Except Fault (Option ParsedPacket) := do
  if data.length < rtpHeaderLen then return none
  else
    let first ← data.index 0
    if first >>> 6 ≠ rtpVersion then return none
    else
      let payloadType := (← data.index 1) &&& 0x7f
      let seq := u16Be (← data.index 2) (← data.index 3)
      let timestamp := u32Be (← data.index 4) (← data.index 5) (← data.index 6) (← data.index 7)
      let ssrc := u32Be (← data.index 8) (← data.index 9) (← data.index 10) (← data.index 11)
      match ← readStart data with
      | none => return none
      | some start =>
        match ← readEnd data start with
        | none => return none
        | some stop =>
          let payload ← data.range start stop
          return some { seq, timestamp, ssrc, payloadType, payload }

theorem index_byteAt {i : Nat} (h : i < data.length) : data.index i = .ok (data.byteAt i) := by
  rw [index_ok (getElem?_eq_getElem h), byteAt, getD_eq_getElem?_getD, getElem?_eq_getElem h]
  rfl

theorem readStart_eq (h : 0 < data.length) : readStart data = .ok (payloadStart data) := by
  unfold readStart payloadStart
  rw [index_byteAt h]
  simp only [bind, Except.bind]
  split
  · rfl
  split
  · rfl
  split
  · rfl
  · rw [index_byteAt (by omega), index_byteAt (by omega)]
    simp only
    split <;> rfl

theorem readEnd_eq (h : 0 < data.length) (start : Nat) :
    readEnd data start = .ok (payloadEnd data start) := by
  unfold readEnd payloadEnd
  rw [index_byteAt h]
  simp only [bind, Except.bind]
  split
  · rfl
  · rw [index_byteAt (by omega)]
    simp only
    split <;> rfl

theorem payload_range {start stop : Nat} (hstart : payloadStart data = some start)
    (hstop : payloadEnd data start = some stop) : start ≤ stop ∧ stop ≤ data.length := by
  have hle : start ≤ data.length := by
    simp only [payloadStart] at hstart
    split at hstart
    · cases hstart
    split at hstart
    · cases hstart
      omega
    split at hstart
    · cases hstart
    split at hstart
    · cases hstart
    cases hstart
    omega
  simp only [payloadEnd] at hstop
  split at hstop
  · cases hstop
    exact ⟨hle, Nat.le_refl _⟩
  split at hstop
  · cases hstop
  cases hstop
  omega

theorem readPacket_eq (data : Bytes) : readPacket data = .ok (parsePacket data) := by
  unfold readPacket parsePacket
  split
  · rfl
  rename_i hlen
  unfold rtpHeaderLen at hlen
  have hindex : ∀ i, i < 12 → data.index i = .ok (data.byteAt i) :=
    fun i hi => index_byteAt (by omega)
  have hpos : 0 < data.length := by omega
  simp only [hindex 0 (by decide), hindex 1 (by decide), hindex 2 (by decide), hindex 3 (by decide),
    hindex 4 (by decide), hindex 5 (by decide), hindex 6 (by decide), hindex 7 (by decide),
    hindex 8 (by decide), hindex 9 (by decide), hindex 10 (by decide), hindex 11 (by decide),
    readStart_eq hpos, readEnd_eq hpos, bind, Except.bind]
  split
  · rfl
  cases hs : payloadStart data with
  | none => rfl
  | some start =>
    cases he : payloadEnd data start with
    | none => simp only [he]; rfl
    | some stop =>
      obtain ⟨hle, hle'⟩ := payload_range hs he
      simp only [he, range_ok hle hle']
      rfl

/-- `parse_packet` accepts exactly what is laid out as a packet and returns its fields; no
index is out of range; and it gives back what `build_packet` was given. -/
theorem parse_packet_exact (data : Bytes) :
    (∀ p, parsePacket data = some p ↔ Laid data p) ∧ readPacket data = .ok (parsePacket data) ∧
    ∀ (seq : UInt16) (timestamp ssrc : UInt32) (payloadType : UInt8) (payload : Bytes),
      payloadType < 128 → parsePacket (buildPacket seq timestamp ssrc payloadType payload) =
        some { seq, timestamp, ssrc, payloadType, payload } := by
  refine ⟨fun p => ⟨laid_of_parsePacket, parsePacket_laid⟩, readPacket_eq data, ?_⟩
  intro seq timestamp ssrc payloadType payload hlt
  have hmasked : payloadType &&& 0x7f = payloadType := by
    apply UInt8.toNat_inj.mp
    exact Nat.and_two_pow_sub_one_of_lt_two_pow (n := 7) (UInt8.lt_iff_toNat_lt.mp hlt)
  have hbuilt := parsePacket_laid (.mk (rtpVersion <<< 6) (payloadType &&& 0x7f) seq timestamp ssrc []
    [] payload [] (by decide) rfl rfl rfl)
  rw [append_nil] at hbuilt
  simp only [hmasked] at hbuilt
  rw [buildPacket, hmasked]
  exact hbuilt

end Ims.Rtp
