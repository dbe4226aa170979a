-- SUMMARY: RTCP wire format (`ims/rtcp.rs`): building packets, and parsing compound ones.
import Mathlib.Data.Nat.Bitwise
import GsmSipBridge.Lib.Bytes

/-!
# RTCP packets

The builders and the compound parser, offset by offset as the source has them.
Indexing and slicing are modelled with their panics, and loops with fuel whose
exhaustion is a fault of its own, so that a result says that every read was in
range and every loop ended.
-/

namespace Ims.Rtcp

open Bytes

def rtcpVersion : UInt8 := 2
def ptSr : UInt8 := 200
def ptRr : UInt8 := 201
def ptSdes : UInt8 := 202
def ptBye : UInt8 := 203
def sdesCname : UInt8 := 1
def sdesEnd : UInt8 := 0

structure ReportBlock where
  ssrc : UInt32
  fractionLost : UInt8
  cumulativeLost : Int32
  highestSeq : UInt32
  jitter : UInt32
  lsr : UInt32
  dlsr : UInt32
  deriving DecidableEq

/-! ## Building -/

def rtcpHeader (pt count : UInt8) (bodyLen : Nat) : Bytes :=
  let lengthWords := UInt16.ofNat ((4 + bodyLen) / 4 - 1)
  [rtcpVersion <<< 6 ||| count &&& 0x1f, pt] ++ ofU16 lengthWords

def pushReportBlock (b : ReportBlock) : Bytes :=
  let cumulative := b.cumulativeLost.toUInt32 &&& 0x00ffffff
  let word := b.fractionLost.toUInt32 <<< 24 ||| cumulative
  words [b.ssrc, word, b.highestSeq, b.jitter, b.lsr, b.dlsr]

/-- The optional report block of a report, and how many there are. -/
def optionalBlock : Option ReportBlock → Bytes × UInt8
  | some b => (pushReportBlock b, 1)
  | none => ([], 0)

def buildSenderReport (ssrc : UInt32) (ntpTimestamp : UInt64)
    (rtpTimestamp packetCount octetCount : UInt32) (reportBlock : Option ReportBlock) : Bytes :=
  let blocks := optionalBlock reportBlock
  let body := words [ssrc, (ntpTimestamp >>> 32).toUInt32, ntpTimestamp.toUInt32, rtpTimestamp,
    packetCount, octetCount] ++ blocks.1
  rtcpHeader ptSr blocks.2 body.length ++ body

def buildReceiverReport (ssrc : UInt32) (reportBlock : Option ReportBlock) : Bytes :=
  let blocks := optionalBlock reportBlock
  let body := words [ssrc] ++ blocks.1
  rtcpHeader ptRr blocks.2 body.length ++ body

/-- Zeros up to a multiple of four, as the source's loop appends them. -/
def padToWord (chunk : Bytes) : Bytes :=
  chunk ++ List.replicate ((4 - chunk.length % 4) % 4) 0

def buildSourceDescription (ssrc : UInt32) (cname : Text) : Bytes :=
  let cnameBytes := Utf8.encode cname
  let len := UInt8.ofNat (min cnameBytes.length 255)
  let chunk := padToWord (words [ssrc] ++ ([sdesCname, len] ++
    (cnameBytes.take len.toNat ++ [sdesEnd])))
  rtcpHeader ptSdes 1 chunk.length ++ chunk

def buildBye (ssrc : UInt32) : Bytes :=
  let body := words [ssrc]
  rtcpHeader ptBye 1 body.length ++ body

def compound (parts : List Bytes) : Bytes :=
  parts.flatten

/-! ## Parsing -/

inductive RtcpItem where
  | senderReport (ssrc : UInt32) (ntpTimestamp : UInt64)
      (rtpTimestamp packetCount octetCount : UInt32) (blocks : List ReportBlock)
  | receiverReport (ssrc : UInt32) (blocks : List ReportBlock)
  | sourceDescription (ssrc : UInt32) (cname : Option Text)
  | bye (ssrcs : List UInt32)
  | unknown (pt : UInt8)
  deriving DecidableEq

/-- `u32::from_be_bytes(data[lo..lo + 4])`. -/
def u32At (data : Bytes) (lo : Nat) : Except Fault UInt32 := do
  let word ← data.range lo (lo + 4)
  .ok (u32Be (word.byteAt 0) (word.byteAt 1) (word.byteAt 2) (word.byteAt 3))

def parseReportBlock (data : Bytes) : Except Fault (Option ReportBlock) := do
  if data.length < 24 then .ok none
  else
    let ssrc ← u32At data 0
    let word ← u32At data 4
    let fractionLost := (word >>> 24).toUInt8
    let raw := word &&& 0x00ffffff
    -- Sign-extend the 24-bit two's-complement value.
    let cumulativeLost := if raw &&& 0x00800000 ≠ 0 then raw.toInt32 - 0x01000000 else raw.toInt32
    let highestSeq ← u32At data 8
    let jitter ← u32At data 12
    let lsr ← u32At data 16
    let dlsr ← u32At data 20
    .ok (some { ssrc, fractionLost, cumulativeLost, highestSeq, jitter, lsr, dlsr })

/-- Up to `count` report blocks from an offset on; `body.get(b_off..)` fails past
the end. -/
def parseBlocks (body : Bytes) : Nat → Nat → Except Fault (List ReportBlock)
  | 0, _ => .ok []
  | count + 1, bOff => do
    if body.length < bOff then .ok []
    else
      match ← parseReportBlock (body.drop bOff) with
      | none => .ok []
      | some b =>
        let rest ← parseBlocks body count (bOff + 24)
        .ok (b :: rest)

/-- The items of one source description chunk: the last CNAME, and the offset
behind the chunk. -/
def sdesItems (body : Bytes) : Nat → Nat → Option Text → Except Fault (Option Text × Nat)
  | 0, _, _ => .error .outOfFuel
  | fuel + 1, itemOff, cname => do
    if body.length ≤ itemOff then .ok (cname, itemOff)
    else
      let itemType ← body.index itemOff
      if itemType = sdesEnd then .ok (cname, itemOff + 1)
      else if body.length ≤ itemOff + 1 then .ok (cname, itemOff)
      else
        let itemLen := (← body.index (itemOff + 1)).toNat
        let textStart := itemOff + 2
        let textEnd := textStart + itemLen
        if body.length < textEnd then .ok (cname, itemOff)
        else
          if itemType = sdesCname then
            let text ← body.range textStart textEnd
            sdesItems body fuel textEnd (some (Utf8.fromUtf8Lossy text))
          else sdesItems body fuel textEnd cname

def sdesChunks (body : Bytes) : Nat → Nat → Except Fault (List RtcpItem)
  | 0, _ => .ok []
  | count + 1, bOff => do
    if body.length < bOff + 4 then .ok []
    else
      let ssrc ← u32At body bOff
      let (cname, itemOff) ← sdesItems body (body.length + 1) (bOff + 4) none
      let rest ← sdesChunks body count ((itemOff + 3) / 4 * 4)
      .ok (.sourceDescription ssrc cname :: rest)

def byeSsrcs (body : Bytes) : Nat → Nat → Except Fault (List UInt32)
  | 0, _ => .ok []
  | count + 1, bOff => do
    if body.length < bOff + 4 then .ok []
    else
      let ssrc ← u32At body bOff
      let rest ← byeSsrcs body count (bOff + 4)
      .ok (ssrc :: rest)

/-- The items of one member; `none` where the source leaves the loop. -/
def parseMember (pt : UInt8) (count : Nat) (body : Bytes) :
    Except Fault (Option (List RtcpItem)) := do
  if pt = ptSr then
    if body.length < 24 then .ok none
    else
      let ssrc ← u32At body 0
      let ntpMsw ← u32At body 4
      let ntpLsw ← u32At body 8
      let rtpTimestamp ← u32At body 12
      let packetCount ← u32At body 16
      let octetCount ← u32At body 20
      let blocks ← parseBlocks body count 24
      .ok (some [.senderReport ssrc (ntpMsw.toUInt64 <<< 32 ||| ntpLsw.toUInt64) rtpTimestamp
        packetCount octetCount blocks])
  else if pt = ptRr then
    if body.length < 4 then .ok none
    else
      let ssrc ← u32At body 0
      let blocks ← parseBlocks body count 4
      .ok (some [.receiverReport ssrc blocks])
  else if pt = ptSdes then
    let items ← sdesChunks body count 0
    .ok (some items)
  else if pt = ptBye then
    let ssrcs ← byeSsrcs body count 0
    .ok (some [.bye ssrcs])
  else .ok (some [.unknown pt])

def parseLoop (data : Bytes) : Nat → Nat → List RtcpItem → Except Fault (List RtcpItem)
  | 0, _, _ => .error .outOfFuel
  | fuel + 1, offset, items => do
    if data.length < offset + 4 then .ok items
    else
      let byte0 ← data.index offset
      if byte0 >>> 6 ≠ rtcpVersion then .ok items
      else
        let count := (byte0 &&& 0x1f).toNat
        let pt ← data.index (offset + 1)
        let l0 ← data.index (offset + 2)
        let l1 ← data.index (offset + 3)
        let packetLen := ((u16Be l0 l1).toNat + 1) * 4
        if data.length < offset + packetLen then .ok items
        else
          let body ← data.range (offset + 4) (offset + packetLen)
          match ← parseMember pt count body with
          | none => .ok items
          | some member => parseLoop data fuel (offset + packetLen) (items ++ member)

def parseCompound (data : Bytes) : Except Fault (List RtcpItem) :=
  parseLoop data (data.length + 1) 0 []

/-! ## Compound packets

The parser is total: every read is behind a length check and every loop moves
on. On what the builders produce it is the inverse: `Framed` says that a member's
length field is right and that its body is read as one item, and the walk over
the members needs nothing else. -/

open List Nat

variable {body : Bytes} {fuel : Nat} {reportBlock : Option ReportBlock} {ssrc : UInt32}
  {data : Bytes} {raw : UInt32} {c : Int32} {len : UInt8} (f : UInt8)

/-! ### Totality -/

theorem u32At_returns {lo : Nat} (h : lo + 4 ≤ data.length) : Returns (u32At data lo) :=
  (returns_range (le_add_right _ _) h).bind fun _ => Returns.ok _

theorem parseReportBlock_returns (data : Bytes) : Returns (parseReportBlock data) := by
  unfold parseReportBlock
  split
  · exact Returns.ok _
  refine (u32At_returns (by omega)).bind fun ssrc => ?_
  refine (u32At_returns (by omega)).bind fun word => ?_
  refine (u32At_returns (by omega)).bind fun highestSeq => ?_
  refine (u32At_returns (by omega)).bind fun jitter => ?_
  refine (u32At_returns (by omega)).bind fun lsr => ?_
  exact (u32At_returns (by omega)).bind fun dlsr => Returns.ok _

theorem parseBlocks_returns (body : Bytes) (count bOff : Nat) :
    Returns (parseBlocks body count bOff) := by
  induction count generalizing bOff with
  | zero => exact Returns.ok _
  | succ count ih =>
    unfold parseBlocks
    split
    · exact Returns.ok _
    refine (parseReportBlock_returns _).bind fun r => ?_
    cases r with
    | none => exact Returns.ok _
    | some b => exact (ih _).bind fun rest => Returns.ok _

/-- An item takes at least two bytes, and stays inside the body. -/
theorem sdesItems_returns {itemOff : Nat} (hoff : itemOff ≤ body.length)
    (hfuel : body.length < itemOff + fuel) (cname : Option Text) :
    Returns (sdesItems body fuel itemOff cname) := by
  induction fuel generalizing itemOff cname with
  | zero => omega
  | succ fuel ih =>
    unfold sdesItems
    split
    · exact Returns.ok _
    refine (returns_index (by omega)).bind fun itemType => ?_
    split
    · exact Returns.ok _
    split
    · exact Returns.ok _
    refine (returns_index (by omega)).bind fun itemLen => ?_
    dsimp only
    split
    · exact Returns.ok _
    split
    · exact (returns_range (by omega) (by omega)).bind fun text =>
        ih (by omega) (by omega) _
    · exact ih (by omega) (by omega) _

theorem sdesChunks_returns (body : Bytes) (count bOff : Nat) :
    Returns (sdesChunks body count bOff) := by
  induction count generalizing bOff with
  | zero => exact Returns.ok _
  | succ count ih =>
    unfold sdesChunks
    split
    · exact Returns.ok _
    · refine (u32At_returns (by omega)).bind fun ssrc => ?_
      refine (sdesItems_returns (by omega) (by omega) none).bind fun r => ?_
      exact (ih _).bind fun rest => Returns.ok _

theorem byeSsrcs_returns (body : Bytes) (count bOff : Nat) :
    Returns (byeSsrcs body count bOff) := by
  induction count generalizing bOff with
  | zero => exact Returns.ok _
  | succ count ih =>
    unfold byeSsrcs
    split
    · exact Returns.ok _
    · refine (u32At_returns (by omega)).bind fun ssrc => ?_
      exact (ih _).bind fun rest => Returns.ok _

theorem parseMember_returns (pt : UInt8) (count : Nat) (body : Bytes) :
    Returns (parseMember pt count body) := by
  unfold parseMember
  split
  · split
    · exact Returns.ok _
    refine (u32At_returns (by omega)).bind fun ssrc => ?_
    refine (u32At_returns (by omega)).bind fun ntpMsw => ?_
    refine (u32At_returns (by omega)).bind fun ntpLsw => ?_
    refine (u32At_returns (by omega)).bind fun rtpTimestamp => ?_
    refine (u32At_returns (by omega)).bind fun packetCount => ?_
    refine (u32At_returns (by omega)).bind fun octetCount => ?_
    exact (parseBlocks_returns _ _ _).bind fun blocks => Returns.ok _
  · split
    · split
      · exact Returns.ok _
      · refine (u32At_returns (by omega)).bind fun ssrc => ?_
        exact (parseBlocks_returns _ _ _).bind fun blocks => Returns.ok _
    · split
      · exact (sdesChunks_returns _ _ _).bind fun items => Returns.ok _
      · split
        · exact (byeSsrcs_returns _ _ _).bind fun ssrcs => Returns.ok _
        · exact Returns.ok _

/-- A member takes at least four bytes, and stays inside the data. -/
theorem parseLoop_returns {offset : Nat} (hoff : offset ≤ data.length)
    (hfuel : data.length < offset + fuel) (items : List RtcpItem) :
    Returns (parseLoop data fuel offset items) := by
  induction fuel generalizing offset items with
  | zero => omega
  | succ fuel ih =>
    unfold parseLoop
    split
    · exact Returns.ok _
    refine (returns_index (by omega)).bind fun byte0 => ?_
    split
    · exact Returns.ok _
    refine (returns_index (by omega)).bind fun pt => ?_
    refine (returns_index (by omega)).bind fun l0 => ?_
    refine (returns_index (by omega)).bind fun l1 => ?_
    dsimp only
    split
    · exact Returns.ok _
    refine (returns_range (by omega) (by omega)).bind fun body => ?_
    refine (parseMember_returns _ _ _).bind fun member => ?_
    cases member with
    | none => exact Returns.ok _
    | some member => exact ih (by omega) (by omega) _

theorem parseCompound_returns (data : Bytes) : Returns (parseCompound data) :=
  parseLoop_returns (zero_le _) (by omega) []

/-! ### Words read back -/

theorem u32At_words {ws : List UInt32} {i : Nat} {w : UInt32} (rest : Bytes)
    (h : ws[i]? = some w) : u32At (words ws ++ rest) (4 * i) = .ok w := by
  obtain ⟨hi, hw⟩ := List.getElem?_eq_some_iff.mp h
  have hsplit : words ws ++ rest =
      words (ws.take i) ++ (ofU32 w ++ (words (ws.drop (i + 1)) ++ rest)) := by
    conv => lhs; rw [← take_append_drop i ws, drop_eq_getElem_cons hi, hw]
    simp [words]
  have hlen : (words (ws.take i)).length = 4 * i := by
    rw [words_length, length_take, min_eq_left (le_of_lt hi)]
  have hrange := range_append (words (ws.take i)) (ofU32 w) (words (ws.drop (i + 1)) ++ rest)
  rw [hlen, ofU32_length, ← hsplit] at hrange
  simp only [u32At, hrange, bind, Except.bind]
  exact congrArg Except.ok (u32Be_ofU32 w)

/-- Two words side by side are the halves of the long word. -/
theorem join_halves (n : UInt64) :
    (n >>> 32).toUInt32.toUInt64 <<< 32 ||| n.toUInt32.toUInt64 = n := by
  apply UInt64.toNat_inj.mp
  have hn := n.toNat_lt
  have hlow : n.toNat % 2 ^ 32 < 2 ^ 32 := mod_lt _ (by decide)
  simp only [UInt64.toNat_or, UInt64.toNat_shiftLeft, UInt64.toNat_shiftRight, UInt32.toNat_toUInt64,
    UInt64.toNat_toUInt32, UInt64.toNat_ofNat]
  rw [shiftRight_eq_div_pow, shiftLeft_eq,
    show n.toNat / 2 ^ 32 % 2 ^ 32 * 2 ^ 32 % 2 ^ 64 = (n.toNat / 2 ^ 32) <<< 32 by
      rw [shiftLeft_eq]; omega,
    ← shiftLeft_add_eq_or_of_lt hlow]
  omega

/-! ### Report blocks -/

/-- The values a 24-bit two's-complement field holds. -/
def FitsCumulative (c : Int32) : Prop :=
  -2 ^ 23 ≤ c.toInt ∧ c.toInt < 2 ^ 23

theorem low24 (w : UInt32) : (w &&& 0x00ffffff).toNat = w.toNat % 2 ^ 24 := by
  exact and_two_pow_sub_one_eq_mod w.toNat 24

theorem packed_toNat (c : UInt32) :
    (f.toUInt32 <<< 24 ||| c &&& 0x00ffffff).toNat = f.toNat * 2 ^ 24 + c.toNat % 2 ^ 24 := by
  have hf := f.toNat_lt
  have hlow : c.toNat % 2 ^ 24 < 2 ^ 24 := mod_lt _ (by decide)
  have hshift : (f.toUInt32 <<< 24).toNat = f.toNat <<< 24 := by
    rw [UInt32.toNat_shiftLeft, UInt8.toNat_toUInt32, show (24 : UInt32).toNat % 32 = 24 from rfl]
    omega
  rw [UInt32.toNat_or, low24, hshift, ← shiftLeft_add_eq_or_of_lt hlow, shiftLeft_eq]

theorem sign24 (h : raw.toNat < 2 ^ 24) : raw &&& 0x00800000 = 0 ↔ raw.toNat < 2 ^ 23 := by
  rw [← UInt32.toNat_inj, UInt32.toNat_and, show (0x00800000 : UInt32).toNat = 2 ^ 23 from rfl,
    and_two_pow, testBit_eq_decide_div_mod_eq]
  simp only [show (0 : UInt32).toNat = 0 from rfl, mul_eq_zero, Bool.toNat_eq_zero,
    decide_eq_false_iff_not]
  omega

/-- The unsigned view of a value that fits. -/
theorem FitsCumulative.toNat (h : FitsCumulative c) :
    c.toUInt32.toNat < 2 ^ 23 ∨ 2 ^ 32 - 2 ^ 23 ≤ c.toUInt32.toNat := by
  obtain ⟨hlo, hhi⟩ := h
  rw [← Int32.toInt_toBitVec, BitVec.toInt_eq_toNat_cond,
    show c.toBitVec.toNat = c.toUInt32.toNat from rfl] at hlo hhi
  split at hlo <;> omega

/-- Sign extension undoes masking to 24 bits. -/
theorem signExtend_mask (h : FitsCumulative c) (hraw : raw.toNat = c.toUInt32.toNat % 2 ^ 24) :
    (if raw &&& 0x00800000 ≠ 0 then raw.toInt32 - 0x01000000 else raw.toInt32) = c := by
  have hc := h.toNat
  have hlt := c.toUInt32.toNat_lt
  have hsign : raw &&& 0x00800000 = 0 ↔ raw.toNat < 2 ^ 23 := sign24 (by omega)
  suffices h : (if raw &&& 0x00800000 ≠ 0 then raw.toInt32 - 0x01000000
      else raw.toInt32).toUInt32 = c.toUInt32 from congrArg Int32.ofUInt32 h
  apply UInt32.toNat_inj.mp
  split
  next hset =>
    have hge : 2 ^ 23 ≤ raw.toNat := not_lt.mp fun hl => hset (hsign.mpr hl)
    rw [Int32.toUInt32_sub, UInt32.toUInt32_toInt32, UInt32.toNat_sub,
      show (Int32.toUInt32 0x01000000).toNat = 2 ^ 24 from rfl]
    omega
  next hclear =>
    have hlow := hsign.mp (not_not.mp hclear)
    rw [UInt32.toUInt32_toInt32]
    omega

theorem packed_fraction (c : UInt32) :
    ((f.toUInt32 <<< 24 ||| c &&& 0x00ffffff) >>> 24).toUInt8 = f := by
  apply UInt8.toNat_inj.mp
  have hf := f.toNat_lt
  rw [UInt32.toNat_toUInt8, UInt32.toNat_shiftRight, packed_toNat,
    show (24 : UInt32).toNat % 32 = 24 from rfl]
  omega

theorem packed_cumulative (c : UInt32) :
    ((f.toUInt32 <<< 24 ||| c &&& 0x00ffffff) &&& 0x00ffffff).toNat = c.toNat % 2 ^ 24 := by
  rw [low24, packed_toNat]
  omega

theorem parseReportBlock_push {b : ReportBlock} (h : FitsCumulative b.cumulativeLost)
    (rest : Bytes) : parseReportBlock (pushReportBlock b ++ rest) = .ok (some b) := by
  have hlen : ¬(pushReportBlock b ++ rest).length < 24 := by
    rw [length_append, pushReportBlock]
    exact not_lt.mpr (le_add_right _ _)
  have hcumulative := signExtend_mask h (packed_cumulative b.fractionLost _)
  unfold parseReportBlock
  rw [if_neg hlen]
  unfold pushReportBlock
  rw [u32At_words (i := 0) rest rfl, u32At_words (i := 1) rest rfl,
    u32At_words (i := 2) rest rfl, u32At_words (i := 3) rest rfl,
    u32At_words (i := 4) rest rfl, u32At_words (i := 5) rest rfl]
  simp only [bind, Except.bind, packed_fraction, hcumulative]

/-- The optional block of a report is read back behind its fixed part. -/
theorem parseBlocks_optional (h : ∀ b ∈ reportBlock, FitsCumulative b.cumulativeLost)
    (ws : List UInt32) (bOff : Nat) (hoff : (words ws).length = bOff) :
    parseBlocks (words ws ++ (optionalBlock reportBlock).1)
      (optionalBlock reportBlock).2.toNat bOff = .ok reportBlock.toList := by
  subst hoff
  cases reportBlock with
  | none => rfl
  | some b =>
    have hpush := parseReportBlock_push (h b rfl) []
    rw [append_nil] at hpush
    change parseBlocks (words ws ++ pushReportBlock b) (0 + 1) (words ws).length = _
    unfold parseBlocks
    rw [if_neg (by rw [length_append]; omega), drop_left, hpush]
    rfl

/-! ### Members -/

/-- The packets the builders make, and packets of a type the parser does not
know, given by their header bytes and body. -/
inductive Member where
  | senderReport (ssrc : UInt32) (ntpTimestamp : UInt64)
      (rtpTimestamp packetCount octetCount : UInt32) (reportBlock : Option ReportBlock)
  | receiverReport (ssrc : UInt32) (reportBlock : Option ReportBlock)
  | sourceDescription (ssrc : UInt32) (cname : Text)
  | bye (ssrc : UInt32)
  | unknown (byte0 pt l0 l1 : UInt8) (body : Bytes)

namespace Member

def bytes : Member → Bytes
  | senderReport ssrc ntpTimestamp rtpTimestamp packetCount octetCount reportBlock =>
    buildSenderReport ssrc ntpTimestamp rtpTimestamp packetCount octetCount reportBlock
  | receiverReport ssrc reportBlock => buildReceiverReport ssrc reportBlock
  | sourceDescription ssrc cname => buildSourceDescription ssrc cname
  | bye ssrc => buildBye ssrc
  | unknown byte0 pt l0 l1 body => byte0 :: pt :: l0 :: l1 :: body

/-- What a member says. -/
def item : Member → RtcpItem
  | senderReport ssrc ntpTimestamp rtpTimestamp packetCount octetCount reportBlock =>
    .senderReport ssrc ntpTimestamp rtpTimestamp packetCount octetCount reportBlock.toList
  | receiverReport ssrc reportBlock => .receiverReport ssrc reportBlock.toList
  | sourceDescription ssrc cname => .sourceDescription ssrc (some cname)
  | bye ssrc => .bye [ssrc]
  | unknown _ pt _ _ _ => .unknown pt

/-- The field ranges of the wire format: a 24-bit loss count, a CNAME whose
length fits its byte, and for unknown types a version 2 header with the right
length. -/
def WellFormed : Member → Prop
  | senderReport _ _ _ _ _ reportBlock => ∀ b ∈ reportBlock, FitsCumulative b.cumulativeLost
  | receiverReport _ reportBlock => ∀ b ∈ reportBlock, FitsCumulative b.cumulativeLost
  | sourceDescription _ cname => (Utf8.encode cname).length ≤ 255
  | bye _ => True
  | unknown byte0 pt l0 l1 body =>
    byte0 >>> 6 = rtcpVersion ∧ pt ∉ [ptSr, ptRr, ptSdes, ptBye] ∧
      (u16Be l0 l1).toNat * 4 = body.length

end Member

/-- A packet whose header frames a body that is read as one item. -/
inductive Framed : Bytes → RtcpItem → Prop
  | intro {byte0 pt l0 l1 : UInt8} {body : Bytes} {item : RtcpItem}
      (version : byte0 >>> 6 = rtcpVersion)
      (length : (u16Be l0 l1).toNat * 4 = body.length)
      (parsed : parseMember pt (byte0 &&& 0x1f).toNat body = .ok (some [item])) :
      Framed (byte0 :: pt :: l0 :: l1 :: body) item

theorem Framed.length_pos {bytes : Bytes} {item : RtcpItem} (h : Framed bytes item) :
    0 < bytes.length := by
  cases h with
  | intro => exact succ_pos _

/-- A built header frames a body of whole words. -/
theorem framed_rtcpHeader {pt count : UInt8} {item : RtcpItem} (hcount : count = 0 ∨ count = 1)
    (hwords : 4 ∣ body.length) (hlen : body.length < 2 ^ 18)
    (parsed : parseMember pt count.toNat body = .ok (some [item])) :
    Framed (rtcpHeader pt count body.length ++ body) item := by
  have hvers : (rtcpVersion <<< 6 ||| count &&& 0x1f) >>> 6 = rtcpVersion := by
    cases hcount with
    | inl h | inr h => subst h; rfl
  have hmask : (rtcpVersion <<< 6 ||| count &&& 0x1f) &&& 0x1f = count := by
    cases hcount with
    | inl h | inr h => subst h; rfl
  refine Framed.intro hvers ?_ ?_
  · change (u16Be _ _).toNat * 4 = body.length
    rw [u16Be_ofU16, UInt16.toNat_ofNat']
    omega
  · rw [hmask]
    exact parsed

theorem optionalBlock_fits (reportBlock : Option ReportBlock) : let b := optionalBlock reportBlock
    (b.2 = 0 ∨ b.2 = 1) ∧ (b.1.length = 0 ∨ b.1.length = 24) := by
  cases reportBlock with
  | none => exact ⟨.inl rfl, .inl rfl⟩
  | some b => exact ⟨.inr rfl, .inr rfl⟩

theorem framed_senderReport {ntpTimestamp : UInt64} {rtpTimestamp packetCount octetCount : UInt32}
    (h : ∀ b ∈ reportBlock, FitsCumulative b.cumulativeLost) :
    Framed (buildSenderReport ssrc ntpTimestamp rtpTimestamp packetCount octetCount reportBlock)
      (.senderReport ssrc ntpTimestamp rtpTimestamp packetCount octetCount
        reportBlock.toList) := by
  obtain ⟨hcount, hlen⟩ := optionalBlock_fits reportBlock
  refine framed_rtcpHeader hcount ?_ ?_ ?_
  · rw [length_append, words_length]
    omega
  · rw [length_append, words_length]
    change 24 + _ < _
    omega
  · have hblocks := parseBlocks_optional h [ssrc, (ntpTimestamp >>> 32).toUInt32,
      ntpTimestamp.toUInt32, rtpTimestamp, packetCount, octetCount] 24 rfl
    unfold parseMember
    rw [if_pos rfl, if_neg (by simp),
      u32At_words (i := 0) _ rfl, u32At_words (i := 1) _ rfl, u32At_words (i := 2) _ rfl,
      u32At_words (i := 3) _ rfl, u32At_words (i := 4) _ rfl, u32At_words (i := 5) _ rfl]
    simp only [bind, Except.bind, join_halves, hblocks]

theorem framed_receiverReport (h : ∀ b ∈ reportBlock, FitsCumulative b.cumulativeLost) :
    Framed (buildReceiverReport ssrc reportBlock) (.receiverReport ssrc reportBlock.toList) := by
  obtain ⟨hcount, hlen⟩ := optionalBlock_fits reportBlock
  have hblocks := parseBlocks_optional h [ssrc] 4 rfl
  refine framed_rtcpHeader hcount ?_ ?_ ?_
  · rw [length_append, words_length]
    omega
  · rw [length_append, words_length]
    change 4 + _ < _
    omega
  · unfold parseMember
    rw [if_neg (by decide), if_pos rfl, if_neg (by simp), u32At_words (i := 0) _ rfl]
    simp only [bind, Except.bind, hblocks]

theorem framed_bye (ssrc : UInt32) : Framed (buildBye ssrc) (.bye [ssrc]) := by
  have hread : u32At (words [ssrc] ++ []) 0 = .ok ssrc := u32At_words (i := 0) [] rfl
  rw [append_nil] at hread
  refine framed_rtcpHeader (.inr rfl) ⟨1, rfl⟩ (by simp) ?_
  have hssrcs : byeSsrcs (words [ssrc]) (0 + 1) 0 = .ok [ssrc] := by
    unfold byeSsrcs
    rw [if_neg (by simp), hread]
    rfl
  unfold parseMember
  exact congrArg (· >>= _) hssrcs

/-- One CNAME item and the end of the list, behind any bytes. -/
theorem sdesItems_cname (pre text tail : Bytes) (hlen : len.toNat = text.length) (fuel : Nat) :
    sdesItems (pre ++ (sdesCname :: len :: (text ++ sdesEnd :: tail))) (fuel + 2) pre.length none =
      .ok (some (Utf8.fromUtf8Lossy text), pre.length + 2 + text.length + 1) := by
  generalize hbody : pre ++ (sdesCname :: len :: (text ++ sdesEnd :: tail)) = body
  have hlength : pre.length + 2 + text.length < body.length := by
    rw [← hbody]
    simp only [length_append, length_cons]
    omega
  have htype : body.index pre.length = .ok sdesCname := by
    rw [← hbody]
    exact index_append (i := 0) rfl
  have hlenAt : body.index (pre.length + 1) = .ok len := by
    rw [← hbody]
    exact index_append rfl
  have htext : body.range (pre.length + 2) (pre.length + 2 + text.length) = .ok text := by
    have h := range_append (pre ++ [sdesCname, len]) text (sdesEnd :: tail)
    rw [append_assoc, length_append] at h
    rw [← hbody]
    exact h
  have hend : body.index (pre.length + 2 + text.length) = .ok sdesEnd := by
    rw [← hbody, add_assoc]
    refine index_append ?_
    rw [add_comm 2]
    simp
  unfold sdesItems
  rw [if_neg (by omega), htype]
  simp only [bind, Except.bind]
  rw [if_neg (by decide), if_neg (by omega), hlenAt]
  simp only [hlen]
  rw [if_neg (by omega), if_pos trivial, htext]
  simp only
  unfold sdesItems
  rw [if_neg (by omega), hend]
  rfl

/-- One chunk with a CNAME. -/
theorem sdesChunks_cname (ssrc : UInt32) (text tail : Bytes) (hlen : len.toNat = text.length) :
    sdesChunks (words [ssrc] ++ (sdesCname :: len :: (text ++ sdesEnd :: tail))) 1 0 =
      .ok [.sourceDescription ssrc (some (Utf8.fromUtf8Lossy text))] := by
  have hitems := sdesItems_cname (words [ssrc]) text tail hlen
  have hlength : 6 ≤ (words [ssrc] ++ (sdesCname :: len :: (text ++ sdesEnd :: tail))).length := by
    simp only [length_append, words_length, length_cons]
    omega
  obtain ⟨fuel, hfuel⟩ := Nat.exists_eq_add_of_le' hlength
  unfold sdesChunks
  rw [if_neg (by omega), u32At_words (i := 0) _ rfl]
  simp only [bind, Except.bind]
  rw [hfuel, show fuel + 6 + 1 = (fuel + 5) + 2 from rfl]
  simp only [show ∀ f, sdesItems (words [ssrc] ++ (sdesCname :: len :: (text ++ sdesEnd :: tail)))
    (f + 2) (0 + 4) none = _ from hitems, sdesChunks]

theorem padToWord_length (chunk : Bytes) :
    4 ∣ (padToWord chunk).length ∧ (padToWord chunk).length < chunk.length + 4 := by
  rw [padToWord, length_append, length_replicate]
  omega

theorem framed_sourceDescription {cname : Text} (h : (Utf8.encode cname).length ≤ 255) :
    Framed (buildSourceDescription ssrc cname) (.sourceDescription ssrc (some cname)) := by
  have hlen : (UInt8.ofNat (min (Utf8.encode cname).length 255)).toNat =
      (Utf8.encode cname).length := by
    rw [min_eq_left h, UInt8.toNat_ofNat']
    omega
  unfold buildSourceDescription
  simp only [hlen, take_length]
  have hpad := padToWord_length (words [ssrc] ++ ([sdesCname,
    UInt8.ofNat (min (Utf8.encode cname).length 255)] ++ (Utf8.encode cname ++ [sdesEnd])))
  refine framed_rtcpHeader (.inr rfl) hpad.1 ?_ ?_
  · refine lt_trans hpad.2 ?_
    simp only [length_append, words_length, length_cons, length_nil]
    omega
  · have hchunk := sdesChunks_cname ssrc (Utf8.encode cname)
      (replicate ((4 - (words [ssrc] ++ ([sdesCname,
        UInt8.ofNat (min (Utf8.encode cname).length 255)] ++
          (Utf8.encode cname ++ [sdesEnd]))).length % 4) % 4) 0) hlen
    rw [Utf8.fromUtf8Lossy_encode] at hchunk
    unfold parseMember padToWord
    simp only [append_assoc, cons_append, nil_append] at hchunk ⊢
    exact congrArg (· >>= _) hchunk

theorem framed_unknown {byte0 pt l0 l1 : UInt8} (hvers : byte0 >>> 6 = rtcpVersion)
    (hpt : pt ∉ [ptSr, ptRr, ptSdes, ptBye]) (hlen : (u16Be l0 l1).toNat * 4 = body.length) :
    Framed (byte0 :: pt :: l0 :: l1 :: body) (.unknown pt) := by
  simp only [mem_cons, not_mem_nil, or_false, not_or] at hpt
  obtain ⟨hsr, hrr, hsdes, hbye⟩ := hpt
  refine Framed.intro hvers hlen ?_
  unfold parseMember
  rw [if_neg hsr, if_neg hrr, if_neg hsdes, if_neg hbye]

theorem Member.framed {m : Member} (h : m.WellFormed) : Framed m.bytes m.item := by
  cases m with
  | senderReport ssrc ntpTimestamp rtpTimestamp packetCount octetCount reportBlock =>
    exact framed_senderReport h
  | receiverReport ssrc reportBlock => exact framed_receiverReport h
  | sourceDescription ssrc cname => exact framed_sourceDescription h
  | bye ssrc => exact framed_bye ssrc
  | unknown byte0 pt l0 l1 body => exact framed_unknown h.1 h.2.1 h.2.2

/-! ### The walk over the members -/

section Walk

variable {pre bytes : Bytes} {item : RtcpItem}

/-- One turn of the loop at a version 2 header. -/
theorem parseLoop_header (pre : Bytes) {byte0 : UInt8} (version : byte0 >>> 6 = rtcpVersion)
    (pt l0 l1 : UInt8) (more : Bytes) (fuel : Nat) (items : List RtcpItem) :
    parseLoop (pre ++ (byte0 :: pt :: l0 :: l1 :: more)) (fuel + 1) pre.length items =
      if more.length < (u16Be l0 l1).toNat * 4 then .ok items
      else
        match parseMember pt (byte0 &&& 0x1f).toNat (more.take ((u16Be l0 l1).toNat * 4)) with
        | .error fault => .error fault
        | .ok none => .ok items
        | .ok (some member) =>
          parseLoop (pre ++ (byte0 :: pt :: l0 :: l1 :: more)) fuel
            (pre.length + ((u16Be l0 l1).toNat + 1) * 4) (items ++ member) := by
  generalize hdata : pre ++ (byte0 :: pt :: l0 :: l1 :: more) = data
  have hlength : data.length = pre.length + 4 + more.length := by
    rw [← hdata]
    simp only [length_append, length_cons]
    omega
  have hbyte0 : data.index pre.length = .ok byte0 := by
    rw [← hdata]
    exact index_append (i := 0) rfl
  have hpt : data.index (pre.length + 1) = .ok pt := by rw [← hdata]; exact index_append rfl
  have hl0 : data.index (pre.length + 2) = .ok l0 := by rw [← hdata]; exact index_append rfl
  have hl1 : data.index (pre.length + 3) = .ok l1 := by rw [← hdata]; exact index_append rfl
  conv => lhs; unfold parseLoop
  rw [if_neg (by omega), hbyte0]
  simp only [bind, Except.bind]
  rw [if_neg (not_not.mpr version), hpt, hl0, hl1]
  simp only
  by_cases hshort : more.length < (u16Be l0 l1).toNat * 4
  · rw [if_pos (by omega), if_pos hshort]
  have hbody : data.range (pre.length + 4) (pre.length + ((u16Be l0 l1).toNat + 1) * 4) =
      .ok (more.take ((u16Be l0 l1).toNat * 4)) := by
    have hrange := range_append (pre ++ [byte0, pt, l0, l1])
      (more.take ((u16Be l0 l1).toNat * 4)) (more.drop ((u16Be l0 l1).toNat * 4))
    rw [append_assoc, take_append_drop, length_append, length_take,
      min_eq_left (not_lt.mp hshort)] at hrange
    rw [← hdata, show pre.length + ((u16Be l0 l1).toNat + 1) * 4 =
      pre.length + 4 + (u16Be l0 l1).toNat * 4 by omega]
    exact hrange
  rw [if_neg (by omega), if_neg hshort, hbody]
  simp only
  cases parseMember pt (byte0 &&& 0x1f).toNat (more.take ((u16Be l0 l1).toNat * 4)) with
  | error fault => rfl
  | ok member => cases member <;> rfl

/-- A whole member is read and the walk goes on behind it. -/
theorem parseLoop_framed (h : Framed bytes item) (rest : Bytes) (fuel : Nat)
    (items : List RtcpItem) :
    parseLoop (pre ++ (bytes ++ rest)) (fuel + 1) pre.length items =
      parseLoop (pre ++ (bytes ++ rest)) fuel (pre.length + bytes.length) (items ++ [item]) := by
  cases h with
  | @intro byte0 pt l0 l1 body _ version length parsed =>
    have hturn := parseLoop_header pre version pt l0 l1 (body ++ rest) fuel items
    rw [if_neg (by rw [length_append]; omega), take_left' length.symm, parsed] at hturn
    refine hturn.trans ?_
    rw [show ((u16Be l0 l1).toNat + 1) * 4 = (byte0 :: pt :: l0 :: l1 :: body).length by
      simp only [length_cons]; omega]
    rfl

/-- Fewer than four bytes are no member. -/
theorem parseLoop_short {rest : Bytes} (h : rest.length < 4) (fuel : Nat)
    (items : List RtcpItem) : parseLoop (pre ++ rest) (fuel + 1) pre.length items = .ok items := by
  unfold parseLoop
  rw [if_pos (by rw [length_append]; omega)]

/-- A member that is cut short ends the walk. -/
theorem parseLoop_cut (h : Framed bytes item) {k : Nat} (hk : k < bytes.length) (fuel : Nat)
    (items : List RtcpItem) :
    parseLoop (pre ++ bytes.take k) (fuel + 1) pre.length items = .ok items := by
  by_cases hshort : k < 4
  · refine parseLoop_short ?_ fuel items
    rw [length_take]
    omega
  obtain ⟨j, rfl⟩ := Nat.exists_eq_add_of_le' (Nat.not_lt.mp hshort)
  cases h with
  | @intro byte0 pt l0 l1 body _ version length parsed =>
    have hturn := parseLoop_header pre version pt l0 l1 (body.take j) fuel items
    rw [if_pos] at hturn
    · exact hturn
    · simp only [length_cons] at hk
      rw [length_take]
      omega

end Walk

/-- The members that lie wholly within the first `k` bytes. -/
def within : Nat → List Member → List Member
  | _, [] => []
  | k, m :: ms => if m.bytes.length ≤ k then m :: within (k - m.bytes.length) ms else []

open Member

theorem within_length (ms : List Member) :
    within (compound (ms.map bytes)).length ms = ms := by
  induction ms with
  | nil => rfl
  | cons m ms ih =>
    rw [within, compound, map_cons, flatten_cons, length_append,
      if_pos (Nat.le_add_right _ _), Nat.add_sub_cancel_left]
    exact congrArg (m :: ·) ih

/-- From any member boundary the walk adds the items of the members that are
still whole. -/
theorem parseLoop_take {ms : List Member} (h : ∀ m ∈ ms, m.WellFormed) (pre : Bytes) (k : Nat)
    (hfuel : ((compound (ms.map bytes)).take k).length < fuel) (items : List RtcpItem) :
    parseLoop (pre ++ (compound (ms.map bytes)).take k) fuel pre.length items =
      .ok (items ++ (within k ms).map item) := by
  obtain ⟨fuel, rfl⟩ := Nat.exists_eq_add_of_lt (Nat.lt_of_le_of_lt (Nat.zero_le _) hfuel)
  rw [zero_add] at hfuel ⊢
  induction ms generalizing pre k fuel items with
  | nil =>
    rw [map_nil, compound, flatten_nil, take_nil, within, map_nil, append_nil items]
    exact parseLoop_short (by decide) fuel items
  | cons m ms ih =>
    have hframed := framed (h m mem_cons_self)
    have hcompound : compound ((m :: ms).map bytes) =
        m.bytes ++ compound (ms.map bytes) := rfl
    rw [hcompound] at hfuel ⊢
    by_cases hk : m.bytes.length ≤ k
    · rw [take_append, take_of_length_le hk] at hfuel ⊢
      rw [length_append] at hfuel
      have hpos := hframed.length_pos
      obtain ⟨fuel, rfl⟩ := Nat.exists_eq_add_of_le' (show 1 ≤ fuel by omega)
      rw [parseLoop_framed hframed, within, if_pos hk, map_cons, ← append_assoc, ← length_append]
      refine (ih (fun m' hm' => h m' (mem_cons_of_mem m hm')) _ _ _ _ (by omega)).trans ?_
      rw [append_assoc]
      rfl
    · rw [take_append_of_le_length (Nat.le_of_not_le hk), within, if_neg hk, map_nil, append_nil]
      exact parseLoop_cut hframed (not_le.mp hk) fuel items

/-- Parsing inverts building; of a truncated compound packet it gives the
members that are whole; and on any bytes it returns. -/
theorem parseCompound_inverts (ms : List Member) (h : ∀ m ∈ ms, m.WellFormed) :
    parseCompound (compound (ms.map bytes)) = .ok (ms.map item) ∧
      (∀ k, parseCompound ((compound (ms.map bytes)).take k) =
        .ok ((within k ms).map item)) ∧
      ∀ data, ∃ items, parseCompound data = .ok items := by
  have hcut : ∀ k, parseCompound ((compound (ms.map bytes)).take k) =
      .ok ((within k ms).map item) := fun k =>
    parseLoop_take h [] k (lt_succ_self _) []
  refine ⟨?_, hcut, parseCompound_returns⟩
  have hall := hcut (compound (ms.map bytes)).length
  rw [take_length, within_length] at hall
  exact hall

/-- A negative loss count, a CNAME that needs padding, and a cut inside the
second member. -/
theorem parseCompound_inverts_cut :
    parseCompound ((compound ([.receiverReport 7 (some
        { ssrc := 1, fractionLost := 3, cumulativeLost := -5, highestSeq := 9, jitter := 2,
          lsr := 0, dlsr := 0 }), .sourceDescription 7 "a@b"].map bytes)).take 40) =
      .ok [.receiverReport 7 [
        { ssrc := 1, fractionLost := 3, cumulativeLost := -5, highestSeq := 9, jitter := 2,
          lsr := 0, dlsr := 0 }]] := by
  refine ((parseCompound_inverts _ (forall_mem_cons.mpr
    ⟨?_, forall_mem_singleton.mpr ?_⟩)).2.1 40).trans rfl
  · intro b hb
    cases hb
    exact ⟨by decide, by decide⟩
  · exact (by decide : (Utf8.encode "a@b").length ≤ 255)

end Ims.Rtcp
