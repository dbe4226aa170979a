-- SUMMARY: SMS over IP (`ims/sms_pdu.rs`): the RP envelope and the SMS-DELIVER TPDU.
import Mathlib.Data.List.GetD
import GsmSipBridge.Lib.Text
import GsmSipBridge.Lib.LittleEndian

/-!
# Short messages

The body of a SIP `MESSAGE` is an RP-DATA envelope around an SMS-DELIVER TPDU.
Every read of the source is checked, so a missing byte is an error with the text
the source gives it; building the reports that go back to the network is left out.
-/

namespace Ims.SmsPdu

/-- The fields of a concatenation header: which message, which position, of how many. -/
structure ConcatPart where
  reference : UInt16
  sequence : UInt8
  total : UInt8
  deriving DecidableEq

structure DecodedSms where
  sender : Text
  text : Text
  part : Option ConcatPart
  rpMr : UInt8
  isTypeZero : Bool
  deriving DecidableEq

inductive TpduMessageType where
  | deliver
  | submitReport
  | statusReport
  | reserved
  deriving DecidableEq

def TpduMessageType.fromFirstOctet (firstOctet : UInt8) : TpduMessageType :=
  match (firstOctet &&& 0x03).toNat with
  | 0 => .deliver
  | 1 => .submitReport
  | 2 => .statusReport
  | _ => .reserved

/-- How the type is printed in an error. -/
def TpduMessageType.name : TpduMessageType → Text
  | .deliver => "Deliver"
  | .submitReport => "SubmitReport"
  | .statusReport => "StatusReport"
  | .reserved => "Reserved"

inductive DecodedRp where
  | message (sms : DecodedSms)
  | ack (rpMr : UInt8)
  | error (rpMr : UInt8) (cause : Option UInt8)
  | unsupportedTpdu (rpMr : UInt8) (kind : TpduMessageType)
  | undecodable (rpMr : UInt8)
  deriving DecidableEq

/-- `opt.ok_or(message)`. -/
def okOr {α : Type} (message : Text) : Option α → Except Text α
  | some a => .ok a
  | none => .error message

/-- `buf.get(lo..hi)`. -/
def getRange (buf : Bytes) (lo hi : Nat) : Option Bytes :=
  if lo ≤ hi ∧ hi ≤ buf.length then some (buf.slice lo hi) else none

/-! ## The RP envelope -/

inductive RpMessage where
  | data (mr : UInt8) (userData : Bytes)
  | ack (mr : UInt8)
  | error (mr : UInt8) (cause : Option UInt8)
  deriving DecidableEq

def skipLengthPrefixed (buf : Bytes) (pos : Nat) (field : Text) : Except Text Nat := do
  let len ← okOr ("truncated before " ++ field) buf[pos]?
  let tail := pos + 1 + len.toNat
  if buf.length < tail then .error (field ++ "'s length exceeds the buffer")
  else .ok tail

def RpMessage.parse (buf : Bytes) : Except Text RpMessage := do
  let first ← okOr "empty RP envelope" buf[0]?
  let mti := first &&& 0x07
  let mr ← okOr "RP envelope truncated before RP-Message-Reference" buf[1]?
  match mti.toNat with
  | 1 =>
    let pos ← skipLengthPrefixed buf 2 "RP-Originator-Address"
    let pos ← skipLengthPrefixed buf pos "RP-Destination-Address"
    let udLen ← okOr "RP-DATA truncated before RP-User-Data length" buf[pos]?
    let userData ← okOr "RP-DATA's RP-User-Data length exceeds the buffer"
      (getRange buf (pos + 1) (pos + 1 + udLen.toNat))
    return .data mr userData
  | 3 => return .ack mr
  | 5 =>
    let cause :=
      match buf[2]? with
      | some len => if 1 ≤ len.toNat then buf[3]? else none
      | none => none
    return .error mr cause
  | other =>
    .error ("RP message type indicator " ++ Numeral.display other ++
      " is not a network-to-MS value this bridge expects to receive")

/-! ## Alphabets -/

inductive Alphabet where
  | gsm7
  | octet
  | ucs2
  deriving DecidableEq

def Alphabet.fromDcs (dcs : UInt8) : Alphabet :=
  if dcs &&& 0xc0 = 0x00 then
    match ((dcs >>> 2) &&& 0x03).toNat with
    | 1 => .octet
    | 2 => .ucs2
    | _ => .gsm7
  else if dcs &&& 0xf0 = 0xf0 then
    if dcs &&& 0x04 ≠ 0 then .octet else .gsm7
  else if dcs &&& 0xf0 = 0xe0 then .ucs2
  else .gsm7

/-- Septet `k` of packed data, from the octets it starts and ends in. -/
def septetAt (low : UInt8) (next : Option UInt8) (bitIndex : Nat) : UInt8 :=
  let high :=
    match next with
    | some b => if 0 < bitIndex then b.toNat <<< (8 - bitIndex) else 0
    | none => 0
  UInt8.ofNat ((low.toNat >>> bitIndex ||| high) &&& 0x7f)

/-- `count` septets from septet `k` on; the loop ends where the data does. -/
def unpackFrom (data : Bytes) (k : Nat) : (count : Nat) → Bytes
  | 0 => []
  | count + 1 =>
    match data[k * 7 / 8]? with
    | none => []
    | some low => septetAt low data[k * 7 / 8 + 1]? (k * 7 % 8) :: unpackFrom data (k + 1) count

def unpackSeptets (data : Bytes) (count : Nat) : Bytes :=
  unpackFrom data 0 count

def defaultAlphabet : List Char :=
  ['@', '£', '$', '¥', 'è', 'é', 'ù', 'ì', 'ò', 'Ç', '\n', 'Ø', 'ø', '\r', 'Å', 'å',
   'Δ', '_', 'Φ', 'Γ', 'Λ', 'Ω', 'Π', 'Ψ', 'Σ', 'Θ', 'Ξ', '\x1b', 'Æ', 'æ', 'ß', 'É',
   ' ', '!', '\"', '#', '¤', '%', '&', '\'', '(', ')', '*', '+', ',', '-', '.', '/',
   '0', '1', '2', '3', '4', '5', '6', '7', '8', '9', ':', ';', '<', '=', '>', '?',
   '¡', 'A', 'B', 'C', 'D', 'E', 'F', 'G', 'H', 'I', 'J', 'K', 'L', 'M', 'N', 'O',
   'P', 'Q', 'R', 'S', 'T', 'U', 'V', 'W', 'X', 'Y', 'Z', 'Ä', 'Ö', 'Ñ', 'Ü', '§',
   '¿', 'a', 'b', 'c', 'd', 'e', 'f', 'g', 'h', 'i', 'j', 'k', 'l', 'm', 'n', 'o',
   'p', 'q', 'r', 's', 't', 'u', 'v', 'w', 'x', 'y', 'z', 'ä', 'ö', 'ñ', 'ü', 'à']

/-- The characters behind an escape. -/
def extension (ext : UInt8) : Option Char :=
  match ext.toNat with
  | 0x14 => some '^'
  | 0x28 => some '\x7b'
  | 0x29 => some '\x7d'
  | 0x2f => some '\\'
  | 0x3c => some '['
  | 0x3d => some '~'
  | 0x3e => some ']'
  | 0x40 => some '|'
  | 0x65 => some '€'
  | _ => none

/-- The text, and whether an escape was met that the alphabet does not define. -/
def decodeGsm7ReportingEscapes : Bytes → Text × Bool
  | [] => ([], false)
  | [sep] =>
    -- an escape at the end stands for one into position zero, which is not defined
    if sep = 0x1b then ([' '], true) else ([defaultAlphabet.getD (sep &&& 0x7f).toNat ' '], false)
  | sep :: ext :: rest =>
    if sep = 0x1b then
      let tail := decodeGsm7ReportingEscapes rest
      match extension ext with
      | some c => (c :: tail.1, tail.2)
      | none => (' ' :: tail.1, true)
    else
      let tail := decodeGsm7ReportingEscapes (ext :: rest)
      (defaultAlphabet.getD (sep &&& 0x7f).toNat ' ' :: tail.1, tail.2)

def decodeGsm7 (septets : Bytes) : Text :=
  (decodeGsm7ReportingEscapes septets).1

/-- Big-endian code units; an odd last byte is the high half of one. -/
def codeUnits : Bytes → List Nat
  | hi :: lo :: rest => (hi.toNat * 256 + lo.toNat) :: codeUnits rest
  | [hi] => [hi.toNat * 256]
  | [] => []

/-- `char::from_u32`. -/
def charFromU32 (n : Nat) : Option Char :=
  if h : n.isValidChar then some (Char.ofNatAux n h) else none

def isHighSurrogate (unit : Nat) : Bool := 0xd800 ≤ unit && unit ≤ 0xdbff
def isLowSurrogate (unit : Nat) : Bool := 0xdc00 ≤ unit && unit ≤ 0xdfff

def decodeUnits : List Nat → Text
  | [] => []
  | [unit] =>
    [if isHighSurrogate unit then Utf8.replacement else (charFromU32 unit).getD Utf8.replacement]
  | unit :: low :: rest =>
    if isHighSurrogate unit then
      if isLowSurrogate low then
        (charFromU32 (0x10000 + (unit - 0xd800) * 0x400 + (low - 0xdc00))).getD Utf8.replacement ::
          decodeUnits rest
      else Utf8.replacement :: decodeUnits (low :: rest)
    else (charFromU32 unit).getD Utf8.replacement :: decodeUnits (low :: rest)

def decodeUcs2 (bytes : Bytes) : Text :=
  decodeUnits (codeUnits bytes)

/-! ## The TPDU -/

/-- The first concatenation element of a header; `fuel` bounds the elements read. -/
def parseConcatenationFrom : (fuel : Nat) → Bytes → Option ConcatPart
  | 0, _ => none
  | fuel + 1, udh =>
    match udh with
    | iei :: ieLen :: rest =>
      if rest.length < ieLen.toNat then none
      else
        let ie := rest.take ieLen.toNat
        match iei.toNat, ie with
        | 0x00, a :: b :: c :: _ => some { reference := a.toUInt16, total := b, sequence := c }
        | 0x08, a :: b :: c :: d :: _ =>
          some { reference := Bytes.u16Be a b, total := c, sequence := d }
        | _, _ => parseConcatenationFrom fuel (rest.drop ieLen.toNat)
    | _ => none

def parseConcatenationUdh (udh : Bytes) : Option ConcatPart :=
  parseConcatenationFrom udh.length udh

/-- The digits of an address, low half first, until `limit` characters are there. -/
def pushNibbles (limit : Nat) : List Nat → Text → Text
  | [], digits => digits
  | nibble :: rest, digits =>
    if limit ≤ digits.length then digits
    else if nibble ≤ 9 then pushNibbles limit rest (digits ++ [Char.ofNat (48 + nibble)])
    else if nibble = 0xf then digits
    else pushNibbles limit rest (digits ++ ['?'])

def decodeAddress (typeOfAddress : UInt8) (digitCount : Nat) (bytes : Bytes) : Text :=
  let scheme := ((typeOfAddress >>> 4) &&& 0x07).toNat
  if scheme = 5 then decodeGsm7 (unpackSeptets bytes (digitCount * 4 / 7))
  else
    let plus : Text := if scheme = 1 then ['+'] else []
    pushNibbles (digitCount + plus.length)
      (bytes.flatMap fun (b : UInt8) => [(b &&& 0x0f).toNat, (b >>> 4).toNat]) plus

def isTypeZeroPid (pid : UInt8) : Bool :=
  pid >>> 6 == 1 && pid &&& 0x3f == 0

def isPrintable (b : UInt8) : Bool :=
  0x20 ≤ b.toNat && b.toNat ≤ 0x7e

/-- Raw ASCII sent where packed septets were announced: the septets hold an escape
that is not one, and the octets themselves are printable. -/
def readsAsAscii (ud : Bytes) (udl udhOctets : Nat) (badEscape : Bool) : Bool :=
  udhOctets == 0 && badEscape && udl ≤ ud.length && (ud.take udl).all isPrintable

/-- The text behind a header of `udhOctets` octets. -/
def decodeText (ud : Bytes) (udl : Nat) (alphabet : Alphabet) (udhOctets : Nat) : Text :=
  match alphabet with
  | .gsm7 =>
    let fillSeptets := (udhOctets * 8 + 6) / 7
    let unpacked := decodeGsm7ReportingEscapes ((unpackSeptets ud udl).drop fillSeptets)
    if readsAsAscii ud udl udhOctets unpacked.2 then Utf8.fromUtf8Lossy (ud.take udl)
    else unpacked.1
  | .ucs2 => decodeUcs2 ((getRange ud udhOctets udl).getD [])
  | .octet => Utf8.fromUtf8Lossy ((getRange ud udhOctets udl).getD [])

def decodeUserData (ud : Bytes) (udl : Nat) (alphabet : Alphabet) (udhi : Bool) :
    Except Text (Option ConcatPart × Text) := do
  if udhi then
    let udhl ← okOr "TP-UDHI set but TP-UD is empty" ud[0]?
    let udh ← okOr "UDH length exceeds TP-UD" (getRange ud 1 (1 + udhl.toNat))
    return (parseConcatenationUdh udh, decodeText ud udl alphabet (1 + udhl.toNat))
  else return (none, decodeText ud udl alphabet 0)

structure SmsDeliverTpdu where
  originatingAddress : Text
  text : Text
  part : Option ConcatPart
  isTypeZero : Bool

def SmsDeliverTpdu.parse (buf : Bytes) : Except Text SmsDeliverTpdu := do
  let firstOctet ← okOr "empty TPDU" buf[0]?
  let mti := TpduMessageType.fromFirstOctet firstOctet
  if mti ≠ .deliver then .error ("TPDU is " ++ mti.name ++ ", not SMS-DELIVER")
  else
    let udhi := firstOctet &&& 0x40 != 0
    let oaDigitCount ← okOr "TPDU truncated before TP-OA length" buf[1]?
    let oaType ← okOr "TPDU truncated before TP-OA type" buf[2]?
    let oaOctets := (oaDigitCount.toNat + 1) / 2
    let oaBytes ← okOr "TP-OA digits exceed the buffer" (getRange buf 3 (3 + oaOctets))
    let pos := 3 + oaOctets
    let pid ← okOr "TPDU truncated before TP-PID" buf[pos]?
    let dcs ← okOr "TPDU truncated before TP-DCS" buf[pos + 1]?
    -- seven octets of time stamp
    let udl ← okOr "TPDU truncated before TP-UDL" buf[pos + 9]?
    let ud ← okOr "TPDU truncated at TP-UD" (getRange buf (pos + 10) buf.length)
    let userData ← decodeUserData ud udl.toNat (Alphabet.fromDcs dcs) udhi
    return { originatingAddress := decodeAddress oaType oaDigitCount.toNat oaBytes
             text := userData.2
             part := userData.1
             isTypeZero := isTypeZeroPid pid }

def decodeSmsDeliverTpdu (tpdu : Bytes) : Except Text DecodedSms := do
  let parsed ← SmsDeliverTpdu.parse tpdu
  return { sender := parsed.originatingAddress, text := parsed.text, part := parsed.part, rpMr := 0,
           isTypeZero := parsed.isTypeZero }

def decodeVnd3gppSms (body : Bytes) : Except Text DecodedRp := do
  match ← RpMessage.parse body with
  | .data mr userData =>
    let kind := (userData.head?.map TpduMessageType.fromFirstOctet).getD .reserved
    if kind ≠ .deliver then return .unsupportedTpdu mr kind
    else
      match decodeSmsDeliverTpdu userData with
      | .ok decoded => return .message { decoded with rpMr := mr }
      | .error _ => return .undecodable mr
  | .ack mr => return .ack mr
  | .error mr cause => return .error mr cause

/-! ## Coded text

A text over the GSM alphabet is a string of septets, two for a character behind the
escape. Packed septets are the digits of one little-endian number; behind a header
they begin at the next multiple of seven bits. Any other text is UTF-16, big-endian,
with two units for a character outside the basic plane. -/

open LittleEndian List Nat

variable {c : Char} {text : Text} {septets data : Bytes} {k : Nat}

/-! ### The GSM alphabet -/

/-- The characters behind the escape and their codes. -/
def extensionCodes : List (Char × UInt8) :=
  [('^', 0x14), ('\x7b', 0x28), ('\x7d', 0x29), ('\\', 0x2f), ('[', 0x3c), ('~', 0x3d),
   (']', 0x3e), ('|', 0x40), ('€', 0x65)]

/-- The septets of a character of the alphabet. -/
def septetsOf (c : Char) : Option Bytes :=
  match extensionCodes.lookup c with
  | some code => some [0x1b, code]
  | none => if c = '\x1b' then none else (defaultAlphabet.idxOf? c).map fun i => [UInt8.ofNat i]

/-- Every character of the text is in the alphabet. -/
def InGsm7 (text : Text) : Prop :=
  ∀ c ∈ text, (septetsOf c).isSome = true

def gsm7Septets (text : Text) : Bytes :=
  text.flatMap fun c => (septetsOf c).getD []

/-- A character is one septet, not the escape, or the escape and a code. -/
theorem septetsOf_cases (h : septetsOf c = some septets) :
    (∃ sep, septets = [sep] ∧ sep ≠ 0x1b ∧ sep.toNat < 128 ∧
      defaultAlphabet.getD (sep &&& 0x7f).toNat ' ' = c) ∨
    (∃ ext, septets = [0x1b, ext] ∧ ext.toNat < 128 ∧ extension ext = some c) := by
  unfold septetsOf at h
  cases hlookup : extensionCodes.lookup c with
  | some code =>
    rw [hlookup] at h
    cases h
    have htable : ∀ p ∈ extensionCodes, p.2.toNat < 128 ∧ extension p.2 = some p.1 := by decide
    have hmem : (c, code) ∈ extensionCodes := by
      obtain ⟨l₁, l₂, heq, -⟩ := lookup_eq_some_iff.mp hlookup
      rw [heq]
      exact mem_append_right _ mem_cons_self
    exact .inr ⟨code, rfl, htable _ hmem⟩
  | none =>
    rw [hlookup] at h
    dsimp only at h
    split at h
    · cases h
    rename_i hesc
    obtain ⟨i, hi, rfl⟩ := Option.map_eq_some_iff.mp h
    obtain ⟨hlt, hat, -⟩ := findIdx?_eq_some_iff_getElem.mp hi
    have hlt' : i < 128 := hlt
    have hc : defaultAlphabet[i] = c := eq_of_beq hat
    have hto : (UInt8.ofNat i).toNat = i := UInt8.toNat_ofNat_of_lt' (lt_trans hlt' (by decide))
    refine .inl ⟨UInt8.ofNat i, rfl, ?_, by omega, ?_⟩
    · intro heq
      have h27 : i = 27 := by
        have := congrArg UInt8.toNat heq
        rw [hto] at this
        exact this
      subst h27
      exact hesc hc.symm
    · rw [UInt8.toNat_and, hto, show (0x7f : UInt8).toNat = 2 ^ 7 - 1 from rfl,
        and_two_pow_sub_one_eq_mod, mod_eq_of_lt hlt']
      exact (getD_eq_getElem _ _ hlt).trans hc

theorem decode_plain {sep : UInt8} (h : sep ≠ 0x1b) (rest : Bytes) :
    decodeGsm7ReportingEscapes (sep :: rest) =
      (defaultAlphabet.getD (sep &&& 0x7f).toNat ' ' :: (decodeGsm7ReportingEscapes rest).1,
        (decodeGsm7ReportingEscapes rest).2) := by
  cases rest with
  | nil | cons => exact if_neg h

theorem decode_escape {ext : UInt8} (h : extension ext = some c) (rest : Bytes) :
    decodeGsm7ReportingEscapes (0x1b :: ext :: rest) =
      (c :: (decodeGsm7ReportingEscapes rest).1, (decodeGsm7ReportingEscapes rest).2) := by
  rw [decodeGsm7ReportingEscapes, if_pos rfl, h]

theorem gsm7Septets_cons (h : septetsOf c = some septets) :
    gsm7Septets (c :: text) = septets ++ gsm7Septets text := by
  unfold gsm7Septets
  rw [flatMap_cons, h]
  rfl

/-- The text is read back, and no undefined escape is met. -/
theorem decodeGsm7_septets (h : InGsm7 text) :
    decodeGsm7ReportingEscapes (gsm7Septets text) = (text, false) := by
  induction text with
  | nil => rfl
  | cons c text ih =>
    obtain ⟨hc, htext⟩ := forall_mem_cons.mp h
    obtain ⟨septets, hseptets⟩ := Option.isSome_iff_exists.mp hc
    have ih := ih htext
    rw [gsm7Septets_cons hseptets]
    obtain ⟨sep, rfl, hesc, -, hchar⟩ | ⟨ext, rfl, -, hext⟩ := septetsOf_cases hseptets
    · rw [singleton_append, decode_plain hesc, ih, hchar]
    · rw [cons_append, singleton_append, decode_escape hext, ih]

theorem gsm7Septets_lt (h : InGsm7 text) : ∀ sep ∈ gsm7Septets text, sep.toNat < 128 := by
  intro sep hsep
  obtain ⟨c, hc, hmem⟩ := mem_flatMap.mp hsep
  obtain ⟨septets, hseptets⟩ := Option.isSome_iff_exists.mp (h c hc)
  rw [hseptets] at hmem
  obtain ⟨sep', rfl, -, hlt, -⟩ | ⟨ext, rfl, hlt, -⟩ := septetsOf_cases hseptets
  · exact mem_singleton.mp hmem ▸ hlt
  · cases mem_pair.mp hmem with
    | inl hesc => exact hesc ▸ (by decide : (0x1b : UInt8).toNat < 128)
    | inr hext => exact hext ▸ hlt

/-! ### Packing -/

/-- The septets a header of `n` octets takes up, with its fill bits. -/
def fillSeptets (n : Nat) : Nat := (n * 8 + 6) / 7

/-- Septets packed behind a header, from the next multiple of seven bits on. -/
def packAfter (header septets : Bytes) : Bytes :=
  bytes
    (number 256 header +
      2 ^ (7 * fillSeptets header.length) * number 128 septets)
    ((7 * (fillSeptets header.length + septets.length) + 7) / 8)

theorem septetAt_eq {first : UInt8} (h : data[k * 7 / 8]? = some first) :
    septetAt first data[k * 7 / 8 + 1]? (k * 7 % 8) =
      UInt8.ofNat (number 256 data / 2 ^ (7 * k) % 128) := by
  have hbytes : ∀ d ∈ data, d.toNat < 256 := fun d _ => d.toNat_lt
  have hfirst := number_digit (by decide) hbytes h
  -- what is left of the number above the octet the septet starts in
  generalize hn : number 256 data / 256 ^ (k * 7 / 8) = n at hfirst
  have hshift : number 256 data / 2 ^ (7 * k) = n / 2 ^ (k * 7 % 8) := by
    rw [← hn, Nat.div_div_eq_div_mul, show (256 : Nat) = 2 ^ 8 from rfl, ← Nat.pow_mul, ← Nat.pow_add]
    congr 2
    omega
  have habove : number 256 data / 256 ^ (k * 7 / 8 + 1) = n / 256 := by
    rw [Nat.pow_succ, ← Nat.div_div_eq_div_mul, hn]
  rw [hshift]
  unfold septetAt
  rw [← hfirst]
  by_cases hbit : 0 < k * 7 % 8
  · rw [← window (mod_lt _ (by decide))]
    cases hnext : data[k * 7 / 8 + 1]? with
    | some b =>
      have hb := number_digit (by decide) hbytes hnext
      rw [habove] at hb
      dsimp only
      rw [if_pos hbit, hb]
    | none =>
      have hzero := number_div_eq_zero (by decide) hbytes
        (getElem?_eq_none_iff.mp hnext)
      rw [habove] at hzero
      rw [hzero, zero_shiftLeft]
  · have hzero : k * 7 % 8 = 0 := Nat.eq_zero_of_not_pos hbit
    rw [hzero, Nat.pow_zero, Nat.div_one]
    refine congrArg UInt8.ofNat ?_
    cases data[k * 7 / 8 + 1]? with
    | some | none =>
      exact (congrArg (· &&& 0x7f) (or_zero _)).trans (window_zero n)

/-- The septets that are there are digits of the number in base 128. -/
theorem unpackFrom_eq {count : Nat} (h : (k + count) * 7 ≤ data.length * 8) :
    unpackFrom data k count = (List.range' k count).map fun j =>
      UInt8.ofNat (number 256 data / 2 ^ (7 * j) % 128) := by
  induction count generalizing k with
  | zero => rfl
  | succ count ih =>
    have hlt : k * 7 / 8 < data.length := by omega
    have hfirst := getElem?_eq_getElem hlt
    unfold unpackFrom
    rw [hfirst, range'_succ, map_cons, ih (by omega)]
    dsimp only
    rw [septetAt_eq hfirst]

section Pack

variable (header septets : Bytes)

theorem packAfter_length :
    (packAfter header septets).length =
      (7 * (fillSeptets header.length + septets.length) + 7) / 8 :=
  bytes_length _ _

theorem header_le_fill : 8 * header.length ≤ 7 * fillSeptets header.length := by
  unfold fillSeptets
  omega

/-- The header does not reach into the text's septets. -/
theorem number_header_lt :
    number 256 header < 2 ^ (7 * fillSeptets header.length) := by
  have hlt := number_lt (by decide) fun d (_ : d ∈ header) => d.toNat_lt
  refine lt_of_lt_of_le hlt ?_
  rw [← pow_mul]
  exact Nat.pow_le_pow_right (by decide) (header_le_fill header)

theorem packAfter_take : (packAfter header septets).take header.length = header := by
  have hfill := header_le_fill header
  have hlow : 2 ^ (7 * fillSeptets header.length) =
      256 ^ header.length * 2 ^ (7 * fillSeptets header.length - 8 * header.length) := by
    rw [show (256 : Nat) = 2 ^ 8 from rfl, ← pow_mul, ← pow_add]
    congr 1
    omega
  unfold packAfter
  rw [bytes_take (by omega), hlow, mul_assoc]
  exact bytes_number_add _ _

variable {septets}

theorem number_packAfter (h : ∀ sep ∈ septets, sep.toNat < 128) :
    number 256 (packAfter header septets) =
      number 256 header +
        2 ^ (7 * fillSeptets header.length) * number 128 septets := by
  unfold packAfter
  rw [number_bytes]
  refine mod_eq_of_lt ?_
  have hheader := number_header_lt header
  have hseptets : number 128 septets < 2 ^ (7 * septets.length) := by
    have hlt := number_lt (by decide) h
    rwa [show (128 : Nat) = 2 ^ 7 from rfl, ← pow_mul] at hlt
  calc number 256 header +
        2 ^ (7 * fillSeptets header.length) * number 128 septets
      < 2 ^ (7 * fillSeptets header.length) * (number 128 septets + 1) := by
        rw [add_comm]
        exact Nat.add_lt_add_left hheader _
    _ ≤ 2 ^ (7 * fillSeptets header.length) * 2 ^ (7 * septets.length) :=
        mul_le_mul_left _ hseptets
    _ = 2 ^ (7 * (fillSeptets header.length + septets.length)) := by
        rw [← pow_add, mul_add]
    _ ≤ 256 ^ ((7 * (fillSeptets header.length + septets.length) + 7) / 8) := by
        rw [show (256 : Nat) = 2 ^ 8 from rfl, ← pow_mul]
        exact Nat.pow_le_pow_right (by decide) (by omega)

/-- The text's septets, whatever the header's length. -/
theorem unpackSeptets_packAfter (h : ∀ sep ∈ septets, sep.toNat < 128) :
    (unpackSeptets (packAfter header septets) (fillSeptets header.length + septets.length)).drop
      (fillSeptets header.length) = septets := by
  have hlength := packAfter_length header septets
  unfold unpackSeptets
  rw [unpackFrom_eq (by omega), ← map_drop, drop_range', Nat.add_sub_cancel_left,
    number_packAfter header h]
  refine ext_getElem? fun j => ?_
  rw [getElem?_map]
  by_cases hj : j < septets.length
  · rw [getElem?_range' hj, getElem?_eq_getElem hj]
    have hdigit := number_digit (by decide) h (getElem?_eq_getElem hj)
    have hheader := number_header_lt header
    dsimp only [Option.map]
    rw [show 7 * (0 + fillSeptets header.length * 1 + 1 * j) =
        7 * fillSeptets header.length + 7 * j by omega, Nat.pow_add, ← Nat.div_div_eq_div_mul,
      Nat.add_mul_div_left _ _ (Nat.two_pow_pos _), Nat.div_eq_of_lt hheader, Nat.zero_add,
      pow_mul, show (2 ^ 7 : Nat) = 128 from rfl, hdigit, UInt8.ofNat_toNat]
  · rw [getElem?_eq_none (by rw [length_range']; omega), getElem?_eq_none (by omega)]
    rfl

end Pack

/-! ### UTF-16 -/

/-- The code units of a character. -/
def utf16Units (c : Char) : List Nat :=
  if c.toNat < 0x10000 then [c.toNat]
  else [0xd800 + (c.toNat - 0x10000) / 0x400, 0xdc00 + (c.toNat - 0x10000) % 0x400]

/-- A code unit, high byte first. -/
def unitBytes (unit : Nat) : Bytes := [UInt8.ofNat (unit / 256), UInt8.ofNat unit]

def utf16Be (text : Text) : Bytes :=
  (text.flatMap utf16Units).flatMap unitBytes

theorem codeUnits_unitBytes {units : List Nat} (h : ∀ unit ∈ units, unit < 0x10000) :
    codeUnits (units.flatMap unitBytes) = units := by
  induction units with
  | nil => rfl
  | cons unit units ih =>
    obtain ⟨hunit, hunits⟩ := forall_mem_cons.mp h
    change (((UInt8.ofNat (unit / 256)).toNat * 256 + (UInt8.ofNat unit).toNat) ::
      codeUnits (units.flatMap unitBytes)) = unit :: units
    rw [ih hunits, UInt8.toNat_ofNat', UInt8.toNat_ofNat']
    congr 1
    omega

theorem utf16Units_lt (c : Char) : ∀ unit ∈ utf16Units c, unit < 0x10000 := by
  have hscalar := Utf8.scalar c
  intro unit hunit
  unfold utf16Units at hunit
  split at hunit
  · rw [mem_singleton.mp hunit]
    assumption
  · cases mem_pair.mp hunit with
    | inl | inr => omega

theorem charFromU32_toNat (c : Char) : charFromU32 c.toNat = some c := by
  have hvalid : c.toNat.isValidChar := c.valid
  unfold charFromU32
  rw [dif_pos hvalid]
  rfl

/-- One character's units, whatever follows. -/
theorem decodeUnits_append (c : Char) (rest : List Nat) :
    decodeUnits (utf16Units c ++ rest) = c :: decodeUnits rest := by
  have hscalar := Utf8.scalar c
  unfold utf16Units
  split
  · -- in the basic plane, and so not a surrogate
    have hnot : isHighSurrogate c.toNat = false := by
      unfold isHighSurrogate
      simp only [Bool.and_eq_false_iff, decide_eq_false_iff_not]
      omega
    cases rest with
    | nil =>
      change [if isHighSurrogate c.toNat = true then _ else _] = _
      rw [hnot, charFromU32_toNat]
      rfl
    | cons low rest =>
      change (if isHighSurrogate c.toNat = true then _ else _) = _
      rw [hnot, charFromU32_toNat]
      rfl
  · have hhigh : isHighSurrogate (0xd800 + (c.toNat - 0x10000) / 0x400) = true := by
      unfold isHighSurrogate
      simp only [Bool.and_eq_true, decide_eq_true_iff]
      omega
    have hlow : isLowSurrogate (0xdc00 + (c.toNat - 0x10000) % 0x400) = true := by
      unfold isLowSurrogate
      simp only [Bool.and_eq_true, decide_eq_true_iff]
      omega
    have hcode : 0x10000 + (0xd800 + (c.toNat - 0x10000) / 0x400 - 0xd800) * 0x400 +
        (0xdc00 + (c.toNat - 0x10000) % 0x400 - 0xdc00) = c.toNat := by omega
    rw [cons_append, singleton_append]
    rw [decodeUnits, if_pos hhigh, if_pos hlow, hcode, charFromU32_toNat]
    rfl

theorem decodeUnits_flatMap (text : Text) : decodeUnits (text.flatMap utf16Units) = text := by
  induction text with
  | nil => rfl
  | cons c text ih => rw [flatMap_cons, decodeUnits_append, ih]

/-- Every text is read back. -/
theorem decodeUcs2_utf16Be (text : Text) : decodeUcs2 (utf16Be text) = text := by
  unfold decodeUcs2 utf16Be
  rw [codeUnits_unitBytes, decodeUnits_flatMap]
  intro unit hunit
  obtain ⟨c, -, hmem⟩ := mem_flatMap.mp hunit
  exact utf16Units_lt c unit hmem

end Ims.SmsPdu
