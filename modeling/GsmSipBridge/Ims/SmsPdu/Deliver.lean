-- SUMMARY: SMS-DELIVER messages as TS 23.040 writes them, and when decoding gives them back.
import Mathlib.Data.Bool.AllAny
import GsmSipBridge.Ims.SmsPdu

/-!
# Delivered messages

A message is written as the standards lay it out: an RP-DATA envelope with any
addresses, the TPDU with its sender, identifiers, time stamp, header and text. The
decoder gives back what was written, with one exception: a data coding scheme that
marks the message for automatic deletion and says UCS-2 is read as septets.
-/

namespace Ims.SmsPdu

open List UInt8

variable {dcs : UInt8}

/-! ## The sender -/

/-- A number of some type, or a name. -/
inductive Sender where
  | digits (typeOfAddress : UInt8) (digits : Text)
  | name (typeOfAddress : UInt8) (name : Text)

/-- Bits 6 to 4 of the type of address. -/
def typeOfNumber (typeOfAddress : UInt8) : Nat := ((typeOfAddress >>> 4) &&& 0x07).toNat

def digitValue (c : Char) : Nat := c.toNat - 48

/-- Semi-octets in pairs, the first one low; a fill in the last high half. -/
def semiOctets : List Nat → Bytes
  | low :: high :: rest => UInt8.ofNat (high * 16 + low) :: semiOctets rest
  | [low] => [UInt8.ofNat (0xf * 16 + low)]
  | [] => []

namespace Sender

def typeOfAddress : Sender → UInt8
  | digits t _ | name t _ => t

/-- The useful semi-octets, as the length field counts them. -/
def length : Sender → Nat
  | digits _ ds => ds.length
  | name _ n => (7 * (gsm7Septets n).length + 3) / 4

def octets : Sender → Bytes
  | digits _ ds => semiOctets (ds.map digitValue)
  | name _ n => packAfter [] (gsm7Septets n)

/-- How the sender is shown: an international number has a plus. -/
def display : Sender → Text
  | digits t ds => (if typeOfNumber t = 1 then ['+'] else []) ++ ds
  | name _ n => n

/-- Decimal digits, or a name over the GSM alphabet with the type that says so. -/
def WellFormed : Sender → Prop
  | digits t ds => typeOfNumber t ≠ 5 ∧ ∀ c ∈ ds, 48 ≤ c.toNat ∧ c.toNat ≤ 57
  | name t n => typeOfNumber t = 5 ∧ InGsm7 n

end Sender

theorem pushNibbles_digits {ds : Text} (h : ∀ c ∈ ds, 48 ≤ c.toNat ∧ c.toNat ≤ 57)
    (tail : List Nat) (acc : Text) :
    pushNibbles (acc.length + ds.length) (ds.map digitValue ++ tail) acc = acc ++ ds := by
  induction ds generalizing acc with
  | nil =>
    rw [append_nil]
    cases tail with
    | nil => rfl
    | cons nibble tail => exact if_pos (Nat.le_refl _)
  | cons c ds ih =>
    obtain ⟨⟨hlow, hhigh⟩, hds⟩ := forall_mem_cons.mp h
    have hchar : Char.ofNat (48 + digitValue c) = c :=
      Utf8.ofNat_eq (by unfold digitValue; omega)
    have ih := ih hds (acc ++ [c])
    rw [length_append, length_singleton, append_assoc, Nat.add_assoc, Nat.add_comm 1] at ih
    rw [map_cons, cons_append, pushNibbles,
      if_neg (by rw [length_cons]; omega), if_pos (by unfold digitValue; omega), hchar]
    exact ih

theorem nibbles_semiOctets {ds : List Nat} (h : ∀ d ∈ ds, d < 16) :
    ∃ tail, ((semiOctets ds).flatMap fun b : UInt8 => [(b &&& 0x0f).toNat, (b >>> 4).toNat]) =
      ds ++ tail := by
  have hlow : ∀ {high low : Nat}, high < 16 → low < 16 →
      (ofNat (high * 16 + low) &&& 0x0f).toNat = low := by
    intro high low hhigh hlow
    rw [UInt8.toNat_and, UInt8.toNat_ofNat', show (0x0f : UInt8).toNat = 2 ^ 4 - 1 from rfl,
      Nat.and_two_pow_sub_one_eq_mod]
    omega
  have hhigh : ∀ {high low : Nat}, high < 16 → low < 16 →
      (ofNat (high * 16 + low) >>> 4).toNat = high := by
    intro high low hhigh hlow
    rw [UInt8.toNat_shiftRight, Nat.shiftRight_eq_div_pow]
    change (high * 16 + low) % 2 ^ 8 / 2 ^ 4 = high
    omega
  induction ds using semiOctets.induct with
  | case1 low high rest ih =>
    obtain ⟨h1, hrest⟩ := forall_mem_cons.mp h
    obtain ⟨h2, hrest⟩ := forall_mem_cons.mp hrest
    obtain ⟨tail, htail⟩ := ih hrest
    refine ⟨tail, ?_⟩
    rw [semiOctets, flatMap_cons, htail, hlow h2 h1, hhigh h2 h1]
    rfl
  | case2 low =>
    have h1 := forall_mem_singleton.mp h
    refine ⟨[0xf], ?_⟩
    rw [semiOctets, flatMap_cons, hlow (by decide) h1, hhigh (by decide) h1]
    rfl
  | case3 => exact ⟨[], rfl⟩

theorem semiOctets_length (ds : List Nat) : (semiOctets ds).length = (ds.length + 1) / 2 := by
  induction ds using semiOctets.induct with
  | case1 low high rest ih =>
    rw [semiOctets, length_cons, length_cons, length_cons]
    omega
  | case2 low => simp [semiOctets]
  | case3 => rfl

theorem Sender.octets_length (s : Sender) : s.octets.length = (s.length + 1) / 2 := by
  cases s with
  | digits t ds =>
    unfold octets Sender.length
    rw [semiOctets_length, length_map]
  | name t n =>
    unfold octets Sender.length
    rw [packAfter_length]
    change (7 * (0 + (gsm7Septets n).length) + 7) / 8 = ((7 * (gsm7Septets n).length + 3) / 4 + 1) / 2
    omega

/-- The sender is shown as it was written. -/
theorem decodeAddress_octets {s : Sender} (h : s.WellFormed) :
    decodeAddress s.typeOfAddress s.length s.octets = s.display := by
  cases s with
  | digits t ds =>
    obtain ⟨htype, hdigits⟩ := h
    have hnibbles : ∀ d ∈ ds.map digitValue, d < 16 := forall_mem_map.mpr fun c hc => by
      have := hdigits c hc
      unfold digitValue
      omega
    obtain ⟨tail, htail⟩ := nibbles_semiOctets hnibbles
    change (if typeOfNumber t = 5 then _ else _) = _
    rw [if_neg htype]
    change pushNibbles (ds.length + (if typeOfNumber t = 1 then ['+'] else []).length)
      ((semiOctets (ds.map digitValue)).flatMap _) _ = _
    rw [htail, Nat.add_comm]
    exact pushNibbles_digits hdigits tail _
  | name t n =>
    obtain ⟨htype, hname⟩ := h
    change (if typeOfNumber t = 5 then _ else _) = _
    rw [if_pos htype]
    have hcount : Sender.length (.name t n) * 4 / 7 = fillSeptets 0 + (gsm7Septets n).length := by
      change (7 * (gsm7Septets n).length + 3) / 4 * 4 / 7 = 0 + _
      omega
    have hunpack := unpackSeptets_packAfter [] (gsm7Septets_lt hname)
    rw [hcount]
    change decodeGsm7 (unpackSeptets (packAfter [] (gsm7Septets n))
      (fillSeptets ([] : Bytes).length + (gsm7Septets n).length)) = n
    change (unpackSeptets _ _).drop 0 = _ at hunpack
    rw [drop_zero] at hunpack
    rw [hunpack, decodeGsm7, decodeGsm7_septets hname]

/-! ## The header -/

/-- An information element: a concatenation with a reference of 8 or 16 bits, or one of
another kind. -/
inductive Element where
  | concat8 (reference total sequence : UInt8)
  | concat16 (reference : UInt16) (total sequence : UInt8)
  | other (identifier : UInt8) (data : Bytes)

namespace Element

def octets : Element → Bytes
  | concat8 reference total sequence => [0x00, 3, reference, total, sequence]
  | concat16 reference total sequence => [0x08, 4] ++ Bytes.ofU16 reference ++ [total, sequence]
  | other identifier data => [identifier, UInt8.ofNat data.length] ++ data

/-- Another kind has another identifier, and its length fits its octet. -/
def WellFormed : Element → Prop
  | concat8 _ _ _ | concat16 _ _ _ => True
  | other identifier data => identifier ≠ 0x00 ∧ identifier ≠ 0x08 ∧ data.length ≤ 255

def concatenation : Element → Option ConcatPart
  | concat8 reference total sequence => some { reference := reference.toUInt16, sequence, total }
  | concat16 reference total sequence => some { reference, sequence, total }
  | other _ _ => none

end Element

/-- The elements of a header, one after the other. -/
def elementOctets (elements : List Element) : Bytes := elements.flatMap Element.octets

/-- The fields of the first concatenation. -/
def firstConcatenation (elements : List Element) : Option ConcatPart :=
  elements.findSome? Element.concatenation

theorem parseConcatenationFrom_elements {elements : List Element}
    (h : ∀ e ∈ elements, e.WellFormed) {fuel : Nat} (hfuel : (elementOctets elements).length ≤ fuel) :
    parseConcatenationFrom fuel (elementOctets elements) = firstConcatenation elements := by
  induction elements generalizing fuel with
  | nil => cases fuel <;> rfl
  | cons e elements ih =>
    obtain ⟨he, helements⟩ := forall_mem_cons.mp h
    unfold elementOctets at hfuel ⊢
    rw [flatMap_cons] at hfuel ⊢
    cases e with
    | concat8 reference total sequence =>
      cases fuel with
      | zero => cases hfuel
      | succ fuel => rfl
    | concat16 reference total sequence =>
      cases fuel with
      | zero => cases hfuel
      | succ fuel =>
        have hreference := Bytes.u16Be_ofU16 reference
        change some ({ reference := Bytes.u16Be _ _, sequence, total } : ConcatPart) = _
        rw [hreference]
        rfl
    | other identifier data =>
      obtain ⟨hzero, height, hdata⟩ := he
      have hlength : (ofNat data.length).toNat = data.length :=
        toNat_ofNat_of_lt' (show data.length < 256 by omega)
      cases fuel with
      | zero => cases hfuel
      | succ fuel =>
        have hrest : (elements.flatMap Element.octets).length ≤ fuel := by
          rw [length_append] at hfuel
          change data.length + 2 + _ ≤ _ at hfuel
          omega
        change parseConcatenationFrom (fuel + 1)
          (identifier :: ofNat data.length :: (data ++ elements.flatMap Element.octets)) = _
        unfold parseConcatenationFrom
        dsimp only
        rw [hlength, if_neg (by rw [length_append]; omega), drop_left]
        have hzero' : identifier.toNat ≠ 0 := fun h0 => hzero (UInt8.toNat_inj.mp h0)
        have height' : identifier.toNat ≠ 8 := fun h8 => height (UInt8.toNat_inj.mp h8)
        split
        · exact absurd ‹identifier.toNat = 0› hzero'
        · exact absurd ‹identifier.toNat = 8› height'
        · exact ih helements hrest

/-! ## The message -/

/-- The alphabets a text can be in. -/
inductive Coding where
  | gsm7
  | ucs2
  deriving DecidableEq

/-- The text alphabet a data coding scheme assigns. The general groups, and those that mark
the message for automatic deletion, have it in bits 3 and 2; reserved codings count as the
default alphabet; eight-bit data and compressed text have none. -/
def codingOf (dcs : UInt8) : Option Coding :=
  if dcs.toNat < 0x80 then
    if dcs.toNat / 32 % 2 = 1 then none
    else
      match dcs.toNat / 4 % 4 with
      | 1 => none
      | 2 => some .ucs2
      | _ => some .gsm7
  else if dcs.toNat < 0xe0 then some .gsm7
  else if dcs.toNat < 0xf0 then some .ucs2
  else if dcs.toNat / 4 % 2 = 1 then none
  else some .gsm7

/-- A short message and the envelope it comes in. -/
structure Delivery where
  rpMr : UInt8
  rpOriginator : Bytes
  rpDestination : Bytes
  firstOctet : UInt8
  sender : Sender
  pid : UInt8
  dcs : UInt8
  /-- The time stamp. -/
  scts : Bytes
  header : Option (List Element)
  text : Text

def lengthPrefixed (data : Bytes) : Bytes := UInt8.ofNat data.length :: data

namespace Delivery

def udh (m : Delivery) : Bytes :=
  match m.header with
  | none => []
  | some elements => lengthPrefixed (elementOctets elements)

def userData (m : Delivery) : Coding → Bytes
  | .gsm7 => packAfter m.udh (gsm7Septets m.text)
  | .ucs2 => m.udh ++ utf16Be m.text

/-- Septets or octets, the header included. -/
def udl (m : Delivery) : Coding → Nat
  | .gsm7 => fillSeptets m.udh.length + (gsm7Septets m.text).length
  | .ucs2 => (m.udh ++ utf16Be m.text).length

def tpdu (m : Delivery) (c : Coding) : Bytes :=
  ([m.firstOctet, UInt8.ofNat m.sender.length, m.sender.typeOfAddress] ++ m.sender.octets) ++
    (([m.pid, m.dcs] ++ m.scts) ++ (UInt8.ofNat (m.udl c) :: m.userData c))

def rpData (m : Delivery) (c : Coding) : Bytes :=
  [0x01, m.rpMr] ++ (lengthPrefixed m.rpOriginator ++
    (lengthPrefixed m.rpDestination ++ lengthPrefixed (m.tpdu c)))

/-- An SMS-DELIVER whose fields are what the standards allow and whose lengths fit. -/
structure WellFormed (m : Delivery) (c : Coding) : Prop where
  sender : m.sender.WellFormed
  deliver : m.firstOctet &&& 0x03 = 0
  headed : (m.firstOctet &&& 0x40 != 0) = m.header.isSome
  scts : m.scts.length = 7
  elements : ∀ es, m.header = some es → (∀ e ∈ es, e.WellFormed) ∧ (elementOctets es).length ≤ 255
  text : c = .gsm7 → InGsm7 m.text
  senderFits : m.sender.length ≤ 255
  udlFits : m.udl c ≤ 255
  originatorFits : m.rpOriginator.length ≤ 255
  destinationFits : m.rpDestination.length ≤ 255
  tpduFits : (m.tpdu c).length ≤ 255

/-- What decoding should give. -/
def decoded (m : Delivery) : DecodedSms :=
  { sender := m.sender.display
    text := m.text
    part := m.header.bind firstConcatenation
    rpMr := m.rpMr
    isTypeZero := decide (m.pid = 0x40) }

/-- Whether the decoder would take the user data for unpacked ASCII. -/
def recovered (m : Delivery) (c : Coding) : Bool :=
  readsAsAscii (m.userData c) (m.udl c) m.udh.length
    (decodeGsm7ReportingEscapes
      ((unpackSeptets (m.userData c) (m.udl c)).drop (fillSeptets m.udh.length))).2

end Delivery

/-- The alphabet the decoder should use. -/
def Coding.alphabet : Coding → Alphabet
  | gsm7 => .gsm7
  | ucs2 => .ucs2

/-- What holds of the 256 octets one by one. -/
theorem forall_octet {P : UInt8 → Prop} (h : ∀ n < 256, P (ofNat n)) (b : UInt8) : P b := by
  have hb := h b.toNat b.toNat_lt
  rwa [UInt8.ofNat_toNat] at hb

section RoundTrip

variable {m : Delivery} {c : Coding} {destination originator : Bytes} {tpdu : Bytes}

theorem getElem?_prefixed (pre data : Bytes) (i : Nat) : (pre ++ data)[pre.length + i]? = data[i]? := by
  rw [getElem?_append_right (Nat.le_add_right _ _), Nat.add_sub_cancel_left]

theorem getRange_prefixed (pre mid rest : Bytes) :
    getRange (pre ++ (mid ++ rest)) pre.length (pre.length + mid.length) = some mid := by
  unfold getRange
  rw [if_pos ⟨Nat.le_add_right _ _, by simp only [length_append]; omega⟩, Bytes.slice,
    ← append_assoc, take_left' length_append, drop_left]

/-- The header stands at the front of the user data. -/
theorem userData_eq (m : Delivery) (c : Coding) : ∃ rest, m.userData c = m.udh ++ rest := by
  cases c with
  | gsm7 =>
    have htake : (m.userData .gsm7).take m.udh.length = m.udh := packAfter_take _ _
    refine ⟨(m.userData .gsm7).drop m.udh.length, ?_⟩
    exact (take_append_drop m.udh.length _).symm.trans (congrArg (· ++ _) htake)
  | ucs2 => exact ⟨utf16Be m.text, rfl⟩

theorem decode_septets (h : m.WellFormed .gsm7) :
    decodeGsm7ReportingEscapes ((unpackSeptets (m.userData .gsm7) (m.udl .gsm7)).drop
      (fillSeptets m.udh.length)) = (m.text, false) := by
  rw [Delivery.userData, Delivery.udl, unpackSeptets_packAfter m.udh (gsm7Septets_lt (h.text rfl)),
    decodeGsm7_septets (h.text rfl)]

theorem not_recovered (h : m.WellFormed .gsm7) : m.recovered .gsm7 = false := by
  unfold Delivery.recovered readsAsAscii
  rw [decode_septets h, Bool.and_false, Bool.false_and, Bool.false_and]

theorem decodeText_userData (h : m.WellFormed c) :
    decodeText (m.userData c) (m.udl c) c.alphabet m.udh.length = m.text := by
  cases c with
  | gsm7 =>
    change (if m.recovered .gsm7 = true then _ else (decodeGsm7ReportingEscapes
      ((unpackSeptets (m.userData .gsm7) _).drop (fillSeptets m.udh.length))).1) = _
    rw [not_recovered h, if_neg Bool.false_ne_true, decode_septets h]
  | ucs2 =>
    have hrange := getRange_prefixed m.udh (utf16Be m.text) []
    rw [append_nil, ← length_append] at hrange
    change decodeUcs2 ((getRange (m.udh ++ utf16Be m.text) m.udh.length
      (m.udh ++ utf16Be m.text).length).getD []) = _
    rw [hrange]
    exact decodeUcs2_utf16Be m.text

theorem decodeUserData_userData (h : m.WellFormed c) :
    decodeUserData (m.userData c) (m.udl c) c.alphabet m.header.isSome =
      .ok (m.header.bind firstConcatenation, m.text) := by
  have htext := decodeText_userData h
  obtain ⟨rest, hrest⟩ := userData_eq m c
  cases hheader : m.header with
  | none =>
    have hudh : m.udh = [] := by
      unfold Delivery.udh
      rw [hheader]
    rw [hudh] at htext
    exact congrArg (fun t => Except.ok (none, t)) htext
  | some elements =>
    obtain ⟨helements, hlength⟩ := h.elements elements hheader
    have hudh : m.udh = lengthPrefixed (elementOctets elements) := by
      unfold Delivery.udh
      rw [hheader]
    have hfirst : (m.userData c)[0]? = some (ofNat (elementOctets elements).length) := by
      rw [hrest, hudh]
      rfl
    have hrange : getRange (m.userData c) 1 (1 + (elementOctets elements).length) =
        some (elementOctets elements) := by
      rw [hrest, hudh]
      exact getRange_prefixed [ofNat (elementOctets elements).length] _ _
    have hudhLength : m.udh.length = 1 + (elementOctets elements).length := by
      rw [hudh]
      exact Nat.add_comm _ _
    have hparse : parseConcatenationUdh (elementOctets elements) = firstConcatenation elements :=
      parseConcatenationFrom_elements helements (Nat.le_refl _)
    unfold decodeUserData
    rw [Option.isSome_some, hfirst]
    change (okOr _ (getRange (m.userData c) 1
      (1 + (ofNat (elementOctets elements).length).toNat)) >>= _) = _
    rw [toNat_ofNat_of_lt' (Nat.lt_succ_of_le hlength), hrange]
    change Except.ok (parseConcatenationUdh _, decodeText _ _ _ (1 + (elementOctets elements).length)) = _
    rw [hparse, ← hudhLength, htext]
    rfl

theorem isTypeZeroPid_eq : ∀ pid : UInt8, isTypeZeroPid pid = decide (pid = 0x40) :=
  forall_octet (by decide +kernel)

/-- The octets of a TPDU before the protocol identifier. -/
def Delivery.addressPart (m : Delivery) : Bytes :=
  [m.firstOctet, UInt8.ofNat m.sender.length, m.sender.typeOfAddress] ++ m.sender.octets

theorem addressPart_length : m.addressPart.length = 3 + (m.sender.length + 1) / 2 := by
  rw [Delivery.addressPart, length_append, m.sender.octets_length]
  rfl

theorem tpdu_eq : m.tpdu c = m.addressPart ++ (([m.pid, m.dcs] ++ m.scts) ++
    (UInt8.ofNat (m.udl c) :: m.userData c)) := rfl

theorem tpdu_sender :
    getRange (m.tpdu c) 3 (3 + (m.sender.length + 1) / 2) = some m.sender.octets := by
  rw [← m.sender.octets_length, tpdu_eq]
  exact getRange_prefixed [m.firstOctet, ofNat m.sender.length, m.sender.typeOfAddress] _ _

/-- The two octets behind the address: protocol identifier and coding scheme. -/
theorem tpdu_pid : (m.tpdu c)[3 + (m.sender.length + 1) / 2]? = some m.pid := by
  rw [← addressPart_length]
  exact getElem?_prefixed m.addressPart _ 0

theorem tpdu_dcs : (m.tpdu c)[3 + (m.sender.length + 1) / 2 + 1]? = some m.dcs := by
  rw [← addressPart_length]
  exact getElem?_prefixed m.addressPart _ 1

section

variable (h : m.WellFormed c)

include h

theorem fixedPart_length :
    (m.addressPart ++ ([m.pid, m.dcs] ++ m.scts)).length = 3 + (m.sender.length + 1) / 2 + 9 := by
  rw [length_append, length_append, addressPart_length, h.scts]
  rfl

theorem tpdu_udl :
    (m.tpdu c)[3 + (m.sender.length + 1) / 2 + 9]? = some (UInt8.ofNat (m.udl c)) := by
  rw [tpdu_eq, ← fixedPart_length h, ← append_assoc]
  exact getElem?_prefixed (m.addressPart ++ ([m.pid, m.dcs] ++ m.scts)) _ 0

theorem tpdu_userData :
    getRange (m.tpdu c) (3 + (m.sender.length + 1) / 2 + 10) (m.tpdu c).length =
      some (m.userData c) := by
  generalize hpre : m.addressPart ++ ([m.pid, m.dcs] ++ m.scts) ++ [ofNat (m.udl c)] = pre
  have hlen : pre.length = 3 + (m.sender.length + 1) / 2 + 10 := by
    rw [← hpre, length_append, fixedPart_length h]
    rfl
  have hsplit : m.tpdu c = pre ++ (m.userData c ++ []) := by
    rw [tpdu_eq, ← hpre]
    simp
  have hend : (m.tpdu c).length = pre.length + (m.userData c).length := by
    rw [hsplit, append_nil, length_append]
  rw [hend, hsplit, ← hlen]
  exact getRange_prefixed pre (m.userData c) []

theorem isDeliver : TpduMessageType.fromFirstOctet m.firstOctet = .deliver := by
  unfold TpduMessageType.fromFirstOctet
  rw [h.deliver]
  rfl

/-- The TPDU, for a coding scheme the decoder reads as it is meant. -/
theorem parse_tpdu (hdcs : Alphabet.fromDcs m.dcs = c.alphabet) :
    SmsDeliverTpdu.parse (m.tpdu c) =
      .ok { originatingAddress := m.sender.display, text := m.text
            part := m.header.bind firstConcatenation
            isTypeZero := decide (m.pid = 0x40) } := by
  have hfirstAt : (m.tpdu c)[0]? = some m.firstOctet := rfl
  have hlengthAt : (m.tpdu c)[1]? = some (ofNat m.sender.length) := rfl
  have htypeAt : (m.tpdu c)[2]? = some m.sender.typeOfAddress := rfl
  have hdata := decodeUserData_userData h
  have haddress := decodeAddress_octets h.sender
  simp only [SmsDeliverTpdu.parse, hfirstAt, hlengthAt, htypeAt, okOr, isDeliver h,
    toNat_ofNat_of_lt' (Nat.lt_succ_of_le h.senderFits), tpdu_sender, tpdu_pid, tpdu_dcs, tpdu_udl h,
    tpdu_userData h, toNat_ofNat_of_lt' (Nat.lt_succ_of_le h.udlFits), hdcs, h.headed, hdata,
    haddress, isTypeZeroPid_eq, bind, Except.bind, pure, Except.pure, ne_eq, not_true_eq_false, if_false]

end

theorem skipLengthPrefixed_prefixed (pre data rest : Bytes) (field : Text) (h : data.length ≤ 255) :
    skipLengthPrefixed (pre ++ (lengthPrefixed data ++ rest)) pre.length field =
      .ok (pre ++ lengthPrefixed data).length := by
  have hat : (pre ++ (lengthPrefixed data ++ rest))[pre.length]? = some (ofNat data.length) :=
    getElem?_prefixed pre _ 0
  have hlength : (pre ++ lengthPrefixed data).length = pre.length + 1 + data.length := by
    rw [length_append]
    change pre.length + (data.length + 1) = _
    omega
  unfold skipLengthPrefixed
  rw [hat]
  change (if (pre ++ (lengthPrefixed data ++ rest)).length <
    pre.length + 1 + (ofNat data.length).toNat then _ else _) = _
  rw [toNat_ofNat_of_lt' (Nat.lt_succ_of_le h), ← hlength, if_neg]
  rw [← append_assoc]
  exact Nat.not_lt.mpr (sublist_append_left _ rest).length_le

/-- An RP-DATA envelope around a TPDU. -/
def envelope (rpMr : UInt8) (originator destination tpdu : Bytes) : Bytes :=
  [0x01, rpMr] ++ (lengthPrefixed originator ++ (lengthPrefixed destination ++ lengthPrefixed tpdu))

/-- The envelope, whatever its addresses. -/
theorem parse_envelope (rpMr : UInt8) (ho : originator.length ≤ 255) (hd : destination.length ≤ 255)
    (ht : tpdu.length ≤ 255) :
    RpMessage.parse (envelope rpMr originator destination tpdu) = .ok (.data rpMr tpdu) := by
  generalize hbuf : envelope rpMr originator destination tpdu = buf
  have hfirst : buf[0]? = some 0x01 := hbuf ▸ rfl
  have hmr : buf[1]? = some rpMr := hbuf ▸ rfl
  have horiginator := skipLengthPrefixed_prefixed [0x01, rpMr] originator
    (lengthPrefixed destination ++ lengthPrefixed tpdu) "RP-Originator-Address" ho
  generalize hpre : [0x01, rpMr] ++ lengthPrefixed originator = pre at horiginator
  have hdata : buf = pre ++ (lengthPrefixed destination ++ lengthPrefixed tpdu) := by
    rw [← hpre, ← hbuf]
    rfl
  have hdest := skipLengthPrefixed_prefixed pre destination (lengthPrefixed tpdu)
    "RP-Destination-Address" hd
  generalize hpre' : pre ++ lengthPrefixed destination = pre' at hdest
  have hdata' : buf = pre' ++ lengthPrefixed tpdu := by
    rw [hdata, ← hpre', append_assoc]
  have hlength : buf[pre'.length]? = some (ofNat tpdu.length) := by
    rw [hdata']
    exact getElem?_prefixed pre' _ 0
  have huser : getRange buf (pre'.length + 1) (pre'.length + 1 + tpdu.length) = some tpdu := by
    have := getRange_prefixed (pre' ++ [ofNat tpdu.length]) tpdu []
    rw [append_assoc, append_nil, length_append] at this
    rw [hdata']
    exact this
  rw [← hdata] at hdest
  change skipLengthPrefixed (envelope rpMr originator destination tpdu) 2 _ = _ at horiginator
  rw [hbuf] at horiginator
  have hmti : ((0x01 : UInt8) &&& 0x07).toNat = 1 := by decide
  simp only [RpMessage.parse, hfirst, hmr, okOr, hmti, horiginator, hdest, hlength,
    toNat_ofNat_of_lt' (Nat.lt_succ_of_le ht), huser, bind, Except.bind, pure, Except.pure]

/-- The message inside an envelope. -/
theorem decode_envelope (rpMr : UInt8) (ho : originator.length ≤ 255)
    (hd : destination.length ≤ 255) (ht : tpdu.length ≤ 255)
    (hkind : (tpdu.head?.map TpduMessageType.fromFirstOctet).getD .reserved = .deliver) :
    decodeVnd3gppSms (envelope rpMr originator destination tpdu) =
      match decodeSmsDeliverTpdu tpdu with
      | .ok decoded => .ok (.message { decoded with rpMr })
      | .error _ => .ok (.undecodable rpMr) := by
  cases hdecoded : decodeSmsDeliverTpdu tpdu with
  | ok | error =>
    simp only [decodeVnd3gppSms, parse_envelope rpMr ho hd ht, hkind, hdecoded, bind, Except.bind,
      pure, Except.pure, ne_eq, not_true_eq_false, if_false]

/-- A written message is decoded as itself, under a coding scheme the decoder knows. -/
theorem decode_rpData (h : m.WellFormed c) (hdcs : Alphabet.fromDcs m.dcs = c.alphabet) :
    decodeVnd3gppSms (m.rpData c) = .ok (.message m.decoded) := by
  have htpdu : decodeSmsDeliverTpdu (m.tpdu c) = .ok { m.decoded with rpMr := 0 } := by
    unfold decodeSmsDeliverTpdu
    rw [parse_tpdu h hdcs]
    rfl
  have hdecode := decode_envelope m.rpMr h.originatorFits h.destinationFits h.tpduFits
    (isDeliver h)
  rw [htpdu] at hdecode
  exact hdecode

end RoundTrip

/-! ## Data coding schemes -/

/-- The decoder's alphabet is the assigned one, but for automatic deletion with UCS-2. -/
theorem fromDcs_eq {c : Coding} (h : codingOf dcs = some c)
    (hknown : ¬ (c = .ucs2 ∧ dcs.toNat / 64 = 1)) : Alphabet.fromDcs dcs = c.alphabet := by
  have htable : ∀ dcs : UInt8, ∀ c ∈ [Coding.gsm7, .ucs2], codingOf dcs = some c →
      ¬ (c = .ucs2 ∧ dcs.toNat / 64 = 1) → Alphabet.fromDcs dcs = c.alphabet :=
    forall_octet (by decide +kernel)
  have hmem : c ∈ [Coding.gsm7, .ucs2] := by cases c <;> decide
  exact htable dcs c hmem h hknown

/-- A one-letter message under some data coding scheme. -/
def oneLetter (dcs : UInt8) : Delivery :=
  { rpMr := 7, rpOriginator := [], rpDestination := [], firstOctet := 0x04
    sender := .digits 0x91 "49", pid := 0, dcs, scts := [0, 0, 0, 0, 0, 0, 0]
    header := none, text := "A" }

theorem oneLetter_wellFormed (dcs : UInt8) : (oneLetter dcs).WellFormed .ucs2 where
  sender := ⟨by decide, all_iff_forall_prop.mp rfl⟩
  deliver := (by decide : (0x04 : UInt8) &&& 0x03 = 0)
  headed := (by decide : ((0x04 : UInt8) &&& 0x40 != 0) = false)
  scts := rfl
  elements := nofun
  text := nofun
  senderFits := (by decide : 2 ≤ 255)
  udlFits := (by decide : 2 ≤ 255)
  originatorFits := (by decide : 0 ≤ 255)
  destinationFits := (by decide : 0 ≤ 255)
  tpduFits := (by decide : 16 ≤ 255)

/-- Its two octets are read as two septets. -/
theorem oneLetter_garbled : ∀ dcs : UInt8, codingOf dcs = some .ucs2 → dcs.toNat / 64 = 1 →
    (decodeVnd3gppSms ((oneLetter dcs).rpData .ucs2)).toOption =
      some (.message { (oneLetter dcs).decoded with text := "@$" }) :=
  forall_octet (by decide +kernel)

/-- Under a data coding scheme for text, every written message is decoded as itself, and
never taken for unpacked ASCII, exactly when the scheme is not one of the UCS-2 ones
marked for automatic deletion. -/
theorem decode_inverts_iff (dcs : UInt8) (c : Coding) (hdcs : codingOf dcs = some c) :
    (∀ m : Delivery, m.dcs = dcs → m.WellFormed c →
      decodeVnd3gppSms (m.rpData c) = .ok (.message m.decoded) ∧
        (c = .gsm7 → m.recovered c = false)) ↔
      ¬ (c = .ucs2 ∧ dcs.toNat / 64 = 1) := by
  constructor
  · rintro hall ⟨rfl, hmarked⟩
    have hdecode := (hall (oneLetter dcs) rfl (oneLetter_wellFormed dcs)).1
    have hgarbled := oneLetter_garbled dcs hdcs hmarked
    rw [hdecode] at hgarbled
    have htext := congrArg DecodedSms.text (DecodedRp.message.inj (Option.some.inj hgarbled))
    exact absurd htext (by decide : "A" ≠ "@$".toList)
  · intro hknown m hm hwell
    refine ⟨decode_rpData hwell (hm ▸ fromDcs_eq hdcs hknown), ?_⟩
    rintro rfl
    exact not_recovered hwell

/-- Marked for automatic deletion, UCS-2, no message class. -/
theorem markedUcs2_garbled :
    (oneLetter 0x48).WellFormed .ucs2 ∧ codingOf (oneLetter 0x48).dcs = some .ucs2 ∧
      (decodeVnd3gppSms ((oneLetter 0x48).rpData .ucs2)).toOption =
        some (.message { (oneLetter 0x48).decoded with text := "@$" }) :=
  ⟨oneLetter_wellFormed 0x48, by decide, oneLetter_garbled 0x48 (by decide) (by decide)⟩

/-- The second of three parts, by name and in septets behind the header. -/
def part : Delivery :=
  { oneLetter 0x00 with
    firstOctet := 0x44, sender := .name 0xd0 "Info"
    header := some [.other 0x24 [1], .concat8 9 3 2], text := "Pay 5€ [now]" }

theorem part_wellFormed : part.WellFormed .gsm7 where
  sender := ⟨by decide, all_iff_forall_prop.mp rfl⟩
  deliver := (by decide : (0x44 : UInt8) &&& 0x03 = 0)
  headed := (by decide : ((0x44 : UInt8) &&& 0x40 != 0) = true)
  scts := rfl
  elements := by
    rintro _ ⟨⟩
    exact ⟨by simp [Element.WellFormed], by decide⟩
  text _ := all_iff_forall_prop.mp rfl
  senderFits := by decide
  udlFits := by decide
  originatorFits := by decide
  destinationFits := by decide
  tpduFits := by decide

theorem decode_inverts_part :
    decodeVnd3gppSms (part.rpData .gsm7) =
        .ok (.message ⟨"Info", part.text, some ⟨9, 2, 3⟩, 7, false⟩) ∧
      part.recovered .gsm7 = false :=
  ((decode_inverts_iff 0x00 .gsm7 (by decide)).mpr (by decide) part rfl part_wellFormed).imp_right
    (· rfl)

/-! ## Truncated messages

Every field before the text is read with a check, the header included. The decoders of
the text take what is there, so a message that is cut inside its text is accepted with
a shorter text, or none. -/

open Bytes

variable {buf : Bytes}

/-- Where the user data begins, behind the sender and nine octets of other fields. -/
def userDataStart (tpdu : Bytes) : Nat := 13 + ((tpdu.byteAt 1).toNat + 1) / 2

/-- Where the text begins: with the user data, or behind the header in it. -/
def textStart (tpdu : Bytes) : Nat :=
  if tpdu.byteAt 0 &&& 0x40 != 0 then
    userDataStart tpdu + 1 + (tpdu.byteAt (userDataStart tpdu)).toNat
  else userDataStart tpdu

section Reads

variable {α : Type} {i lo hi : Nat} {message : Text}

theorem returns_byte {k : UInt8 → Except Text α} :
    Returns (okOr message buf[i]? >>= k) ↔ i < buf.length ∧ Returns (k (buf.byteAt i)) := by
  by_cases h : i < buf.length
  · rw [byteAt, List.getD_eq_getElem?_getD, List.getElem?_eq_getElem h]
    exact (and_iff_right h).symm
  · rw [List.getElem?_eq_none (Nat.not_lt.mp h)]
    exact iff_of_false (by rintro ⟨_, ⟨⟩⟩) fun hk => h hk.1

theorem returns_slice {k : Bytes → Except Text α} :
    Returns (okOr message (getRange buf lo hi) >>= k) ↔
      (lo ≤ hi ∧ hi ≤ buf.length) ∧ Returns (k (buf.slice lo hi)) := by
  unfold getRange
  split
  · exact (and_iff_right ‹_›).symm
  · exact ⟨fun ⟨_, he⟩ => (by cases he), fun hk => absurd hk.1 ‹_›⟩

theorem returns_pure {a : α} : Returns (pure a : Except Text α) ↔ True :=
  iff_true_intro ⟨a, rfl⟩

end Reads

/-- What the decoder accepts among the messages it takes for an SMS-DELIVER. -/
theorem returns_decode_iff (hdel : TpduMessageType.fromFirstOctet (buf.byteAt 0) = .deliver) :
    Returns (decodeSmsDeliverTpdu buf) ↔ textStart buf ≤ buf.length := by
  unfold decodeSmsDeliverTpdu SmsDeliverTpdu.parse
  simp only [bind_assoc, returns_byte, hdel, ne_eq, not_true_eq_false, if_false, returns_slice,
    decodeUserData]
  have hlength : ∀ lo, (buf.slice lo buf.length).length = buf.length - lo := by simp [slice]
  have hfirst : ∀ lo, (buf.slice lo buf.length).byteAt 0 = buf.byteAt lo := by
    simp [slice, byteAt, List.getD_eq_getElem?_getD]
  have hstart : 3 + ((buf.byteAt 1).toNat + 1) / 2 + 10 = userDataStart buf := by
    unfold userDataStart
    omega
  unfold textStart
  split
  · simp only [bind_assoc, returns_byte, returns_slice, pure_bind, returns_pure, hlength, hfirst,
      and_true, hstart]
    omega
  · simp only [pure_bind, returns_pure, and_true]
    omega

theorem deliver_of_returns (h : Returns (decodeSmsDeliverTpdu buf)) :
    ∃ first rest, buf = first :: rest ∧ TpduMessageType.fromFirstOctet first = .deliver := by
  cases buf with
  | nil => obtain ⟨_, he⟩ := h; cases he
  | cons first rest =>
    refine ⟨first, rest, rfl, show TpduMessageType.fromFirstOctet (byteAt (first :: rest) 0) = _ from ?_⟩
    by_contra hother
    unfold decodeSmsDeliverTpdu SmsDeliverTpdu.parse at h
    rw [bind_assoc, returns_byte, if_pos hother] at h
    obtain ⟨-, _, he⟩ := h
    cases he

section Truncated

variable {tpdu : Bytes} {n : Nat}

theorem byteAt_take {i : Nat} (hi : i < n) : byteAt (tpdu.take n) i = byteAt tpdu i := by
  rw [byteAt, byteAt, List.getD_eq_getElem?_getD, List.getElem?_take_of_lt hi,
    ← List.getD_eq_getElem?_getD]

/-- The bytes that say where the text begins lie before it. -/
theorem textStart_take (h : textStart tpdu ≤ n ∨ textStart (tpdu.take n) ≤ n) :
    textStart (tpdu.take n) = textStart tpdu := by
  have hstart : ∀ t, 13 ≤ userDataStart t ∧ userDataStart t ≤ textStart t := by
    intro t
    unfold textStart userDataStart
    split <;> omega
  have hn : 13 ≤ n := by
    have h1 := hstart tpdu
    have h2 := hstart (tpdu.take n)
    omega
  have hsame : userDataStart (tpdu.take n) = userDataStart tpdu := by
    rw [userDataStart, byteAt_take (by omega), userDataStart]
  unfold textStart at h ⊢
  rw [byteAt_take (by omega), hsame] at h ⊢
  split
  · rename_i hheader
    rw [if_pos hheader, if_pos hheader] at h
    rw [byteAt_take (by omega)]
  · rfl

/-- A message that the decoder accepts, cut behind its first octet, is rejected exactly when
it is cut before its text, and then answered with an error. -/
theorem truncated_rejected_iff (tpdu : Bytes) (hok : Returns (decodeSmsDeliverTpdu tpdu)) (n : Nat)
    (hn : 1 ≤ n) (hlt : n < tpdu.length) :
    ((∃ e, decodeSmsDeliverTpdu (tpdu.take n) = .error e) ↔ n < textStart tpdu) ∧
    ∀ rpMr originator destination, originator.length ≤ 255 → destination.length ≤ 255 → n ≤ 255 →
      (decodeVnd3gppSms (envelope rpMr originator destination (tpdu.take n)) =
        .ok (.undecodable rpMr) ↔ n < textStart tpdu) := by
  obtain ⟨first, rest, htpdu, hdeliver⟩ := deliver_of_returns hok
  obtain ⟨n', rfl⟩ := Nat.exists_eq_add_of_le' hn
  have htake : tpdu.take (n' + 1) = first :: rest.take n' := by rw [htpdu, List.take_succ_cons]
  have hlength : (tpdu.take (n' + 1)).length = n' + 1 := List.length_take_of_le (Nat.le_of_lt hlt)
  have hstart : textStart (tpdu.take (n' + 1)) ≤ n' + 1 ↔ textStart tpdu ≤ n' + 1 :=
    ⟨fun h => textStart_take (.inr h) ▸ h, fun h => (textStart_take (.inl h)).symm ▸ h⟩
  have hreturns : Returns (decodeSmsDeliverTpdu (tpdu.take (n' + 1))) ↔ textStart tpdu ≤ n' + 1 := by
    rw [returns_decode_iff (by rw [htake]; exact hdeliver), hlength, hstart]
  rw [← Nat.not_le, ← hreturns, not_returns]
  have hkind : ((tpdu.take (n' + 1)).head?.map TpduMessageType.fromFirstOctet).getD .reserved = .deliver := by
    rw [htake]
    exact hdeliver
  refine ⟨Iff.rfl, fun rpMr originator destination ho hd hfits => ?_⟩
  rw [decode_envelope rpMr ho hd (hlength.symm ▸ hfits) hkind]
  cases decodeSmsDeliverTpdu (tpdu.take (n' + 1)) with
  | ok | error => simp

/-- A message of one character, accepted as it is. -/
theorem returns_oneLetter : Returns (decodeSmsDeliverTpdu ((oneLetter 0x08).tpdu .ucs2)) :=
  (returns_decode_iff (by decide)).mpr (by decide)

/-- Cut before the length of its text, it is rejected. -/
theorem truncated_rejected_oneLetter :
    ∃ e, decodeSmsDeliverTpdu (((oneLetter 0x08).tpdu .ucs2).take 13) = .error e :=
  (truncated_rejected_iff _ returns_oneLetter 13 (by decide) (by decide)).1.mpr (by decide)

/-- Cut inside its only character, it is accepted without a text. -/
theorem truncated_accepted :
    ((oneLetter 0x08).tpdu .ucs2).length = 16 ∧
      (decodeVnd3gppSms (envelope 7 [] [] (((oneLetter 0x08).tpdu .ucs2).take 15))).toOption =
        some (.message { (oneLetter 0x08).decoded with text := [] }) := by
  exact ⟨rfl, by decide⟩

end Truncated

end Ims.SmsPdu
