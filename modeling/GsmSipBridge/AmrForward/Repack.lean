-- SUMMARY: The AMR forwarder (`amr_forward/`): repacking without decoding, and one pass.
import GsmSipBridge.Ims.AmrRtp
import GsmSipBridge.Ims.Rtp

/-!
# Repacking AMR payloads

Octet-aligned and bandwidth-efficient payloads are read into the same packet,
a mode request and a list of frames of any type, and written back. The
octet-aligned reader works on what is left of the payload where the source
counts an offset; loops that end when the input does carry fuel, more than the
input can use up.
-/

namespace AmrForward.Repack

open Ims.AmrRtp Decoder

/-- A frame's payload size in bits; `none` for a reserved type. -/
def frameBits (kind : AmrKind) (frameType : UInt8) : Option Nat :=
  match speechBits kind frameType with
  | some bits => some bits
  | none =>
    match kind, frameType.toNat with
    | .nb, 8 => some 39
    | .wb, 9 => some 40
    | .wb, 14 => some 0
    | _, 15 => some 0
    | _, _ => none

structure Frame where
  frameType : UInt8
  quality : UInt8
  -- Payload bits, left-aligned, trailing pad bits zero.
  bits : Bytes
  deriving DecidableEq

structure Packet where
  cmr : UInt8
  frames : List Frame
  deriving DecidableEq

/-- Zero the unused low bits of the last byte of an `n`-bit field. -/
def canonical (bytes : Bytes) (n : Nat) : Bytes :=
  if n % 8 = 0 then bytes
  else bytes.modify (bytes.length - 1) fun last => last &&& 0xff <<< UInt8.ofNat (8 - n % 8)

/-! ## Reading -/

/-- Table of contents entries up to the one without the follow bit. -/
def octetToc : Bytes → Option (List (UInt8 × UInt8) × Bytes)
  | [] => none
  | entry :: rest =>
    let item := (entry >>> 3 &&& 0x0f, entry >>> 2 &&& 1)
    if entry &&& 0x80 = 0 then some ([item], rest)
    else (octetToc rest).map fun x => (item :: x.1, x.2)

def octetFrame (kind : AmrKind) (entry : UInt8 × UInt8) : Decoder Bytes Frame := do
  let bits ← ofOption (frameBits kind entry.1)
  let data ← take ((bits + 7) / 8)
  pure { frameType := entry.1, quality := entry.2, bits := canonical data bits }

def octetPacket (kind : AmrKind) : Decoder Bytes Packet := do
  let first ← next
  let toc ← octetToc
  let frames ← toc.mapM (octetFrame kind)
  pure { cmr := first >>> 4, frames := frames }

def bitToc : Nat → Decoder BitReader (List (UInt8 × UInt8))
  | 0 => ofOption none
  | fuel + 1 => do
    let follow ← BitReader.read 1
    let frameType ← BitReader.read 4
    let quality ← BitReader.read 1
    if follow = 0 then pure [(frameType, quality)]
    else do
      let toc ← bitToc fuel
      pure ((frameType, quality) :: toc)

def bitFrame (kind : AmrKind) (entry : UInt8 × UInt8) : Decoder BitReader Frame := do
  let bits ← ofOption (frameBits kind entry.1)
  let data ← BitReader.readBitsToBytes bits
  pure { frameType := entry.1, quality := entry.2, bits := data }

def bitPacket (kind : AmrKind) (fuel : Nat) : Decoder BitReader Packet := do
  let cmr ← BitReader.read 4
  let toc ← bitToc fuel
  let frames ← toc.mapM (bitFrame kind)
  pure { cmr := cmr, frames := frames }

def parse (payload : Bytes) (kind : AmrKind) (octetAligned : Bool) : Option Packet :=
  if octetAligned then
    -- Octet-aligned payloads are exact; anything left is not AMR.
    match octetPacket kind payload with
    | some (packet, []) => some packet
    | _ => none
  else (bitPacket kind (8 * payload.length) (BitReader.new payload)).map Prod.fst

/-! ## Writing -/

/-- The frames with their follow bits: set for all but the last. -/
def follows (frames : List Frame) : List (Bool × Frame) :=
  frames.mapIdx fun i f => (decide (i ≠ frames.length - 1), f)

def octetEntry (x : Bool × Frame) : UInt8 :=
  x.1.toUInt8 <<< 7 ||| x.2.frameType <<< 3 ||| x.2.quality <<< 2

def putOctetFrame (kind : AmrKind) (out : Bytes) (f : Frame) : Option Bytes :=
  match frameBits kind f.frameType with
  | none => none
  | some bits =>
    if f.bits.length < (bits + 7) / 8 then none
    else some (out ++ f.bits.take ((bits + 7) / 8))

def putBitEntry (w : BitWriter) (x : Bool × Frame) : BitWriter :=
  ((w.write x.1.toUInt8 1).write x.2.frameType 4).write x.2.quality 1

def putBitFrame (kind : AmrKind) (w : BitWriter) (f : Frame) : Option BitWriter :=
  match frameBits kind f.frameType with
  | none => none
  | some bits =>
    if f.bits.length < (bits + 7) / 8 then none
    else some (w.writeBitsFromBytes f.bits bits)

def build (packet : Packet) (kind : AmrKind) (octetAligned : Bool) : Option Bytes :=
  if packet.frames.length = 0 then none
  else if octetAligned then
    packet.frames.foldlM (putOctetFrame kind)
      (packet.cmr <<< 4 :: (follows packet.frames).map octetEntry)
  else
    let w := (follows packet.frames).foldl putBitEntry (BitWriter.default.write packet.cmr 4)
    (packet.frames.foldlM (putBitFrame kind) w).map BitWriter.bytes

def repack (payload : Bytes) (kind : AmrKind) (fromOctetAligned toOctetAligned : Bool) :
    Option Bytes :=
  if fromOctetAligned = toOctetAligned then some payload
  else
    match parse payload kind fromOctetAligned with
    | none => none
    | some packet => build packet kind toOctetAligned

/-! ## Reading and setting single fields -/

def cmrOf (payload : Bytes) : Option UInt8 :=
  payload.head?.map fun (b : UInt8) => b >>> 4

def setCmr (payload : Bytes) (cmr : UInt8) : Bytes :=
  match payload with
  | [] => []
  | first :: rest => (cmr <<< 4 ||| first &&& 0x0f) :: rest

def speechMax : AmrKind → UInt8
  | .nb => 7
  | .wb => 8

/-- The `k`-th table of contents entry: follow bit and frame type. The plain
index into the payload is the one that could panic. -/
def tocEntry (payload : Bytes) (octetAligned : Bool) (k : Nat) :
    Except Bytes.Fault (Option (Bool × UInt8)) :=
  if octetAligned then
    .ok (payload[1 + k]?.map fun (entry : UInt8) => (entry &&& 0x80 ≠ 0, entry >>> 3 &&& 0x0f))
  else
    let bit := 4 + 6 * k
    if payload.length * 8 < bit + 6 then .ok none
    else do
      let hi ← payload.index (bit / 8)
      let lo := payload[bit / 8 + 1]?.getD 0
      let six := (hi.toUInt16 <<< 8 ||| lo.toUInt16) >>> UInt16.ofNat (10 - bit % 8) &&& 0x3f
      .ok (some (six &&& 0x20 ≠ 0, (six >>> 1 &&& 0x0f).toUInt8))

def speechModesLoop (payload : Bytes) (kind : AmrKind) (octetAligned : Bool) :
    Nat → Nat → List UInt8 → Except Bytes.Fault (Option (List UInt8))
  | 0, _, _ => .error .outOfFuel
  | fuel + 1, k, modes => do
    match ← tocEntry payload octetAligned k with
    | none => .ok none
    | some (follow, frameType) =>
      let modes := if frameType ≤ speechMax kind then modes ++ [frameType] else modes
      if follow then speechModesLoop payload kind octetAligned fuel (k + 1) modes
      else .ok (some modes)

/-- The speech frame types the table of contents names. -/
def speechModes (payload : Bytes) (kind : AmrKind) (octetAligned : Bool) :
    Except Bytes.Fault (Option (List UInt8)) :=
  speechModesLoop payload kind octetAligned (8 * payload.length + 1) 0 []

end AmrForward.Repack

/-! ## The AMR forwarder (`amr_forward/relay.rs`)

What a pump does to one datagram between receiving and sending it. Sockets,
counters of the receive loop and the direction gate are left out; the legs'
atomics are read once per pass. Plain indexing is modelled with its panic. -/

namespace AmrForward.Relay

open Ims.AmrRtp Ims.Rtp Repack

/-- The parts of a leg a pass reads. -/
structure Leg where
  payloadType : UInt8
  dtmfPayloadType : Option UInt8
  octetAligned : Bool

structure ModeGuard where
  -- Bit `n` set: mode `n` is allowed on the carrier leg.
  modes : UInt16
  drop : Bool

namespace ModeGuard

/-- `u16::leading_zeros`. -/
def leadingZeros (n : UInt16) : Nat :=
  if n = 0 then 16 else 15 - n.toNat.log2

/-- The highest allowed mode of a non-empty set. -/
def highest (g : ModeGuard) : UInt8 :=
  UInt8.ofNat (15 - leadingZeros g.modes)

def allows (g : ModeGuard) (mode : UInt8) : Bool :=
  mode < 16 && g.modes &&& (1 <<< mode.toUInt16) != 0

end ModeGuard

structure GuardStats where
  cmrClamped : Nat
  framesSeen : Nat
  outOfSet : Nat
  dropped : Nat
  deriving DecidableEq

/-- `a` is the carrier, `b` the client. -/
inductive Direction where
  | aToB
  | bToA
  deriving DecidableEq

structure Pump where
  kind : AmrKind
  src : Leg
  dst : Leg
  direction : Direction
  guard : Option ModeGuard

namespace Pump

/-- The mode guard: whether the packet goes on, and the buffer and counters it
leaves. -/
def applyGuard (pump : Pump) (stats : GuardStats) (buf : Bytes) :
    Except Bytes.Fault (Bool × Bytes × GuardStats) :=
  match pump.guard with
  | none => .ok (true, buf, stats)
  | some guard =>
    match parsePacket buf with
    | none => .ok (true, buf, stats)
    | some pkt =>
      if pkt.payloadType ≠ pump.src.payloadType then .ok (true, buf, stats)
      else if pump.direction = .aToB then
        -- The payload is a slice of the buffer, which starts here.
        let start := (payloadStart buf).getD 0
        if (cmrOf pkt.payload).any fun cmr => !guard.allows cmr then
          .ok (true, buf.take start ++ setCmr (buf.drop start) guard.highest,
            { stats with cmrClamped := stats.cmrClamped + 1 })
        else .ok (true, buf, stats)
      else do
        match ← speechModes pkt.payload pump.kind pump.src.octetAligned with
        | none => .ok (true, buf, stats)
        | some modes =>
          let bad := (modes.filter fun m => !guard.allows m).length
          let stats := { stats with framesSeen := stats.framesSeen + modes.length }
          if bad = 0 then .ok (true, buf, stats)
          else
            let stats := { stats with outOfSet := stats.outOfSet + bad }
            if guard.drop then
              .ok (false, buf, { stats with dropped := stats.dropped + modes.length })
            else .ok (true, buf, stats)

/-- Relabel and, if the legs pack differently, repack. `none` drops the packet. -/
def translate (pump : Pump) (buf : Bytes) : Except Bytes.Fault (Option Bytes) := do
  let markerAndPt ← buf.index 1
  let pt := markerAndPt &&& 0x7f
  if some pt = pump.src.dtmfPayloadType then
    match pump.dst.dtmfPayloadType with
    | none => .ok none
    | some dstPt => .ok (some (buf.set 1 (markerAndPt &&& 0x80 ||| dstPt &&& 0x7f)))
  else if pt ≠ pump.src.payloadType then .ok none
  else if pump.src.octetAligned = pump.dst.octetAligned then
    .ok (some (buf.set 1 (markerAndPt &&& 0x80 ||| pump.dst.payloadType &&& 0x7f)))
  else
    match parsePacket buf with
    | none => .ok none
    | some pkt =>
      match repack pkt.payload pump.kind pump.src.octetAligned pump.dst.octetAligned with
      | none => .ok none
      | some payload =>
        -- A plain twelve-byte header: no padding, extension or CSRCs.
        .ok (some ([0x80, markerAndPt &&& 0x80 ||| pump.dst.payloadType &&& 0x7f] ++
          buf.slice 2 rtpHeaderLen ++ payload))

/-- Guard, then translate: the datagram to send, if any. -/
def pass (pump : Pump) (stats : GuardStats) (buf : Bytes) :
    Except Bytes.Fault (Option Bytes × GuardStats) := do
  let (goesOn, buf, stats) ← pump.applyGuard stats buf
  if goesOn then
    let out ← pump.translate buf
    .ok (out, stats)
  else .ok (none, stats)

end Pump

end AmrForward.Relay
