-- SUMMARY: SDP offers and answers (`ims/sdp.rs`).
import GsmSipBridge.Lib.IpText

/-!
# SDP offers and answers

`parseOffer` walks the lines of an offer with a state that knows which media
section it is in; `buildAnswer` chooses a codec of the offer and writes the
answer. Texts are kept as the source has them. The hash maps of the source are
association lists in which the last insertion is found first.
-/

namespace Ims.Sdp

open Text Numeral

def rtcpSrBandwidthBps : Nat := 800
def rtcpRrBandwidthBps : Nat := 2400
def pcmuPayloadType : UInt8 := 0

inductive NegotiatedCodec where
  | pcmu
  | amrNb
  | amrWb
  | l16
  deriving DecidableEq

structure ChosenCodec where
  codec : NegotiatedCodec
  payloadType : UInt8
  octetAligned : Bool
  dtmfPayloadType : Option UInt8
  deriving DecidableEq

/-- One codec of an offer, with its format parameters as they were written. -/
structure OfferedCodec where
  payloadType : UInt8
  codec : NegotiatedCodec
  fmtp : Text
  deriving DecidableEq

def OfferedCodec.isOctetAligned (o : OfferedCodec) : Bool :=
  (o.fmtp.splitOn ';').any fun p => (trim p).filter (· ≠ ' ') == "octet-align=1"

inductive MediaDirection where
  | sendRecv
  | sendOnly
  | recvOnly
  | inactive
  deriving DecidableEq

/-- A media section that is not negotiated. -/
structure DeclinedMedia where
  kind : Text
  proto : Text
  fmts : Text
  beforeAudio : Bool
  deriving DecidableEq

inductive QosStatusType where
  | e2e
  | local
  | remote
  deriving DecidableEq

inductive QosStrength where
  | mandatory
  | optional
  | none
  | failure
  | unknown
  deriving DecidableEq

inductive QosDirection where
  | none
  | send
  | recv
  | sendRecv
  deriving DecidableEq

structure QosDesired where
  strength : QosStrength
  statusType : QosStatusType
  direction : QosDirection
  deriving DecidableEq

/-- A current-status line, of an offer or of an answer. -/
structure QosStatus where
  statusType : QosStatusType
  met : QosDirection
  deriving DecidableEq

structure SdpOffer where
  remoteRtp : IpAddr × UInt16
  offered : List OfferedCodec
  dtmf : List (UInt8 × UInt32)
  maxptime : Option UInt32
  direction : MediaDirection
  proto : Text
  otherMedia : List DeclinedMedia
  rtcp : Option UInt16
  preconditions : List QosDesired
  offererCurr : List QosStatus
  deriving DecidableEq

/-! ## Parsing an offer -/

def parseQosStatusType (token : Text) : Option QosStatusType :=
  if token = "e2e" then some .e2e
  else if token = "local" then some .local
  else if token = "remote" then some .remote
  else none

def parseQosStrength (token : Text) : QosStrength :=
  if token = "mandatory" then .mandatory
  else if token = "optional" then .optional
  else if token = "none" then .none
  else if token = "failure" then .failure
  else .unknown

def parseQosDirection (token : Text) : Option QosDirection :=
  if token = "none" then some .none
  else if token = "send" then some .send
  else if token = "recv" then some .recv
  else if token = "sendrecv" then some .sendRecv
  else none

/-- What is known after some lines of an offer. -/
structure ParseState where
  connIp : Option IpAddr := none
  rtpPort : Option UInt16 := none
  listedPts : List UInt8 := []
  rtpmap : List (UInt8 × Text × UInt32) := []
  fmtp : List (UInt8 × Text) := []
  maxptime : Option UInt32 := none
  proto : Text := []
  rtcpPort : Option UInt16 := none
  sessionDirection : MediaDirection := .sendRecv
  audioDirection : Option MediaDirection := none
  otherMedia : List DeclinedMedia := []
  preconditions : List QosDesired := []
  offererCurr : List QosStatus := []
  inAudio : Bool := false
  audioSeen : Bool := false
  seenMedia : Bool := false

/-- An `m=` line: the first `audio ` section is the one that is negotiated. -/
def parseMedia (s : ParseState) (rest : Text) : ParseState :=
  let s := { s with seenMedia := true }
  match if s.audioSeen then none else rest.dropPrefix? "audio " with
  | some rest =>
    let fields := splitWhitespace rest
    { s with
      inAudio := true
      audioSeen := true
      rtpPort := fields[0]?.bind parseU16
      proto := fields[1]?.getD []
      listedPts := (fields.drop 2).filterMap parseU8 }
  | none =>
    let fields := splitWhitespace rest
    { s with
      inAudio := false
      otherMedia := s.otherMedia ++
        [{ kind := fields[0]?.getD [], proto := fields[2]?.getD [], fmts := join (fields.drop 3),
           beforeAudio := !s.audioSeen }] }

/-- A `c=IN ` line of the session or of the audio section; an address that does
not parse discards the one before. -/
def parseConnection (s : ParseState) (rest : Text) : ParseState :=
  if s.inAudio || !s.seenMedia then
    match (splitWhitespace rest)[1]? with
    | some addr => { s with connIp := IpAddr.parse addr }
    | none => s
  else s

def directionLine (line : Text) : Option MediaDirection :=
  if line = "a=sendonly" then some .sendOnly
  else if line = "a=recvonly" then some .recvOnly
  else if line = "a=inactive" then some .inactive
  else if line = "a=sendrecv" then some .sendRecv
  else none

def parseDirection (s : ParseState) (dir : MediaDirection) : ParseState :=
  if s.inAudio then { s with audioDirection := some dir }
  else if !s.seenMedia then { s with sessionDirection := dir }
  else s

/-- `splitn(2, c)`: up to the first `c`, and what follows it if there is one. -/
def splitTwo (c : Char) (t : Text) : Text × Option Text :=
  match splitOnce c t with
  | some (a, b) => (a, some b)
  | none => (t, none)

def parseRtpmap (s : ParseState) (rest : Text) : ParseState :=
  let parts := splitTwo ' ' rest
  match parseU8 parts.1, parts.2 with
  | some pt, some nameRate =>
    match splitOnce '/' nameRate with
    | some (name, rate) =>
      match parseU32 (splitTwo '/' rate).1 with
      | some rate => { s with rtpmap := (pt, toAsciiUppercase name, rate) :: s.rtpmap }
      | none => s
    | none => s
  | _, _ => s

def parseFmtp (s : ParseState) (rest : Text) : ParseState :=
  let parts := splitTwo ' ' rest
  match parseU8 parts.1, parts.2 with
  | some pt, some params => { s with fmtp := (pt, trim params) :: s.fmtp }
  | _, _ => s

def parseRtcp (s : ParseState) (rest : Text) : ParseState :=
  { s with rtcpPort := ((splitWhitespace rest)[0]?.bind parseU16).filter (· ≠ 0) }

def parseDesired (s : ParseState) (rest : Text) : ParseState :=
  match splitWhitespace rest with
  | strength :: statusType :: direction :: _ =>
    match parseQosStatusType statusType, parseQosDirection direction with
    | some statusType, some direction =>
      { s with preconditions := s.preconditions ++
          [{ strength := parseQosStrength strength, statusType, direction }] }
    | _, _ => s
  | _ => s

def parseCurrent (s : ParseState) (rest : Text) : ParseState :=
  match splitWhitespace rest with
  | statusType :: met :: _ =>
    match parseQosStatusType statusType, parseQosDirection met with
    | some statusType, some met => { s with offererCurr := s.offererCurr ++ [{ statusType, met }] }
    | _, _ => s
  | _ => s

/-- The attributes that are read in the audio section only. -/
def parseAttribute (s : ParseState) (line : Text) : ParseState :=
  match line.dropPrefix? "a=rtpmap:" with
  | some rest => parseRtpmap s rest
  | none =>
    match line.dropPrefix? "a=maxptime:" with
    | some rest => { s with maxptime := parseU32 (trim rest) }
    | none =>
      match line.dropPrefix? "a=rtcp:" with
      | some rest => parseRtcp s rest
      | none =>
        match line.dropPrefix? "a=fmtp:" with
        | some rest => parseFmtp s rest
        | none =>
          match line.dropPrefix? "a=des:qos " with
          | some rest => parseDesired s rest
          | none =>
            match line.dropPrefix? "a=curr:qos " with
            | some rest => parseCurrent s rest
            | none => s

def parseLine (s : ParseState) (line : Text) : ParseState :=
  let line := trim line
  match line.dropPrefix? "m=" with
  | some rest => parseMedia s rest
  | none =>
    match line.dropPrefix? "c=IN " with
    | some rest => parseConnection s rest
    | none =>
      match directionLine line with
      | some dir => parseDirection s dir
      | none => if s.inAudio then parseAttribute s line else s

def codecOf (s : ParseState) (pt : UInt8) : Option NegotiatedCodec :=
  if pt = pcmuPayloadType then some .pcmu
  else
    match s.rtpmap.lookup pt with
    | some (name, rate) =>
      if name = "PCMU" ∧ rate = 8000 then some .pcmu
      else if name = "AMR" ∧ rate = 8000 then some .amrNb
      else if name = "AMR-WB" ∧ rate = 16000 then some .amrWb
      else if name = "L16" ∧ rate = 16000 then some .l16
      else none
    | none => none

/-- The clock rate of a payload type that is mapped to `telephone-event`. -/
def dtmfRate (s : ParseState) (pt : UInt8) : Option UInt32 :=
  match s.rtpmap.lookup pt with
  | some (name, rate) => if name = "TELEPHONE-EVENT" then some rate else none
  | none => none

def finishOffer (s : ParseState) : Except Text SdpOffer :=
  match s.connIp with
  | none => .error "SDP offer missing c= connection address"
  | some connIp =>
    match s.rtpPort with
    | none => .error "SDP offer missing m=audio port"
    | some rtpPort =>
      if s.listedPts.isEmpty then .error "SDP offer's m=audio line lists no payload types"
      else
        .ok {
          remoteRtp := (connIp, rtpPort)
          offered := s.listedPts.filterMap fun pt =>
            (codecOf s pt).map fun codec =>
              { payloadType := pt, codec, fmtp := (s.fmtp.lookup pt).getD [] }
          dtmf := s.listedPts.filterMap fun pt => (dtmfRate s pt).map fun rate => (pt, rate)
          maxptime := s.maxptime
          direction := s.audioDirection.getD s.sessionDirection
          proto := s.proto
          otherMedia := s.otherMedia
          rtcp := s.rtcpPort
          preconditions := s.preconditions
          offererCurr := s.offererCurr }

def parseOffer (body : Text) : Except Text SdpOffer :=
  finishOffer ((lines body).foldl parseLine {})

/-! ## Preconditions -/

inductive PreconditionVerdict where
  | proceed (current : List QosStatus) (desired : List QosDesired)
  | decline
  deriving DecidableEq

def invertQosDirection : QosDirection → QosDirection
  | .send => .recv
  | .recv => .send
  | .sendRecv => .sendRecv
  | .none => .none

def invertQosStatusType : QosStatusType → QosStatusType
  | .local => .remote
  | .remote => .local
  | .e2e => .e2e

/-- What the offerer itself says about the end-to-end status, inverted. -/
def offererE2e (offer : SdpOffer) : QosDirection :=
  match (offer.offererCurr.find? fun s => s.statusType == .e2e).or
      (offer.offererCurr.find? fun s => s.statusType == .local) with
  | some s => invertQosDirection s.met
  | none => .none

/-- The current-status lines for the desired ones; `none` where the source
returns `Decline`. -/
def currentFor (e2eMet : QosDirection) : List QosDesired → Option (List QosStatus)
  | [] => some []
  | line :: lines =>
    match line.statusType with
    | .remote => (currentFor e2eMet lines).map
        ({ statusType := .local, met := invertQosDirection line.direction } :: ·)
    | .e2e =>
      if line.strength = .mandatory then none
      else (currentFor e2eMet lines).map ({ statusType := .e2e, met := e2eMet } :: ·)
    | .local => currentFor e2eMet lines

def preconditionVerdict (offer : SdpOffer) : PreconditionVerdict :=
  match currentFor (offererE2e offer) offer.preconditions with
  | none => .decline
  | some current =>
    let mirrored := offer.offererCurr.filterMap fun s =>
      if s.statusType = .local then
        some { statusType := .remote, met := invertQosDirection s.met }
      else none
    .proceed (current ++ mirrored) (offer.preconditions.map fun line =>
      { strength := line.strength
        statusType := invertQosStatusType line.statusType
        direction := invertQosDirection line.direction })

def qosStatusTypeToken : QosStatusType → Text
  | .e2e => "e2e"
  | .local => "local"
  | .remote => "remote"

def qosDirectionToken : QosDirection → Text
  | .none => "none"
  | .send => "send"
  | .recv => "recv"
  | .sendRecv => "sendrecv"

def qosStrengthToken : QosStrength → Option Text
  | .mandatory => some "mandatory"
  | .optional => some "optional"
  | .none => some "none"
  | .failure => some "failure"
  | .unknown => none

/-! ## Choosing a codec -/

inductive AnswerPreference where
  | legacy
  | cellular
  deriving DecidableEq

/-- The offer's entry for a codec, an octet-aligned one first. -/
def pickOffered (offer : SdpOffer) (codec : NegotiatedCodec) : Option OfferedCodec :=
  let ofCodec := offer.offered.filter (·.codec == codec)
  (ofCodec.find? OfferedCodec.isOctetAligned).or ofCodec.head?

def selectCodecWith (offer : SdpOffer) (amrAvailable wideband : Bool)
    (preference : AnswerPreference) : Option OfferedCodec :=
  let pick := fun codec : NegotiatedCodec =>
    if !amrAvailable && codec != .pcmu then none else pickOffered offer codec
  if wideband && amrAvailable then
    match preference with
    | .legacy => (pick .amrWb).or ((pick .pcmu).or (pick .amrNb))
    | .cellular => (pick .amrWb).or ((pick .amrNb).or (pick .pcmu))
  else (pick .pcmu).or ((pick .amrWb).or (pick .amrNb))

/-- The codec of the veth link: wideband only where the carrier leg is. -/
def selectVethCodec (offer : SdpOffer) (wideband : Bool) : Option OfferedCodec :=
  (if wideband then pickOffered offer .l16 else none).or (pickOffered offer .pcmu)

/-! ## Building an answer -/

def crlf : Text := ['\r', '\n']

def ipAddrtype (ip : IpAddr) : Text :=
  if ip.isV6 then "IP6" else "IP4"

def chosenRate : NegotiatedCodec → UInt32
  | .amrWb | .l16 => 16000
  | .amrNb | .pcmu => 8000

/-- The `telephone-event` to keep: one at the codec's clock rate, else the first. -/
def dtmfPick (dtmf : List (UInt8 × UInt32)) (rate : UInt32) : Option (UInt8 × UInt32) :=
  (dtmf.find? fun d => d.2 == rate).or dtmf.head?

def asKbps : NegotiatedCodec → Nat
  | .amrNb => 41
  | .amrWb => 49
  | .pcmu => 80
  | .l16 => 280

def rtpmapLines (chosen : OfferedCodec) : List Text :=
  let pt := display chosen.payloadType.toNat
  match chosen.codec with
  | .pcmu => ["a=rtpmap:" ++ pt ++ " PCMU/8000"]
  | .l16 => ["a=rtpmap:" ++ pt ++ " L16/16000"]
  | .amrNb => ["a=rtpmap:" ++ pt ++ " AMR/8000",
      "a=fmtp:" ++ pt ++ ' ' :: chosen.fmtp]
  | .amrWb => ["a=rtpmap:" ++ pt ++ " AMR-WB/16000",
      "a=fmtp:" ++ pt ++ ' ' :: chosen.fmtp]

def dtmfLines : Option (UInt8 × UInt32) → List Text
  | some (pt, rate) =>
    ["a=rtpmap:" ++ display pt.toNat ++ " telephone-event/" ++ display rate.toNat,
      "a=fmtp:" ++ display pt.toNat ++ " 0-15"]
  | none => []

def declinedLine (dm : DeclinedMedia) : Text :=
  if dm.fmts.isEmpty then "m=" ++ dm.kind ++ " 0 " ++ dm.proto
  else "m=" ++ dm.kind ++ " 0 " ++ dm.proto ++ ' ' :: dm.fmts

def directionAnswer : MediaDirection → Text
  | .sendOnly => "a=recvonly"
  | .recvOnly => "a=sendonly"
  | .inactive => "a=inactive"
  | .sendRecv => "a=sendrecv"

def currentLine (line : QosStatus) : Text :=
  "a=curr:qos " ++ qosStatusTypeToken line.statusType ++ ' ' :: qosDirectionToken line.met

def desiredLine (line : QosDesired) : Option Text :=
  (qosStrengthToken line.strength).map fun strength =>
    "a=des:qos " ++ strength ++ ' ' :: qosStatusTypeToken line.statusType ++
      ' ' :: qosDirectionToken line.direction

def qosLines (offer : SdpOffer) : List Text :=
  match preconditionVerdict offer with
  | .proceed current desired => current.map currentLine ++ desired.filterMap desiredLine
  | .decline => []

/-- The answer's lines, without their line ends. -/
def answerLines (localIp : IpAddr) (rtpPort : UInt16) (sessionId : UInt64) (chosen : OfferedCodec)
    (offer : SdpOffer) (declaredRtcpPort : Option UInt16) : List Text :=
  let address := ipAddrtype localIp ++ ' ' :: localIp.toText
  let id := display sessionId.toNat
  let dtmf := dtmfPick offer.dtmf (chosenRate chosen.codec)
  ["v=0".toList,
    "o=- " ++ id ++ ' ' :: id ++ " IN " ++ address,
    "s=gsm-sip-bridge vowifi bridge",
    "c=IN " ++ address,
    "t=0 0"] ++
  (offer.otherMedia.filter (·.beforeAudio)).map declinedLine ++
  ["m=audio " ++ display rtpPort.toNat ++ " RTP/AVP " ++
    display chosen.payloadType.toNat ++ (dtmf.map fun d => ' ' :: display d.1.toNat).getD []] ++
  (declaredRtcpPort.map fun port => "a=rtcp:" ++ display port.toNat).toList ++
  ["b=AS:" ++ display (asKbps chosen.codec),
    "b=RS:" ++ display rtcpSrBandwidthBps,
    "b=RR:" ++ display rtcpRrBandwidthBps] ++
  rtpmapLines chosen ++
  dtmfLines dtmf ++
  ["a=ptime:20".toList] ++
  (offer.maxptime.map fun mp => "a=maxptime:" ++ display mp.toNat).toList ++
  [directionAnswer offer.direction] ++
  qosLines offer ++
  (offer.otherMedia.filter (!·.beforeAudio)).map declinedLine

def buildAnswerFor (localIp : IpAddr) (rtpPort : UInt16) (sessionId : UInt64)
    (chosen : OfferedCodec) (offer : SdpOffer) (declaredRtcpPort : Option UInt16) :
    Text × ChosenCodec :=
  ((answerLines localIp rtpPort sessionId chosen offer declaredRtcpPort).flatMap (· ++ crlf),
    { codec := chosen.codec
      payloadType := chosen.payloadType
      octetAligned := chosen.isOctetAligned
      dtmfPayloadType := (dtmfPick offer.dtmf (chosenRate chosen.codec)).map Prod.fst })

def buildAnswer (localIp : IpAddr) (rtpPort : UInt16) (sessionId : UInt64) (offer : SdpOffer)
    (amrAvailable wideband : Bool) (preference : AnswerPreference)
    (declaredRtcpPort : Option UInt16) : Except Text (Text × ChosenCodec) :=
  match selectCodecWith offer amrAvailable wideband preference with
  | none => .error "SDP offer has no codec this client can answer with"
  | some chosen => .ok (buildAnswerFor localIp rtpPort sessionId chosen offer declaredRtcpPort)

/-! ## The answer to an offer of our own -/

def amrWbPayloadType : UInt8 := 96

structure SdpAnswer where
  remoteRtp : IpAddr × UInt16
  codec : NegotiatedCodec
  deriving DecidableEq

/-- What is known after some lines of an answer. -/
structure AnswerState where
  connIp : Option IpAddr := none
  rtpPort : Option UInt16 := none
  payloadType : Option UInt8 := none

/-- A `c=` line replaces the address only if it holds one; the last `m=audio` line counts. -/
def parseAnswerLine (s : AnswerState) (line : Text) : AnswerState :=
  let line := trim line
  match line.dropPrefix? "c=IN " with
  | some rest =>
    match (splitWhitespace rest)[1]?.bind IpAddr.parse with
    | some addr => { s with connIp := some addr }
    | none => s
  | none =>
    match line.dropPrefix? "m=audio " with
    | some rest =>
      let fields := splitWhitespace rest
      { s with rtpPort := fields[0]?.bind parseU16, payloadType := fields[2]?.bind parseU8 }
    | none => s

def finishAnswer (s : AnswerState) : Except Text SdpAnswer :=
  match s.connIp, s.rtpPort, s.payloadType with
  | none, _, _ => .error "SDP answer missing c= connection address"
  | some _, none, _ => .error "SDP answer missing m=audio port"
  | some _, some _, none => .error "SDP answer's m=audio line has no payload type"
  | some ip, some port, some pt =>
    if pt = pcmuPayloadType then .ok { remoteRtp := (ip, port), codec := .pcmu }
    else if pt = amrWbPayloadType then .ok { remoteRtp := (ip, port), codec := .amrWb }
    else .error ("SDP answer selected an unoffered/unsupported payload type: " ++
      display pt.toNat)

def parseAnswer (body : Text) : Except Text SdpAnswer :=
  finishAnswer ((lines body).foldl parseAnswerLine {})

/-- The full description of a codec that is in our own offers. -/
def offeredChosenCodec : NegotiatedCodec → Option ChosenCodec
  | .pcmu => some
      { codec := .pcmu
        payloadType := pcmuPayloadType
        octetAligned := false
        dtmfPayloadType := none }
  | .amrWb => some
      { codec := .amrWb
        payloadType := amrWbPayloadType
        octetAligned := true
        dtmfPayloadType := none }
  | .amrNb | .l16 => none

end Ims.Sdp
