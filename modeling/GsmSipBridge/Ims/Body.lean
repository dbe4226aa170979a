-- SUMMARY: Finding the session description in a SIP body (`ims/body.rs`).
import GsmSipBridge.Lib.Text

/-!
# Bodies

`extractSdp` decides which bytes of a body are the session description. Multipart
bodies are split at the lines that are their delimiters, each part's headers are
read, and nested multiparts are walked to a fixed depth. Reasons of failure and
the type names of diagnostics are kept as texts; only the log line is left out.
-/

namespace Ims.Body

open Text

def maxDepth : Nat := 4
def maxParts : Nat := 16
def maxBoundaryLen : Nat := 70

def cr : UInt8 := 13
def lf : UInt8 := 10

/-! ## Header values -/

/-- A parsed `Content-Type`: names lowercased, quoted values unquoted. -/
structure MediaType where
  type_ : Text
  subtype : Text
  params : List (Text × Text)
  deriving DecidableEq

/-- The fields from a position on; `field` is the one that is being read. -/
def splitParamsFrom : Text → Text → Bool → Bool → List Text
  | [], field, _, _ => [trim field]
  | c :: rest, field, inQuotes, escaped =>
    if escaped then splitParamsFrom rest (field ++ [c]) inQuotes false
    else if inQuotes && c == '\\' then splitParamsFrom rest (field ++ [c]) inQuotes true
    else if c == '\"' then splitParamsFrom rest (field ++ [c]) (!inQuotes) false
    else if c == ';' && !inQuotes then trim field :: splitParamsFrom rest [] inQuotes false
    else splitParamsFrom rest (field ++ [c]) inQuotes false

/-- Splits a header value on `;` outside quoted strings, trimming each field. -/
def splitParams (value : Text) : List Text :=
  splitParamsFrom value [] false false

/-- A quoted string behind its opening quote. -/
def unquote : Text → Text
  | [] => []
  | c :: rest =>
    if c = '\\' then
      match rest with
      | [] => []
      | d :: rest => d :: unquote rest
    else if c = '\"' then []
    else c :: unquote rest

def parseParam (field : Text) : Option (Text × Text) :=
  if field.isEmpty then none
  else
    let nameValue := (splitOnce '=' field).getD (field, [])
    let value := trim nameValue.2
    let value :=
      match value.dropPrefix? ['\"'] with
      | some quoted => unquote quoted
      | none => value
    some (toAsciiLowercase (trim nameValue.1), value)

namespace MediaType

def parse (value : Text) : Option MediaType :=
  match splitParams value with
  | [] => none
  | essence :: fields => do
    let essence ← splitOnce '/' essence
    let type_ := trim essence.1
    let subtype := trim essence.2
    if type_.isEmpty || subtype.isEmpty then none
    else
      some { type_ := toAsciiLowercase type_, subtype := toAsciiLowercase subtype,
             params := fields.filterMap parseParam }

def is (m : MediaType) (essence : Text) : Bool :=
  match splitOnce '/' essence with
  | some (t, s) => eqIgnoreAsciiCase m.type_ t && eqIgnoreAsciiCase m.subtype s
  | none => false

def param (m : MediaType) (name : Text) : Option Text :=
  (m.params.find? fun p => eqIgnoreAsciiCase p.1 name).map Prod.snd

def isMultipart (m : MediaType) : Bool :=
  m.type_ == "multipart"

def isSdp (m : MediaType) : Bool :=
  m.is "application/sdp"

def essence (m : MediaType) : Text :=
  m.type_ ++ '/' :: m.subtype

end MediaType

inductive Handling where
  | required
  | optional
  deriving DecidableEq

structure Disposition where
  kind : Text
  handling : Handling
  deriving DecidableEq

def Disposition.parse (header : Option Text) (mediaType : Option MediaType) : Disposition :=
  let defaultKind := if mediaType.any MediaType.isSdp then "session".toList else "render"
  let fields := (header.map splitParams).getD []
  let kind :=
    match fields.head?.filter (!·.isEmpty) with
    | some kind => toAsciiLowercase kind
    | none => defaultKind
  let handling :=
    match (fields.tail.filterMap parseParam).find? fun p => p.1 == "handling".toList with
    | some (_, v) =>
      if eqIgnoreAsciiCase v "optional" then Handling.optional else Handling.required
    | none => Handling.required
  { kind, handling }

/-- One body part; no `mediaType` stands for `text/plain`. -/
structure Part where
  mediaType : Option MediaType
  disposition : Disposition
  transferEncoding : Option Text
  content : Bytes
  deriving DecidableEq

def Part.typeName (part : Part) : Text :=
  match part.mediaType with
  | some m => m.essence
  | none => "text/plain"

/-! ## Lines and delimiters -/

/-- Where a line starts, where its content ends and where the next line starts. -/
structure Line where
  start : Nat
  contentEnd : Nat
  next : Nat
  deriving DecidableEq

/-- The lines from `pos` on, where `rest` is `bytes[pos..]`; every line takes at
least one byte of the fuel. -/
def linesFrom : Nat → Nat → Bytes → List Line
  | 0, _, _ => []
  | fuel + 1, pos, rest =>
    if rest.isEmpty then []
    else
      match rest.findIdx? (· == lf) with
      | some i =>
        let contentEnd := if 0 < i ∧ rest.byteAt (i - 1) = cr then pos + i - 1 else pos + i
        ⟨pos, contentEnd, pos + i + 1⟩ :: linesFrom fuel (pos + i + 1) (rest.drop (i + 1))
      | none => [⟨pos, pos + rest.length, pos + rest.length⟩]

def lines (bytes : Bytes) : List Line :=
  linesFrom bytes.length 0 bytes

inductive Delimiter where
  | part
  | close
  deriving DecidableEq

/-- `--`, as bytes. -/
def dashes : Bytes := [0x2d, 0x2d]

/-- Whether a line is a delimiter line for `boundary`, trailing blanks allowed. -/
def delimiter (line boundary : Bytes) : Option Delimiter := do
  let rest ← line.dropPrefix? dashes
  let rest ← rest.dropPrefix? boundary
  let (kind, rest) :=
    match rest.dropPrefix? dashes with
    | some rest => (Delimiter.close, rest)
    | none => (Delimiter.part, rest)
  if rest.all fun b => b == 0x20 || b == 0x09 then some kind else none

/-! ## Parts -/

/-- Reads one header line; a line that starts with a blank continues the last
header, and one without a colon is dropped. -/
def pushHeaderLine (headers : List (Text × Text)) (line : Bytes) : List (Text × Text) :=
  let line := Utf8.fromUtf8Lossy line
  if line.head? = some ' ' ∨ line.head? = some '\t' then
    match headers.getLast? with
    | some (name, value) => headers.dropLast ++ [(name, value ++ ' ' :: trim line)]
    | none => headers
  else
    match splitOnce ':' line with
    | some (name, value) => headers ++ [(toAsciiLowercase (trim name), trim value)]
    | none => headers

/-- Reads header lines up to the first blank one: the headers, and where the
content starts. -/
def headerLoop (raw : Bytes) : List Line → List (Text × Text) → List (Text × Text) × Nat
  | [], headers => (headers, raw.length)
  | l :: ls, headers =>
    let line := raw.slice l.start l.contentEnd
    if line.isEmpty then (headers, l.next)
    else headerLoop raw ls (pushHeaderLine headers line)

def header (headers : List (Text × Text)) (name : Text) : Option Text :=
  (headers.find? fun p => p.1 == name).map Prod.snd

/-- The part that headers and a content make. -/
def partOf (headers : List (Text × Text)) (content : Bytes) : Part :=
  let mediaType := (header headers "content-type").bind MediaType.parse
  { mediaType
    disposition := Disposition.parse (header headers "content-disposition") mediaType
    transferEncoding :=
      (header headers "content-transfer-encoding").map fun v => toAsciiLowercase (trim v)
    content }

def parsePart (raw : Bytes) : Part :=
  let r := headerLoop raw (lines raw) []
  partOf r.1 (raw.drop r.2)

/-- The end of a part that starts at `from_`, before a delimiter line at `start`:
the line break there belongs to the delimiter. -/
def partEnd (body : Bytes) (from_ start : Nat) : Nat :=
  if from_ < start ∧ body.byteAt (start - 1) = lf then
    if from_ < start - 1 ∧ body.byteAt (start - 2) = cr then start - 2 else start - 1
  else start

/-- A delimiter line at `start` ends the current part, if there is one. -/
def endPart (body : Bytes) (start : Nat) (partStart : Option Nat) (parts : List Part) :
    Except Text (List Part) :=
  match partStart with
  | some from_ =>
    if parts.length = maxParts then .error "too many parts"
    else
      let end_ := partEnd body from_ start
      .ok (parts ++ [parsePart (body.slice from_ (max end_ from_))])
  | none => .ok parts

/-- The walk over the lines; `partStart` is where the current part begins, once
a delimiter has been seen. -/
def splitLoop (body boundary : Bytes) :
    List Line → Option Nat → List Part → Except Text (List Part)
  | [], partStart, _ =>
    .error (if partStart.isSome then "missing close delimiter"
      else "no boundary delimiter")
  | l :: ls, partStart, parts =>
    match delimiter (body.slice l.start l.contentEnd) boundary with
    | none => splitLoop body boundary ls partStart parts
    | some kind => do
      let parts ← endPart body l.start partStart parts
      match kind with
      | .part => splitLoop body boundary ls (some l.next) parts
      | .close =>
        if partStart.isSome then .ok parts
        else .error "close delimiter before any part"

def splitMultipart (body : Bytes) (boundary : Text) : Except Text (List Part) :=
  let boundary := Utf8.encode boundary
  if boundary.isEmpty || maxBoundaryLen < boundary.length then
    .error "boundary length out of range"
  else splitLoop body boundary (lines body) none []

/-! ## The walk -/

structure DecodeInfo where
  outer : Text
  selected : Text
  skipped : List Text
  deriving DecidableEq

inductive Decoded where
  | empty
  | sdp (text : Text) (info : DecodeInfo)
  deriving DecidableEq

inductive Rejection where
  | unsupported (outer offending : Text)
  | noSession (outer : Text) (skipped : List Text)
  | malformed (outer reason : Text)
  | ambiguous (outer : Text) (count : Nat)
  deriving DecidableEq

def Rejection.toText : Rejection → Text
  | .unsupported outer offending =>
    if outer = offending then "unsupported body type " ++ outer
    else outer ++ " body has an unsupported part: " ++ offending
  | .noSession outer skipped =>
    outer ++ " body has no session description (parts: " ++
      ", ".toList.intercalate skipped ++ ")"
  | .malformed outer reason => "malformed " ++ outer ++ " body: " ++ reason
  | .ambiguous outer count =>
    outer ++ " body has " ++ Numeral.display count ++ " session descriptions"

/-- What is gathered on the way; `skippedRequired` only chooses the log level. -/
structure Walk where
  skipped : List Text := []
  skippedRequired : Bool := false
  encodedSdp : Option Text := none
  deriving DecidableEq

def Walk.skip (walk : Walk) (part : Part) : Walk :=
  { walk with
    skipped := walk.skipped ++ [part.typeName]
    skippedRequired := walk.skippedRequired || part.disposition.handling == .required }

/-- An SDP part whose disposition is `session`. -/
def Part.isSession (part : Part) : Bool :=
  part.mediaType.any MediaType.isSdp && part.disposition.kind == "session"

/-- A transfer encoding that leaves the bytes as they are. -/
def Part.isIdentity (part : Part) : Bool :=
  part.transferEncoding.all fun e =>
    e == "7bit".toList || e == "8bit" || e == "binary"

/-- The candidates inside one part; `nested` walks a multipart one level down. -/
def partSessions (nested : MediaType → Bytes → Walk → Except Text (List Bytes × Walk))
    (part : Part) (walk : Walk) : Except Text (List Bytes × Walk) :=
  match part.mediaType.filter MediaType.isMultipart with
  | some m => nested m part.content walk
  | none =>
    if part.isSession then
      if part.isIdentity then .ok ([part.content], walk)
      else
        .ok ([], { walk with
          encodedSdp := some ("application/sdp; content-transfer-encoding=" ++
            part.transferEncoding.getD []) })
    else .ok ([], walk.skip part)

/-- The candidates of each part, in order. -/
def eachPart (nested : MediaType → Bytes → Walk → Except Text (List Bytes × Walk)) :
    List Part → Walk → Except Text (List (List Bytes) × Walk)
  | [], walk => .ok ([], walk)
  | part :: parts, walk => do
    let (found, walk) ← partSessions nested part walk
    let (perPart, walk) ← eachPart nested parts walk
    .ok (found :: perPart, walk)

/-- The last part that has candidates. -/
def chosenPart (perPart : List (List Bytes)) : Option Nat :=
  (perPart.zipIdx.reverse.find? fun p => !p.1.isEmpty).map Prod.snd

/-- The type names of the other parts that have candidates. -/
def unchosenNames (parts : List Part) (perPart : List (List Bytes)) (chosen : Nat) : List Text :=
  (parts.zip perPart).zipIdx.filterMap fun p =>
    if p.2 ≠ chosen ∧ !p.1.2.isEmpty then some p.1.1.typeName else none

/-- Every session part under a multipart. The first argument is how many levels
are still allowed, `maxDepth + 1` less the source's `depth`. -/
def sessions : Nat → MediaType → Bytes → Walk → Except Text (List Bytes × Walk)
  | 0, _, _, _ => .error "multipart nested too deeply"
  | levels + 1, mediaType, content, walk => do
    let boundary ←
      match mediaType.param "boundary" with
      | some boundary => .ok boundary
      | none => .error "missing boundary"
    let parts ← splitMultipart content boundary
    let (perPart, walk) ← eachPart (sessions levels) parts walk
    if mediaType.subtype = "alternative" then
      match chosenPart perPart with
      | none => .ok ([], walk)
      | some chosen =>
        .ok (perPart.getD chosen [],
          { walk with skipped := walk.skipped ++ unchosenNames parts perPart chosen })
    else .ok (perPart.flatten, walk)

def isBlank (body : Bytes) : Bool :=
  body.all fun b => b == 0x20 || b == 0x09 || b == 0x0a || b == 0x0c || b == 0x0d

def sdpWhole (body : Bytes) (outer : Text) : Decoded :=
  .sdp (Utf8.fromUtf8Lossy body)
    { outer, selected := "application/sdp", skipped := [] }

/-- What the candidates of a multipart body come to. -/
def conclude (outer : Text) (found : List Bytes) (walk : Walk) : Except Rejection Decoded :=
  match found with
  | [one] =>
    .ok (.sdp (Utf8.fromUtf8Lossy one)
      { outer, selected := "application/sdp", skipped := walk.skipped })
  | [] =>
    match walk.encodedSdp with
    | some offending => .error (.unsupported outer offending)
    | none => .error (.noSession outer walk.skipped)
  | many => .error (.ambiguous outer many.length)

def extractSdp (contentType : Option Text) (body : Bytes) : Except Rejection Decoded :=
  if isBlank body then .ok .empty
  else
    match contentType with
    | none => .ok (sdpWhole body "(none)")
    | some rawType =>
      match MediaType.parse rawType with
      | none => .error (.unsupported (trim rawType) (trim rawType))
      | some mediaType =>
        let outer := mediaType.essence
        if mediaType.isSdp then .ok (sdpWhole body outer)
        else if !mediaType.isMultipart then .error (.unsupported outer outer)
        else
          match sessions maxDepth mediaType body {} with
          | .error reason => .error (.malformed outer reason)
          | .ok (found, walk) => conclude outer found walk

end Ims.Body
