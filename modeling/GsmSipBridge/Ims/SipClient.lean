-- SUMMARY: SIP messages on a byte stream (`ims/sip_client.rs`).
import GsmSipBridge.Lib.Delimited
import GsmSipBridge.Lib.Text

/-!
# SIP messages

A connection is a buffer of raw bytes. A message is complete once the blank line
behind its headers and as many further bytes as `Content-Length` declares have
arrived. Additions of lengths and slices are modelled with the panics they can
end in; the parsers of requests and responses differ in their start line only.
Log lines are left out.
-/

namespace Ims.SipClient

open Text

/-! ## Failures -/

/-- Whether additions of machine integers are checked (a debug build) or wrap. -/
inductive Profile where
  | debug
  | release
  deriving DecidableEq

/-- How a call ends without a value: a panic, or an error that is returned. -/
inductive Failure where
  | overflow
  | fault (f : Bytes.Fault)
  | ims (message : Text)

/-- The call did not return to its caller. -/
def Failure.isPanic : Failure → Bool
  | .overflow | .fault _ => true
  | .ims _ => false

def usizeMax : Nat := 2 ^ 64 - 1
def isizeMax : Nat := 2 ^ 63 - 1

/-- `a + b` on `usize`. -/
def addUsize (profile : Profile) (a b : Nat) : Except Failure Nat :=
  if a + b ≤ usizeMax then .ok (a + b)
  else
    match profile with
    | .debug => .error .overflow
    | .release => .ok ((a + b) % 2 ^ 64)

/-- `buf[lo..hi]`. -/
def slice (buf : Bytes) (lo hi : Nat) : Except Failure Bytes :=
  (buf.range lo hi).mapError .fault

/-! ## Headers -/

def crlf : Text := ['\r', '\n']

abbrev Header := Text × Text

/-- Compact header names are the ones of a single letter. -/
def canonicalHeaderName (name : Text) : Text :=
  match name with
  | [c] =>
    match c.toLower with
    | 'a' => "Accept-Contact"
    | 'b' => "Referred-By"
    | 'c' => "Content-Type"
    | 'd' => "Request-Disposition"
    | 'e' => "Content-Encoding"
    | 'f' => "From"
    | 'i' => "Call-ID"
    | 'j' => "Reject-Contact"
    | 'k' => "Supported"
    | 'l' => "Content-Length"
    | 'm' => "Contact"
    | 'o' => "Event"
    | 'r' => "Refer-To"
    | 's' => "Subject"
    | 't' => "To"
    | 'u' => "Allow-Events"
    | 'v' => "Via"
    | 'x' => "Session-Expires"
    | _ => name
  | _ => name

def findSubslice (haystack needle : Bytes) : Option Nat :=
  Delimited.find needle haystack

/-- A line that continues the header before it. -/
def isContinuation (line : Text) : Bool :=
  match line with
  | c :: _ => c == ' ' || c == '\t'
  | [] => false

/-- The header lines up to the blank one, continuation lines joined to the header
they continue; `unfolded` are the headers read so far. -/
def unfold (unfolded : List Text) : List Text → List Text
  | [] => unfolded
  | line :: lines =>
    if line.isEmpty then unfolded
    else if isContinuation line && !unfolded.isEmpty then
      unfold (unfolded.modifyLast (· ++ ' ' :: trimStart line)) lines
    else unfold (unfolded ++ [line]) lines

def parseHeader (line : Text) : Option Header :=
  (splitOnce ':' line).map fun kv => (canonicalHeaderName (trim kv.1), trim kv.2)

def parseHeaders (lines : List Text) : List Header :=
  (unfold [] lines).filterMap parseHeader

/-- The first header of a name. -/
def header (headers : List Header) (name : Text) : Option Text :=
  (headers.find? fun kv => eqIgnoreAsciiCase kv.1 name).map Prod.snd

/-- Every header of a name, in order. -/
def headersAll (headers : List Header) (name : Text) : List Text :=
  (headers.filter fun kv => eqIgnoreAsciiCase kv.1 name).map Prod.snd

/-- The declared length of the body; one that is missing or not a number counts as zero. -/
def contentLength (headers : List Header) : Nat :=
  ((header headers "Content-Length").bind fun v => Numeral.parse usizeMax (trim v)).getD 0

/-! ## Messages -/

structure SipResponse where
  status : UInt16
  reason : Text
  headers : List Header
  body : Text
  deriving DecidableEq

structure SipRequest where
  method : Text
  requestUri : Text
  headers : List Header
  body : Text
  bodyBytes : Bytes
  deriving DecidableEq

inductive SipMessage where
  | request (r : SipRequest)
  | response (r : SipResponse)
  deriving DecidableEq

/-- The length of the header block at the front of a buffer, with its blank line. -/
def headerEnd (buf : Bytes) : Option Nat :=
  (findSubslice buf [13, 10, 13, 10]).map (· + 4)

/-- The `declared` bytes behind the header block and where they end, once they are there. -/
def takeBody (profile : Profile) (buf : Bytes) (headerLen declared : Nat) :
    Except Failure (Option (Bytes × Nat)) := do
  let totalLen ← addUsize profile headerLen declared
  if buf.length < totalLen then return none
  else
    let body ← slice buf headerLen totalLen
    return some (body, totalLen)

/-- One message from the front of `buf` and how many bytes it takes, for a kind of
start line: both parsers are this function. -/
def tryParseWith {σ α : Type} (empty : Text) (startLine : Text → Except Failure σ)
    (build : σ → List Header → Bytes → α) (profile : Profile) (buf : Bytes) :
    Except Failure (Option (α × Nat)) :=
  match headerEnd buf with
  | none => .ok none
  | some headerLen => do
    let headerPart ← slice buf 0 headerLen
    match Delimited.split '\r' '\n' (Utf8.fromUtf8Lossy headerPart) with
    | [] => .error (.ims empty)
    | first :: lines => do
      let start ← startLine first
      let headers := parseHeaders lines
      let body ← takeBody profile buf headerLen (contentLength headers)
      return body.map fun b => (build start headers b.1, b.2)

namespace SipResponse

def statusLine (line : Text) : Except Failure (UInt16 × Text) :=
  match splitn 3 ' ' line with
  | _ :: status :: rest =>
    match Numeral.parseU16 status with
    | some status => .ok (status, rest.headD [])
    | none => .error (.ims ("malformed status code: " ++ line))
  | _ => .error (.ims ("malformed status line: " ++ line))

def tryParse (profile : Profile) (buf : Bytes) : Except Failure (Option (SipResponse × Nat)) :=
  tryParseWith "empty SIP response" statusLine
    (fun start headers body =>
      { status := start.1, reason := start.2, headers, body := Utf8.fromUtf8Lossy body })
    profile buf

end SipResponse

namespace SipRequest

def requestLine (line : Text) : Except Failure (Text × Text) :=
  match splitn 3 ' ' line with
  | method :: requestUri :: _ => .ok (method, requestUri)
  | _ => .error (.ims ("malformed request line: " ++ line))

def tryParse (profile : Profile) (buf : Bytes) : Except Failure (Option (SipRequest × Nat)) :=
  tryParseWith "empty SIP request" requestLine
    (fun start headers body =>
      { method := start.1, requestUri := start.2, headers, body := Utf8.fromUtf8Lossy body,
        bodyBytes := body })
    profile buf

end SipRequest

/-- A start line that begins with the version is a response's. -/
def sipVersion : Text := "SIP/2.0"

open SipRequest

def tryParseOne (profile : Profile) (buf : Bytes) : Except Failure (Option (SipMessage × Nat)) :=
  match findSubslice buf [13, 10] with
  | none => .ok none
  | some lineEnd => do
    let line ← slice buf 0 lineEnd
    if (Utf8.encode sipVersion).isPrefixOf line then
      let parsed ← SipResponse.tryParse profile buf
      return parsed.map fun p => (.response p.1, p.2)
    else
      let parsed ← tryParse profile buf
      return parsed.map fun p => (.request p.1, p.2)

/-! ## Receiving -/

/-- What one read of the socket gives. -/
inductive Read where
  | data (bytes : Bytes)
  | timedOut
  | failed (message : Text)

def readMore (buf : Bytes) : Read → Except Failure Bytes
  | .data [] => .error (.ims "connection closed by peer with no data (0 bytes read)")
  | .data bytes => .ok (buf ++ bytes)
  | .timedOut => .ok buf
  | .failed message => .error (.ims ("recv failed: " ++ message))

/-- One call of `recvMessageDeadline`: what it returned with the buffer it left and
the reads it has not made, or that it still waits for a read. -/
inductive Recv where
  | returned (result : Except Failure (Option SipMessage)) (buf : Bytes) (reads : List (Read × Bool))
  | waiting (buf : Bytes)

/-- Reads until a message is complete or the deadline has passed; each read comes
with whether the deadline has passed when it is over. -/
def recvMessageDeadline (profile : Profile) (buf : Bytes) (reads : List (Read × Bool)) : Recv :=
  match tryParseOne profile buf, reads with
  | .error failure, reads => .returned (.error failure) buf reads
  | .ok (some (message, consumed)), reads =>
    .returned (.ok (some message)) (buf.drop consumed) reads
  | .ok none, [] => .waiting buf
  | .ok none, (read, expired) :: reads =>
    match readMore buf read with
    | .error failure => .returned (.error failure) buf reads
    | .ok buf =>
      if expired then .returned (.ok none) buf reads
      else recvMessageDeadline profile buf reads

/-- Call after call on one connection, `calls` of them at most: what they returned,
and the buffer when the next call waits for more. -/
def receive (profile : Profile) :
    (calls : Nat) → Bytes → List (Read × Bool) → List (Except Failure (Option SipMessage)) × Option Bytes
  | 0, _, _ => ([], none)
  | calls + 1, buf, reads =>
    match recvMessageDeadline profile buf reads with
    | .waiting buf => ([], some buf)
    | .returned result buf reads =>
      let rest := receive profile calls buf reads
      (result :: rest.1, rest.2)

/-! ## Responses -/

/-- The already-tagged test: some field behind a semicolon starts with `tag=`. -/
def toAlreadyTagged (value : Text) : Bool :=
  ((toAsciiLowercase value).splitOn ';').tail.any fun p => "tag=".toList.isPrefixOf (trimStart p)

/-- One header line without its line end. -/
def headerLine (name value : Text) : Text :=
  name ++ ": " ++ value

/-- The header lines of a response. -/
def responseLines (request : SipRequest) (toTag contact body : Option Text)
    (extra : List Header) : List Text :=
  let toValue := (header request.headers "To").getD []
  let body := body.getD []
  (headersAll request.headers "Via").map (headerLine "Via") ++
  (headersAll request.headers "Record-Route").map (headerLine "Record-Route") ++
  ((header request.headers "From").map (headerLine "From")).toList ++
  [headerLine "To"
    (match toTag with
    | some tag =>
      if toAlreadyTagged toValue then toValue else toValue ++ ";tag=" ++ tag
    | none => toValue)] ++
  ((header request.headers "Call-ID").map (headerLine "Call-ID")).toList ++
  ((header request.headers "CSeq").map (headerLine "CSeq")).toList ++
  (contact.map (headerLine "Contact")).toList ++
  extra.map (fun nv => headerLine nv.1 nv.2) ++
  (if body.isEmpty then [] else [headerLine "Content-Type" "application/sdp"]) ++
  [headerLine "Content-Length" (Numeral.display (Utf8.encode body).length)]

def buildUasResponseWithHeaders (status : UInt16) (reason : Text) (request : SipRequest)
    (toTag contact body : Option Text) (extra : List Header) : Text :=
  sipVersion ++ ' ' :: Numeral.display status.toNat ++ ' ' :: reason ++ crlf ++
    (responseLines request toTag contact body extra).flatMap (· ++ crlf) ++ crlf ++ body.getD []

def buildUasResponse (status : UInt16) (reason : Text) (request : SipRequest)
    (toTag contact body : Option Text) : Text :=
  buildUasResponseWithHeaders status reason request toTag contact body []

/-! ## Parsing one message

The only arithmetic on a number from the network is the sum of the header length
and the declared body length. A buffer for which that sum fits a `usize` never
makes the parser panic; every other one does, in both build profiles. -/

variable {buf : Bytes} {n : Nat} {failure : Failure} {line : Text}

/-! ### Binds, slices and sums -/

theorem bind_ok_inv {α β : Type} {x : Except Failure α} {f : α → Except Failure β} {b : β}
    (h : x >>= f = .ok b) : ∃ a, x = .ok a ∧ f a = .ok b := by
  cases x with
  | error failure => cases h
  | ok a => exact ⟨a, rfl, h⟩

theorem slice_ok {lo hi : Nat} (h : lo ≤ hi) (h' : hi ≤ buf.length) :
    slice buf lo hi = .ok (buf.slice lo hi) := by
  rw [slice, Bytes.range_ok h h']
  rfl

theorem slice_front (h : n ≤ buf.length) : slice buf 0 n = .ok (buf.take n) :=
  slice_ok (Nat.zero_le n) h

theorem contentLength_le (headers : List Header) : contentLength headers ≤ usizeMax := by
  unfold contentLength
  cases header headers "Content-Length" with
  | none => exact Nat.zero_le _
  | some v =>
    rw [Option.bind_some]
    cases hp : Numeral.parse usizeMax (trim v) with
    | none => exact Nat.zero_le _
    | some n => exact Numeral.parse_le hp

section TakeBody

variable {p : Profile} {headerLen declared : Nat}

theorem takeBody_fits (h : headerLen + declared ≤ usizeMax) :
    takeBody p buf headerLen declared =
      .ok (if buf.length < headerLen + declared then none
        else some (buf.slice headerLen (headerLen + declared), headerLen + declared)) := by
  unfold takeBody addUsize
  rw [if_pos h]
  change (if buf.length < headerLen + declared then Except.ok none else _) = _
  split
  case isTrue => rfl
  case isFalse hlong =>
    rw [slice_ok (Nat.le_add_right headerLen declared) (Nat.not_lt.mp hlong)]
    rfl

/-- A sum past the largest `usize` panics: at once when additions are checked, and
otherwise at the slice whose end has wrapped to before its start. -/
theorem takeBody_overflow (h : usizeMax < headerLen + declared) (hhead : headerLen ≤ buf.length)
    (hdeclared : declared ≤ usizeMax) :
    ∃ failure, takeBody p buf headerLen declared = .error failure ∧ failure.isPanic = true := by
  unfold takeBody addUsize
  rw [if_neg (Nat.not_le.mpr h)]
  cases p with
  | debug => exact ⟨.overflow, rfl, rfl⟩
  | release =>
    have hwrap : (headerLen + declared) % 2 ^ 64 < headerLen := by
      unfold usizeMax at h hdeclared
      omega
    change ∃ failure, (if buf.length < (headerLen + declared) % 2 ^ 64 then Except.ok none
      else slice buf headerLen ((headerLen + declared) % 2 ^ 64) >>= _) = _ ∧ _
    rw [if_neg (by omega), slice, Bytes.range, if_neg (by omega)]
    exact ⟨_, rfl, rfl⟩

end TakeBody

/-! ### One parser for both start lines -/

theorem headerEnd_bounds (h : headerEnd buf = some n) : 4 ≤ n ∧ n ≤ buf.length := by
  obtain ⟨i, hi, rfl⟩ := Option.map_eq_some_iff.mp h
  exact ⟨Nat.le_add_left 4 i, Delimited.find_length hi⟩

/-- The lines of a header block, its start line first. -/
def headLines (buf : Bytes) (headerLen : Nat) : List Text :=
  Delimited.split '\r' '\n' (Utf8.fromUtf8Lossy (buf.take headerLen))

section TryParse

variable {σ α : Type} {empty : Text} {startLine : Text → Except Failure σ}
  {build : σ → List Header → Bytes → α} {profile : Profile} {headerLen : Nat} {first : Text}
  {lines : List Text}

theorem tryParseWith_incomplete (h : headerEnd buf = none) :
    tryParseWith empty startLine build profile buf = .ok none := by
  rw [tryParseWith, h]

theorem tryParseWith_complete (h : headerEnd buf = some headerLen)
    (hlines : headLines buf headerLen = first :: lines) :
    tryParseWith empty startLine build profile buf =
      startLine first >>= fun start =>
        takeBody profile buf headerLen (contentLength (parseHeaders lines)) >>= fun body =>
          .ok (body.map fun b => (build start (parseHeaders lines) b.1, b.2)) := by
  unfold headLines at hlines
  unfold tryParseWith
  rw [h]
  dsimp only
  rw [slice_front (headerEnd_bounds h).2]
  simp only [bind, Except.bind, hlines]
  rfl

/-- A message that was returned came from a complete header block, an accepted
start line and the body behind them. -/
theorem tryParseWith_inv {message : α}
    (h : tryParseWith empty startLine build profile buf = .ok (some (message, n))) :
    ∃ headerLen first lines start body, headerEnd buf = some headerLen ∧
      headLines buf headerLen = first :: lines ∧ startLine first = .ok start ∧
      takeBody profile buf headerLen (contentLength (parseHeaders lines)) = .ok (some (body, n)) ∧
      message = build start (parseHeaders lines) body := by
  cases hend : headerEnd buf with
  | none =>
    rw [tryParseWith_incomplete hend] at h
    cases h
  | some headerLen =>
    obtain ⟨first, lines, hlines, -⟩ :=
      Delimited.split_head '\r' '\n' (Utf8.fromUtf8Lossy (buf.take headerLen))
    rw [tryParseWith_complete hend hlines] at h
    obtain ⟨start, hstart, h⟩ := bind_ok_inv h
    obtain ⟨body, hbody, h⟩ := bind_ok_inv h
    match body, h with
    | some (body, _), rfl =>
      exact ⟨headerLen, first, lines, start, body, rfl, hlines, hstart, hbody, rfl⟩

/-! ### Safety -/

/-- The call returned, and a message it returned takes at least the blank line and
no more than there is. -/
structure Safe (len : Nat) (result : Except Failure (Option (α × Nat))) : Prop where
  returns : ∀ failure, result = .error failure → failure.isPanic = false
  progress : ∀ message n, result = .ok (some (message, n)) → 4 ≤ n ∧ n ≤ len

/-- How long the message at the front of a buffer says it is, once its header block
is complete and its start line is accepted. -/
def announced (accepts : Text → Bool) (buf : Bytes) : Option Nat :=
  match headerEnd buf with
  | none => none
  | some headerLen =>
    match headLines buf headerLen with
    | [] => none
    | first :: lines =>
      if accepts first then some (headerLen + contentLength (parseHeaders lines)) else none

theorem safe_none (len : Nat) : Safe len (.ok none : Except Failure (Option (α × Nat))) where
  returns := by rintro _ ⟨⟩
  progress := by rintro _ _ ⟨⟩

theorem announced_complete {accepts : Text → Bool} (h : headerEnd buf = some headerLen)
    (hlines : headLines buf headerLen = first :: lines) :
    announced accepts buf =
      if accepts first then some (headerLen + contentLength (parseHeaders lines)) else none := by
  unfold announced
  rw [h]
  dsimp only
  rw [hlines]

/-- Behind an accepted start line, the sum of the lengths decides. -/
theorem takeBody_safe_iff {declared : Nat} (hfour : 4 ≤ headerLen) (hhead : headerLen ≤ buf.length)
    (hdeclared : declared ≤ usizeMax) (message : Bytes → α) :
    Safe buf.length (takeBody profile buf headerLen declared >>= fun body =>
        .ok (body.map fun b => (message b.1, b.2))) ↔
      headerLen + declared ≤ usizeMax := by
  by_cases hfit : headerLen + declared ≤ usizeMax
  · refine ⟨fun _ => hfit, fun _ => ?_⟩
    rw [takeBody_fits hfit]
    split
    case isTrue => exact safe_none _
    case isFalse hlong =>
      refine ⟨by rintro _ ⟨⟩, ?_⟩
      rintro _ _ ⟨⟩
      exact ⟨by omega, Nat.not_lt.mp hlong⟩
  · obtain ⟨failure, hfail, hpanic⟩ :=
      takeBody_overflow (Nat.not_le.mp hfit) hhead hdeclared
    refine ⟨fun hsafe => ?_, fun h => absurd h hfit⟩
    rw [hfail] at hsafe
    have hno := hsafe.returns failure rfl
    rw [hpanic] at hno
    cases hno

theorem tryParseWith_safe_iff (hstart : ∀ line failure, startLine line = .error failure →
    failure.isPanic = false) :
    Safe buf.length (tryParseWith empty startLine build profile buf) ↔
      ∀ total ∈ announced (fun line => (startLine line).isOk) buf, total ≤ usizeMax := by
  cases hend : headerEnd buf with
  | none =>
    rw [tryParseWith_incomplete hend, announced, hend]
    exact ⟨fun _ => nofun, fun _ => safe_none _⟩
  | some headerLen =>
    obtain ⟨hfour, hhead⟩ := headerEnd_bounds hend
    obtain ⟨first, lines, hlines, -⟩ :=
      Delimited.split_head '\r' '\n' (Utf8.fromUtf8Lossy (buf.take headerLen))
    rw [tryParseWith_complete hend hlines, announced_complete hend hlines]
    match hline : startLine first with
    | .error failure =>
      refine ⟨fun _ => nofun, fun _ => ⟨?_, nofun⟩⟩
      rintro _ ⟨⟩
      exact hstart first failure hline
    | .ok start =>
      simp only [Except.isOk, Except.toBool, if_true, Option.mem_def, Option.some.injEq, forall_eq']
      exact takeBody_safe_iff hfour hhead (contentLength_le _) (build start (parseHeaders lines))

end TryParse

theorem SipResponse.statusLine_returns (h : statusLine line = .error failure) :
    failure.isPanic = false := by
  unfold statusLine at h
  repeat' split at h
  all_goals
    cases h
    try rfl

theorem SipRequest.requestLine_returns (h : requestLine line = .error failure) :
    failure.isPanic = false := by
  unfold requestLine at h
  split at h
  all_goals
    cases h
    try rfl

/-- The bytes up to the first line end begin with the version. -/
def isResponse (buf : Bytes) : Bool :=
  match findSubslice buf [13, 10] with
  | none => false
  | some lineEnd => (Utf8.encode sipVersion).isPrefixOf (buf.take lineEnd)

theorem tryParseOne_eq (profile : Profile) (buf : Bytes) :
    tryParseOne profile buf =
      if isResponse buf then
        SipResponse.tryParse profile buf >>= fun parsed =>
          .ok (parsed.map fun p => (.response p.1, p.2))
      else
        tryParse profile buf >>= fun parsed =>
          .ok (parsed.map fun p => (.request p.1, p.2)) := by
  unfold isResponse tryParseOne
  cases hend : findSubslice buf [13, 10] with
  | none =>
    -- without a line end there is no blank line either
    have hnone : headerEnd buf = none := by
      have hprefix : [13, 10] <+: ([13, 10, 13, 10] : Bytes) := List.prefix_append [13, 10] [13, 10]
      rw [headerEnd, findSubslice, Delimited.find_none_of_prefix hprefix hend]
      rfl
    rw [tryParse, tryParseWith_incomplete hnone]
    rfl
  | some lineEnd =>
    dsimp only
    rw [slice_front (Nat.le_trans (Nat.le_add_right _ _) (Delimited.find_length hend))]
    rfl

/-- Whether the start line is accepted by the parser its first bytes select. -/
def acceptsStart (buf : Bytes) (line : Text) : Bool :=
  if isResponse buf then (SipResponse.statusLine line).isOk else (requestLine line).isOk

/-- Wrapping the message says nothing about safety. -/
theorem safe_map_iff {α β : Type} {len : Nat} {result : Except Failure (Option (α × Nat))}
    (f : α → β) :
    Safe len (result >>= fun parsed => .ok (parsed.map fun p => (f p.1, p.2))) ↔ Safe len result := by
  rcases result with failure | (_ | ⟨message, n⟩)
  · refine ⟨fun h => ⟨?_, by rintro _ _ ⟨⟩⟩, fun h => ⟨?_, by rintro _ _ ⟨⟩⟩⟩
    · rintro _ ⟨⟩
      exact h.returns failure rfl
    · rintro _ ⟨⟩
      exact h.returns failure rfl
  · exact ⟨fun _ => safe_none len, fun _ => safe_none len⟩
  · refine ⟨fun h => ⟨by rintro _ ⟨⟩, ?_⟩, fun h => ⟨by rintro _ ⟨⟩, ?_⟩⟩
    · rintro _ _ ⟨⟩
      exact h.progress (f message) n rfl
    · rintro _ _ ⟨⟩
      exact h.progress message n rfl

/-- A buffer is parsed without a panic, and with progress, exactly when the length
that its front message announces fits a `usize`. -/
theorem tryParseOne_safe_iff (profile : Profile) (buf : Bytes) :
    (Safe buf.length (tryParseOne profile buf) ↔
      ∀ total ∈ announced (acceptsStart buf) buf, total ≤ usizeMax) ∧
    (Safe buf.length (tryParse profile buf) ↔
      ∀ total ∈ announced (fun line => (requestLine line).isOk) buf,
        total ≤ usizeMax) := by
  have hrequest : Safe buf.length (tryParse profile buf) ↔
      ∀ total ∈ announced (fun line => (requestLine line).isOk) buf, total ≤ usizeMax :=
    tryParseWith_safe_iff fun _ _ h => requestLine_returns h
  refine ⟨?_, hrequest⟩
  unfold acceptsStart
  cases hkind : isResponse buf with
  | true =>
    simp only [tryParseOne_eq, hkind, if_true, safe_map_iff]
    exact tryParseWith_safe_iff fun _ _ h => SipResponse.statusLine_returns h
  | false =>
    simp only [tryParseOne_eq, hkind, Bool.false_eq_true, if_false, safe_map_iff]
    exact hrequest

/-- A request of two lines whose length is the largest `usize`. -/
def oversizedRequest : Bytes :=
  Utf8.encode (Delimited.terminated '\r' '\n'
    ["OPTIONS sip:a SIP/2.0", "Content-Length: 18446744073709551615", []])

set_option maxRecDepth 20000 in
/-- It panics in both profiles, and so is not parsed safely. -/
theorem oversizedRequest_panics :
    oversizedRequest.length ≤ isizeMax ∧
    ∀ profile, ¬ Safe oversizedRequest.length (tryParseOne profile oversizedRequest) := by
  refine ⟨by decide +kernel, fun profile hsafe => ?_⟩
  cases profile with
  | debug => exact absurd (hsafe.returns .overflow rfl) (by decide)
  | release => exact absurd (hsafe.returns (.fault (.outOfRange 62 63)) rfl) (by decide)

end Ims.SipClient
