-- SUMMARY: However a stream is cut into reads, the messages that were sent are received.
import Mathlib.Data.Bool.AllAny
import Mathlib.Data.List.ModifyLast
import GsmSipBridge.Ims.SipClient

/-!
# Framing

A message on the wire is a header block, its blank line and a body of the declared
length. Behind a complete block any bytes may follow: the parser reads the block
and as much body as it declares, or waits for it. A buffer that starts a stream of
such messages therefore holds complete messages and an incomplete one, and the
receive loop takes off the complete ones.
-/

namespace Ims.SipClient

open Text Delimited List

variable {t : Text}

/-! ## Header blocks -/

/-- A line that can stand in a header block. -/
def IsLine (line : Text) : Prop :=
  Free '\r' '\n' line ∧ line ≠ []

instance (line : Text) : Decidable (IsLine line) :=
  inferInstanceAs (Decidable (_ ∧ _))

/-- The bytes of a header block, with the blank line that ends it. -/
def headBlock (lines : List Text) : Bytes :=
  Utf8.encode (terminated '\r' '\n' (lines ++ [[]]))

theorem encode_terminated (lines : List Text) :
    Utf8.encode (terminated '\r' '\n' lines) = terminated 13 10 (lines.map Utf8.encode) := by
  induction lines with
  | nil => rfl
  | cons l lines ih =>
    rw [terminated_cons, Utf8.encode_append, Utf8.encode_cons, Utf8.encode_cons, ih, map_cons,
      terminated_cons]
    rfl

theorem headBlock_eq (lines : List Text) :
    headBlock lines = terminated 13 10 (lines.map Utf8.encode) ++ [13, 10] := by
  rw [headBlock, encode_terminated, map_append, terminated_append]
  rfl

theorem encode_ne_nil (h : t ≠ []) : Utf8.encode t ≠ [] := by
  cases t with
  | nil => exact absurd rfl h
  | cons c t => exact append_ne_nil_of_left_ne_nil (encodeChar_ne_nil c) _

theorem free_encode_crlf (h : Free '\r' '\n' t) : Free 13 10 (Utf8.encode t) :=
  free_encode (by decide) (by decide) h

theorem slice_behind (head tail : Bytes) (n : Nat) :
    Bytes.slice (head ++ tail) head.length (head.length + n) = tail.take n := by
  rw [Bytes.slice, take_length_add_append, drop_left]

section Block

variable {first : Text} {lines : List Text} (hfirst : Free '\r' '\n' first)
  (hlines : ∀ l ∈ lines, IsLine l) (tail : Bytes)

include hfirst hlines in
theorem headerEnd_block :
    headerEnd (headBlock (first :: lines) ++ tail) = some (headBlock (first :: lines)).length := by
  have hbytes : ∀ l ∈ lines.map Utf8.encode, Free (13 : UInt8) 10 l ∧ l ≠ [] :=
    forall_mem_map.mpr fun t ht =>
      ⟨free_encode_crlf (hlines t ht).1, encode_ne_nil (hlines t ht).2⟩
  have hblank := find_blank (by decide) (free_encode_crlf hfirst) hbytes tail
  rw [headBlock_eq, headerEnd, findSubslice, map_cons, append_assoc]
  rw [cons_append, cons_append, nil_append, hblank, length_append]
  rfl

include hfirst hlines in
theorem headLines_block :
    headLines (headBlock (first :: lines) ++ tail) (headBlock (first :: lines)).length =
      first :: (lines ++ [[], []]) := by
  have hfree : ∀ l ∈ first :: lines ++ [[]], Free '\r' '\n' l :=
    forall_mem_append.mpr ⟨forall_mem_cons.mpr ⟨hfirst, fun l hl => (hlines l hl).1⟩,
      forall_mem_singleton.mpr free_nil⟩
  have hsplit := split_terminated (by decide) hfree []
  rw [append_nil] at hsplit
  rw [headLines, take_left, headBlock, Utf8.fromUtf8Lossy_encode, hsplit]
  simp [split]

variable (lines) in
include hfirst in
theorem isResponse_block :
    isResponse (headBlock (first :: lines) ++ tail) = sipVersion.isPrefixOf first := by
  have hfind : findSubslice (headBlock (first :: lines) ++ tail) [13, 10] =
      some (Utf8.encode first).length := by
    rw [headBlock_eq, findSubslice, map_cons, terminated_cons]
    simp only [append_assoc, cons_append]
    exact find_line (by decide) (free_encode_crlf hfirst) _
  have htake : (headBlock (first :: lines) ++ tail).take (Utf8.encode first).length =
      Utf8.encode first := by
    rw [headBlock_eq, map_cons, terminated_cons]
    simp only [append_assoc]
    exact take_left
  have hascii : ∀ c ∈ sipVersion, c.toNat < 0x80 := all_iff_forall_prop.mp rfl
  rw [isResponse, hfind]
  dsimp only
  rw [htake, isPrefixOf_encode hascii]

include hfirst hlines in
/-- What a parser makes of a complete header block, whatever follows it. -/
theorem tryParseWith_block {σ α : Type} {empty : Text} {startLine : Text → Except Failure σ}
    {build : σ → List Header → Bytes → α} {profile : Profile} {start : σ}
    (hstart : startLine first = .ok start) {headers : List Header}
    (hheaders : parseHeaders (lines ++ [[], []]) = headers)
    (hfit : (headBlock (first :: lines)).length + contentLength headers ≤ usizeMax) :
    tryParseWith empty startLine build profile (headBlock (first :: lines) ++ tail) =
      .ok (if tail.length < contentLength headers then none
        else some (build start headers (tail.take (contentLength headers)),
          (headBlock (first :: lines)).length + contentLength headers)) := by
  rw [tryParseWith_complete (headerEnd_block hfirst hlines tail) (headLines_block hfirst hlines tail),
    hstart, hheaders]
  rw [takeBody_fits hfit, slice_behind, length_append]
  by_cases hshort : tail.length < contentLength headers
  · rw [if_pos hshort, if_pos (Nat.add_lt_add_left hshort _)]
    rfl
  · rw [if_neg hshort, if_neg fun h => hshort (Nat.lt_of_add_lt_add_left h)]
    rfl

end Block

/-! ## Messages as they are sent -/

/-- A header: its name as written, the rest of its first line, and the lines that
continue it. -/
structure Field where
  name : Text
  value : Text
  folds : List Text
  deriving DecidableEq

namespace Field

variable {f : Field}

def lines (f : Field) : List Text :=
  (f.name ++ ':' :: f.value) :: f.folds

/-- The value on one line: each fold and its white space counts as one space. -/
def unfolded (f : Field) : Text :=
  f.value ++ f.folds.flatMap (' ' :: trimStart ·)

/-- The header a receiver sees, under its long name. -/
def header (f : Field) : Header :=
  (canonicalHeaderName (trim f.name), trim f.unfolded)

structure WellFormed (f : Field) : Prop where
  name : ':' ∉ f.name
  flush : isContinuation f.name = false
  first : Free '\r' '\n' (f.name ++ ':' :: f.value)
  folds : ∀ l ∈ f.folds, isContinuation l = true ∧ Free '\r' '\n' l

theorem WellFormed.lines (h : f.WellFormed) : ∀ l ∈ f.lines, IsLine l := by
  refine forall_mem_cons.mpr ⟨⟨h.first, append_ne_nil_of_right_ne_nil _ (cons_ne_nil _ _)⟩, ?_⟩
  intro l hl
  obtain ⟨hcont, hfree⟩ := h.folds l hl
  refine ⟨hfree, ?_⟩
  rintro rfl
  cases hcont

theorem parseHeader_unfolded (h : f.WellFormed) :
    parseHeader (f.name ++ ':' :: f.unfolded) = some f.header := by
  rw [parseHeader, splitOnce_append h.name]
  rfl

end Field

variable {fields : List Field}

theorem unfold_blank (unfolded lines : List Text) : unfold unfolded ([] :: lines) = unfolded := rfl

theorem unfold_folds {folds : List Text} (h : ∀ l ∈ folds, isContinuation l = true)
    (done : List Text) (line : Text) (rest : List Text) :
    unfold (done ++ [line]) (folds ++ rest) =
      unfold (done ++ [line ++ folds.flatMap (' ' :: trimStart ·)]) rest := by
  induction folds generalizing line with
  | nil => simp
  | cons fold folds ih =>
    have hcont := h fold mem_cons_self
    have hne : fold ≠ [] := by
      rintro rfl
      cases hcont
    rw [cons_append, unfold, if_neg (by simpa using hne), if_pos (by simp [hcont]),
      modifyLast_concat, ih fun l hl => h l (mem_cons_of_mem fold hl), flatMap_cons, append_assoc]

theorem unfold_fields (h : ∀ f ∈ fields, f.WellFormed) (done rest : List Text) :
    unfold done (fields.flatMap Field.lines ++ rest) =
      unfold (done ++ fields.map fun f => f.name ++ ':' :: f.unfolded) rest := by
  induction fields generalizing done with
  | nil => simp
  | cons f fields ih =>
    have hf := h f mem_cons_self
    have hflush : isContinuation (f.name ++ ':' :: f.value) = false := by
      have hname := hf.flush
      cases hn : f.name with
      | nil => rfl
      | cons c name =>
        rw [hn] at hname
        exact hname
    rw [flatMap_cons, Field.lines, cons_append, cons_append, unfold,
      hflush, Bool.false_and, append_assoc,
      unfold_folds fun l hl => (hf.folds l hl).1, ih fun g hg => h g (mem_cons_of_mem f hg)]
    rw [map_cons, Field.unfolded]
    simp

theorem parseHeaders_fields (h : ∀ f ∈ fields, f.WellFormed) :
    parseHeaders (fields.flatMap Field.lines ++ [[], []]) = fields.map Field.header := by
  rw [parseHeaders, unfold_fields h, unfold_blank, nil_append, filterMap_map]
  induction fields with
  | nil => rfl
  | cons f fields ih =>
    have hhead : (parseHeader ∘ fun f : Field => f.name ++ ':' :: f.unfolded) f = some f.header :=
      Field.parseHeader_unfolded (h f mem_cons_self)
    rw [filterMap_cons_some hhead, ih fun g hg => h g (mem_cons_of_mem f hg)]
    rfl

inductive Start where
  | request (method requestUri version : Text)
  | response (status : UInt16) (reason : Text)
  deriving DecidableEq

namespace Start

def line : Start → Text
  | .request method requestUri version => method ++ ' ' :: (requestUri ++ ' ' :: version)
  | .response status reason => sipVersion ++ ' ' :: (Numeral.display status.toNat ++ ' ' :: reason)

/-- A request's method and target have no spaces, and its method is not the version. -/
def WellFormed (s : Start) : Prop :=
  Free '\r' '\n' s.line ∧
  match s with
  | .request method requestUri _ => ' ' ∉ method ∧ ' ' ∉ requestUri ∧ ¬ sipVersion <+: method
  | .response _ _ => True

end Start

/-- A message as its sender wrote it. -/
structure Sent where
  start : Start
  fields : List Field
  body : Bytes
  deriving DecidableEq

namespace Sent

def headers (s : Sent) : List Header :=
  s.fields.map Field.header

def block (s : Sent) : Bytes :=
  headBlock (s.start.line :: s.fields.flatMap Field.lines)

def wire (s : Sent) : Bytes :=
  s.block ++ s.body

/-- The message its receiver is to see. -/
def message (s : Sent) : SipMessage :=
  match s.start with
  | .request method requestUri _ =>
    .request { method, requestUri, headers := s.headers, body := Utf8.fromUtf8Lossy s.body,
               bodyBytes := s.body }
  | .response status reason =>
    .response { status, reason, headers := s.headers, body := Utf8.fromUtf8Lossy s.body }

/-- Every header that gives the length of the body gives it right, and one does;
the message fits in memory. -/
structure WellFormed (s : Sent) : Prop where
  start : s.start.WellFormed
  fields : ∀ f ∈ s.fields, f.WellFormed
  measured : ∃ h ∈ s.headers, eqIgnoreAsciiCase h.1 "Content-Length" = true
  length : ∀ h ∈ s.headers, eqIgnoreAsciiCase h.1 "Content-Length" = true →
    Numeral.parse usizeMax h.2 = some s.body.length
  fits : s.wire.length ≤ isizeMax

end Sent

/-! ## One message at the front of a buffer -/

theorem statusLine_line (status : UInt16) (reason : Text) :
    SipResponse.statusLine (Start.response status reason).line = .ok (status, reason) := by
  have hspace : ' ' ∉ Numeral.display status.toNat :=
    (Numeral.token_display status.toNat).not_mem (by decide)
  rw [SipResponse.statusLine, Start.line, splitn_three (by decide) hspace]
  dsimp only
  rw [Numeral.parseU16_display]
  rfl

theorem requestLine_line {method requestUri : Text} (hmethod : ' ' ∉ method)
    (huri : ' ' ∉ requestUri) (version : Text) :
    SipRequest.requestLine (Start.request method requestUri version).line =
      .ok (method, requestUri) := by
  rw [SipRequest.requestLine, Start.line, splitn_three hmethod huri]

namespace Sent

variable {s : Sent} (h : s.WellFormed) (profile : Profile)

include h in
theorem contentLength_headers : contentLength s.headers = s.body.length := by
  obtain ⟨name, value, hfind, hvalue⟩ : ∃ name value,
      s.headers.find? (fun kv => eqIgnoreAsciiCase kv.1 "Content-Length") =
        some (name, value) ∧ trim value = value := by
    obtain ⟨found, hmem, hname⟩ := h.measured
    cases hfind : s.headers.find? (fun kv => eqIgnoreAsciiCase kv.1 "Content-Length") with
    | none => exact absurd hname (find?_eq_none.mp hfind found hmem)
    | some kv =>
      obtain ⟨f, -, hf⟩ := mem_map.mp (mem_of_find?_eq_some hfind)
      refine ⟨kv.1, kv.2, rfl, ?_⟩
      rw [← hf]
      exact trim_of_trimmed trimmed_trim
  have hname := find?_some hfind
  have hlen := h.length _ (mem_of_find?_eq_some hfind) hname
  unfold contentLength SipClient.header
  rw [hfind, Option.map_some, Option.bind_some, hvalue, hlen]
  rfl

include h in
theorem isLine_fields : ∀ l ∈ s.fields.flatMap Field.lines, IsLine l := by
  intro l hl
  obtain ⟨f, hf, hmem⟩ := mem_flatMap.mp hl
  exact (h.fields f hf).lines l hmem

include h in
/-- What the parser makes of the header block of a message, whatever follows it. -/
theorem tryParseOne_block (tail : Bytes) :
    tryParseOne profile (s.block ++ tail) =
      .ok (if tail.length < s.body.length then none
        else some (({ s with body := tail.take s.body.length } : Sent).message,
          s.block.length + s.body.length)) := by
  have hlines := isLine_fields h
  have hheaders : parseHeaders (s.fields.flatMap Field.lines ++ [[], []]) = s.headers :=
    parseHeaders_fields h.fields
  have hlength := contentLength_headers h
  have hfit : s.block.length + contentLength s.headers ≤ usizeMax := by
    have hwire := h.fits
    rw [wire, length_append] at hwire
    rw [hlength]
    exact Nat.le_trans hwire (by decide)
  have hkind : isResponse (s.block ++ tail) = sipVersion.isPrefixOf s.start.line :=
    isResponse_block (s.fields.flatMap Field.lines) h.start.1 tail
  have hstart := h.start
  obtain ⟨start, fields, body⟩ := s
  cases start with
  | response status reason =>
    have hvers : sipVersion.isPrefixOf (Start.response status reason).line = true :=
      isPrefixOf_iff_prefix.mpr (prefix_append _ _)
    rw [tryParseOne_eq, if_pos (hkind.trans hvers), SipResponse.tryParse, block,
      tryParseWith_block hstart.1 hlines tail (statusLine_line status reason) hheaders hfit, hlength]
    split <;> rfl
  | request method requestUri version =>
    obtain ⟨hfree, hmethod, huri, hvers⟩ := hstart
    have hno : sipVersion.isPrefixOf (Start.request method requestUri version).line = false := by
      refine Bool.eq_false_iff.mpr fun hpre => hvers ?_
      exact prefix_of_prefix_append (by decide) (List.isPrefixOf_iff_prefix.mp hpre)
    rw [tryParseOne_eq, hkind.trans hno, if_neg Bool.false_ne_true, SipRequest.tryParse, block,
      tryParseWith_block hfree hlines tail (requestLine_line hmethod huri version) hheaders hfit,
      hlength]
    split <;> rfl

include h in
/-- A complete message is taken off the front of a buffer. -/
theorem tryParseOne_wire (rest : Bytes) :
    tryParseOne profile (s.wire ++ rest) = .ok (some (s.message, s.wire.length)) := by
  rw [wire, append_assoc, tryParseOne_block h, if_neg (by simp), take_left, length_append]

include h in
/-- An incomplete message is left to be completed. -/
theorem tryParseOne_short {buf : Bytes} (hpre : buf <+: s.wire)
    (hlen : buf.length < s.wire.length) :
    tryParseOne profile buf = .ok none := by
  by_cases hblock : s.block.length ≤ buf.length
  · -- the block is there, the body is not
    obtain ⟨tail, rfl⟩ := prefix_of_prefix_length_le (prefix_append s.block s.body) hpre hblock
    rw [wire, length_append, length_append] at hlen
    rw [tryParseOne_block h, if_pos (by omega)]
  · obtain ⟨rest, hrest⟩ := hpre
    have hend : headerEnd (buf ++ rest) = some s.block.length := by
      rw [hrest]
      exact headerEnd_block h.start.1 (isLine_fields h) s.body
    have hnone : headerEnd buf = none := by
      obtain ⟨i, hi, hlast⟩ := Option.map_eq_some_iff.mp hend
      have hshort : buf.length < i + 4 := by omega
      rw [headerEnd, findSubslice, find_none_of_append hi hshort]
      rfl
    rw [tryParseOne_eq, SipResponse.tryParse, SipRequest.tryParse, tryParseWith_incomplete hnone,
      tryParseWith_incomplete hnone]
    split <;> rfl

end Sent

/-! ## The receive loop -/

/-- What a list of messages looks like on the wire. -/
def stream (sent : List Sent) : Bytes :=
  sent.flatMap Sent.wire

/-- The bytes that a list of reads delivers. -/
def received (reads : List (Read × Bool)) : Bytes :=
  reads.flatMap fun r =>
    match r.1 with
    | .data bytes => bytes
    | _ => []

/-- The connection stays up: reads deliver something or time out. -/
def Read.Live : Read → Prop
  | .data bytes => bytes ≠ []
  | .timedOut => True
  | .failed _ => False

/-- Too short for the next message, or nothing when none follows. -/
def Incomplete (rest : List Sent) (left : Bytes) : Prop :=
  left <+: stream rest ∧ ∀ s ∈ rest.head?, left.length < s.wire.length

/-- Bytes from the start of a stream are complete messages and an incomplete one. -/
theorem prefix_stream {sent : List Sent} {bytes : Bytes} (h : bytes <+: stream sent) :
    ∃ complete rest left, sent = complete ++ rest ∧ bytes = stream complete ++ left ∧
      Incomplete rest left := by
  induction sent generalizing bytes with
  | nil => exact ⟨[], [], bytes, rfl, rfl, h, by simp⟩
  | cons s sent ih =>
    by_cases hlen : bytes.length < s.wire.length
    · exact ⟨[], s :: sent, bytes, rfl, rfl, h, by rintro _ ⟨⟩; exact hlen⟩
    have hwire : s.wire <+: stream (s :: sent) := prefix_append _ _
    obtain ⟨tail, rfl⟩ := prefix_of_prefix_length_le hwire h (Nat.not_lt.mp hlen)
    have htail : tail <+: stream sent := (prefix_append_right_inj s.wire).mp h
    obtain ⟨complete, rest, left, hsent, hbytes, hleft⟩ := ih htail
    refine ⟨s :: complete, rest, left, by rw [hsent]; rfl, ?_, hleft⟩
    rw [hbytes, ← append_assoc]
    rfl

variable {expired : Bool} {reads : List (Read × Bool)}

theorem readMore_live {read : Read} (h : read.Live) (buf : Bytes) :
    readMore buf read = .ok (buf ++ received [(read, expired)]) := by
  cases read with
  | data bytes =>
    obtain ⟨b, bytes, rfl⟩ := exists_cons_of_ne_nil h
    simp [readMore, received]
  | timedOut => simp [readMore, received]
  | failed message => exact absurd h id

theorem received_cons (r : Read × Bool) :
    received (r :: reads) = received [r] ++ received reads := by
  simp [received]

section Recv

variable {profile : Profile} {buf : Bytes}

theorem recv_front {s : Sent} (h : s.WellFormed) (tail : Bytes) :
    recvMessageDeadline profile (s.wire ++ tail) reads =
      .returned (.ok (some s.message)) tail reads := by
  unfold recvMessageDeadline
  rw [Sent.tryParseOne_wire h]
  dsimp only
  rw [drop_left]

theorem recv_blocked (h : tryParseOne profile buf = .ok none) :
    recvMessageDeadline profile buf [] = .waiting buf := by
  unfold recvMessageDeadline
  rw [h]

theorem recv_read (h : tryParseOne profile buf = .ok none) {read : Read} (hread : read.Live) :
    recvMessageDeadline profile buf ((read, expired) :: reads) =
      if expired then .returned (.ok none) (buf ++ received [(read, expired)]) reads
      else recvMessageDeadline profile (buf ++ received [(read, expired)]) reads := by
  rw [recvMessageDeadline.eq_def, h]
  dsimp only
  rw [readMore_live hread]

/-- A call that returned, before a run of calls on what it left. -/
theorem receive_ok {reads' : List (Read × Bool)} {buf' : Bytes} {message : Option SipMessage}
    (h : recvMessageDeadline profile buf reads = .returned (.ok message) buf' reads') {calls : Nat}
    {results : List (Option SipMessage)} {left : Option Bytes}
    (hrun : receive profile calls buf' reads' = (results.map .ok, left)) :
    receive profile (calls + 1) buf reads = ((message :: results).map .ok, left) := by
  rw [receive, h]
  dsimp only
  rw [hrun]
  rfl

end Recv

section Receive

variable {profile : Profile} {rest : List Sent} (hrest : ∀ s ∈ rest, s.WellFormed)

include hrest in
theorem tryParseOne_incomplete {buf : Bytes} (h : Incomplete rest buf) :
    tryParseOne profile buf = .ok none := by
  obtain ⟨hpre, hlen⟩ := h
  cases rest with
  | nil =>
    rw [prefix_nil.mp hpre]
    rfl
  | cons s rest =>
    have hshort := hlen s rfl
    refine Sent.tryParseOne_short (hrest s mem_cons_self) profile ?_ hshort
    exact prefix_of_prefix_length_le hpre (prefix_append _ _) (Nat.le_of_lt hshort)

/-- Less than what is incomplete is incomplete. -/
theorem Incomplete.of_append {buf more : Bytes} (h : Incomplete rest (buf ++ more)) :
    Incomplete rest buf := by
  refine ⟨(prefix_append buf more).trans h.1, fun s hs => ?_⟩
  exact Nat.lt_of_le_of_lt (prefix_append buf more).length_le (h.2 s hs)

section Step

variable {left : Bytes} (hleft : Incomplete rest left) {complete : List Sent}
  (hwf : ∀ s ∈ complete, s.WellFormed)

variable (profile) in
include hrest hleft hwf in
/-- A complete message is at the front of a buffer, or more has to be read. -/
theorem front_cases {buf more : Bytes} (h : buf ++ more = stream complete ++ left) :
    (∃ s complete' tail, complete = s :: complete' ∧ buf = s.wire ++ tail ∧
      tail ++ more = stream complete' ++ left) ∨
    (tryParseOne profile buf = .ok none ∧ (more = [] → complete = [])) := by
  cases complete with
  | nil =>
    have hbytes : buf ++ more = left := h
    exact .inr ⟨tryParseOne_incomplete hrest (.of_append (hbytes ▸ hleft)), fun _ => rfl⟩
  | cons s complete =>
    have hwire : s.wire <+: buf ++ more := by
      rw [h]
      exact (prefix_append _ _).trans (prefix_append _ _)
    by_cases hlen : s.wire.length ≤ buf.length
    · obtain ⟨tail, rfl⟩ := prefix_of_prefix_length_le hwire (prefix_append buf _) hlen
      refine .inl ⟨s, complete, tail, rfl, rfl, ?_⟩
      rw [stream, flatMap_cons, append_assoc, append_assoc, append_cancel_left_eq] at h
      exact h
    · have hshort := Nat.not_le.mp hlen
      refine .inr ⟨Sent.tryParseOne_short (hwf s mem_cons_self) profile ?_ hshort, ?_⟩
      · exact prefix_of_prefix_length_le (prefix_append buf _) hwire (Nat.le_of_lt hshort)
      · rintro rfl
        rw [append_nil] at hwire
        exact absurd hwire.length_le hlen

include hrest hleft hwf in
/-- A call returns the next message or none, with the rest of the bytes before it, or it waits
for what completes the one that is left. -/
theorem recv_cases (hlive : ∀ r ∈ reads, r.1.Live) {buf : Bytes}
    (h : buf ++ received reads = stream complete ++ left) :
    (complete = [] ∧ recvMessageDeadline profile buf reads = .waiting left) ∨
    ∃ message buf' reads' complete',
      recvMessageDeadline profile buf reads = .returned (.ok message) buf' reads' ∧
      buf' ++ received reads' = stream complete' ++ left ∧
      complete.map Sent.message = message.toList ++ complete'.map Sent.message ∧
      complete' <:+ complete ∧ reads' <:+ reads ∧
      complete'.length + reads'.length < complete.length + reads.length := by
  induction reads generalizing buf with
  | nil =>
    rcases front_cases profile hrest hleft hwf h with ⟨s, complete, tail, rfl, rfl, htail⟩ | ⟨hnone, hnil⟩
    · refine .inr ⟨some s.message, tail, [], complete, ?_, htail, rfl, suffix_cons _ _,
        suffix_rfl, by simp⟩
      exact recv_front (hwf s mem_cons_self) tail
    obtain rfl := hnil rfl
    rw [received, flatMap_nil, append_nil] at h
    obtain rfl : buf = left := h
    exact .inl ⟨rfl, recv_blocked hnone⟩
  | cons r reads ih =>
    rcases front_cases profile hrest hleft hwf h with ⟨s, complete, tail, rfl, rfl, htail⟩ | ⟨hnone, -⟩
    · refine .inr ⟨some s.message, tail, r :: reads, complete, ?_, htail, rfl, suffix_cons _ _,
        suffix_rfl, by simp⟩
      exact recv_front (hwf s mem_cons_self) tail
    obtain ⟨read, expired⟩ := r
    obtain ⟨hread, hothers⟩ := forall_mem_cons.mp hlive
    rw [received_cons, ← append_assoc] at h
    rw [recv_read hnone hread]
    cases expired with
    | true =>
      refine .inr ⟨none, _, reads, complete, rfl, h, rfl, suffix_rfl, suffix_cons _ _, ?_⟩
      exact Nat.add_lt_add_left (Nat.lt_succ_self _) _
    | false =>
      refine (ih hothers h).imp_right ?_
      rintro ⟨message, buf', reads', complete', heq, hbytes, hmessages, hsuf, hreads, hlt⟩
      exact ⟨message, buf', reads', complete', heq, hbytes, hmessages, hsuf,
        hreads.trans (suffix_cons _ _), Nat.lt_succ_of_lt hlt⟩

end Step

include hrest in
/-- Calls on a buffer and reads that hold complete messages and an incomplete one. -/
theorem receive_complete {left : Bytes} (hleft : Incomplete rest left) {calls : Nat}
    {complete : List Sent} (hwf : ∀ s ∈ complete, s.WellFormed) (hlive : ∀ r ∈ reads, r.1.Live)
    {buf : Bytes} (h : buf ++ received reads = stream complete ++ left)
    (hcalls : complete.length + reads.length < calls) :
    ∃ results : List (Option SipMessage),
      receive profile calls buf reads = (results.map .ok, some left) ∧
      results.filterMap id = complete.map Sent.message := by
  induction calls generalizing complete reads buf with
  | zero => exact absurd hcalls (Nat.not_lt_zero _)
  | succ calls ih =>
    rcases recv_cases hrest hleft hwf hlive h with ⟨rfl, hwait⟩ |
      ⟨message, buf', reads', complete', heq, hbytes, hmessages, hsuf, hreads, hlt⟩
    · refine ⟨[], ?_, rfl⟩
      rw [receive, hwait]
      rfl
    obtain ⟨results, hrun, hresults⟩ := ih (fun s hs => hwf s (hsuf.subset hs))
      (fun r hr => hlive r (hreads.subset hr)) hbytes
      (Nat.lt_of_lt_of_le hlt (Nat.le_of_lt_succ hcalls))
    refine ⟨message :: results, receive_ok heq hrun, ?_⟩
    rw [hmessages, ← hresults]
    cases message <;> rfl

end Receive

/-- However a stream of messages is cut into reads, and wherever it has got to, the
calls return exactly the messages that are complete, in order, and keep the
beginning of the next one. -/
theorem receive_frames (profile : Profile) {sent : List Sent} (hwf : ∀ s ∈ sent, s.WellFormed)
    {reads : List (Read × Bool)} (hlive : ∀ r ∈ reads, r.1.Live)
    (hreads : received reads <+: stream sent) :
    ∃ complete rest left, sent = complete ++ rest ∧
      received reads = stream complete ++ left ∧
      (∀ s ∈ rest.head?, left <+: s.wire ∧ left.length < s.wire.length) ∧
      (received reads = stream sent → complete = sent ∧ left = []) ∧
      ∀ calls, sent.length + reads.length < calls →
        ∃ results : List (Option SipMessage),
          receive profile calls [] reads = (results.map .ok, some left) ∧
          results.filterMap id = complete.map Sent.message := by
  obtain ⟨complete, rest, left, hsent, hbytes, hleft⟩ := prefix_stream hreads
  obtain ⟨hcomplete, hrest⟩ := forall_mem_append.mp (hsent ▸ hwf)
  refine ⟨complete, rest, left, hsent, hbytes, ?_, ?_, ?_⟩
  · intro s hs
    obtain ⟨more, hrest⟩ := head?_eq_some_iff.mp hs
    have hlen := hleft.2 s hs
    refine ⟨prefix_of_prefix_length_le hleft.1 ?_ (Nat.le_of_lt hlen), hlen⟩
    rw [hrest]
    exact prefix_append _ _
  · intro hall
    have hrest : left = stream rest := by
      rw [hbytes, hsent, stream, stream, flatMap_append, append_cancel_left_eq] at hall
      exact hall
    cases rest with
    | nil => exact ⟨by rw [hsent, append_nil], hrest⟩
    | cons s rest =>
      have hlen := hleft.2 s rfl
      rw [hrest, stream, flatMap_cons, length_append] at hlen
      omega
  · intro calls hcalls
    have hle : complete.length ≤ sent.length := by
      rw [hsent, length_append]
      exact Nat.le_add_right _ _
    exact receive_complete hrest hleft hcomplete hlive hbytes (by omega)

/-- A request with a compact and a folded header and a blank line in its body. -/
def binaryMessage : Sent where
  start := .request "MESSAGE" "sip:a@b" "SIP/2.0"
  fields := [{ name := "v", value := " SIP/2.0/TCP c", folds := ["\t;branch=z"] },
    { name := "l", value := " 6", folds := [] }]
  body := [0, 13, 10, 13, 10, 255]

def ringing : Sent where
  start := .response 180 "Ringing"
  fields := [{ name := "Content-Length", value := " 0", folds := [] }]
  body := []

theorem binaryMessage_wellFormed : binaryMessage.WellFormed where
  start := ⟨by decide +kernel, by decide, by decide, by decide⟩
  fields := forall_mem_cons.mpr ⟨⟨by decide, by decide, by decide, by decide⟩,
    forall_mem_singleton.mpr ⟨by decide, by decide, by decide, by decide⟩⟩
  measured := by decide +kernel
  length := by decide +kernel
  fits := by decide +kernel

theorem ringing_wellFormed : ringing.WellFormed where
  start := ⟨by decide +kernel, trivial⟩
  fields := forall_mem_singleton.mpr ⟨by decide, by decide, by decide, by decide⟩
  measured := by decide +kernel
  length := by decide +kernel
  fits := by decide +kernel

/-- The two messages cut inside the first one's headers, with a deadline in between. -/
theorem receive_frames_binaryMessage :
    ∃ results : List (Option SipMessage), receive .release 6 []
        [(.data ((stream [binaryMessage, ringing]).take 30), false), (.timedOut, true),
          (.data ((stream [binaryMessage, ringing]).drop 30), false)] =
        (results.map .ok, some []) ∧
      results.filterMap id = [binaryMessage.message, ringing.message] := by
  have hwf : ∀ s ∈ [binaryMessage, ringing], s.WellFormed :=
    forall_mem_cons.mpr ⟨binaryMessage_wellFormed, forall_mem_singleton.mpr ringing_wellFormed⟩
  have hlive : ∀ r ∈ [(Read.data ((stream [binaryMessage, ringing]).take 30), false),
      (.timedOut, true), (.data ((stream [binaryMessage, ringing]).drop 30), false)], r.1.Live :=
    forall_mem_cons.mpr ⟨(by decide +kernel : _ ≠ []), forall_mem_cons.mpr ⟨trivial,
      forall_mem_singleton.mpr (by decide +kernel : _ ≠ [])⟩⟩
  have hall : received [(.data ((stream [binaryMessage, ringing]).take 30), false), (.timedOut, true),
      (.data ((stream [binaryMessage, ringing]).drop 30), false)] =
      stream [binaryMessage, ringing] := by
    simp [received]
  obtain ⟨complete, rest, left, -, -, -, hdone, hrun⟩ :=
    receive_frames .release hwf hlive (hall ▸ prefix_rfl)
  obtain ⟨rfl, rfl⟩ := hdone hall
  exact hrun 6 (Nat.lt_succ_self 5)

end Ims.SipClient
