-- SUMMARY: The session on a modem's serial port (`modules/at_worker.rs`).
import Mathlib.Data.Bool.AllAny
import GsmSipBridge.Lib.Delimited
import GsmSipBridge.Lib.Text
import GsmSipBridge.Lib.Trace

/-!
# The AT session

One thread owns the port. It writes a command and reads until a final result, or reads a
single line; bytes that it has read and not used stay in a buffer. The modem is on the other
side of a stream: whatever it sends arrives in order, in pieces of any size and as late as it
likes. The clock is left open: a deadline may pass wherever the session looks at it.
-/

namespace AtWorker

open Text List

def maxResponseLines : Nat := 256
def maxBufferedBytes : Nat := 64 * 1024
def maxDrainReads : Nat := 8

inductive AtResponse where
  | ok (lines : List Text)
  | error (text : Text)
  | cmeError (code : UInt32) (text : Text)
  deriving DecidableEq

/-- What goes wrong on the port, or on the way to the thread that owns it. -/
inductive Fault where
  | endOfFile
  | bufferedBytes
  | read (e : Text)
  | write (e : Text)
  | responseLines (maxLines : Nat)
  | commandTimeout
  | readTimeout
  | partialLine
  | portHeld
  | notRecovered
  deriving DecidableEq

def Fault.message : Fault → Text
  | .endOfFile => "the modem port reported end-of-file; the device has gone away"
  | .bufferedBytes => "AT response exceeded " ++ Numeral.display maxBufferedBytes ++
      " buffered bytes without terminating; treating the channel as desynchronised"
  | .read e => "AT read error: " ++ e
  | .write e => "AT write failed: " ++ e
  | .responseLines maxLines => "AT response exceeded " ++ Numeral.display maxLines ++
      " lines without terminating"
  | .commandTimeout => "AT command timeout"
  | .readTimeout => "AT read timeout"
  | .partialLine => "AT read timeout with a partial line buffered"
  | .portHeld => ("the AT port is held by an abandoned operation and cannot be used;" ++
      "                  this line needs to be restarted").toList
  | .notRecovered => ("the AT port could not be resynchronised or reopened;" ++
      "                      this line needs to be restarted").toList

/-! ## The modem's side -/

def newline (b : UInt8) : Bool := b == 10

/-- `String::from_utf8_lossy(&line).trim()`. -/
def lineText (line : Bytes) : Text := trim (Utf8.fromUtf8Lossy line)

/-- A line that the modem sends: of the reply that it owes, or of its own accord. -/
structure ModemLine where
  bytes : Bytes
  solicited : Bool
  whole : ∀ b ∈ bytes, newline b = false

def ModemLine.wire (l : ModemLine) : Bytes := l.bytes ++ [10]

def ModemLine.text (l : ModemLine) : Text := lineText l.wire

open ModemLine

/-- The lines on the wire. -/
def wires (output : List ModemLine) : Bytes := output.flatMap wire

/-- The lines of a reply, without what the modem has announced in between. -/
def replyTexts (output : List ModemLine) : List Text :=
  (output.filter solicited).map text

structure Port where
  /-- What the modem has sent and nobody has read. -/
  incoming : Bytes := []
  /-- The commands that have been written, with the modem's reply to each. -/
  exchanges : List (Text × List Text) := []

/-- What a read of the port comes to; `data n` delivers up to `n + 1` bytes. -/
inductive Read where
  | data (n : Nat)
  | endOfFile
  | timedOut
  | interrupted
  | failed (e : Text)

/-- An iteration of a loop of the session: its deadline has passed, or it reads. -/
inductive Tick where
  | deadline
  | read (r : Read)

/-- What one exchange meets: the reads of a drain, whether the command can be written and what
the modem sends for it, and the iterations after it. -/
structure Exchange where
  drain : List Read := []
  writeError : Option Text := none
  output : List ModemLine := []
  ticks : List Tick := []

/-! ## The session -/

structure Session where
  port : Port := {}
  rx : Bytes := []
  desynced : Bool := false

/-- What a line means for the command that waits: its final result, if it is one. -/
def finalResult (lines : List Text) (line : Text) : Option AtResponse :=
  if line = "OK" then some (.ok lines)
  else if line = "ERROR" then some (.error "ERROR")
  else
    match line.dropPrefix? "+CME ERROR: " with
    | some cme => some (.cmeError ((Numeral.parseU32 cme).getD 0) cme)
    | none => none

/-- What the inner loop leaves: the final result, too many lines, or a wait for more. -/
inductive Taken where
  | final (response : AtResponse)
  | runaway
  | more (lines : List Text)

namespace Session

variable (s : Session)

def takeLine : Option (Text × Session) :=
  (Lines.takeLine newline s.rx).map fun r => (lineText r.1, { s with rx := r.2 })

def fill (r : Read) : Except Fault Bool × Session :=
  match r with
  | .data n =>
    let chunk := s.port.incoming.take (min (n + 1) 1024)
    -- a read that finds nothing times out
    if chunk.isEmpty then (.ok false, s)
    else
      let s := { s with port := { s.port with incoming := s.port.incoming.drop (min (n + 1) 1024) } }
      if maxBufferedBytes < s.rx.length + chunk.length then
        (.error .bufferedBytes, { s with desynced := true })
      else (.ok true, { s with rx := s.rx ++ chunk })
  | .endOfFile => (.error .endOfFile, { s with desynced := true })
  | .timedOut => (.ok false, s)
  | .interrupted => (.ok true, s)
  | .failed e => (.error (.read e), { s with desynced := true })

def discardLoop : Nat → Session → List Read → Session
  | 0, s, _ => s
  | _ + 1, s, [] => s
  | n + 1, s, r :: reads =>
    match s.fill r with
    | (.ok true, s) => discardLoop n { s with rx := [] } reads
    | (.ok false, s) => s
    | (.error _, s) => s

def discardPending (reads : List Read) : Session :=
  discardLoop maxDrainReads { s with rx := [] } reads

/-- `port.write_all`, and what the modem sends for it. -/
def write (cmd : Text) (output : List ModemLine) : Session :=
  { s with port :=
    { incoming := s.port.incoming ++ wires output
      exchanges := s.port.exchanges ++ [(cmd, replyTexts output)] } }

/-- The lines that are in the buffer, one after the other. -/
def takeLines (maxLines : Nat) : Nat → List Text → Session → Taken × Session
  | 0, lines, s => (.more lines, s)
  | fuel + 1, lines, s =>
    match s.takeLine with
    | none => (.more lines, s)
    | some (line, s) =>
      if line.isEmpty then takeLines maxLines fuel lines s
      else
        match finalResult lines line with
        | some response => (.final response, s)
        | none =>
          if maxLines ≤ lines.length then (.runaway, { s with desynced := true })
          else takeLines maxLines fuel (lines ++ [line]) s

/-- The loop of `send_command_within`; `none` if it never comes to an end. -/
def collect (maxLines : Nat) (lines : List Text) (s : Session) (ticks : List Tick) :
    Option (Except Fault AtResponse) × Session :=
  match takeLines maxLines s.rx.length lines s with
  | (.final response, s) => (some (.ok response), s)
  | (.runaway, s) => (some (.error (.responseLines maxLines)), s)
  | (.more lines, s) =>
    match ticks with
    | [] => (none, s)
    | .deadline :: _ => (some (.error .commandTimeout), { s with desynced := true })
    | .read r :: ticks =>
      match s.fill r with
      | (.ok _, s) => collect maxLines lines s ticks
      | (.error e, s) => (some (.error e), s)

def sendCommandWithin (cmd : Text) (maxLines : Nat) (e : Exchange) :
    Option (Except Fault AtResponse) × Session :=
  let s := if s.desynced then { s.discardPending e.drain with desynced := false } else s
  let s := s.write cmd e.output
  match e.writeError with
  | some error => (some (.error (.write error)), { s with desynced := true })
  | none => collect maxLines [] s e.ticks

def sendCommand (cmd : Text) (e : Exchange) : Option (Except Fault AtResponse) × Session :=
  s.sendCommandWithin cmd maxResponseLines e

/-- `Ok(None)` is a deadline with nothing in the buffer. -/
def readLineRaw (s : Session) (ticks : List Tick) :
    Option (Except Fault (Option Text)) × Session :=
  match s.takeLine with
  | some (line, s) => (some (.ok (some line)), s)
  | none =>
    match ticks with
    | [] => (none, s)
    | .deadline :: _ =>
      if s.rx.isEmpty then (some (.ok none), s)
      else (some (.error .partialLine), { s with desynced := true })
    | .read r :: ticks =>
      match s.fill r with
      | (.ok _, s) => readLineRaw s ticks
      | (.error e, s) => (some (.error e), s)

/-- Whether the modem has confirmed; the one caller does not look at the reason if not. -/
def resync (e : Exchange) : Option Bool × Session :=
  let s := { s.discardPending e.drain with desynced := false }
  match s.sendCommand "AT" e with
  | (some (.ok (.ok _)), s) => (some true, s)
  | (some _, s) => (some false, s)
  | (none, s) => (none, s)

end Session

/-! ## Reading a stream -/

/-- What a command that has `lines` so far makes of the lines to come: its result, and the
lines that it leaves. -/
def answer (lines : List Text) : List Text → Option (AtResponse × List Text)
  | [] => none
  | line :: rest =>
    if line.isEmpty then answer lines rest
    else
      match finalResult lines line with
      | some response => some (response, rest)
      | none => answer (lines ++ [line]) rest

namespace Session

variable (s : Session)

/-- Everything that the modem has sent and the session has not used. -/
def unread : Bytes := s.rx ++ s.port.incoming

def texts : List Text := (Lines.lines newline s.unread).map lineText

/-- The stream ends with a line; so does what the session will read, unless bytes were lost,
and then a drain comes before the next command. -/
structure Whole (s : Session) : Prop where
  incoming : Lines.Ended newline s.port.incoming
  unread : s.desynced = false → Lines.Ended newline s.unread

end Session

variable {output : List ModemLine} {cmd : Text}

section Stream

variable {s t : Session} {maxLines : Nat} {lines : List Text}

theorem ModemLine.ended (l : ModemLine) : Lines.Ended newline l.wire :=
  Lines.ended_line l.bytes rfl

theorem ended_wires (output : List ModemLine) : Lines.Ended newline (wires output) := by
  induction output with
  | nil => exact Lines.ended_nil
  | cons l output ih => exact l.ended.append ih

theorem lines_wires :
    (Lines.lines newline (wires output)).map lineText = output.map text := by
  induction output with
  | nil => rfl
  | cons l output ih =>
    have hline : Lines.lines newline l.wire = [l.wire] := Lines.lines_line l.whole rfl
    have hwires : wires (l :: output) = l.wire ++ wires output := rfl
    rw [hwires, Lines.lines_append l.ended, hline]
    exact congrArg (l.text :: ·) ih

namespace Session

variable {line : Text}

/-- Taking a line moves the session one line on. -/
theorem takeLine_spec (h : s.takeLine = some (line, t)) :
    s.texts = line :: t.texts ∧ t.port = s.port ∧ t.desynced = s.desynced ∧
      (Lines.Ended newline s.unread → Lines.Ended newline t.unread) := by
  obtain ⟨⟨x, r⟩, hx, heq⟩ := Option.map_eq_some_iff.1 h
  cases heq
  obtain ⟨hrx, hlines⟩ := Lines.takeLine_spec hx
  have hunread : s.unread = x ++ (r ++ s.port.incoming) := by
    rw [unread, hrx, append_assoc]
  refine ⟨?_, rfl, rfl, fun hended => ?_⟩
  · rw [texts, hunread, hlines]
    rfl
  · rw [hunread] at hended
    exact hended.right

theorem Whole.takeLine (h : Whole s) (htake : s.takeLine = some (line, t)) : Whole t := by
  obtain ⟨-, hport, hsync, hended⟩ := takeLine_spec htake
  exact ⟨hport ▸ h.incoming, fun ht => hended (h.unread (hsync ▸ ht))⟩

/-- A read moves bytes into the buffer; if it fails, the session is out of step. -/
theorem fill_spec {r : Read} {got : Except Fault Bool} (h : s.fill r = (got, t)) :
    t.port.exchanges = s.port.exchanges ∧ (Whole s → Whole t) ∧
    match got with
    | .ok _ => t.unread = s.unread ∧ t.desynced = s.desynced
    | .error _ => t.desynced = true := by
  cases r with
  | endOfFile | failed =>
    cases h
    exact ⟨rfl, fun hwhole => ⟨hwhole.incoming, nofun⟩, rfl⟩
  | timedOut | interrupted =>
    cases h
    exact ⟨rfl, id, rfl, rfl⟩
  | data n =>
    simp only [fill] at h
    split at h
    · cases h
      exact ⟨rfl, id, rfl, rfl⟩
    split at h
    · cases h
      exact ⟨rfl, fun hwhole => ⟨hwhole.incoming.drop _, nofun⟩, rfl⟩
    cases h
    simp only [unread, append_assoc, take_append_drop, and_self, and_true, true_and]
    refine fun hwhole => ⟨hwhole.incoming.drop _, fun hsync => ?_⟩
    simpa [unread] using hwhole.unread hsync

/-! ### Commands -/

/-- The lines in the buffer are read as a reply: up to its final result, or as far as it goes. -/
theorem takeLines_spec {fuel : Nat} {r : Taken × Session}
    (h : takeLines maxLines fuel lines s = r) :
    r.2.port.exchanges = s.port.exchanges ∧ (Whole s → Whole r.2) ∧
    match r.1 with
    | .final response =>
      answer lines s.texts = some (response, r.2.texts) ∧ r.2.desynced = s.desynced
    | .more lines' => answer lines s.texts = answer lines' r.2.texts ∧ r.2.desynced = s.desynced
    | .runaway => True := by
  induction fuel generalizing lines s with
  | zero =>
    cases h
    exact ⟨rfl, id, rfl, rfl⟩
  | succ fuel ih =>
    simp only [takeLines] at h
    split at h
    · cases h
      exact ⟨rfl, id, rfl, rfl⟩
    rename_i line u htake
    obtain ⟨htexts, hport, hsync, -⟩ := takeLine_spec htake
    have hwhole : Whole s → Whole u := fun h => h.takeLine htake
    rw [htexts, ← hport, ← hsync]
    split at h
    case isTrue hblank =>
      obtain ⟨ihport, ihwhole, ihread⟩ := ih h
      refine ⟨ihport, ihwhole ∘ hwhole, ?_⟩
      simpa only [answer, if_pos hblank] using ihread
    case isFalse hblank =>
      cases hfinal : finalResult lines line with
      | some response =>
        rw [hfinal] at h
        cases h
        refine ⟨rfl, hwhole, ?_⟩
        simp only [answer, if_neg hblank, hfinal, and_self]
      | none =>
        simp only [hfinal] at h
        split at h
        · cases h
          exact ⟨rfl, fun h => ⟨(hwhole h).incoming, nofun⟩, trivial⟩
        · obtain ⟨ihport, ihwhole, ihread⟩ := ih h
          refine ⟨ihport, ihwhole ∘ hwhole, ?_⟩
          simpa only [answer, if_neg hblank, hfinal] using ihread

/-- A result is what the stream says, however it is delivered. -/
theorem collect_spec (maxLines : Nat) (lines : List Text) (s : Session) (ticks : List Tick) :
    let r := collect maxLines lines s ticks
    r.2.port.exchanges = s.port.exchanges ∧ (Whole s → Whole r.2) ∧
    ∀ response, r.1 = some (.ok response) →
      answer lines s.texts = some (response, r.2.texts) ∧ r.2.desynced = s.desynced := by
  fun_induction collect maxLines lines s ticks with
  | case1 ticks lines s response t htaken =>
    obtain ⟨hexch, hwhole, hread⟩ := takeLines_spec htaken
    refine ⟨hexch, hwhole, ?_⟩
    rintro response' ⟨⟩
    exact hread
  | case2 ticks lines s t htaken =>
    obtain ⟨hexch, hwhole, -⟩ := takeLines_spec htaken
    exact ⟨hexch, hwhole, nofun⟩
  | case3 lines s lines' t htaken =>
    obtain ⟨hexch, hwhole, -⟩ := takeLines_spec htaken
    exact ⟨hexch, hwhole, nofun⟩
  | case4 lines s lines' t htaken ticks =>
    obtain ⟨hexch, hwhole, -⟩ := takeLines_spec htaken
    exact ⟨hexch, fun h => ⟨(hwhole h).incoming, nofun⟩, nofun⟩
  | case5 lines s lines' t htaken r ticks got u hfill ih =>
    obtain ⟨hexch, hwhole, hanswer, hsync⟩ := takeLines_spec htaken
    obtain ⟨hexchFill, hwholeFill, hunread, hsyncFill⟩ := fill_spec hfill
    obtain ⟨ihexchanges, ihwhole, ihread⟩ := ih
    have htexts : u.texts = t.texts := by simp [texts, hunread]
    rw [hanswer, ← hexch, ← hsync, ← htexts, ← hsyncFill]
    exact ⟨ihexchanges.trans hexchFill, ihwhole ∘ hwholeFill ∘ hwhole, ihread⟩
  | case6 lines s lines' t htaken r ticks e u hfill =>
    obtain ⟨hexch, hwhole, -⟩ := takeLines_spec htaken
    obtain ⟨hexchFill, hwholeFill, -⟩ := fill_spec hfill
    exact ⟨hexchFill.trans hexch, hwholeFill ∘ hwhole, nofun⟩

/-! ### Draining -/

/-- How much a drain takes off the stream, if there is so much. -/
def drained : Nat → List Read → Nat
  | 0, _ => 0
  | _ + 1, [] => 0
  | left + 1, .data n :: reads => min (n + 1) 1024 + drained left reads
  | left + 1, .interrupted :: reads => drained left reads
  | _ + 1, .endOfFile :: _ => 0
  | _ + 1, .timedOut :: _ => 0
  | _ + 1, .failed _ :: _ => 0

theorem discardLoop_spec (left : Nat) (s : Session) (reads : List Read) (hrx : s.rx = []) :
    let t := discardLoop left s reads
    t.rx = [] ∧ t.port.exchanges = s.port.exchanges ∧
      t.port.incoming = s.port.incoming.drop (drained left reads) := by
  induction left generalizing s reads with
  | zero => exact ⟨hrx, rfl, rfl⟩
  | succ left ih =>
    cases reads with
    | nil => exact ⟨hrx, rfl, rfl⟩
    | cons r reads =>
      cases r with
      | endOfFile | timedOut | failed => exact ⟨hrx, rfl, rfl⟩
      | interrupted => exact ih { s with rx := [] } reads rfl
      | data n =>
        simp only [discardLoop, fill]
        cases hchunk : (s.port.incoming.take (min (n + 1) 1024)).isEmpty with
        | true =>
          -- nothing is left, so there is nothing to drop
          have hnil : s.port.incoming = [] := by simpa using hchunk
          simp only [if_true, hnil, drop_nil]
          exact ⟨hrx, trivial, trivial⟩
        | false =>
          have hfits : ¬ maxBufferedBytes <
              s.rx.length + (s.port.incoming.take (min (n + 1) 1024)).length := by
            simp only [hrx, maxBufferedBytes, length_nil, length_take]
            omega
          simp only [Bool.false_eq_true, if_false, if_neg hfits]
          obtain ⟨ihrx, ihexchanges, ihincoming⟩ := ih { s with
            rx := []
            port := { s.port with incoming := s.port.incoming.drop (min (n + 1) 1024) } } reads rfl
          refine ⟨ihrx, ihexchanges, ihincoming.trans ?_⟩
          rw [drained, drop_drop]

theorem discardPending_spec (s : Session) (reads : List Read) :
    let t := s.discardPending reads
    t.rx = [] ∧ t.port.exchanges = s.port.exchanges ∧
      t.port.incoming = s.port.incoming.drop (drained maxDrainReads reads) :=
  discardLoop_spec maxDrainReads { s with rx := [] } reads rfl

/-- A drain leaves the rest of the stream. -/
theorem Whole.discardPending (h : Whole s) (reads : List Read) :
    Whole { s.discardPending reads with desynced := false } := by
  obtain ⟨hrx, -, hinc⟩ := discardPending_spec s reads
  have hended : Lines.Ended newline (s.discardPending reads).port.incoming :=
    hinc ▸ h.incoming.drop _
  refine ⟨hended, fun _ => ?_⟩
  simp only [Session.unread, hrx, nil_append]
  exact hended

/-! ### Exchanges -/

/-- What is still to be read when a command is written: what there was before, or what a
drain leaves of it. -/
def leftover (s : Session) (reads : List Read) : Bytes :=
  if s.desynced then s.port.incoming.drop (drained maxDrainReads reads) else s.unread

def leftoverTexts (s : Session) (reads : List Read) : List Text :=
  (Lines.lines newline (s.leftover reads)).map lineText

section

variable (h : Whole s)

include h

theorem Whole.write (cmd : Text) (output : List ModemLine) : Whole (s.write cmd output) where
  incoming := h.incoming.append (ended_wires output)
  unread := by
    intro hsync
    have hended := (h.unread hsync).append (ended_wires output)
    simpa [Session.unread, Session.write] using hended

theorem texts_write (hsync : s.desynced = false) :
    (s.write cmd output).texts = s.texts ++ output.map text := by
  have hunread : (s.write cmd output).unread = s.unread ++ wires output := by
    simp [unread, write]
  rw [texts, hunread, Lines.lines_append (h.unread hsync), map_append, lines_wires]
  rfl

/-- A result is read off what was left over and what the modem sends for the command. -/
theorem sendCommandWithin_spec (cmd : Text) (maxLines : Nat) (e : Exchange) :
    let r := s.sendCommandWithin cmd maxLines e
    r.2.port.exchanges = s.port.exchanges ++ [(cmd, replyTexts e.output)] ∧ Whole r.2 ∧
    ∀ response, r.1 = some (.ok response) →
      answer [] (s.leftoverTexts e.drain ++ e.output.map text) =
        some (response, r.2.texts) ∧ r.2.desynced = false := by
  -- the state in which the command is written
  obtain ⟨t, ht, hwhole, hsync, hexch, htexts⟩ : ∃ t : Session,
      (if s.desynced then { s.discardPending e.drain with desynced := false } else s) = t ∧
      Whole t ∧ t.desynced = false ∧ t.port.exchanges = s.port.exchanges ∧
      t.texts = s.leftoverTexts e.drain := by
    cases hdesynced : s.desynced with
    | false => exact ⟨s, rfl, h, hdesynced, rfl, by simp [texts, leftoverTexts, leftover, hdesynced]⟩
    | true =>
      obtain ⟨hrx, hexch, hinc⟩ := discardPending_spec s e.drain
      refine ⟨_, rfl, h.discardPending e.drain, rfl, hexch, ?_⟩
      simp [texts, unread, leftoverTexts, leftover, hdesynced, hrx, hinc]
  have hwritten : (t.write cmd e.output).port.exchanges =
      s.port.exchanges ++ [(cmd, replyTexts e.output)] := by
    simp [write, hexch]
  simp only [sendCommandWithin, ht]
  cases hwrite : e.writeError with
  | some error =>
    exact ⟨hwritten, ⟨(hwhole.write cmd e.output).incoming, nofun⟩, nofun⟩
  | none =>
    obtain ⟨hkept, hcollected, hread⟩ := collect_spec maxLines [] (t.write cmd e.output) e.ticks
    refine ⟨hkept.trans hwritten, hcollected (hwhole.write cmd e.output), ?_⟩
    intro response hresp
    obtain ⟨hanswer, hstill⟩ := hread response hresp
    rw [← htexts, ← texts_write hwhole hsync]
    exact ⟨hanswer, hstill.trans hsync⟩

theorem resync_spec (e : Exchange) : let r := s.resync e
    Whole r.2 ∧ r.2.port.exchanges = s.port.exchanges ++ [("AT".toList, replyTexts e.output)] := by
  obtain ⟨hexch, hwhole, -⟩ :=
    sendCommandWithin_spec (h.discardPending e.drain) "AT" maxResponseLines e
  have hdrained : (s.discardPending e.drain).port.exchanges = s.port.exchanges :=
    (discardPending_spec s e.drain).2.1
  rw [← hdrained]
  simp only [resync, sendCommand]
  generalize Session.sendCommandWithin _ _ _ e = r at hexch hwhole ⊢
  split <;> exact ⟨hwhole, hexch⟩

end

/-! ### Single lines -/

/-- A line is the next of the stream, and a deadline takes nothing off it. -/
theorem readLineRaw_spec (s : Session) (ticks : List Tick) :
    let r := s.readLineRaw ticks
    r.2.port.exchanges = s.port.exchanges ∧ (Whole s → Whole r.2) ∧
    match r.1 with
    | some (.ok (some line)) => s.texts = line :: r.2.texts ∧ r.2.desynced = s.desynced
    | some (.ok none) => r.2.texts = s.texts ∧ r.2.desynced = s.desynced
    | some (.error _) => r.2.desynced = true
    | none => r.2.texts = s.texts ∧ r.2.desynced = s.desynced := by
  fun_induction readLineRaw s ticks with
  | case1 ticks s line t htake =>
    obtain ⟨htexts, hport, hsync, -⟩ := takeLine_spec htake
    exact ⟨congrArg Port.exchanges hport, fun h => h.takeLine htake, htexts, hsync⟩
  | case2 s htake => exact ⟨rfl, id, rfl, rfl⟩
  | case3 s htake ticks hempty => exact ⟨rfl, id, rfl, rfl⟩
  | case4 s htake ticks hempty => exact ⟨rfl, fun h => ⟨h.incoming, nofun⟩, rfl⟩
  | case5 s htake r ticks got t hfill ih =>
    obtain ⟨hexch, hwhole, hunread, hsync⟩ := fill_spec hfill
    have htexts : t.texts = s.texts := by simp [texts, hunread]
    obtain ⟨ihexchanges, ihwhole, ihread⟩ := ih
    refine ⟨ihexchanges.trans hexch, ihwhole ∘ hwhole, ?_⟩
    rw [← htexts, ← hsync]
    exact ihread
  | case6 s htake r ticks e t hfill =>
    exact fill_spec hfill

end Session

end Stream

/-! ## Undisturbed exchanges -/

/-- A line that ends a reply. -/
def isFinal (line : Text) : Bool := (finalResult [] line).isSome

/-- The modem answers once: its reply ends with a final result, and nothing else that it sends
is one. -/
def answersOnce : List ModemLine → Bool
  | [] => false
  | l :: output =>
    if l.solicited && isFinal l.text then
      output.all fun m => (m.text.isEmpty || !m.solicited) && !isFinal m.text
    else !isFinal l.text && answersOnce output

/-- Up to the final result, the modem sends lines of the reply and blank ones only. -/
def tidy : List ModemLine → Bool
  | [] => true
  | l :: output =>
    if l.text.isEmpty then tidy output
    else l.solicited && (isFinal l.text || tidy output)

theorem isFinal_of_finalResult {lines : List Text} {line : Text} {result : Option AtResponse}
    (h : finalResult lines line = result) : isFinal line = result.isSome := by
  rw [← h]
  unfold isFinal finalResult
  split
  · rfl
  · split <;> rfl

theorem answer_append_of_blank {blank : List Text} (hblank : ∀ t ∈ blank, t.isEmpty = true)
    (lines rest : List Text) : answer lines (blank ++ rest) = answer lines rest := by
  induction blank with
  | nil => rfl
  | cons t blank ih =>
    have ht := hblank t mem_cons_self
    simp only [cons_append, answer, if_pos ht]
    exact ih fun u hu => hblank u (mem_cons_of_mem t hu)

/-- The result of a tidy reply is that of its own lines. -/
theorem answer_of_tidy (h : tidy output = true) (lines : List Text) :
    (answer lines (output.map text)).map Prod.fst =
      (answer lines (replyTexts output)).map Prod.fst := by
  induction output generalizing lines with
  | nil => rfl
  | cons l output ih =>
    simp only [tidy] at h
    split at h
    case isTrue hblank =>
      have ih := ih h lines
      cases hsolic : l.solicited with
      | true | false => simpa [replyTexts, hsolic, answer, hblank] using ih
    case isFalse hblank =>
      obtain ⟨hsolic, hrest⟩ := Bool.and_eq_true_iff.1 h
      have hreply : replyTexts (l :: output) = l.text :: replyTexts output := by
        simp [replyTexts, hsolic]
      simp only [hreply, map_cons, answer, if_neg hblank]
      cases hfinal : finalResult lines l.text with
      | some response => rfl
      | none =>
        have hnone : isFinal l.text = false := isFinal_of_finalResult hfinal
        rw [hnone] at hrest
        exact ih hrest (lines ++ [l.text])

/-- No line but blank ones is waiting when the command is written, and the modem announces
nothing before its final result. -/
def Session.undisturbed (s : Session) (e : Exchange) : Bool :=
  (s.leftoverTexts e.drain).all List.isEmpty && tidy e.output

/-- An undisturbed exchange has the modem's reply for its result. -/
theorem Session.sendCommandWithin_own {s : Session} (h : s.Whole) {e : Exchange}
    (hquiet : s.undisturbed e = true) (maxLines : Nat) {response : AtResponse}
    (hresp : (s.sendCommandWithin cmd maxLines e).1 = some (.ok response)) :
    (answer [] (replyTexts e.output)).map Prod.fst = some response := by
  obtain ⟨hblank, htidy⟩ := Bool.and_eq_true_iff.1 hquiet
  obtain ⟨-, -, hread⟩ := sendCommandWithin_spec h cmd maxLines e
  have hanswer := (hread response hresp).1
  rw [answer_append_of_blank (all_eq_true.1 hblank)] at hanswer
  rw [← answer_of_tidy htidy, hanswer]
  rfl

end AtWorker

/-! ## The AT channel (`modules/at_commander.rs`)

A caller hands its requests to the thread that owns the port and waits for each with a
deadline of its own. The thread serves them in the order they come, those included that nobody
waits for any more, and a new thread gets the port only when the old one has let go of it; so
the operations on the port follow one another. A call is followed through them: it may have to
resynchronise the channel or to reopen the port before its own request is served. Whether an
answer of the thread is in time is left open. -/

namespace AtCommander

open Text AtWorker

inductive ChannelState where
  | healthy
  | suspect
  | dead
  deriving DecidableEq

inductive Request where
  | command (cmd : Text) (maxLines : Option Nat)
  | readLine
  deriving DecidableEq

/-- Where the call in progress is. -/
inductive Phase where
  | idle
  | resyncing (request : Request)
  | reopening (request : Request)
  | dispatching (request : Request)
  deriving DecidableEq

/-- What a call returns; a response is named by its command and its place among the exchanges
of the port. -/
inductive Result where
  | response (number : Nat) (cmd : Text) (response : AtResponse)
  | line (line : Text)
  | failed (fault : Fault)
  deriving DecidableEq

structure Commander where
  session : Session := {}
  state : ChannelState := .healthy
  phase : Phase := .idle
  /-- The thread is in a read that never returns. -/
  stuck : Bool := false

namespace Commander

variable (c : Commander)

/-- `ensure_usable`, up to the first thing it has to wait for. -/
def ensureUsable (request : Request) : Option Result × Commander :=
  match c.state with
  | .healthy => (none, { c with phase := .dispatching request })
  | .suspect => (none, { c with phase := .resyncing request })
  | .dead => (some (.failed .portHeld), c)

def tryResync (request : Request) (e : Exchange) (inTime : Bool) : Commander :=
  -- behind an operation that never ends, the request is never served
  if c.stuck then { c with phase := .reopening request }
  else
    match c.session.resync e with
    | (some true, session) =>
      if inTime then { c with session, state := .healthy, phase := .dispatching request }
      else { c with session, phase := .reopening request }
    | (some false, session) => { c with session, phase := .reopening request }
    | (none, session) => { c with session, phase := .reopening request, stuck := true }

/-- A fresh session on the same port, once the old thread has released it. -/
def tryReopen (request : Request) (opens : Bool) : Option Result × Commander :=
  if opens && !c.stuck then
    (none, { c with session := { port := c.session.port }, state := .healthy,
                    phase := .dispatching request })
  else (some (.failed .notRecovered), { c with state := .dead, phase := .idle })

/-- The wait for the thread: its answer, if it has one and in time. -/
def receive {α : Type} (session : Session) (reply : Option (Except Fault α)) (inTime : Bool) :
    Except Fault α × Commander :=
  let c := { c with session, phase := .idle }
  match reply with
  | some (.ok a) =>
    if inTime then (.ok a, c) else (.error .commandTimeout, { c with state := .suspect })
  | some (.error fault) =>
    (.error (if inTime then fault else .commandTimeout), { c with state := .suspect })
  | none => (.error .commandTimeout, { c with state := .suspect, stuck := true })

def dispatch {α : Type} (operation : Option (Except Fault α) × Session) (inTime : Bool) :
    Except Fault α × Commander :=
  if c.stuck then c.receive c.session none inTime else c.receive operation.2 operation.1 inTime

/-- The end of `send`. -/
def send (cmd : Text) (maxLines : Option Nat) (e : Exchange) (inTime : Bool) :
    Option Result × Commander :=
  let number := c.session.port.exchanges.length
  let r := c.dispatch
    (c.session.sendCommandWithin cmd (maxLines.getD maxResponseLines) e) inTime
  match r.1 with
  | .ok response => (some (.response number cmd response), r.2)
  | .error fault => (some (.failed fault), r.2)

/-- The end of `read_line_raw`: an idle line is a timeout for the caller, not for the channel. -/
def readLineRaw (e : Exchange) (inTime : Bool) : Option Result × Commander :=
  let r := c.dispatch (c.session.readLineRaw e.ticks) inTime
  match r.1 with
  | .ok (some line) => (some (.line line), r.2)
  | .ok none => (some (.failed .readTimeout), r.2)
  | .error fault => (some (.failed fault), r.2)

/-- The modem sends a line of its own accord. -/
def announce (l : ModemLine) : Commander :=
  { c with session := { c.session with port :=
    { c.session.port with incoming := c.session.port.incoming ++ l.wire } } }

end Commander

/-- The steps of the caller, the thread and the modem. -/
inductive Turn where
  | announces (l : ModemLine)
  | calls (request : Request)
  | resyncs (e : Exchange) (inTime : Bool)
  | reopens (opens : Bool)
  | dispatches (e : Exchange) (inTime : Bool)

def Commander.step (c : Commander) : Turn → Option Result × Commander
  | .announces l => (none, c.announce l)
  | .calls request =>
    match c.phase with
    | .idle => c.ensureUsable request
    | _ => (none, c)
  | .resyncs e inTime =>
    match c.phase with
    | .resyncing request => (none, c.tryResync request e inTime)
    | _ => (none, c)
  | .reopens opens =>
    match c.phase with
    | .reopening request => c.tryReopen request opens
    | _ => (none, c)
  | .dispatches e inTime =>
    match c.phase with
    | .dispatching (.command cmd maxLines) => c.send cmd maxLines e inTime
    | .dispatching .readLine => c.readLineRaw e inTime
    | _ => (none, c)

/-! ### Whose reply it is -/

/-- The channel, with everything that its calls have returned. -/
structure History where
  channel : Commander := {}
  results : List Result := []

def step (h : History) (turn : Turn) : History :=
  let r := h.channel.step turn
  { channel := r.2, results := h.results ++ r.1.toList }

/-- A response is the modem's reply to the command that was sent. -/
def Own (exchanges : List (Text × List Text)) : Result → Prop
  | .response number cmd response => ∃ reply, exchanges[number]? = some (cmd, reply) ∧
      (answer [] reply).map Prod.fst = some response
  | .line _ => True
  | .failed _ => True

def Owned (h : History) : Prop := ∀ r ∈ h.results, Own h.channel.session.port.exchanges r

/-- A command is written while nothing but blank lines is left to read, and the modem
announces nothing before it has answered. -/
def Undisturbed (h : History) : Turn → Prop
  | .dispatches e _ =>
    match h.channel.phase with
    | .dispatching (.command _ _) => h.channel.session.undisturbed e = true
    | _ => True
  | .announces _ => True
  | .calls _ => True
  | .resyncs _ _ => True
  | .reopens _ => True

variable {inTime : Bool} {e : Exchange} {request : Request}

section

variable {c : Commander} {exchanges : List (Text × List Text)} {α : Type}

theorem Own.append {r : Result} (h : Own exchanges r) (more : List (Text × List Text)) :
    Own (exchanges ++ more) r := by
  cases r with
  | response number cmd response =>
    obtain ⟨reply, hreply, hanswer⟩ := h
    exact ⟨reply, List.getElem?_append_left (List.getElem?_eq_some_iff.1 hreply).1 ▸ hreply, hanswer⟩
  | line | failed => trivial

/-- What a step does to the exchanges of the port: it adds to them, and what the call returns
is its own. -/
structure Keeps (c : Commander) (r : Option Result × Commander) : Prop where
  whole : r.2.session.Whole
  grows : ∃ more, r.2.session.port.exchanges = c.session.port.exchanges ++ more
  own : ∀ result ∈ r.1, Own r.2.session.port.exchanges result

/-- No command has been written, and no response returned. -/
theorem Keeps.same {d : Commander} {result : Option Result} (hwhole : d.session.Whole)
    (hexch : d.session.port.exchanges = c.session.port.exchanges)
    (hown : ∀ r ∈ result, ∀ exchanges, Own exchanges r) : Keeps c (result, d) :=
  ⟨hwhole, ⟨[], by rw [hexch, List.append_nil]⟩, fun r hr => hown r hr _⟩

theorem receive_spec (c : Commander) (session : Session) (reply : Option (Except Fault α))
    (inTime : Bool) : let r := c.receive session reply inTime
    r.2.session = session ∧ ∀ a, r.1 = .ok a → reply = some (.ok a) := by
  cases reply with
  | none => exact ⟨rfl, nofun⟩
  | some outcome =>
    cases outcome with
    | error fault => exact ⟨rfl, nofun⟩
    | ok a =>
      cases inTime with
      | false => exact ⟨rfl, nofun⟩
      | true =>
        refine ⟨rfl, ?_⟩
        rintro b ⟨⟩
        rfl

open Commander

/-- The operation is done and its result passed on, or the thread never gets to it. -/
theorem dispatch_spec (c : Commander) (operation : Option (Except Fault α) × Session)
    (inTime : Bool) : let r := c.dispatch operation inTime
    (r.2.session = c.session ∧ ∃ fault, r.1 = .error fault) ∨
      (r.2.session = operation.2 ∧ ∀ a, r.1 = .ok a → operation.1 = some (.ok a)) := by
  unfold dispatch
  split
  · exact .inl ⟨rfl, _, rfl⟩
  · exact .inr (receive_spec c operation.2 operation.1 inTime)

section

variable (hwhole : c.session.Whole)

include hwhole

theorem keeps_send {cmd : Text} {maxLines : Option Nat} (hquiet : c.session.undisturbed e = true) :
    Keeps c (c.send cmd maxLines e inTime) := by
  obtain ⟨hexch, hafter, -⟩ := Session.sendCommandWithin_spec hwhole cmd
    (maxLines.getD maxResponseLines) e
  have hown : ∀ response, (c.session.sendCommandWithin cmd (maxLines.getD maxResponseLines) e).1 =
      some (.ok response) → Own (c.session.port.exchanges ++ [(cmd, replyTexts e.output)])
        (.response c.session.port.exchanges.length cmd response) := by
    intro response hresp
    exact ⟨replyTexts e.output, List.getElem?_concat_length ..,
      Session.sendCommandWithin_own hwhole hquiet _ hresp⟩
  have hdisp := dispatch_spec c
    (c.session.sendCommandWithin cmd (maxLines.getD maxResponseLines) e) inTime
  unfold send
  generalize c.dispatch _ inTime = r at hdisp ⊢
  obtain ⟨outcome, d⟩ := r
  rcases hdisp with ⟨hsess, fault, ⟨⟩⟩ | ⟨hsess, hsome⟩
  · exact .same (hsess ▸ hwhole) (by rw [hsess]) (by rintro _ ⟨⟩ _; trivial)
  rw [← hsess] at hafter hexch
  cases outcome with
  | error fault =>
    refine ⟨hafter, ⟨_, hexch⟩, ?_⟩
    rintro a ⟨⟩
    trivial
  | ok response =>
    refine ⟨hafter, ⟨_, hexch⟩, ?_⟩
    rintro a ⟨⟩
    rw [hexch]
    exact hown response (hsome response rfl)

theorem keeps_readLineRaw : Keeps c (c.readLineRaw e inTime) := by
  obtain ⟨hexch, hafter, -⟩ := Session.readLineRaw_spec c.session e.ticks
  have hdisp := dispatch_spec c (c.session.readLineRaw e.ticks) inTime
  unfold readLineRaw
  generalize c.dispatch _ inTime = r at hdisp ⊢
  have hsess : r.2.session.Whole ∧ r.2.session.port.exchanges = c.session.port.exchanges := by
    rcases hdisp with ⟨hsame, -⟩ | ⟨hdone, -⟩
    · rw [hsame]
      exact ⟨hwhole, rfl⟩
    · rw [hdone]
      exact ⟨hafter hwhole, hexch⟩
  dsimp only
  split <;> exact .same hsess.1 hsess.2 (by rintro _ ⟨⟩ _; trivial)

theorem keeps_tryResync : Keeps c
    (none, c.tryResync request e inTime) := by
  obtain ⟨hafter, hexch⟩ := Session.resync_spec hwhole e
  unfold tryResync
  split
  · exact .same hwhole rfl nofun
  generalize c.session.resync e = r at hafter hexch ⊢
  split
  · split <;> exact ⟨hafter, ⟨_, hexch⟩, nofun⟩
  · exact ⟨hafter, ⟨_, hexch⟩, nofun⟩
  · exact ⟨hafter, ⟨_, hexch⟩, nofun⟩

theorem keeps_tryReopen (opens : Bool) : Keeps c (c.tryReopen request opens) := by
  unfold tryReopen
  split
  · exact .same ⟨hwhole.incoming, fun _ => hwhole.incoming⟩ rfl nofun
  · exact .same hwhole rfl (by rintro _ ⟨⟩ _; trivial)

theorem keeps_announce (l : ModemLine) : Keeps c (none, c.announce l) := by
  refine .same ⟨hwhole.incoming.append l.ended, ?_⟩ rfl nofun
  intro hsync
  have hended := (hwhole.unread hsync).append l.ended
  simpa [Session.unread, announce] using hended

theorem keeps_ensureUsable : Keeps c (c.ensureUsable request) := by
  unfold ensureUsable
  split
  · exact .same hwhole rfl nofun
  · exact .same hwhole rfl nofun
  · exact .same hwhole rfl (by rintro _ ⟨⟩ _; trivial)

end

theorem keeps_step {h : History} (hwhole : h.channel.session.Whole) {turn : Turn}
    (hquiet : Undisturbed h turn) : Keeps h.channel (h.channel.step turn) := by
  cases turn with
  | announces l => exact keeps_announce hwhole l
  | calls request =>
    simp only [Commander.step]
    split
    · exact keeps_ensureUsable hwhole
    · exact .same hwhole rfl nofun
  | resyncs e inTime =>
    simp only [Commander.step]
    split
    · exact keeps_tryResync hwhole
    · exact .same hwhole rfl nofun
  | reopens opens =>
    simp only [Commander.step]
    split
    · exact keeps_tryReopen hwhole opens
    · exact .same hwhole rfl nofun
  | dispatches e inTime =>
    simp only [Commander.step]
    split
    next hphase =>
      simp only [Undisturbed, hphase] at hquiet
      exact keeps_send hwhole hquiet
    · exact keeps_readLineRaw hwhole
    · exact .same hwhole rfl nofun

end

/-- The invariant of undisturbed runs. -/
structure Good (h : History) : Prop where
  whole : h.channel.session.Whole
  owned : Owned h

theorem Good.step {h : History} (hgood : Good h) {turn : Turn} (hquiet : Undisturbed h turn) :
    Good (step h turn) := by
  obtain ⟨hwhole, ⟨more, hmore⟩, hown⟩ := keeps_step hgood.whole hquiet
  refine ⟨hwhole, List.forall_mem_append.2 ⟨fun r hr => ?_, fun r hr => ?_⟩⟩
  · have hr := (hgood.owned r hr).append more
    rw [← hmore] at hr
    exact hr
  · exact hown r (Option.mem_toList.1 hr)

theorem good_start : Good {} where
  whole := ⟨Lines.ended_nil, fun _ => Lines.ended_nil⟩
  owned := nofun

namespace Sample

def ok : ModemLine := ⟨Utf8.encode "OK\r", true, List.all_iff_forall_prop.mp rfl⟩
def signal : ModemLine := ⟨Utf8.encode "+CSQ: 20,99\r", true, List.all_iff_forall_prop.mp rfl⟩
def registration : ModemLine := ⟨Utf8.encode "+CREG: 0,1\r", true, List.all_iff_forall_prop.mp rfl⟩

/-- A command times out, its reply comes in time for the drain, and the next is served. -/
def recovered : List Turn :=
  [.calls (.command "AT+CSQ" none),
    .dispatches { output := [signal, ok], ticks := [.deadline] } true,
    .calls (.command "AT+CREG?" none),
    .resyncs { drain := [.data 99, .timedOut], output := [ok], ticks := [.read (.data 99)] } true,
    .dispatches { output := [registration, ok], ticks := [.read (.data 99)] } true]

end Sample

/-- In every run whose commands are all undisturbed, each response that a call returns is the
modem's reply to its own command. -/
theorem owned_of_undisturbed (turns : List Turn) (h : Trace.Each step Undisturbed {} turns) :
    Trace.Always step Owned {} turns :=
  h.always (fun _ hgood => hgood.owned) (fun _ _ hgood hquiet => hgood.step hquiet) good_start

theorem owned_after_recovery : Trace.Each step Undisturbed {} Sample.recovered ∧
    Trace.Always step Owned {} Sample.recovered :=
  have h : Trace.Each step Undisturbed {} Sample.recovered :=
    ⟨trivial, rfl, trivial, trivial, rfl, trivial⟩
  ⟨h, owned_of_undisturbed Sample.recovered h⟩

/-! #### A late reply -/

/-- The modem answers each command once. -/
def Turn.answered : Turn → Bool
  | .announces l => !isFinal l.text
  | .calls _ => true
  | .resyncs e _ => answersOnce e.output
  | .reopens _ => true
  | .dispatches e _ => answersOnce e.output

/-- The reply to a command that has timed out comes after the drain. It is taken for the reply
to the bare `AT`, and the next command is given that of the bare `AT`. -/
theorem lateReply_shifts_replies :
    ¬ ∀ turns, turns.all Turn.answered = true → Trace.Always step Owned {} turns := by
  intro h
  have hrun := h [.calls (.command "AT+CSQ" none),
    .dispatches { output := [Sample.signal, Sample.ok], ticks := [.deadline] } true,
    .calls (.command "AT+CREG?" none),
    .resyncs { drain := [.timedOut], output := [Sample.ok], ticks := [.read (.data 99)] } true,
    .dispatches { output := [Sample.registration, Sample.ok], ticks := [.read (.data 99)] } true]
    (by decide)
  obtain ⟨reply, hreply, hanswer⟩ := hrun.2.2.2.2.2
    (.response 2 "AT+CREG?" (.ok [])) (by decide)
  have hown : reply = replyTexts [Sample.registration, Sample.ok] :=
    (congrArg Prod.snd (Option.some.inj hreply)).symm
  subst hown
  revert hanswer
  decide

end AtCommander
