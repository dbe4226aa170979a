-- SUMMARY: The event loop of a module worker on its AT channel (`modules/worker.rs`).
import GsmSipBridge.Modules.AtWorker

/-!
# Unsolicited lines

Between its commands the worker reads single lines and dispatches them; after a `RING` it
reads a few more for the caller's number. Replies, announcements and the caller's number all
come down one stream, so a line goes to whoever reads next. Which commands the worker sends,
and when, is left open, and so is whether the card is idle when it rings.
-/

namespace ModuleWorker

open Text AtWorker AtCommander List Session

variable {output : List ModemLine} {s : Session}

/-- What the worker wants the next line for. -/
inductive Task where
  | polling
  | extracting (left : Nat)
  | exited
  deriving DecidableEq

/-- Where an unsolicited line has gone. -/
inductive Handed where
  | dispatched (line : Text)
  | callerId (line : Text)
  deriving DecidableEq

def Handed.line : Handed → Text
  | .dispatched line => line
  | .callerId line => line

def ring : Text := "RING"
def clip : Text := "+CLIP:"

/-- The lines that the modem has announced among what it sends, blank ones apart. -/
def announcements (output : List ModemLine) : List Text :=
  ((output.filter fun l => !l.solicited).map ModemLine.text).filter fun t => !t.isEmpty

structure Monitor where
  channel : Commander := {}
  task : Task := .polling
  handed : List Handed := []
  /-- What the modem has announced so far. -/
  announced : List Text := []

namespace Monitor

variable (m : Monitor)

/-- `dispatch_urc`, as far as it reads from the channel: a `RING` on an idle card. -/
def dispatchUrc (line : Text) (cardIdle : Bool) : Monitor :=
  let m := { m with handed := m.handed ++ [.dispatched line] }
  if line = ring ∧ cardIdle then { m with task := .extracting 5 } else m

/-- One round of `extract_caller_id`. -/
def extractCallerId (line : Text) (left : Nat) : Monitor :=
  if clip.isPrefixOf line then
    { m with task := .polling, handed := m.handed ++ [.callerId line] }
  else if left ≤ 1 then { m with task := .polling }
  else { m with task := .extracting (left - 1) }

/-- A line, for whoever has asked for one. -/
def readLine (line : Text) (cardIdle : Bool) : Monitor :=
  match m.task with
  | .polling => if line.isEmpty then m else m.dispatchUrc line cardIdle
  | .extracting left => m.extractCallerId line left
  | .exited => m

/-- No line: the loop goes on after a timeout and ends on anything else. -/
def readFailed (fault : Fault) : Monitor :=
  match m.task with
  | .polling => if "timeout" <:+: fault.message then m else { m with task := .exited }
  | .extracting _ => { m with task := .polling }
  | .exited => m

/-- What the end of a call means for the worker; only single lines matter here. -/
def receive (request : Option Request) (result : Option Result) (cardIdle : Bool) : Monitor :=
  match result with
  | some (.line line) => m.readLine line cardIdle
  | some (.failed fault) =>
    match request with
    | some .readLine => m.readFailed fault
    | _ => m
  | some (.response _ _ _) => m
  | none => m

end Monitor

/-- The request that a turn may bring to its end. -/
def pending (c : Commander) : AtCommander.Turn → Option Request
  | .calls request => some request
  | .announces _ => none
  | .resyncs _ _ => none
  | .reopens _ =>
    match c.phase with
    | .reopening request => some request
    | _ => none
  | .dispatches _ _ =>
    match c.phase with
    | .dispatching request => some request
    | _ => none

/-- What the modem announces in a turn. -/
def announcedBy (c : Commander) : AtCommander.Turn → List Text
  | .announces l => announcements [l]
  | .calls _ => []
  | .resyncs e _ =>
    match c.phase with
    | .resyncing _ => if c.stuck then [] else announcements e.output
    | _ => []
  | .reopens _ => []
  | .dispatches e _ =>
    match c.phase with
    | .dispatching (.command _ _) => if c.stuck then [] else announcements e.output
    | _ => []

/-- The worker sends commands only between lines: not while it looks for the caller's number. -/
def mayCall (task : Task) : AtCommander.Turn → Bool
  | .calls request =>
    match task with
    | .polling => true
    | .extracting _ => request = .readLine
    | .exited => false
  | _ => true

/-- A turn of the channel, and whether the card is idle at it. -/
abbrev Turn := AtCommander.Turn × Bool

def step (m : Monitor) (turn : Turn) : Monitor :=
  if mayCall m.task turn.1 then
    let r := m.channel.step turn.1
    { m with
      channel := r.2
      announced := m.announced ++ announcedBy m.channel turn.1 }.receive
        (pending m.channel turn.1) r.1 turn.2
  else m

/-! ## Accounts -/

/-- The lines that are still to be read, blank ones apart. -/
def waiting (s : Session) : List Text := s.texts.filter fun t => !t.isEmpty

/-- Every line that the modem has announced has been handed over, once and in order, or is
waiting to be; only the caller's number does not go to the dispatch. The worker is in its loop
and its thread answers, so that it goes on reading. -/
structure Delivered (m : Monitor) : Prop where
  once : m.announced = m.handed.map Handed.line ++ waiting m.channel.session
  callerId : ∀ line, .callerId line ∈ m.handed → clip.isPrefixOf line = true
  live : m.task ≠ .exited
  answers : m.channel.stuck = false

/-- The modem answers each command once and in time. -/
def Answered (m : Monitor) (turn : Turn) : Prop :=
  match turn.1, m.channel.phase with
  | .announces l, _ => l.solicited = false ∧ isFinal l.text = false
  | .dispatches e inTime, .dispatching (.command cmd maxLines) =>
    inTime = true ∧ answersOnce e.output = true ∧ ∃ response,
      (m.channel.session.sendCommandWithin cmd (maxLines.getD maxResponseLines) e).1 =
        some (.ok response)
  | _, _ => True

def steady : Tick → Bool
  | .read (.data _) => true
  | .read .timedOut => true
  | .read .interrupted => true
  | .read .endOfFile => false
  | .read (.failed _) => false
  | .deadline => false

/-- How much the reads of a call fetch, if so much has come. -/
def fetched : List Tick → Nat
  | [] => 0
  | .read (.data n) :: ticks => min (n + 1) 1024 + fetched ticks
  | _ :: ticks => fetched ticks

/-- A single read comes to its end on a port that works: it fetches a line, or its deadline
passes with nothing to read. -/
def readable (s : Session) (ticks : List Tick) : Bool :=
  decide (s.unread.length ≤ maxBufferedBytes) &&
    (ticks.all steady && (s.rx ++ s.port.incoming.take (fetched ticks)).any newline ||
      s.unread.isEmpty && (ticks.all fun tick => steady tick || tick matches .deadline) &&
        ticks.any (· matches .deadline))

/-- Unsolicited lines meet single reads only: none is waiting when a command is written or comes
before its final result, no read is cut short, and the search for the caller's number finds it. -/
def Unmixed (m : Monitor) (turn : Turn) : Prop :=
  match turn.1, m.channel.phase with
  | .dispatches e _, .dispatching (.command _ _) => m.channel.session.undisturbed e = true
  | .dispatches e inTime, .dispatching .readLine =>
    inTime = true ∧ readable m.channel.session e.ticks = true ∧
      (m.task ≠ .polling → ∀ line ∈ (waiting m.channel.session).head?, clip.isPrefixOf line = true)
  | _, _ => True

/-- A single read takes a line off the stream if there is one. -/
def Prompt (m : Monitor) (turn : Turn) : Prop :=
  match turn.1, m.channel.phase with
  | .dispatches _ _, .dispatching .readLine =>
    m.channel.session.texts = [] ∨
      (step m turn).channel.session.texts = m.channel.session.texts.tail
  | _, _ => True

/-! ### One turn of the channel -/

theorem filter_texts_of_unsolicited (h : ∀ l ∈ output, (l.text.isEmpty || !l.solicited) = true) :
    ((output.map ModemLine.text).filter fun t => !t.isEmpty) = announcements output := by
  rw [announcements, filter_map, filter_map, filter_filter]
  refine congrArg _ (filter_congr fun l hl => ?_)
  have hl := h l hl
  cases hblank : l.text.isEmpty with
  | true => simp [hblank]
  | false => simpa [hblank] using hl

/-- What follows the final result of a tidy reply is what the modem has announced. -/
theorem filter_answer_rest (htidy : tidy output = true) (honce : answersOnce output = true)
    {lines rest : List Text} {response : AtResponse}
    (h : answer lines (output.map ModemLine.text) = some (response, rest)) :
    (rest.filter fun t => !t.isEmpty) = announcements output := by
  induction output generalizing lines with
  | nil => cases h
  | cons l output ih =>
    simp only [tidy] at htidy
    simp only [answersOnce] at honce
    simp only [map_cons, answer] at h
    cases hblank : l.text.isEmpty with
    | true =>
      rw [if_pos hblank] at htidy h
      have hfinal : isFinal l.text = false := by
        rw [isEmpty_iff.1 hblank]
        decide
      simp only [hfinal, Bool.and_false, Bool.false_eq_true, if_false, Bool.not_false,
        Bool.true_and] at honce
      rw [ih htidy honce h]
      cases hsolic : l.solicited with
      | true => simp [announcements, hsolic]
      | false => simp [announcements, hsolic, hblank]
    | false =>
      rw [if_neg (by simp [hblank])] at htidy h
      obtain ⟨hsolic, hrest⟩ := Bool.and_eq_true_iff.1 htidy
      have hsame : announcements (l :: output) = announcements output := by
        simp [announcements, hsolic]
      rw [hsame]
      cases hfinal : finalResult lines l.text with
      | some result =>
        have hisFinal : isFinal l.text = true := isFinal_of_finalResult hfinal
        rw [hfinal] at h
        cases h
        rw [hsolic, hisFinal, Bool.and_self] at honce
        apply filter_texts_of_unsolicited
        intro m hm
        exact (Bool.and_eq_true_iff.1 (all_eq_true.1 honce m hm)).1
      | none =>
        have hisFinal : isFinal l.text = false := isFinal_of_finalResult hfinal
        rw [hfinal] at h
        simp only [hisFinal, Bool.and_false, Bool.false_eq_true, if_false, Bool.not_false,
          Bool.true_and, Bool.false_or] at honce hrest
        exact ih hrest honce h

theorem fill_steady {r : Read} (hsteady : steady (.read r) = true)
    (hshort : s.unread.length ≤ maxBufferedBytes) : ∃ got, (s.fill r).1 = .ok got := by
  cases r with
  | endOfFile | failed => cases hsteady
  | timedOut => exact ⟨false, rfl⟩
  | interrupted => exact ⟨true, rfl⟩
  | data n =>
    simp only [fill]
    split
    · exact ⟨false, rfl⟩
    have hfits : ¬ maxBufferedBytes <
        s.rx.length + (s.port.incoming.take (min (n + 1) 1024)).length := by
      simp only [unread, length_append, length_take] at hshort ⊢
      omega
    simp only [if_neg hfits]
    exact ⟨true, rfl⟩

/-- What the reads of a call fetch includes what its first one does. -/
theorem any_newline_fill {r : Read} {got : Bool} {t : Session} {ticks : List Tick}
    (hfill : s.fill r = (.ok got, t))
    (h : (s.rx ++ s.port.incoming.take (fetched (.read r :: ticks))).any newline = true) :
    (t.rx ++ t.port.incoming.take (fetched ticks)).any newline = true := by
  cases r with
  | endOfFile | failed => cases hfill
  | timedOut | interrupted =>
    cases hfill
    exact h
  | data n =>
    simp only [fill] at hfill
    split at hfill
    case isTrue hnone =>
      cases hfill
      have hincoming : s.port.incoming = [] := by simpa using hnone
      simpa [hincoming] using h
    case isFalse =>
      split at hfill
      · cases hfill
      cases hfill
      simpa [fetched, take_add] using h

/-- A single read that nothing cuts short brings a line, or there is none. -/
theorem readLineRaw_of_readable {ticks : List Tick} (h : readable s ticks = true) :
    ∃ line, (s.readLineRaw ticks).1 = some (.ok line) ∧ (line = none → s.texts = []) := by
  simp only [readable, Bool.and_eq_true, Bool.or_eq_true, decide_eq_true_eq] at h
  obtain ⟨hshort, h⟩ := h
  fun_induction readLineRaw s ticks with
  | case1 ticks s line t htake =>
    exact ⟨some line, rfl, fun hnone => absurd hnone (Option.some_ne_none line)⟩
  | case2 s htake =>
    -- without a read, the line is in the buffer
    rcases h with ⟨-, hline⟩ | ⟨-, hnever⟩
    · rw [takeLine, Option.map_eq_none_iff, Lines.takeLine_eq_none_iff] at htake
      simp [fetched, htake] at hline
    · cases hnever
  | case3 s htake ticks hempty =>
    have hnone := (h.resolve_left fun h => by cases h.1).1.1
    refine ⟨none, rfl, fun _ => ?_⟩
    rw [texts, isEmpty_iff.1 hnone]
    rfl
  | case4 s htake ticks hpartial =>
    have hnone := (h.resolve_left fun h => by cases h.1).1.1
    have hrx : s.rx = [] := (append_eq_nil_iff.1 (isEmpty_iff.1 hnone)).1
    exact absurd (isEmpty_iff.2 hrx) hpartial
  | case5 s htake r ticks got t hfill ih =>
    obtain ⟨-, -, hunread, -⟩ := fill_spec hfill
    have htexts : t.texts = s.texts := by simp [texts, hunread]
    rw [← htexts]
    simp only [all_cons, any_cons, Bool.and_eq_true, Bool.or_eq_true, Bool.false_eq_true,
      or_false, false_or] at h
    apply ih
    · rw [hunread]
      exact hshort
    · rw [hunread]
      exact h.imp (fun h => ⟨h.1.2, any_newline_fill hfill h.2⟩) fun h => ⟨⟨h.1.1, h.1.2.2⟩, h.2⟩
  | case6 s htake r ticks e t hfill =>
    have hsteady : steady (.read r) = true := by
      simp only [all_cons, Bool.and_eq_true, Bool.or_eq_true, Bool.false_eq_true, or_false] at h
      exact h.elim (fun h => h.1.1) fun h => h.1.2.1
    obtain ⟨got, hgot⟩ := fill_steady hsteady hshort
    rw [hfill] at hgot
    cases hgot

/-- The channel is in order. -/
structure Calm (c : Commander) : Prop where
  whole : c.session.Whole
  sync : c.session.desynced = false
  healthy : c.state = .healthy
  answers : c.stuck = false
  ready : c.phase = .idle ∨ ∃ request, c.phase = .dispatching request

def lineOf : Option Result → List Text
  | some (.line line) => [line]
  | some (.response _ _ _) => []
  | some (.failed _) => []
  | none => []

/-- A turn of a calm channel: it passes a line on, or leaves everything to be read. A search for
the caller's number finds it there. -/
structure Passes (task : Task) (c : Commander) (announced : List Text)
    (r : Option Result × Commander) : Prop where
  calm : Calm r.2
  moved : waiting c.session ++ announced =
    ((lineOf r.1).filter fun t => !t.isEmpty) ++ waiting r.2.session
  fault : ∀ f, r.1 = some (.failed f) → "timeout" <:+: f.message
  line : ∀ line, r.1 = some (.line line) → task ≠ .polling → line.isEmpty = false →
    clip.isPrefixOf line = true

variable {inTime : Bool} {request : Request} {m : Monitor} {turn : Turn}

section

variable {task : Task} {c : Commander} {α : Type} {e : Exchange}

theorem passes_same {d : Commander} {result : Option Result} (hcalm : Calm d)
    (htexts : d.session.texts = c.session.texts) (hline : lineOf result = [])
    (hfault : ∀ f, result = some (.failed f) → "timeout" <:+: f.message) :
    Passes task c [] (result, d) where
  calm := hcalm
  moved := by simp [waiting, htexts, hline]
  fault := hfault
  line := by
    rintro line rfl
    cases hline

open Commander

theorem dispatch_ok (hanswers : c.stuck = false) (a : α) (session : Session) :
    c.dispatch (some (.ok a), session) true = (.ok a, { c with session, phase := .idle }) := by
  simp [dispatch, hanswers, receive]

variable (h : Calm c)

include h

theorem passes_announce {l : ModemLine} (hl : l.solicited = false) :
    Passes task c (announcements [l]) (none, c.announce l) := by
  have hunread : (c.announce l).session.unread = c.session.unread ++ l.wire := by
    simp [unread, announce]
  have hended := h.whole.unread h.sync
  refine ⟨{ h with whole := (keeps_announce h.whole l).whole }, ?_, by simp, by simp⟩
  have htexts : (c.announce l).session.texts = c.session.texts ++ [l.text] := by
    have hline := Lines.lines_line l.whole (rfl : newline 10 = true)
    rw [texts, hunread, Lines.lines_append hended, map_append, ModemLine.wire, hline]
    rfl
  have hannounced : announcements [l] = [l.text].filter fun t => !t.isEmpty := by
    simp [announcements, hl]
  simp [waiting, htexts, hannounced, lineOf]

theorem passes_ensureUsable : Passes task c [] (c.ensureUsable request) := by
  simp only [ensureUsable, h.healthy]
  exact passes_same ⟨h.whole, h.sync, rfl, h.answers, .inr ⟨request, rfl⟩⟩ rfl rfl nofun

theorem passes_send {cmd : Text} {maxLines : Option Nat} {response : AtResponse}
    (hquiet : c.session.undisturbed e = true) (honce : answersOnce e.output = true)
    (hresp : (c.session.sendCommandWithin cmd (maxLines.getD maxResponseLines) e).1 =
      some (.ok response)) :
    Passes task c (announcements e.output) (c.send cmd maxLines e true) := by
  obtain ⟨hblank, htidy⟩ := Bool.and_eq_true_iff.1 hquiet
  obtain ⟨-, hwhole, hread⟩ := sendCommandWithin_spec h.whole cmd
    (maxLines.getD maxResponseLines) e
  obtain ⟨hanswer, hsync⟩ := hread response hresp
  rw [answer_append_of_blank (all_eq_true.1 hblank)] at hanswer
  have hleft : c.session.leftoverTexts e.drain = c.session.texts := by
    simp only [leftoverTexts, leftover, h.sync, Bool.false_eq_true, if_false]
    rfl
  have hwaiting : waiting c.session = [] := by
    rw [hleft] at hblank
    simpa [waiting] using all_eq_true.1 hblank
  generalize hoperation : c.session.sendCommandWithin cmd (maxLines.getD maxResponseLines) e = r
    at hresp hwhole hanswer hsync
  obtain ⟨outcome, session⟩ := r
  cases hresp
  simp only [send, hoperation, dispatch_ok h.answers]
  refine ⟨⟨hwhole, hsync, h.healthy, h.answers, .inl rfl⟩, ?_, by simp, by simp⟩
  rw [hwaiting, ← filter_answer_rest htidy honce hanswer]
  rfl

theorem passes_readLineRaw (hreadable : readable c.session e.ticks = true)
    (hclip : task ≠ .polling → ∀ line ∈ (waiting c.session).head?, clip.isPrefixOf line = true) :
    Passes task c [] (c.readLineRaw e true) ∧
      (c.session.texts = [] ∨
        (c.readLineRaw e true).2.session.texts = c.session.texts.tail) := by
  obtain ⟨-, hwhole, hread⟩ := readLineRaw_spec c.session e.ticks
  have hwhole := hwhole h.whole
  obtain ⟨line, hline, hnone⟩ := readLineRaw_of_readable hreadable
  unfold Commander.readLineRaw
  generalize c.session.readLineRaw e.ticks = r at hwhole hread hline
  obtain ⟨outcome, session⟩ := r
  cases hline
  rw [dispatch_ok h.answers]
  cases line with
  | none =>
    refine ⟨passes_same ⟨hwhole, hread.2.trans h.sync, h.healthy, h.answers, .inl rfl⟩ hread.1 rfl ?_,
      .inl (hnone rfl)⟩
    rintro f ⟨⟩
    exact ⟨"AT read ", [], by decide⟩
  | some line =>
    have htexts : c.session.texts = line :: session.texts := hread.1
    refine ⟨⟨⟨hwhole, hread.2.trans h.sync, h.healthy, h.answers, .inl rfl⟩, ?_, nofun, ?_⟩,
      .inr (by rw [htexts]; rfl)⟩
    · simp only [waiting, htexts, lineOf, append_nil]
      rw [← filter_append]
      rfl
    · rintro _ ⟨⟩ htask hline
      apply hclip htask line
      simp [waiting, htexts, hline]

end

/-- A turn that the conditions allow. -/
theorem passes_step (h : Calm m.channel) (hans : Answered m turn) (hunmix : Unmixed m turn) :
    Passes m.task m.channel (announcedBy m.channel turn.1) (m.channel.step turn.1) := by
  obtain ⟨turn, cardIdle⟩ := turn
  have hsame : Passes m.task m.channel [] (none, m.channel) := passes_same h rfl rfl nofun
  cases turn with
  | announces l => exact passes_announce h hans.1
  | calls request =>
    simp only [Commander.step]
    split
    · exact passes_ensureUsable h
    · exact hsame
  | resyncs | reopens =>
    rcases h.ready with hphase | ⟨request, hphase⟩ <;>
      simpa [Commander.step, announcedBy, hphase] using hsame
  | dispatches e inTime =>
    rcases h.ready with hphase | ⟨request, hphase⟩
    · simpa [Commander.step, announcedBy, hphase] using hsame
    cases request with
    | command cmd maxLines =>
      simp only [Answered, Unmixed, hphase] at hans hunmix
      obtain ⟨rfl, honce, response, hresp⟩ := hans
      simp only [Commander.step, announcedBy, hphase, h.answers, Bool.false_eq_true, if_false]
      exact passes_send h hunmix honce hresp
    | readLine =>
      simp only [Unmixed, hphase] at hunmix
      obtain ⟨rfl, hread, hclip⟩ := hunmix
      simp only [Commander.step, announcedBy, hphase]
      exact (passes_readLineRaw h hread hclip).1

/-! ## Runs -/

/-- The invariant of unmixed runs. -/
structure Good (m : Monitor) : Prop where
  calm : Calm m.channel
  delivered : Delivered m

section

variable {line : Text}

/-- The line has gone where unsolicited lines go, blank ones apart. -/
structure HandsOver (m : Monitor) (line : Text) (t : Monitor) : Prop where
  channel : t.channel = m.channel
  announced : t.announced = m.announced
  live : t.task ≠ .exited
  handed : t.handed.map Handed.line =
    m.handed.map Handed.line ++ [line].filter fun t => !t.isEmpty
  callerId : ∀ number, .callerId number ∈ t.handed →
    .callerId number ∈ m.handed ∨ clip.isPrefixOf number = true

theorem handsOver_blank (hblank : line.isEmpty = true) {task : Task}
    (htask : task ≠ .exited) : HandsOver m line { m with task } where
  channel := rfl
  announced := rfl
  live := htask
  handed := by simp [hblank]
  callerId := fun _ h => .inl h

/-- A poll dispatches a line, and the search for the caller's number takes the one that has it. -/
theorem handsOver_readLine (hlive : m.task ≠ .exited)
    (hclip : m.task ≠ .polling → line.isEmpty = false → clip.isPrefixOf line = true)
    (cardIdle : Bool) : HandsOver m line (m.readLine line cardIdle) := by
  unfold Monitor.readLine
  cases htask : m.task with
  | exited => exact absurd htask hlive
  | polling =>
    cases hblank : line.isEmpty with
    | true =>
      exact ⟨rfl, rfl, hlive, by simp [hblank], fun _ h => .inl h⟩
    | false =>
      have hhanded : (m.handed ++ [Handed.dispatched line]).map Handed.line =
          m.handed.map Handed.line ++ [line].filter fun t => !t.isEmpty := by
        simp [hblank, Handed.line]
      have hold : ∀ number, Handed.callerId number ∈ m.handed ++ [Handed.dispatched line] →
          .callerId number ∈ m.handed ∨ clip.isPrefixOf number = true := fun number h =>
        .inl (by simpa using h)
      simp only [Bool.false_eq_true, if_false, Monitor.dispatchUrc]
      split
      · exact ⟨rfl, rfl, nofun, hhanded, hold⟩
      · exact ⟨rfl, rfl, hlive, hhanded, hold⟩
  | extracting left =>
    have hclip := hclip (by simp [htask])
    simp only [Monitor.extractCallerId]
    split
    case isTrue hfound =>
      have hblank : line.isEmpty = false := by
        cases line with
        | nil => cases hfound
        | cons a l => rfl
      refine ⟨rfl, rfl, nofun, by simp [hblank, Handed.line], ?_⟩
      intro number h
      rcases mem_append.1 h with h | h
      · exact .inl h
      · cases mem_singleton.1 h
        exact .inr hfound
    case isFalse hfound =>
      have hblank : line.isEmpty = true := by
        cases hline : line.isEmpty with
        | true => rfl
        | false => exact absurd (hclip hline) hfound
      split <;> exact handsOver_blank hblank nofun

end

theorem Delivered.handsOver {t : Monitor} {line : Text} (h : HandsOver m line t)
    (hm : m.announced = m.handed.map Handed.line ++ ([line].filter fun t => !t.isEmpty) ++
      waiting m.channel.session)
    (hclip : ∀ number, .callerId number ∈ m.handed → clip.isPrefixOf number = true)
    (hanswers : m.channel.stuck = false) : Delivered t where
  once := by rw [h.announced, h.handed, h.channel, hm]
  callerId := by
    intro number hnumber
    rcases h.callerId number hnumber with hold | hnew
    · exact hclip number hold
    · exact hnew
  live := h.live
  answers := by rw [h.channel, hanswers]

/-- The loop goes on after a timeout. -/
theorem Good.readFailed (h : Good m) {fault : Fault} (hfault : "timeout" <:+: fault.message) :
    Good (m.readFailed fault) := by
  unfold Monitor.readFailed
  cases htask : m.task with
  | exited => exact h
  | extracting left => exact ⟨h.calm, { h.delivered with live := nofun }⟩
  | polling =>
    simp only [if_pos hfault]
    exact h

theorem Good.step (h : Good m) (hans : Answered m turn) (hunmix : Unmixed m turn) :
    Good (step m turn) := by
  obtain ⟨hcalm, hmoved, hfault, hline⟩ := passes_step h.calm hans hunmix
  have honce : m.announced ++ announcedBy m.channel turn.1 =
      m.handed.map Handed.line ++ ((lineOf (m.channel.step turn.1).1).filter fun t => !t.isEmpty) ++
        waiting (m.channel.step turn.1).2.session := by
    rw [h.delivered.once, append_assoc, hmoved, append_assoc]
  let t : Monitor := { m with
    channel := (m.channel.step turn.1).2
    announced := m.announced ++ announcedBy m.channel turn.1 }
  have hafter : lineOf (m.channel.step turn.1).1 = [] → Good t := by
    intro hnone
    rw [hnone, filter_nil, append_nil] at honce
    exact ⟨hcalm, { h.delivered with once := honce, answers := hcalm.answers }⟩
  simp only [ModuleWorker.step]
  split
  · cases hresult : (m.channel.step turn.1).1 with
    | none => exact hafter (by rw [hresult]; rfl)
    | some result =>
      cases result with
      | response number cmd response => exact hafter (by rw [hresult]; rfl)
      | failed fault =>
        have hafter := hafter (by rw [hresult]; rfl)
        simp only [Monitor.receive]
        split
        · exact hafter.readFailed (hfault fault hresult)
        · exact hafter
      | line line =>
        rw [hresult] at honce
        have hover := handsOver_readLine (m := t) h.delivered.live (hline line hresult) turn.2
        refine ⟨?_, Delivered.handsOver hover honce h.delivered.callerId hcalm.answers⟩
        have hchannel := hover.channel
        simp only [Monitor.receive]
        rw [hchannel]
        exact hcalm
  · exact h

theorem receive_channel (m : Monitor) (request : Option Request) (result : Option Result)
    (cardIdle : Bool) : (m.receive request result cardIdle).channel = m.channel := by
  unfold Monitor.receive Monitor.readLine Monitor.dispatchUrc Monitor.extractCallerId
    Monitor.readFailed
  repeat' split
  all_goals rfl

theorem Good.prompt (h : Good m) (hunmix : Unmixed m turn) : Prompt m turn := by
  obtain ⟨turn, cardIdle⟩ := turn
  unfold Prompt
  split
  case h_2 => trivial
  case h_1 e inTime hturn hphase =>
    subst hturn
    have hstep : (ModuleWorker.step m (.dispatches e inTime, cardIdle)).channel =
        (m.channel.readLineRaw e inTime).2 := by
      simp [ModuleWorker.step, mayCall, receive_channel, Commander.step, hphase]
    rw [hstep]
    simp only [Unmixed, hphase] at hunmix
    obtain ⟨rfl, hread, hclip⟩ := hunmix
    exact (passes_readLineRaw h.calm hread hclip).2

theorem good_start : Good {} where
  calm := ⟨⟨Lines.ended_nil, fun _ => Lines.ended_nil⟩, rfl, rfl, rfl, .inl rfl⟩
  delivered := ⟨rfl, nofun, nofun, rfl⟩

/-- In every run in which the modem answers each command in time and its announcements meet
single reads only, each of them is handed over, once and in order, or is waiting to be; the
worker stays in its loop, and a single read takes the next line. -/
theorem delivered_of_unmixed (turns : List Turn)
    (h : Trace.Each step (fun m turn => Answered m turn ∧ Unmixed m turn) {} turns) :
    Trace.Always step Delivered {} turns ∧ Trace.Each step Prompt {} turns :=
  ⟨h.always (fun _ hgood => hgood.delivered) (fun _ _ hgood hc => hgood.step hc.1 hc.2) good_start,
    h.each (fun _ _ hgood hc => hgood.prompt hc.2) (fun _ _ hgood hc => hgood.step hc.1 hc.2)
      good_start⟩

namespace Sample

def ringing : ModemLine := ⟨Utf8.encode "RING\r", false, List.all_iff_forall_prop.mp rfl⟩
def number : ModemLine := ⟨Utf8.encode "+CLIP: \"100\",129\r", false, List.all_iff_forall_prop.mp rfl⟩

def probe : AtCommander.Turn := .calls (.command "AT" none)

/-- The modem rings with its answer to a probe, and the worker reads on. -/
def answeredRing : List Turn :=
  [(probe, true),
    (.dispatches { output := [AtCommander.Sample.ok, ringing], ticks := [.read (.data 99)] } true,
      true),
    (.announces number, true),
    (.calls .readLine, true), (.dispatches {} true, true),
    (.calls .readLine, true), (.dispatches { ticks := [.read (.data 99)] } true, true)]

end Sample

theorem delivered_answeredRing :
    Trace.Each step (fun m turn => Answered m turn ∧ Unmixed m turn) {} Sample.answeredRing ∧
    Trace.Always step Delivered {} Sample.answeredRing := by
  have h : Trace.Each step (fun m turn => Answered m turn ∧ Unmixed m turn) {}
      Sample.answeredRing :=
    ⟨⟨trivial, trivial⟩, ⟨⟨rfl, rfl, .ok [], rfl⟩, rfl⟩, ⟨⟨rfl, rfl⟩, trivial⟩, ⟨trivial, trivial⟩,
      ⟨trivial, rfl, rfl, fun h => absurd rfl h⟩, ⟨trivial, trivial⟩,
      ⟨trivial, rfl, rfl, fun _ line hline => by cases hline; rfl⟩, trivial⟩
  exact ⟨h, (delivered_of_unmixed Sample.answeredRing h).1⟩

/-- A `RING` that comes before the answer to a probe is taken for a line of the answer. -/
theorem ring_lost_in_reply :
    ¬ ∀ turns, Trace.Each step Answered {} turns → Trace.Always step Delivered {} turns := by
  intro h
  have hrun := h [(Sample.probe, true),
    (.dispatches { output := [Sample.ringing, AtCommander.Sample.ok],
                   ticks := [.read (.data 99)] } true, true)]
    ⟨trivial, ⟨rfl, rfl, .ok [ring], rfl⟩, trivial⟩
  have honce := hrun.2.2.once
  revert honce
  decide

end ModuleWorker
