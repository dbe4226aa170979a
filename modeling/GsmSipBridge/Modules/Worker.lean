-- SUMMARY: A module worker's card (`modules/worker.rs`).
import GsmSipBridge.Lib.Text

/-!
# The worker of a line

The worker owns the modem of one line. It takes commands of the pool and lines of the modem
one at a time, and after a hang-up it asks the modem again and again whether the call is gone.
Whatever the modem replies is given with the turn, and so are the readings of the clock, in
milliseconds. The record of the call for the store is left out.
-/

namespace ModuleWorker

open Text

inductive CardState where
  | idle
  | ringing
  | answering
  | bridged
  | cleanup
  deriving DecidableEq, Repr

def cleanupPollInterval : Nat := 500
def cleanupAlertAfter : Nat := 10000
def cleanupRestartAfter : Nat := 60000

structure CleanupWait where
  started : Nat
  lastPoll : Option Nat := none
  alerted : Bool := false
  refusedRestarts : Nat := 0
  deriving DecidableEq

/-- The call list is asked for again. -/
def CleanupWait.due (wait : CleanupWait) (now : Nat) : Bool :=
  !wait.lastPoll.any fun t => now - t < cleanupPollInterval

def CleanupWait.deadline (wait : CleanupWait) : Nat :=
  cleanupRestartAfter * (wait.refusedRestarts + 1)

structure Worker where
  state : CardState := .idle
  cleanup : Option CleanupWait := none
  deriving DecidableEq

inductive RestartMode where
  | full
  | radio
  deriving DecidableEq

inductive ModuleCmd where
  | setMode
  | reboot (mode : RestartMode)
  | dial (number : Text)
  | hangup
  | sipPeerHangup
  deriving DecidableEq

inductive AlertKind where
  | failure
  | recovered
  deriving DecidableEq

inductive BridgeEvent where
  | ring (callerId : Text)
  | hangup
  | lineIdle
  | networkLost
  | smsReceived (sender body : Text)
  | criticalAlert (description : Text) (kind : AlertKind)
  deriving DecidableEq

/-- What the modem replies in a turn, and the clock at two places of it: when the call list is
asked for, and when the deadlines are looked at. -/
structure Replies where
  asked : Nat := 0
  judged : Nat := 0
  /-- `AT+CLCC`. -/
  listing : Except Text (List Text) := .ok []
  /-- `AT+CLCC` after the radio was cycled. -/
  listingAfterCycle : Except Text (List Text) := .ok []
  /-- `AT+CFUN=1,1`: an error only if the modem refuses. -/
  reset : Except Text Unit := .ok ()
  answer : Except Text Unit := .ok ()
  dial : Except Text Unit := .ok ()
  callerId : Text := "unknown"
  sms : Except Text (Text × Text) := .error []

/-- What a turn makes of the worker: its state, what it reports, whether it ends, and what it
answers to a dial. -/
structure Step where
  worker : Worker
  events : List BridgeEvent := []
  exits : Bool := false
  dialled : Option (Except Text Unit) := none

/-! ## The modem's call list -/

/-- Data and fax calls are no voice calls; anything else is taken for one. -/
def clccListsAVoiceCall (lines : List Text) : Bool :=
  lines.any fun line =>
    match (trim line).dropPrefix? "+CLCC:" with
    | none => false
    | some fields =>
      match ((fields.splitOn ',')[3]?).map trim with
      | some mode => !(mode = "1" || mode = "2")
      | none => true

/-- `has_voice_call`: a failed query is not an empty list. -/
def confirmsNoCall (listing : Except Text (List Text)) : Bool :=
  match listing with
  | .ok lines => !clccListsAVoiceCall lines
  | .error _ => false

namespace Worker

variable (w : Worker)

/-! ## Hanging up -/

def finishCleanup : Step where
  worker := { state := .idle, cleanup := none }
  events :=
    (if w.cleanup.any CleanupWait.alerted then
      [.criticalAlert "call finally cleared after hang-up, line idle again" .recovered]
    else []) ++ [.lineIdle]

def restartStuckLine (wait : CleanupWait) (elapsed : Nat) (r : Replies) : Step :=
  let wait := { wait with alerted := true }
  let alert := .criticalAlert ("call still up " ++ Numeral.display (elapsed / 1000) ++
    "s after hang-up, cycling the radio") .failure
  if confirmsNoCall r.listingAfterCycle then
    { worker := { w with cleanup := some wait }, events := [alert], exits := true }
  else
    match r.reset with
    | .ok () => { worker := { w with cleanup := some wait }, events := [alert], exits := true }
    | .error e =>
      { worker :=
          { w with cleanup := some { wait with refusedRestarts := wait.refusedRestarts + 1 } }
        events := [alert, .criticalAlert
          ("modem refused a reset with a call still up, line held busy: " ++ e) .failure] }

def checkCleanupDeadlines (r : Replies) : Step :=
  match w.cleanup with
  | none => { worker := w }
  | some wait =>
    let elapsed := r.judged - wait.started
    if wait.deadline ≤ elapsed then
      w.restartStuckLine wait elapsed r
    else if cleanupAlertAfter ≤ elapsed ∧ wait.alerted = false then
      { worker := { w with cleanup := some { wait with alerted := true } }
        events := [.criticalAlert ("call still up " ++ Numeral.display (elapsed / 1000) ++
          "s after hang-up, line held busy") .failure] }
    else { worker := w }

/-- Asks for the call list at most twice a second. -/
def tickCleanup (r : Replies) : Step :=
  match w.cleanup with
  | none => { worker := w }
  | some wait =>
    if !wait.due r.asked then { worker := w }
    else
      let w := { w with cleanup := some { wait with lastPoll := some r.asked } }
      if confirmsNoCall r.listing then w.finishCleanup else w.checkCleanupDeadlines r

/-- `AT+CHUP`, then the wait; a second hang-up keeps the clock of the first. That the check may
ask the worker to end is not looked at. -/
def hangUpAndCleanUp (r : Replies) : Step :=
  let w : Worker :=
    { state := .cleanup
      cleanup :=
        match w.cleanup with
        | some wait => some wait
        | none => some { started := r.asked } }
  { w.tickCleanup r with exits := false }

/-! ## Commands -/

def applyDialCmd (r : Replies) : Step :=
  if w.state ≠ .idle then { worker := w, dialled := some (.error "line busy") }
  else
    match r.dial with
    | .ok () => { worker := { w with state := .answering }, dialled := some (.ok ()) }
    | .error e => { worker := w, dialled := some (.error e) }

def applyCmd (cmd : ModuleCmd) (r : Replies) : Step :=
  match cmd with
  | .setMode => { worker := w }
  | .reboot _ => { worker := w, exits := true }
  | .dial _ => w.applyDialCmd r
  | .hangup => w.hangUpAndCleanUp r
  | .sipPeerHangup =>
    match w.state with
    | .bridged | .answering => w.hangUpAndCleanUp r
    | .cleanup => { worker := w }
    | .idle | .ringing => { worker := w, events := [.lineIdle] }

/-! ## Lines of the modem -/

def handleRing (r : Replies) : Step :=
  if w.state ≠ .idle then { worker := w }
  else
    match r.answer with
    | .ok () => { worker := { w with state := .bridged }, events := [.ring r.callerId] }
    | .error _ => { worker := w }

def handleHangup : Step :=
  match w.state with
  | .cleanup => w.finishCleanup
  | .bridged | .answering => { worker := { w with state := .idle }, events := [.hangup] }
  | .ringing => { worker := { w with state := .idle } }
  | .idle => { worker := w }

def handleCmti (line : Text) (r : Replies) : Step :=
  match ((line.splitOn ',').getLast?).bind fun t => Numeral.parseU32 (trim t) with
  | none => { worker := w }
  | some _ =>
    match r.sms with
    | .ok (sender, body) => { worker := w, events := [.smsReceived sender body] }
    | .error _ => { worker := w }

/-- 0 not registered, 2 searching, 3 denied; what cannot be read is taken for 0. -/
def cregStat (line : Text) : UInt8 :=
  let rest := match splitOnce ':' line with
    | some (_, rest) => rest
    | none => []
  (Numeral.parseU8 (trim (((trim rest).splitOn ',').headD []))).getD 0

def handleCregUrc (line : Text) : Step :=
  let stat := cregStat line
  { worker := w, events := if stat = 0 ∨ stat = 2 ∨ stat = 3 then [.networkLost] else [] }

def dispatchUrc (line : Text) (r : Replies) : Step :=
  if line = "RING" then w.handleRing r
  else if line = "NO CARRIER" then w.handleHangup
  else if "+CMTI:".toList.isPrefixOf line then w.handleCmti line r
  else if "+CREG:".toList.isPrefixOf line || "+CEREG:".toList.isPrefixOf line then
    w.handleCregUrc line
  else { worker := w }

end Worker

/-! ## What a turn does -/

/-- The clock of a wait goes on: a check counts only when it is due, a refusal only at a deadline. -/
structure CleanupWait.Continues (r : Replies) (wait wait' : CleanupWait) : Prop where
  started : wait'.started = wait.started
  polled : wait'.lastPoll = wait.lastPoll ∨
    wait.due r.asked = true ∧ wait'.lastPoll = some r.asked
  refused : wait'.refusedRestarts = wait.refusedRestarts ∨
    wait.deadline ≤ r.judged - wait.started ∧ (∃ e, r.reset = .error e) ∧
      wait'.refusedRestarts = wait.refusedRestarts + 1

theorem CleanupWait.Continues.refl (r : Replies) (wait : CleanupWait) : wait.Continues r wait :=
  ⟨rfl, .inl rfl, .inl rfl⟩

namespace Worker

/-- A hang-up in any state, or the confirmation of one. -/
def hangsUp : ModuleCmd → Bool
  | .hangup | .sipPeerHangup => true
  | _ => false

/-- The commands that an idle card does not stay idle on. -/
def engages : ModuleCmd → Bool
  | .dial _ | .hangup => true
  | _ => false

structure Consistent (w : Worker) : Prop where
  /-- There is a wait exactly while the card is cleaning up. -/
  wait : w.cleanup.isSome = true ↔ w.state = .cleanup
  /-- No turn ends while a call rings. -/
  ringing : w.state ≠ .ringing

/-- Only a dial is answered. -/
def Dials (w : Worker) (r : Replies) (s : Step) : Option ModuleCmd → Prop
  | some (.dial _) => s = w.applyDialCmd r
  | _ => s.dialled = none

/-- A turn of the worker, in which it may have taken a command and the modem may have confirmed
that the call is gone. -/
structure Turned (w : Worker) (r : Replies) (confirmed : Prop) (cmd : Option ModuleCmd) (s : Step) :
    Prop where
  consistent : s.worker.Consistent
  /-- A worker that waits goes on waiting, or reports. -/
  waits : w.state = .cleanup → s.worker.state = .cleanup ∨ .lineIdle ∈ s.events
  /-- An idle card reports; if it was not idle before, the modem has confirmed it. -/
  reports : .lineIdle ∈ s.events →
    s.exits = false ∧ s.worker.state = .idle ∧ (w.state = .idle ∨ confirmed)
  hangsUp : cmd.any hangsUp = true →
    s.exits = false ∧ (s.worker.state = .cleanup ∨ .lineIdle ∈ s.events)
  /-- A wait starts with a hang-up. -/
  clock : ∀ wait', s.worker.cleanup = some wait' → ∃ wait, wait.Continues r wait' ∧
    (w.cleanup = some wait ∨
      w.cleanup = none ∧ cmd.any Worker.hangsUp = true ∧ wait = { started := r.asked })
  /-- A card that is no longer idle has reported a ring, or was told. -/
  leaves : w.state = .idle → s.worker.state ≠ .idle →
    (∃ callerId, .ring callerId ∈ s.events) ∨ cmd.any engages = true
  dials : w.Dials r s cmd

variable {w : Worker} {r : Replies} {c : Prop} {cmd : Option ModuleCmd}

theorem Dials.cases {s : Step} (h : w.Dials r s cmd) :
    (∃ number, cmd = some (.dial number) ∧ s = w.applyDialCmd r) ∨
      (∀ number, cmd ≠ some (.dial number)) ∧ s.dialled = none := by
  unfold Dials at h
  split at h
  case h_1 number => exact .inl ⟨number, rfl, h⟩
  case h_2 hne => exact .inr ⟨hne, h⟩

/-- Without a wait, the card may go to any other state. -/
theorem Consistent.move (h : Consistent w) (hstate : w.state ≠ .cleanup) {state : CardState}
    (hne : state ≠ .cleanup ∧ state ≠ .ringing) : Consistent { w with state } :=
  ⟨⟨fun hsome => absurd (h.wait.1 hsome) hstate, fun heq => absurd heq hne.1⟩, hne.2⟩

theorem consistent_new : Consistent {} := ⟨⟨nofun, nofun⟩, nofun⟩

section

variable {events : List BridgeEvent} {exits : Bool} {dialled : Option (Except Text Unit)}

/-- A turn that leaves the card as it is. -/
theorem Turned.stay (h : Consistent w)
    (hreports : .lineIdle ∈ events → exits = false ∧ w.state = .idle)
    (hhangs : cmd.any Worker.hangsUp = true →
      exits = false ∧ (w.state = .cleanup ∨ .lineIdle ∈ events))
    (hdials : w.Dials r { worker := w, events, exits, dialled } cmd) :
    Turned w r c cmd { worker := w, events, exits, dialled } where
  consistent := h
  waits := .inl
  reports hmem := (hreports hmem).imp id fun hidle => ⟨hidle, .inl hidle⟩
  hangsUp := hhangs
  clock wait hwait := ⟨wait, .refl r wait, .inl hwait⟩
  leaves hidle hne := absurd hidle hne
  dials := hdials

/-- A turn that has nothing to do with a hang-up. -/
theorem Turned.move {state : CardState} (h : Consistent w) (hstate : w.state ≠ .cleanup)
    (hne : state ≠ .cleanup ∧ state ≠ .ringing) (hevents : .lineIdle ∉ events)
    (hcmd : cmd.any Worker.hangsUp = false)
    (hleaves : state ≠ .idle →
      (∃ callerId, .ring callerId ∈ events) ∨ cmd.any engages = true)
    (hdials : w.Dials r { worker := { w with state }, events, exits, dialled } cmd) :
    Turned w r c cmd { worker := { w with state }, events, exits, dialled } where
  consistent := h.move hstate hne
  waits heq := absurd heq hstate
  reports hmem := absurd hmem hevents
  hangsUp htrue := by simp [hcmd] at htrue
  clock wait hwait := ⟨wait, .refl r wait, .inl hwait⟩
  leaves _ := hleaves
  dials := hdials

end

theorem turned_finishCleanup (w w' : Worker) (h : c) : Turned w r c none w'.finishCleanup := by
  have hreports : .lineIdle ∈ w'.finishCleanup.events :=
    List.mem_append_right _ (List.mem_singleton.2 rfl)
  exact ⟨consistent_new, fun _ => .inr hreports, fun _ => ⟨rfl, rfl, .inr h⟩,
    fun _ => ⟨rfl, .inr hreports⟩, nofun, fun _ hne => absurd rfl hne, rfl⟩

/-! ### Waiting -/

/-- Past a deadline the worker ends, unless the modem refuses to be reset. -/
theorem restartStuckLine_spec (w : Worker) (wait : CleanupWait) (r : Replies)
    (hdead : wait.deadline ≤ r.judged - wait.started) :
    let s := w.restartStuckLine wait (r.judged - wait.started) r
    (∃ wait', s.worker = { w with cleanup := some wait' } ∧ wait.Continues r wait') ∧
      .lineIdle ∉ s.events ∧ s.dialled = none ∧ (s.exits = true ∨ ∃ e, r.reset = .error e) := by
  simp only [restartStuckLine]
  split
  · exact ⟨⟨_, rfl, rfl, .inl rfl, .inl rfl⟩, by simp, rfl, .inl rfl⟩
  · cases hreset : r.reset with
    | ok u => exact ⟨⟨_, rfl, rfl, .inl rfl, .inl rfl⟩, by simp, rfl, .inl rfl⟩
    | error e =>
      exact ⟨⟨_, rfl, rfl, .inl rfl, .inr ⟨hdead, ⟨e, hreset⟩, rfl⟩⟩, by simp, rfl, .inr ⟨e, rfl⟩⟩

theorem checkCleanupDeadlines_spec {wait : CleanupWait} (hwait : w.cleanup = some wait)
    (r : Replies) :
    let s := w.checkCleanupDeadlines r
    (∃ wait', s.worker = { w with cleanup := some wait' } ∧ wait.Continues r wait') ∧
      .lineIdle ∉ s.events ∧ s.dialled = none ∧
      (wait.deadline ≤ r.judged - wait.started → s.exits = true ∨ ∃ e, r.reset = .error e) := by
  simp only [checkCleanupDeadlines, hwait]
  split
  case isTrue hdead =>
    obtain ⟨hcont, hevents, hdialled, hends⟩ := restartStuckLine_spec w wait r hdead
    exact ⟨hcont, hevents, hdialled, fun _ => hends⟩
  case isFalse hearly =>
    split
    · exact ⟨⟨_, rfl, rfl, .inl rfl, .inl rfl⟩, by simp, rfl, fun hdead => absurd hdead hearly⟩
    · exact ⟨⟨wait, by rw [← hwait], .refl r wait⟩, List.not_mem_nil, rfl,
        fun hdead => absurd hdead hearly⟩

theorem turned_tickCleanup (h : Consistent w) (r : Replies) :
    Turned w r (confirmsNoCall r.listing = true) none (w.tickCleanup r) := by
  have hstay : Turned w r (confirmsNoCall r.listing = true) none { worker := w } :=
    .stay h nofun nofun rfl
  unfold tickCleanup
  cases hclean : w.cleanup with
  | none => exact hstay
  | some wait =>
    have hstate : w.state = .cleanup := h.wait.1 (by rw [hclean]; rfl)
    simp only
    split
    · exact hstay
    rename_i hdue
    split
    case isTrue hconf => exact turned_finishCleanup w _ hconf
    case isFalse =>
      obtain ⟨⟨wait', hworker, hcont⟩, hevents, hdialled, -⟩ := checkCleanupDeadlines_spec
        (w := { w with cleanup := some { wait with lastPoll := some r.asked } }) rfl r
      refine ⟨?_, fun _ => .inl ?_, fun hmem => absurd hmem hevents, nofun, fun wait'' hwait'' => ?_,
        fun hidle => ?_, hdialled⟩
      · rw [hworker]
        exact ⟨⟨fun _ => hstate, fun _ => rfl⟩, h.ringing⟩
      · rw [hworker]
        exact hstate
      · rw [hworker] at hwait''
        cases hwait''
        refine ⟨wait, ⟨hcont.started, .inr ⟨by simpa using hdue, ?_⟩, hcont.refused⟩, .inl hclean⟩
        exact hcont.polled.elim id And.right
      · simp [hstate] at hidle

/-- A check at or past the deadline frees the line or ends the worker, unless the modem
refuses to be reset. -/
theorem tickCleanup_deadline {wait : CleanupWait} (hclean : w.cleanup = some wait)
    (hdue : wait.due r.asked = true) (hdead : wait.deadline ≤ r.judged - wait.started) :
    (w.tickCleanup r).exits = true ∨ .lineIdle ∈ (w.tickCleanup r).events ∨
      ∃ e, r.reset = .error e := by
  simp only [tickCleanup, hclean, hdue, Bool.not_true, Bool.false_eq_true, if_false]
  split
  · exact .inr (.inl (List.mem_append_right _ (List.mem_singleton.2 rfl)))
  obtain ⟨-, -, -, hends⟩ := checkCleanupDeadlines_spec
    (w := { w with cleanup := some { wait with lastPoll := some r.asked } }) rfl r
  exact (hends hdead).imp id .inr

/-! ### Commands and lines -/

/-- A hang-up is confirmed at once, or the worker waits for it to be. -/
theorem turned_hangUpAndCleanUp (w : Worker) (r : Replies) {cmd : ModuleCmd}
    (hcmd : Worker.hangsUp cmd = true) (hleaves : w.state = .idle → engages cmd = true) :
    Turned w r (confirmsNoCall r.listing = true) (some cmd) (w.hangUpAndCleanUp r) := by
  have hcons : Consistent { state := .cleanup, cleanup :=
      match w.cleanup with
      | some wait => some wait
      | none => some { started := r.asked } } := by
    refine ⟨⟨fun _ => rfl, fun _ => ?_⟩, nofun⟩
    cases w.cleanup with
    | none | some => rfl
  have htick := turned_tickCleanup hcons r
  refine ⟨htick.consistent, fun _ => htick.waits rfl, fun hreports => ⟨rfl, ?_⟩,
    fun _ => ⟨rfl, htick.waits rfl⟩, fun wait' hwait' => ?_,
    fun hidle _ => .inr (hleaves hidle), ?_⟩
  · exact (htick.reports hreports).2.imp id fun hwas => .inr (hwas.resolve_left nofun)
  · obtain ⟨wait, hcont, hwait | ⟨-, hnone, -⟩⟩ := htick.clock wait' hwait'
    · refine ⟨wait, hcont, ?_⟩
      cases hclean : w.cleanup with
      | some old =>
        rw [hclean] at hwait
        exact .inl hwait
      | none =>
        rw [hclean] at hwait
        cases hwait
        exact .inr ⟨rfl, hcmd, rfl⟩
    · cases hnone
  · cases cmd with
    | dial => cases hcmd
    | setMode | reboot | hangup | sipPeerHangup => exact htick.dials

/-- A dial is refused, and nothing else happens, or an idle card is in a call. -/
theorem applyDialCmd_cases (w : Worker) (r : Replies) :
    (∃ e, w.applyDialCmd r = { worker := w, dialled := some (.error e) }) ∨
      w.state = .idle ∧
        w.applyDialCmd r = { worker := { w with state := .answering }, dialled := some (.ok ()) } := by
  unfold applyDialCmd
  split
  · exact .inl ⟨_, rfl⟩
  rename_i hidle
  cases r.dial with
  | error e => exact .inl ⟨e, rfl⟩
  | ok u => exact .inr ⟨not_not.1 hidle, rfl⟩

theorem turned_applyCmd (h : Consistent w) (cmd : ModuleCmd) (r : Replies) :
    Turned w r (confirmsNoCall r.listing = true) (some cmd) (w.applyCmd cmd r) := by
  cases cmd with
  | setMode | reboot => exact .stay h nofun nofun rfl
  | hangup => exact turned_hangUpAndCleanUp w r rfl fun _ => rfl
  | dial number =>
    simp only [applyCmd]
    obtain ⟨e, heq⟩ | ⟨hidle, heq⟩ := applyDialCmd_cases w r
    · rw [heq]
      exact .stay h nofun nofun heq.symm
    · rw [heq]
      exact .move h (by simp [hidle]) ⟨nofun, nofun⟩ nofun rfl (fun _ => .inr rfl) heq.symm
  | sipPeerHangup =>
    simp only [applyCmd]
    cases hstate : w.state with
    | bridged | answering =>
      exact turned_hangUpAndCleanUp w r rfl fun hidle => by simp [hstate] at hidle
    | cleanup => exact .stay h nofun (fun _ => ⟨rfl, .inl hstate⟩) rfl
    | idle =>
      exact .stay h (fun _ => ⟨rfl, hstate⟩) (fun _ => ⟨rfl, .inr (List.mem_singleton.2 rfl)⟩) rfl
    | ringing => exact absurd hstate h.ringing

/-- Of the modem's lines only a `NO CARRIER` ends a wait. -/
theorem turned_dispatchUrc (h : Consistent w) (line : Text) (r : Replies) :
    Turned w r (line = "NO CARRIER") none (w.dispatchUrc line r) := by
  have hstay {events : List BridgeEvent} (hevents : .lineIdle ∉ events) :
      Turned w r (line = "NO CARRIER") none { worker := w, events } :=
    .stay h (fun hmem => absurd hmem hevents) nofun rfl
  simp only [dispatchUrc]
  split
  · unfold handleRing
    split
    · exact hstay nofun
    rename_i hidle
    cases r.answer with
    | error e => exact hstay nofun
    | ok u =>
      exact .move h (fun hstate => hidle (by simp [hstate])) ⟨nofun, nofun⟩ (by simp) rfl
        (fun _ => .inl ⟨_, List.mem_singleton.2 rfl⟩) rfl
  split
  case isTrue hcarrier =>
    unfold handleHangup
    cases hstate : w.state with
    | cleanup => exact turned_finishCleanup w w hcarrier
    | idle => exact hstay nofun
    | answering | bridged =>
      exact .move h (by simp [hstate]) ⟨nofun, nofun⟩ (by simp) rfl (fun hne => absurd rfl hne) rfl
    | ringing => exact absurd hstate h.ringing
  case isFalse =>
    split
    · unfold handleCmti
      split
      · exact hstay nofun
      · split
        · exact hstay (by simp)
        · exact hstay nofun
    · split
      · refine hstay ?_
        split <;> simp
      · exact hstay nofun

end Worker

end ModuleWorker
