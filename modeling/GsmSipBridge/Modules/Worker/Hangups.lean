-- SUMMARY: A hang-up is confirmed before the line is free.
import GsmSipBridge.Lib.Trace
import GsmSipBridge.Modules.Pool
import GsmSipBridge.Modules.Worker

/-!
# Hanging up across the channels

The pool and the worker of a line talk over two channels, each first in, first out: commands
one way, events the other. The end of a worker is told on a way of its own. Everything that the
pool does to this one line is a turn here, and so is everything that its worker does; they
interleave in any order. A worker is started only when the one before it has let go of the
port, and while the pool waits for the answer to a dial it does nothing else.
-/

namespace ModuleLine

open Modules ModuleWorker Worker List

structure Line where
  /-- The pool's record of the line. -/
  slot : SlotState
  worker : Option Worker
  commands : List ModuleCmd := []
  /-- What workers of the line have reported and the pool has not handled. -/
  events : List BridgeEvent := []
  /-- Tasks of the line's entry that have ended and were not joined yet. -/
  exits : Nat := 0
  /-- The pool waits for the answer to a dial; the answer, once it is there. -/
  dialling : Option (Option (Except Text Unit)) := none

/-- What the pool does to the line when it is not waiting for a dial. -/
inductive PoolTurn where
  | handlesEvent (bridged : Bool)
  | joins
  | claims (number : Text)
  | sipPeerGone
  | setsMode
  | restarts (mode : ModuleWorker.RestartMode)
  | retries (answer : Sip.RetryAnswer)
  | rediscovers

inductive Turn where
  | ticks (r : Replies)
  | takesCommand (r : Replies)
  | hears (line : Text) (r : Replies)
  | readFails
  | dialSettles (accepted : Bool)
  | pool (turn : PoolTurn)

namespace Line

variable (l : Line)

/-! ## The worker -/

/-- An earlier dial, with another one behind it, has a channel of its own for its answer. -/
def answered (reply : Option (Except Text Unit)) : Option (Option (Except Text Unit)) :=
  match l.dialling, reply with
  | some none, some reply =>
    if l.commands.any fun cmd => cmd matches .dial _ then some none else some (some reply)
  | dialling, _ => dialling

/-- The worker takes a turn, if there is one. -/
def works (f : Worker → Step) : Line :=
  match l.worker with
  | none => l
  | some w =>
    let s := f w
    if s.exits then
      { l with
        worker := none, commands := [], events := l.events ++ s.events, exits := l.exits + 1 }
    else
      { l with
        worker := some s.worker, events := l.events ++ s.events, dialling := l.answered s.dialled }

/-- The pool, or a claim of it, still holds the other end of the worker's channel. -/
def connected : Bool := l.slot.cmdTx || l.dialling.isSome

def takesCommand (r : Replies) : Line :=
  match l.commands with
  | cmd :: commands => { l with commands }.works fun w => w.applyCmd cmd r
  | [] => if l.connected then l else l.works fun w => { worker := w, exits := true }

/-! ## The pool -/

/-- `request_hangup`, over a channel of the line's worker if the pool has one. -/
def requestHangup (cmd : ModuleCmd) (cmdTx : Bool) : Line :=
  let sent := cmdTx && l.worker.isSome
  { l with
    slot := Modules.requestHangup sent l.slot
    commands := if sent then l.commands ++ [cmd] else l.commands }

def release : Line := { l with slot := l.slot.releaseCall }

/-- `handle_bridge_event`; a ring is bridged to SIP, or hung up. -/
def handleEvent (event : BridgeEvent) (bridged : Bool) : Line :=
  match event with
  | .ring _ =>
    let l := { l with slot := l.slot.claim }
    if bridged then l else l.requestHangup .hangup l.slot.cmdTx
  | .hangup => l.release
  | .lineIdle => if l.slot.hangingUp then l.release else l
  | .networkLost => { l with slot := loseNetwork l.slot }
  | .smsReceived _ _ | .criticalAlert _ _ => l

/-- `claim_idle_cs_slot`, as far as this line goes. -/
def claimable : Bool := l.slot.lifecycle == .ready && !l.slot.hasActiveCall && l.slot.cmdTx

def claim (number : Text) : Line :=
  if l.claimable then
    let l := { l with slot := l.slot.claim }
    if l.worker.isSome then
      { l with commands := l.commands ++ [.dial number], dialling := some none }
    else l.release
  else l

/-- The answer to the dial, or its absence; a call that SIP does not take is hung up. -/
def dialSettles (accepted : Bool) : Line :=
  match l.dialling with
  | none => l
  | some answer =>
    let l := { l with dialling := none }
    match answer with
    | some (.ok ()) => if accepted then l else l.requestHangup .hangup true
    | some (.error _) => l.release
    | none => l.requestHangup .hangup true

/-- The worker is told to restart the modem and end; without one, a task of its own does it. -/
def restart (mode : ModuleWorker.RestartMode) : Line :=
  let told :=
    if l.slot.cmdTx then
      { l with commands := if l.worker.isSome then l.commands ++ [.reboot mode] else l.commands }
    else { l with exits := l.exits + 1 }
  { told with slot := l.slot.park }

/-- A new worker for the entry. -/
def start (slot : SlotState) : Line :=
  { l with slot, worker := some {}, commands := [] }

def retry (answer : Sip.RetryAnswer) : Line :=
  if l.slot.lifecycle == .ready || l.slot.lifecycle == .givenUp then l
  else
    match answer with
    | .recovered =>
      if l.worker.isSome then l else l.start l.slot.recover
    | .failed => l
    | .gaveUp => { l with slot := { l.slot with lifecycle := .givenUp } }

/-- A rescan puts a new entry in the place of one that was given up; the old one's tasks no
longer concern it. -/
def rediscover : Line :=
  if l.slot.lifecycle == .givenUp && l.worker.isNone then
    { l with exits := 0 }.start l.slot.recover.releaseCall
  else l

def pool : PoolTurn → Line
  | .handlesEvent bridged =>
    match l.events with
    | [] => l
    | event :: events => { l with events }.handleEvent event bridged
  | .joins =>
    if l.exits = 0 then l
    else { l with exits := l.exits - 1, slot := l.slot.park.releaseCall }
  | .claims number => l.claim number
  | .sipPeerGone =>
    if l.slot.hasActiveCall && !l.slot.hangingUp then
      l.requestHangup .sipPeerHangup l.slot.cmdTx
    else l
  | .setsMode =>
    if l.slot.lifecycle == .ready && l.slot.cmdTx && l.worker.isSome then
      { l with commands := l.commands ++ [.setMode] }
    else l
  | .restarts mode => l.restart mode
  | .retries answer => l.retry answer
  | .rediscovers => l.rediscover

end Line

def step (l : Line) : Turn → Line
  | .ticks r => l.works fun w => w.tickCleanup r
  | .takesCommand r => l.takesCommand r
  | .hears line r => l.works fun w => w.dispatchUrc line r
  | .readFails => l.works fun w => { worker := w, exits := true }
  | .dialSettles accepted => l.dialSettles accepted
  | .pool turn => if l.dialling.isSome then l else l.pool turn

/-- A line that has just been initialised. -/
def started (slot : SlotState) : Line where
  slot := slot.recover.releaseCall
  worker := some {}

/-! ## What is owed -/

/-- The confirmation of a hang-up is under way. -/
def Owed (l : Line) : Prop :=
  (∃ w, l.worker = some w ∧ (w.state = .cleanup ∨ l.commands.any hangsUp = true)) ∨
    .lineIdle ∈ l.events ∨ 0 < l.exits

structure Confirmed (l : Line) : Prop where
  /-- There is a wait exactly while the card is cleaning up. -/
  record : ∀ w, l.worker = some w → w.Consistent
  /-- A line that is hanging up is not claimed. -/
  busy : l.slot.hangingUp = true → l.slot.hasActiveCall = true
  claimed : l.dialling.isSome = true → l.slot.hangingUp = false
  owed : l.slot.hangingUp = true → Owed l

/-- What tells the worker that its call is gone. -/
def Turn.confirms : Turn → Prop
  | .ticks r | .takesCommand r => confirmsNoCall r.listing = true
  | .hears line _ => line = "NO CARRIER"
  | _ => False

/-- The command that the worker takes in a turn. -/
def Line.takes (l : Line) : Turn → Option ModuleCmd
  | .takesCommand _ => l.commands.head?
  | _ => none

def Turn.replies : Turn → Replies
  | .ticks r | .takesCommand r | .hears _ r => r
  | _ => {}

/-- What frees a line that is hanging up: the confirmation, its own hang-up, the loss of the
network, the end of its worker, or that there is no worker to tell. -/
def Frees (l : Line) : Turn → Prop
  | .pool (.handlesEvent bridged) =>
    match l.events with
    | .lineIdle :: _ | .hangup :: _ | .networkLost :: _ => True
    | .ring _ :: _ => bridged = false ∧ (l.slot.cmdTx && l.worker.isSome) = false
    | _ => False
  | .pool .joins => 0 < l.exits
  | .pool .rediscovers => l.slot.lifecycle = .givenUp ∧ l.worker = none
  | _ => False

/-! ## Hand-outs

The pool claims a line by its own record. What it has not heard of yet is a ring; and it may
act on a report that is out of date. -/

/-- What the worker has still to take and does not stay idle on. -/
def Line.pending (l : Line) : List ModuleCmd := l.commands.filter engages

/-- The worker is in a call, or is going to be told of one. -/
def Engaged (l : Line) : Prop := ∃ w, l.worker = some w ∧ (w.state ≠ .idle ∨ l.pending ≠ [])

/-- The pool has still to hear of a ring. -/
def Rung (l : Line) : Prop := ∃ callerId, .ring callerId ∈ l.events

/-- The report that is to free the line is out of date: its worker is engaged again, and no ring
follows that says so. -/
def Outdated (l : Line) (turn : Turn) : Prop :=
  ∃ bridged event events, turn = .pool (.handlesEvent bridged) ∧ l.dialling = none ∧
    l.events = event :: events ∧
    (event = .hangup ∨ event = .lineIdle ∧ l.slot.hangingUp = true) ∧
    Engaged l ∧ ¬ Rung { l with events }

/-- The line that is claimed has an idle worker. -/
def ClaimsIdle (l : Line) (turn : Turn) : Prop :=
  ∀ number w, turn = .pool (.claims number) → l.dialling = none → l.claimable = true →
    l.worker = some w → w.state = .idle

/-- So it does when no ring is to come, and nothing but the dial is to be taken then. -/
def HandsOut (l : Line) (turn : Turn) : Prop :=
  ¬ Rung l → ClaimsIdle l turn ∧ ∀ number, turn = .pool (.claims number) → l.dialling = none →
    l.claimable = true → l.worker.isSome = true → l.pending = []

/-- The pool knows what the worker is engaged in, or will hear of it. -/
def Known (l : Line) : Prop :=
  l.slot.lifecycle = .ready → l.slot.cmdTx = true → Engaged l →
    l.slot.hasActiveCall = true ∨ Rung l

structure Held (l : Line) : Prop where
  known : Known l
  claimed : l.dialling.isSome = true → l.slot.hasActiveCall = true
  /-- A dial is all that an idle card has to take. -/
  dials : l.dialling = some none →
    Rung l ∨ ∀ w, l.worker = some w → w.state = .idle ∧ ∃ number, l.pending = [.dial number]
  refused : ∀ e, l.dialling = some (some (.error e)) → Rung l ∨ ¬ Engaged l

theorem held_of_gone {l : Line} (hgone : l.worker = none)
    (hclaimed : l.dialling.isSome = true → l.slot.hasActiveCall = true) : Held l := by
  have hidle : ¬ Engaged l := fun ⟨w, hw, _⟩ => nomatch hgone.symm.trans hw
  refine ⟨fun _ _ heng => absurd heng hidle, hclaimed, fun _ => .inr fun w hw => ?_,
    fun _ _ => .inr hidle⟩
  cases hgone.symm.trans hw

/-! ## A turn of the worker -/

/-- What can become of the line in a turn of its worker. -/
inductive Worked (l : Line) (turn : Turn) : Line → Prop
  | gone {commands : List ModuleCmd} (none : l.worker = none) : Worked l turn { l with commands }
  | ended {w : Worker} {s : Step} (had : l.worker = some w)
      (turned : w.Turned turn.replies turn.confirms (l.takes turn) s) (exits : s.exits = true) :
      Worked l turn { l with
        worker := none, commands := [], events := l.events ++ s.events, exits := l.exits + 1 }
  | went {w : Worker} {s : Step} {commands : List ModuleCmd} (had : l.worker = some w)
      (turned : w.Turned turn.replies turn.confirms (l.takes turn) s) (exits : s.exits = false)
      (taken : l.commands = (l.takes turn).toList ++ commands) :
      Worked l turn { l with
        worker := some s.worker, commands, events := l.events ++ s.events
        dialling := { l with commands }.answered s.dialled }

/-- What a turn of the pool leaves alone: it takes no worker away, starts one only where there is
none, and reports nothing. -/
structure Handled (l : Line) (turn : Turn) (t : Line) : Prop where
  takes : l.takes turn = none
  worker : t.worker = l.worker ∨ l.worker = none ∧ t.worker = some {}
  events : t.events <:+ l.events
  frees : l.slot.hangingUp = true → t.slot.hangingUp = false → Frees l turn

structure Sound (l : Line) (turn : Turn) : Prop where
  moves : Worked l turn (step l turn) ∨ Handled l turn (step l turn)
  /-- At a deadline the card is idle or the worker ends, unless the modem refuses. -/
  deadline : ∀ r w wait w', turn = .ticks r → l.worker = some w → w.cleanup = some wait →
    wait.due r.asked = true → wait.deadline ≤ r.judged - wait.started →
    (step l turn).worker = some w' → w'.state = .idle ∨ ∃ e, r.reset = .error e

@[simp] theorem answered_isSome (l : Line) (reply : Option (Except Text Unit)) :
    (l.answered reply).isSome = l.dialling.isSome := by
  unfold Line.answered
  rcases l.dialling with _ | _ | answer
  · rfl
  · cases reply with
    | none => rfl
    | some reply =>
      simp only
      split <;> rfl
  · rfl

theorem answered_none (l : Line) : l.answered none = l.dialling := by
  unfold Line.answered
  rcases l.dialling with _ | _ | answer <;> rfl

/-- The last dial is answered. -/
theorem answered_last {l : Line} (hnow : l.dialling = some none)
    (hlast : ∀ number, .dial number ∉ l.commands) (reply : Except Text Unit) :
    l.answered (some reply) = some (some reply) := by
  have hnone : (l.commands.any fun cmd => cmd matches .dial _) = false := by
    refine any_eq_false.2 fun cmd hmem => ?_
    cases cmd with
    | dial number => exact absurd hmem (hlast number)
    | setMode | reboot | hangup | sipPeerHangup => nofun
  simp [Line.answered, hnow, hnone]

namespace Worked

variable {l t : Line} {turn : Turn}

theorem works (h : Confirmed l) {commands : List ModuleCmd} {f : Worker → Step}
    (htaken : l.commands = (l.takes turn).toList ++ commands)
    (hf : ∀ w : Worker, w.Consistent →
      w.Turned turn.replies turn.confirms (l.takes turn) (f w)) :
    Worked l turn ({ l with commands }.works f) := by
  obtain hgone | ⟨w, hw⟩ := l.worker.eq_none_or_eq_some
  · have hsame : { l with commands }.works f = { l with commands } := by
      simp only [Line.works, hgone]
    rw [hsame]
    exact .gone hgone
  have hturned := hf w (h.record w hw)
  simp only [Line.works, hw]
  split
  case isTrue hexits => exact .ended hw hturned hexits
  case isFalse hexits => simpa only [hw] using .went hw hturned (Bool.eq_false_iff.2 hexits) htaken

/-- It keeps what is owed. -/
theorem confirmed (h : Worked l turn t) (hl : Confirmed l) : Confirmed t := by
  cases h with
  | gone hnone =>
    refine ⟨hl.record, hl.busy, hl.claimed, fun hhang => .inr ?_⟩
    rcases hl.owed hhang with ⟨w, hw, -⟩ | hrest
    · cases hnone.symm.trans hw
    · exact hrest
  | ended => exact ⟨nofun, hl.busy, hl.claimed, fun _ => .inr (.inr (Nat.succ_pos _))⟩
  | @went w s commands hw turned _ taken =>
    refine ⟨fun w' hw' => ?_, hl.busy, ?_, fun hhang => ?_⟩
    · cases hw'
      exact turned.consistent
    · simpa using hl.claimed
    have hreported (hmem : .lineIdle ∈ s.events) : .lineIdle ∈ l.events ++ s.events :=
      mem_append_right _ hmem
    rcases hl.owed hhang with ⟨w', hw', hstate | hcmd⟩ | hidle | hpos
    · cases hw.symm.trans hw'
      rcases turned.waits hstate with hstays | hreports
      · exact .inl ⟨_, rfl, .inl hstays⟩
      · exact .inr (.inl (hreported hreports))
    · rw [taken, any_append, Bool.or_eq_true] at hcmd
      rcases hcmd with hcmd | hleft
      · rcases (turned.hangsUp (by simpa [Option.any_eq_true] using hcmd)).2 with hstays | hreports
        · exact .inl ⟨_, rfl, .inl hstays⟩
        · exact .inr (.inl (hreported hreports))
      · exact .inl ⟨_, rfl, .inr hleft⟩
    · exact .inr (.inl (mem_append_left _ hidle))
    · exact .inr (.inr hpos)

/-- A worker engages in nothing that it was not told of, but in a ring that it reports. -/
theorem engaged (h : Worked l turn t) (hengaged : Engaged t) : Engaged l ∨ Rung t := by
  obtain ⟨w', hw', hbusy⟩ := hengaged
  cases h with
  | gone hnone => cases hnone.symm.trans hw'
  | ended => cases hw'
  | @went w s commands hw turned _ taken =>
    cases hw'
    have htold (hcmd : (l.takes turn).toList.filter engages ≠ [] ∨
        commands.filter engages ≠ []) : Engaged l := by
      refine ⟨w, hw, .inr ?_⟩
      rw [Line.pending, taken]
      simpa [or_iff_not_imp_left] using hcmd
    rcases hbusy with hstate | hleft
    · by_cases hidle : w.state = .idle
      · rcases turned.leaves hidle hstate with ⟨callerId, hring⟩ | hcmd
        · exact .inr ⟨callerId, mem_append_right _ hring⟩
        · exact .inl (htold (.inl (by simpa [Option.any_eq_true] using hcmd)))
      · exact .inl ⟨w, hw, .inl hidle⟩
    · exact .inl (htold (.inr hleft))

theorem rung (h : Worked l turn t) (hrung : Rung l) : Rung t := by
  obtain ⟨callerId, hmem⟩ := hrung
  cases h with
  | gone => exact ⟨callerId, hmem⟩
  | ended | went => exact ⟨callerId, mem_append_left _ hmem⟩

/-- The dial is taken: it was all that an idle card had to take. -/
theorem answered {w : Worker} {s : Step} {commands : List ModuleCmd} {number : Text} {r : Replies}
    (hl : Held l) (hw : l.worker = some w) (htaken : l.commands = .dial number :: commands)
    (hdial : s = w.applyDialCmd r) (events : List BridgeEvent) :
    let dialling := { l with commands }.answered s.dialled
    (dialling = some none → Rung l) ∧ ∀ e, dialling = some (some (.error e)) →
      Rung l ∨ ¬ Engaged { l with worker := some s.worker, commands, events, dialling } := by
  rcases hnow : l.dialling with _ | _ | answer
  · simp [Line.answered]
  · rcases hl.dials hnow with hrung | hall
    · exact ⟨fun _ => hrung, fun _ _ => .inl hrung⟩
    obtain ⟨hidle, n, hpend⟩ := hall w hw
    rw [Line.pending, htaken] at hpend
    have hnone := (cons.inj hpend).2
    have hlast (reply : Except Text Unit) := answered_last
      (l := { l with commands, dialling := some none }) rfl
      (fun n hmem => filter_eq_nil_iff.1 hnone _ hmem rfl) reply
    obtain ⟨e, heq⟩ | ⟨-, heq⟩ := applyDialCmd_cases w r
    · rw [hdial, heq, hlast]
      simp [Engaged, Line.pending, hidle, hnone]
    · rw [hdial, heq, hlast]
      exact ⟨nofun, nofun⟩
  · have hengaged : Engaged l := ⟨w, hw, .inr (by simp [Line.pending, htaken, engages])⟩
    refine ⟨nofun, fun e herr => .inl ?_⟩
    cases herr
    exact (hl.refused e hnow).resolve_right fun hidle => hidle hengaged

theorem held (h : Worked l turn t) (hl : Held l) : Held t := by
  have hengaged := h.engaged
  have hrung := h.rung
  have hknown : Known t := by
    have hslot : t.slot = l.slot := by cases h <;> rfl
    intro hready hcmdTx heng
    rw [hslot] at hready hcmdTx ⊢
    exact (hengaged heng).elim (fun hold => (hl.known hready hcmdTx hold).imp id hrung) .inr
  cases h with
  | gone hnone => exact held_of_gone hnone hl.claimed
  | ended => exact held_of_gone rfl hl.claimed
  | @went w s commands hw turned _ taken =>
    obtain ⟨number, hcmd, hdial⟩ | ⟨hother, hnone⟩ := turned.dials.cases
    · rw [hcmd] at taken
      obtain ⟨hwaits, hrefused⟩ := answered hl hw taken hdial (l.events ++ s.events)
      exact ⟨hknown, by simpa using hl.claimed, fun hnow => .inl (hrung (hwaits hnow)),
        fun e hnow => (hrefused e hnow).imp hrung id⟩
    rw [hnone, answered_none] at hknown hengaged hrung ⊢
    refine ⟨hknown, hl.claimed, fun hnow => ?_, fun e hnow => ?_⟩
    · rcases hl.dials hnow with hold | hall
      · exact .inl (hrung hold)
      obtain ⟨hidle, n, hpend⟩ := hall w hw
      rw [Line.pending, taken, filter_append, append_eq_singleton_iff] at hpend
      have hkept := hpend.resolve_right fun hdial => hother n <| by
        have hmem := mem_of_mem_filter (hdial.1 ▸ mem_singleton_self _)
        simpa using hmem
      by_cases hstate : s.worker.state = .idle
      · refine .inr fun w' hw' => ?_
        cases hw'
        exact ⟨hstate, n, hkept.2⟩
      · rcases turned.leaves hidle hstate with ⟨callerId, hring⟩ | hcmd
        · exact .inl ⟨callerId, mem_append_right _ hring⟩
        · obtain ⟨cmd, htakes, hengages⟩ := (Option.any_eq_true ..).1 hcmd
          simp [htakes, hengages] at hkept
    · exact (hl.refused e hnow).elim (fun hold => .inl (hrung hold)) fun hidle =>
        or_iff_not_imp_left.2 fun hno heng => (hengaged heng).elim hidle hno

end Worked

/-! ## A turn of the pool -/

/-- The pool has passed over an event, if any, that says nothing about a call. -/
def Passed (l : Line) (events : List BridgeEvent) : Prop :=
  l.events = events ∨ ∃ event, l.events = event :: events ∧
    (∀ callerId, event ≠ .ring callerId) ∧ (event = .lineIdle → l.slot.hangingUp = false)

theorem Passed.mem {l : Line} {events : List BridgeEvent} (h : Passed l events)
    {event : BridgeEvent} (hmem : event ∈ l.events)
    (htells : (∃ callerId, event = .ring callerId) ∨
      event = .lineIdle ∧ l.slot.hangingUp = true) : event ∈ events := by
  rcases h with hsame | ⟨passed, hcons, hring, hidle⟩
  · exact hsame ▸ hmem
  · rw [hcons] at hmem
    refine (mem_cons.1 hmem).resolve_left fun heq => ?_
    rcases htells with ⟨callerId, hr⟩ | ⟨hi, hhang⟩
    · exact hring callerId (heq.symm.trans hr)
    · simp [hidle (heq.symm.trans hi)] at hhang

/-- What can become of the line in a turn of the pool. -/
inductive Pooled (l : Line) (turn : Turn) : Line → Prop
  /-- The calls stay as they are. -/
  | kept {events : List BridgeEvent} {slot : SlotState} {commands : List ModuleCmd} {exits : Nat}
      (passed : Passed l events)
      (flags : slot.hasActiveCall = l.slot.hasActiveCall ∧ slot.hangingUp = l.slot.hangingUp)
      (up : slot.lifecycle = .ready → slot.cmdTx = true →
        l.slot.lifecycle = .ready ∧ l.slot.cmdTx = true)
      (more : l.commands <+: commands ∧
        commands.filter engages = l.commands.filter engages)
      (exited : l.exits ≤ exits) : Pooled l turn { l with events, slot, commands, exits }
  /-- The line is free. -/
  | freed {events : List BridgeEvent} {slot : SlotState} {exits : Nat}
      {dialling : Option (Option (Except Text Unit))} (rest : events <:+ l.events)
      (free : slot.hasActiveCall = false ∧ slot.hangingUp = false) (settled : dialling = none)
      (frees : l.slot.hangingUp = true → Frees l turn)
      (idle : slot.lifecycle = .ready → slot.cmdTx = true → ¬ Outdated l turn → Held l →
        Engaged l → Rung { l with events }) :
      Pooled l turn { l with events, slot, exits, dialling }
  | hungUp {events : List BridgeEvent} {slot : SlotState} {cmd : ModuleCmd}
      {dialling : Option (Option (Except Text Unit))} (rest : events <:+ l.events)
      (busy : slot.hasActiveCall = true ∧ slot.hangingUp = true)
      (hangs : hangsUp cmd = true) (worker : l.worker.isSome = true) (settled : dialling = none) :
      Pooled l turn { l with events, slot, commands := l.commands ++ [cmd], dialling }
  /-- A ring is put through. -/
  | bridged {events : List BridgeEvent} (ring : ∃ callerId, l.events = .ring callerId :: events)
      (quiet : l.dialling = none) : Pooled l turn { l with events, slot := l.slot.claim }
  /-- A dial is put through. -/
  | accepted (asked : l.dialling.isSome = true) : Pooled l turn { l with dialling := none }
  | claimed {number : Text} (claimable : l.claimable = true) (worker : l.worker.isSome = true) :
      Pooled l turn { l with
        slot := l.slot.claim, commands := l.commands ++ [.dial number], dialling := some none }
  | started {slot : SlotState} {exits : Nat} (gone : l.worker = none) (quiet : l.dialling = none)
      (flags : slot.hasActiveCall = l.slot.hasActiveCall ∧ slot.hangingUp = l.slot.hangingUp ∧
          exits = l.exits ∨
        slot.hasActiveCall = false ∧ slot.hangingUp = false ∧ Frees l turn) :
      Pooled l turn { l with slot, worker := some {}, commands := [], exits }

theorem held_of_known {l : Line} (hdial : l.dialling = none) (hknown : Known l) : Held l where
  known := hknown
  claimed hsome := by simp [hdial] at hsome
  dials hnow := by simp [hdial] at hnow
  refused _ hnow := by simp [hdial] at hnow

theorem consistent_new (w : Worker) (hw : some {} = some w) : w.Consistent := by
  cases hw
  exact Worker.consistent_new

theorem held_new {l : Line} (hdial : l.dialling = none) (hnew : l.worker = some {})
    (hnone : l.commands = []) : Held l := by
  refine held_of_known hdial fun _ _ ⟨w, hw, hbusy⟩ => ?_
  cases hnew.symm.trans hw
  simp [Line.pending, hnone] at hbusy

/-- A claim of a line without a ring to come finds the card idle, with nothing to take. -/
theorem Held.idle {l : Line} (h : Held l) (hclaim : l.claimable = true) :
    Rung l ∨ ¬ Engaged l := by
  simp only [Line.claimable, Bool.and_eq_true, beq_iff_eq, Bool.not_eq_true'] at hclaim
  obtain ⟨⟨hready, hfree⟩, hcmdTx⟩ := hclaim
  refine or_iff_not_imp_left.2 fun hno hengaged => ?_
  rcases h.known hready hcmdTx hengaged with hbusy | hrung
  · simp [hfree] at hbusy
  · exact hno hrung

namespace Pooled

variable {l t : Line} {turn : Turn} {events : List BridgeEvent}

theorem same (l : Line) (turn : Turn) : Pooled l turn l :=
  .kept (.inl rfl) ⟨rfl, rfl⟩ (fun hready hcmdTx => ⟨hready, hcmdTx⟩) ⟨prefix_refl _, rfl⟩
    (Nat.le_refl _)

/-- A hang-up that cannot be delivered frees the line. -/
theorem requestHangup {slot : SlotState} {cmd : ModuleCmd} {cmdTx : Bool}
    {dialling : Option (Option (Except Text Unit))} (hrest : events <:+ l.events)
    (hcmd : hangsUp cmd = true) (hsettled : dialling = none)
    (htx : slot.cmdTx = true → cmdTx = true)
    (hfrees : (cmdTx && l.worker.isSome) = false → l.slot.hangingUp = true → Frees l turn) :
    Pooled l turn ({ l with events, slot, dialling }.requestHangup cmd cmdTx) := by
  unfold Line.requestHangup
  cases hsent : cmdTx && l.worker.isSome with
  | true => exact .hungUp hrest ⟨rfl, rfl⟩ hcmd (Bool.and_eq_true_iff.1 hsent).2 hsettled
  | false =>
    refine .freed hrest ⟨rfl, rfl⟩ hsettled (hfrees hsent) fun _ hcmdTx _ _ ⟨w, hworker, _⟩ => ?_
    simp [htx hcmdTx, hworker] at hsent

theorem handleEvent {event : BridgeEvent} {bridged : Bool} (hevents : l.events = event :: events)
    (hdial : l.dialling = none) :
    Pooled l (.pool (.handlesEvent bridged)) ({ l with events }.handleEvent event bridged) := by
  have hrest : events <:+ l.events := hevents ▸ suffix_cons _ _
  have hkept (hring : ∀ callerId, event ≠ .ring callerId)
      (hidle : event = .lineIdle → l.slot.hangingUp = false) :
      Pooled l (.pool (.handlesEvent bridged)) { l with events } :=
    .kept (.inr ⟨event, hevents, hring, hidle⟩) ⟨rfl, rfl⟩
      (fun hready hcmdTx => ⟨hready, hcmdTx⟩) ⟨prefix_refl _, rfl⟩ (Nat.le_refl _)
  have hfreed (hreport : event = .hangup ∨ event = .lineIdle ∧ l.slot.hangingUp = true)
      (hfrees : Frees l (.pool (.handlesEvent bridged))) :
      Pooled l (.pool (.handlesEvent bridged)) { l with events, slot := l.slot.releaseCall } :=
    .freed hrest ⟨rfl, rfl⟩ hdial (fun _ => hfrees) fun _ _ hfresh _ hengaged =>
      by_contra fun hno =>
        hfresh ⟨bridged, event, events, rfl, hdial, hevents, hreport, hengaged, hno⟩
  cases event with
  | ring callerId =>
    simp only [Line.handleEvent]
    split
    case isTrue => exact .bridged ⟨callerId, hevents⟩ hdial
    case isFalse hnot =>
      refine .requestHangup hrest rfl hdial id fun hlost _ => ?_
      simpa [Frees, hevents, hnot, SlotState.claim] using hlost
  | hangup => exact hfreed (.inl rfl) (by simp [Frees, hevents])
  | lineIdle =>
    simp only [Line.handleEvent]
    split
    case isTrue hhang => exact hfreed (.inr ⟨rfl, hhang⟩) (by simp [Frees, hevents])
    case isFalse hfree => exact hkept nofun fun _ => Bool.eq_false_iff.2 hfree
  | networkLost =>
    refine .freed hrest ⟨rfl, rfl⟩ hdial (fun _ => by simp [Frees, hevents]) fun hready => ?_
    simp only [loseNetwork] at hready
    split at hready
    case isTrue => cases hready
    case isFalse hnot => exact absurd (beq_iff_eq.2 hready) hnot
  | smsReceived | criticalAlert => exact hkept nofun nofun

section

variable (h : Confirmed l)

include h

theorem dialSettles (accepted : Bool) :
    Pooled l (.dialSettles accepted) (l.dialSettles accepted) := by
  simp only [Line.dialSettles]
  cases hnow : l.dialling with
  | none => exact same l _
  | some answer =>
    have hasked : l.dialling.isSome = true := hnow ▸ rfl
    -- A line that is claimed is not hanging up.
    have hfree : l.slot.hangingUp = true → Frees l (.dialSettles accepted) := fun hhang =>
      absurd (h.claimed hasked) (by simp [hhang])
    have hhung : Pooled l (.dialSettles accepted)
        ({ l with dialling := none }.requestHangup .hangup true) :=
      .requestHangup (suffix_refl _) rfl rfl (fun _ => rfl) fun _ => hfree
    rcases answer with _ | e | ⟨⟨⟩⟩
    · exact hhung
    · exact .freed (suffix_refl _) ⟨rfl, rfl⟩ rfl hfree fun _ _ _ hheld hengaged =>
        (hheld.refused e hnow).resolve_right fun hidle => hidle hengaged
    simp only
    split
    · exact .accepted hasked
    · exact hhung

variable (hdial : l.dialling = none)

include hdial

theorem claim (number : Text) : Pooled l (.pool (.claims number)) (l.claim number) := by
  simp only [Line.claim]
  split
  case isFalse => exact same l _
  case isTrue hclaim =>
    split
    case isTrue hworker => exact .claimed hclaim hworker
    case isFalse hgone =>
      refine .freed (suffix_refl _) ⟨rfl, rfl⟩ hdial (fun hhang => ?_)
        fun _ _ _ _ ⟨w, hworker, _⟩ => ?_
      · simp [Line.claimable, h.busy hhang] at hclaim
      · simp [hworker] at hgone

theorem pool (move : PoolTurn) : Pooled l (.pool move) (l.pool move) := by
  cases move with
  | handlesEvent bridged =>
    simp only [Line.pool]
    cases hevents : l.events with
    | nil => exact same l _
    | cons event events => exact handleEvent hevents hdial
  | joins =>
    simp only [Line.pool]
    split
    case isTrue => exact same l _
    case isFalse hpos =>
      exact .freed (suffix_refl _) ⟨rfl, rfl⟩ hdial (fun _ => Nat.pos_of_ne_zero hpos) nofun
  | claims number => exact claim h hdial number
  | sipPeerGone =>
    simp only [Line.pool]
    split
    case isTrue hcall =>
      refine .requestHangup (suffix_refl _) rfl hdial id fun _ hhang => ?_
      simp [hhang] at hcall
    case isFalse => exact same l _
  | setsMode =>
    simp only [Line.pool]
    split
    · exact .kept (.inl rfl) ⟨rfl, rfl⟩ (fun hready hcmdTx => ⟨hready, hcmdTx⟩)
        ⟨prefix_append _ _, by simp [engages]⟩ (Nat.le_refl _)
    · exact same l _
  | restarts mode =>
    simp only [Line.pool, Line.restart]
    split
    · refine .kept (.inl rfl) ⟨rfl, rfl⟩ nofun ?_ (Nat.le_refl _)
      split
      · exact ⟨prefix_append _ _, by simp [engages]⟩
      · exact ⟨prefix_refl _, rfl⟩
    · exact .kept (.inl rfl) ⟨rfl, rfl⟩ nofun ⟨prefix_refl _, rfl⟩ (Nat.le_succ _)
  | retries answer =>
    simp only [Line.pool, Line.retry]
    split
    · exact same l _
    cases answer with
    | failed => exact same l _
    | gaveUp => exact .kept (.inl rfl) ⟨rfl, rfl⟩ nofun ⟨prefix_refl _, rfl⟩ (Nat.le_refl _)
    | recovered =>
      simp only
      split
      case isTrue => exact same l _
      case isFalse hgone => exact .started (by simpa using hgone) hdial (.inl ⟨rfl, rfl, rfl⟩)
  | rediscovers =>
    simp only [Line.pool, Line.rediscover]
    split
    case isTrue hgone =>
      simp only [Bool.and_eq_true, beq_iff_eq, Option.isNone_iff_eq_none] at hgone
      exact .started hgone.2 hdial (.inr ⟨rfl, rfl, hgone⟩)
    case isFalse => exact same l _

end

/-! ### What a turn of the pool keeps -/

theorem handled (h : Pooled l turn t) (hcmd : l.takes turn = none) : Handled l turn t where
  takes := hcmd
  worker := by
    cases h with
    | started gone => exact .inr ⟨gone, rfl⟩
    | kept | freed | hungUp | bridged | accepted | claimed => exact .inl rfl
  events := by
    cases h with
    | kept passed =>
      rcases passed with hsame | ⟨event, hcons, -⟩
      · exact hsame ▸ suffix_refl _
      · exact hcons ▸ suffix_cons _ _
    | freed rest | hungUp rest => exact rest
    | bridged ring =>
      obtain ⟨callerId, hcons⟩ := ring
      exact hcons ▸ suffix_cons _ _
    | accepted | claimed | started => exact suffix_refl _
  frees hhang hfree := by
    cases h with
    | kept _ flags => simp [flags.2, hhang] at hfree
    | freed _ _ _ hfrees => exact hfrees hhang
    | hungUp _ busy => simp [busy.2] at hfree
    | bridged | accepted | claimed => simp [SlotState.claim, hhang] at hfree
    | started _ _ flags =>
      rcases flags with ⟨-, hsame, -⟩ | ⟨-, -, hfrees⟩
      · simp [hsame, hhang] at hfree
      · exact hfrees

/-- A line that is not hanging up is owed nothing. -/
theorem confirmed_of_free (hrecord : ∀ w, l.worker = some w → w.Consistent)
    (hfree : l.slot.hangingUp = false) : Confirmed l where
  record := hrecord
  busy hhang := by simp [hfree] at hhang
  claimed _ := hfree
  owed hhang := by simp [hfree] at hhang

theorem confirmed (h : Pooled l turn t) (hl : Confirmed l) : Confirmed t := by
  cases h with
  | kept passed flags _ more exited =>
    refine ⟨hl.record, ?_, ?_, fun hhang => ?_⟩
    · rw [flags.1, flags.2]
      exact hl.busy
    · rw [flags.2]
      exact hl.claimed
    have hhang := flags.2.symm.trans hhang
    rcases hl.owed hhang with ⟨w, hworker, hwaits⟩ | hidle | hpos
    · refine .inl ⟨w, hworker, hwaits.imp id fun hcmd => ?_⟩
      obtain ⟨more, rfl⟩ := more.1
      simp [hcmd]
    · exact .inr (.inl (passed.mem hidle (.inr ⟨rfl, hhang⟩)))
    · exact .inr (.inr (Nat.lt_of_lt_of_le hpos exited))
  | freed _ free => exact confirmed_of_free hl.record free.2
  | hungUp _ busy hangs worker settled =>
    obtain ⟨w, hworker⟩ := Option.isSome_iff_exists.1 worker
    refine ⟨hl.record, fun _ => busy.1, fun hsome => ?_, fun _ => .inl ⟨w, hworker, .inr ?_⟩⟩
    · simp [settled] at hsome
    · simp [hangs]
  | bridged ring =>
    refine ⟨hl.record, fun _ => rfl, hl.claimed, fun hhang => ?_⟩
    rcases hl.owed hhang with howed | hidle | hpos
    · exact .inl howed
    · obtain ⟨callerId, hcons⟩ := ring
      rw [hcons] at hidle
      exact .inr (.inl ((mem_cons.1 hidle).resolve_left nofun))
    · exact .inr (.inr hpos)
  | accepted asked => exact confirmed_of_free hl.record (hl.claimed asked)
  | claimed claimable =>
    -- A line that is hanging up is busy, so this one is not.
    refine confirmed_of_free hl.record ?_
    cases hhang : l.slot.hangingUp with
    | false => exact hhang
    | true => simp [Line.claimable, hl.busy hhang] at claimable
  | started gone quiet flags =>
    rcases flags with ⟨hbusy, hsame, hexits⟩ | ⟨-, hfree, -⟩
    · refine ⟨consistent_new, ?_, fun hsome => ?_, fun hhang => .inr ?_⟩
      · rw [hbusy, hsame]
        exact hl.busy
      · simp [quiet] at hsome
      · rcases hl.owed (hsame.symm.trans hhang) with ⟨w, hw, -⟩ | hrest
        · cases gone.symm.trans hw
        · exact hexits ▸ hrest
    · exact confirmed_of_free consistent_new hfree

theorem held (h : Pooled l turn t) (hl : Held l) (hfresh : ¬ Outdated l turn) : Held t := by
  cases h with
  | @kept events _ _ _ passed flags up more =>
    have hrung : Rung l → Rung { l with events } := fun ⟨callerId, hmem⟩ =>
      ⟨callerId, passed.mem hmem (.inl ⟨callerId, rfl⟩)⟩
    refine ⟨fun hready hcmdTx hengaged => ?_, fun hsome => flags.1.trans (hl.claimed hsome),
      fun hnow => ?_, fun e hnow => ?_⟩
    · have hup := up hready hcmdTx
      rw [Engaged, Line.pending, more.2] at hengaged
      exact (hl.known hup.1 hup.2 hengaged).imp flags.1.trans hrung
    · rw [Line.pending, more.2]
      exact (hl.dials hnow).imp hrung id
    · rw [Engaged, Line.pending, more.2]
      exact (hl.refused e hnow).imp hrung id
  | freed _ _ settled _ idle =>
    exact held_of_known settled fun hready hcmdTx hengaged =>
      .inr (idle hready hcmdTx hfresh hl hengaged)
  | hungUp _ busy _ _ settled => exact held_of_known settled fun _ _ _ => .inl busy.1
  | bridged _ quiet => exact held_of_known quiet fun _ _ _ => .inl rfl
  | accepted asked => exact held_of_known rfl fun _ _ _ => .inl (hl.claimed asked)
  | @claimed number claimable =>
    refine ⟨fun _ _ _ => .inl rfl, fun _ => rfl, fun _ => ?_, nofun⟩
    refine (hl.idle claimable).imp id fun hidle w hw => ?_
    simp only [Engaged, not_exists, not_and, not_or, not_not] at hidle
    obtain ⟨hstate, hpend⟩ := hidle w hw
    refine ⟨hstate, number, ?_⟩
    rw [Line.pending, filter_append]
    exact congrArg (· ++ _) hpend
  | started _ quiet => exact held_new quiet rfl rfl

end Pooled

/-! ## Runs -/

section Turns

variable {l t : Line} {turn : Turn}

/-- A turn is the worker's, or the pool's. -/
theorem step_cases (h : Confirmed l) (turn : Turn) :
    Worked l turn (step l turn) ∨
      Pooled l turn (step l turn) ∧ l.takes turn = none := by
  have hends (r : Replies) (c : Prop) : ∀ w : Worker, w.Consistent →
      w.Turned r c none { worker := w, exits := true } := fun w hw => .stay hw nofun nofun rfl
  cases turn with
  | ticks r => exact .inl (.works h rfl fun w hw => turned_tickCleanup hw r)
  | hears line r => exact .inl (.works h rfl fun w hw => turned_dispatchUrc hw line r)
  | readFails => exact .inl (.works h rfl (hends _ _))
  | takesCommand r =>
    cases hcmds : l.commands with
    | nil =>
      have htakes : l.takes (.takesCommand r) = none := by rw [Line.takes, hcmds]; rfl
      simp only [step, Line.takesCommand, hcmds]
      split
      · exact .inr ⟨.same l _, htakes⟩
      · exact .inl (.works h (by rw [htakes]; rfl) (by rw [htakes]; exact hends _ _))
    | cons cmd commands =>
      have htakes : l.takes (.takesCommand r) = some cmd := by rw [Line.takes, hcmds]; rfl
      simp only [step, Line.takesCommand, hcmds]
      refine .inl (.works h (by rw [htakes, hcmds]; rfl) ?_)
      rw [htakes]
      exact fun w hw => turned_applyCmd hw cmd r
  | dialSettles accepted => exact .inr ⟨.dialSettles h accepted, rfl⟩
  | pool move =>
    refine .inr ⟨?_, rfl⟩
    simp only [step]
    split
    case isTrue => exact .same l _
    case isFalse hquiet => exact .pool h (by simpa using hquiet) move

theorem Confirmed.sound (h : Confirmed l) (turn : Turn) : Sound l turn where
  moves := (step_cases h turn).imp id fun hpool => hpool.1.handled hpool.2
  deadline := by
    rintro r w wait w' rfl hw hclean hdue hdead hw'
    simp only [ModuleLine.step, Line.works, hw] at hw'
    split at hw'
    case isTrue => cases hw'
    case isFalse hstays =>
      cases hw'
      rcases tickCleanup_deadline hclean hdue hdead with hexits | hreports | hrefused
      · exact absurd hexits hstays
      · exact .inl ((turned_tickCleanup (h.record w hw) r).reports hreports).2.1
      · exact .inr hrefused

theorem Confirmed.step (h : Confirmed l) (turn : Turn) : Confirmed (ModuleLine.step l turn) := by
  obtain hworked | ⟨hpool, -⟩ := step_cases h turn
  · exact hworked.confirmed h
  · exact hpool.confirmed h

theorem Held.step (hheld : Held l) (h : Confirmed l) (hfresh : ¬ Outdated l turn) :
    Held (ModuleLine.step l turn) := by
  obtain hworked | ⟨hpool, -⟩ := step_cases h turn
  · exact hworked.held hheld
  · exact hpool.held hheld hfresh

theorem Held.handsOut (h : Held l) (turn : Turn) : HandsOut l turn := by
  intro hno
  have hidle (hclaim : l.claimable = true) := (h.idle hclaim).resolve_left hno
  refine ⟨fun number w _ _ hclaim hw => by_contra fun hstate => ?_,
    fun number _ _ hclaim hsome => by_contra fun hpend => ?_⟩
  · exact hidle hclaim ⟨w, hw, .inl hstate⟩
  · obtain ⟨w, hw⟩ := Option.isSome_iff_exists.1 hsome
    exact hidle hclaim ⟨w, hw, .inr hpend⟩

end Turns

theorem confirmed_started (slot : SlotState) : Confirmed (started slot) :=
  Pooled.confirmed_of_free consistent_new rfl

theorem held_started (slot : SlotState) : Held (started slot) := held_new rfl rfl rfl

/-- Along every run the confirmation of a hang-up is owed while the line is held for it, the line
is reported idle by an idle card, and nothing but what is listed frees it. A line is handed out
with an idle card, unless a ring is to come, or the pool has acted on a report that was out of
date. -/
theorem hangup_confirmed (slot : SlotState) (turns : List Turn) :
    Trace.Always step Confirmed (started slot) turns ∧
      Trace.Each step Sound (started slot) turns ∧
      (Trace.Each step (fun l turn => ¬ Outdated l turn) (started slot) turns →
        Trace.Each step HandsOut (started slot) turns) := by
  have hstart := confirmed_started slot
  refine ⟨Trace.always_of_invariant (fun _ turn h => h.step turn) hstart turns,
    Trace.each_of_invariant (fun _ turn h => h.step turn)
      (fun _ turn h => h.sound turn) hstart turns, fun hfresh => ?_⟩
  exact hfresh.each (I := fun l => Confirmed l ∧ Held l) (fun _ turn h _ => h.2.handsOut turn)
    (fun _ turn h hfresh => ⟨h.1.step turn, h.2.step h.1 hfresh⟩) ⟨hstart, held_started slot⟩

/-- A wait ends at its first deadline. -/
def EndsInTime (l : Line) (turn : Turn) : Prop :=
  ∀ r w wait, turn = .ticks r → l.worker = some w → w.cleanup = some wait →
    cleanupRestartAfter ≤ r.asked - wait.started → r.asked ≤ r.judged →
    (step l turn).worker = none ∨ .lineIdle ∈ (step l turn).events

/-- A slot of the pool, at its start. -/
def slot0 : SlotState where
  slot := 0
  instanceId := 0
  moduleId := "EC20"
  audioDevice := []
  lifecycle := .ready
  cmdTx := true
  hasActiveCall := false
  hangingUp := false

/-- The modem lists a voice call and refuses to be reset. -/
def stuck : Replies where
  asked := 60000
  judged := 60000
  listing := .ok ["+CLCC: 1,0,0,0,0"]
  listingAfterCycle := .ok ["+CLCC: 1,0,0,0,0"]
  reset := .error "refused"

/-- A call that the worker has answered and the pool has not heard of yet, and a call that
outlives its hang-up on a modem that refuses to be reset. -/
theorem answered_line_claimed_and_stuck_line_held :
    ¬ (∀ turns, Trace.Each step ClaimsIdle (started slot0) turns) ∧
      ¬ (∀ turns, Trace.Each step EndsInTime (started slot0) turns) := by
  constructor
  · intro h
    obtain ⟨-, hclaims, -⟩ := h [.hears "RING" {}, .pool (.claims [])]
    have hidle := hclaims [] { state := .bridged } rfl (by decide) (by decide) (by decide)
    cases hidle
  · intro h
    obtain ⟨-, -, -, hticks, -⟩ := h [.hears "RING" {}, .pool (.handlesEvent false),
      .takesCommand { stuck with asked := 0, judged := 0 }, .ticks stuck]
    have hends := hticks stuck _ _ rfl rfl rfl (by decide) (by decide)
    revert hends
    decide

end ModuleLine
