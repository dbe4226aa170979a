-- SUMMARY: The card pool's event loop, over the lines and the one SIP call.
import Mathlib.Data.List.Lookmap
import GsmSipBridge.Lib.Bytes

/-!
# The card pool

`CardPool::run` takes one event at a time: what the lines' workers report, an outbound
request, the SIP peer going away, control commands, timers. All of them share one call
and one sound device.
-/

/-! ## The SIP bridge

`SipBridge` holds one call and one sound device for all lines. The call is modelled by
the line it was set up for, which the source does not keep. -/

namespace Sip

inductive RegistrationState where
  | unregistered
  | registering
  | registered
  | failed
  deriving DecidableEq, Repr

structure SipBridge where
  state : RegistrationState
  /-- The line of the one call there can be. -/
  activeCall : Option Text
  /-- The device index both directions of the audio go through. -/
  soundDevice : Option Nat
  deriving DecidableEq

/-- A worker's answer to `ModuleCmd::Dial`. -/
inductive DialAnswer where
  | accepted
  | refused
  /-- No answer within five seconds, or the worker is gone. -/
  | silent
  deriving DecidableEq

inductive RetryAnswer where
  | recovered
  | failed
  | gaveUp
  deriving DecidableEq

/-- What the SIP stack, the workers and the store answer while one event is handled. -/
structure Answers where
  /-- `compute_destination_uri` succeeds. -/
  destination : Bool
  findAudioDevice : Text → Option Nat
  soundDeviceSet : Bool
  /-- `Call::make` succeeds. -/
  callMade : Bool
  /-- `call.answer(200)` succeeds. -/
  callAnswered : Bool
  peerDisconnected : Bool
  /-- An incoming request comes from a trusted source and names a valid destination. -/
  requestValid : Bool
  /-- `ModuleCmd::Dial` reaches the worker. -/
  dialDelivered : Bool
  dial : DialAnswer
  /-- A hang-up command reaches the worker. -/
  hangupDelivered : Bool
  /-- A restart names a known mode, and no cycle objects. -/
  restartAccepted : Bool
  retry : RetryAnswer

namespace SipBridge

def setSoundDevice (b : SipBridge) (env : Answers) (alsaDevice : Text) : Option SipBridge :=
  match env.findAudioDevice alsaDevice with
  | none => none
  | some index =>
    if env.soundDeviceSet then some { b with soundDevice := some index } else none

/-- Refuses while there is a call. -/
def makeCall (b : SipBridge) (env : Answers) (line : Text) : Option SipBridge :=
  if b.activeCall.isSome then none
  else if env.callMade then some { b with activeCall := some line }
  else none

/-- The bridge, and whether the call was accepted. -/
def acceptOutbound (b : SipBridge) (env : Answers) (line alsaDevice : Text) : SipBridge × Bool :=
  match b.setSoundDevice env alsaDevice with
  | none => (b, false)
  | some b =>
    if env.callAnswered then ({ b with activeCall := some line }, true) else (b, false)

def activeCallPeerDisconnected (b : SipBridge) (env : Answers) : Bool :=
  b.activeCall.isSome && env.peerDisconnected

def hangupActiveCall (b : SipBridge) : SipBridge := { b with activeCall := none }

def unregister (b : SipBridge) : SipBridge := { b.hangupActiveCall with state := .unregistered }

end SipBridge

end Sip

namespace Modules

open Sip List

/-! ## Slots

A slot is the pool's record of one modem. The source keeps them in a hash map and looks
one up by the first value that meets a condition, in whatever order the map has; the
order is the list's here. -/

inductive LifecycleState where
  | initializing
  | ready
  | recovering
  | givenUp
  deriving DecidableEq, Repr

structure SlotState where
  slot : Nat
  instanceId : Nat
  moduleId : Text
  audioDevice : Text
  lifecycle : LifecycleState
  /-- There is a channel to the line's worker. -/
  cmdTx : Bool
  hasActiveCall : Bool
  hangingUp : Bool
  deriving DecidableEq

namespace SlotState

variable (s : SlotState)

def claim : SlotState := { s with hasActiveCall := true }

def releaseCall : SlotState := { s with hasActiveCall := false, hangingUp := false }

/-- There is no worker to talk to until the next retry. -/
def park : SlotState := { s with cmdTx := false, lifecycle := .recovering }

/-- A new worker has been started. -/
def recover : SlotState := { s with lifecycle := .ready, cmdTx := true }

end SlotState

abbrev Slots := List SlotState

variable {p : SlotState → Bool} {slots : Slots}

/-- `values_mut().find(p)`, then a change. -/
def modifyFirst (slots : Slots) (p : SlotState → Bool) (f : SlotState → SlotState) : Slots :=
  slots.lookmap fun s => if p s then some (f s) else none

theorem modifyFirst_of_none (f : SlotState → SlotState) (hfind : slots.find? p = none) :
    modifyFirst slots p f = slots :=
  lookmap_of_forall_not _ fun s hs => by simp [find?_eq_none.mp hfind s hs]

theorem modifyFirst_append {l : Slots} {s : SlotState} (hl : ∀ t ∈ l, (!p t) = true)
    (hs : p s = true) (f : SlotState → SlotState) (r : Slots) :
    modifyFirst (l ++ s :: r) p f = l ++ f s :: r := by
  unfold modifyFirst
  induction l with
  | nil => exact lookmap_cons_some _ _ (by simp [hs])
  | cons t l ih =>
    rw [forall_mem_cons, Bool.not_eq_true'] at hl
    rw [cons_append, lookmap_cons_none _ _ (by simp [hl.1]), ih hl.2]
    rfl

/-- The slot that is changed, with what stands before and after it. -/
theorem modifyFirst_of_find {s : SlotState} (f : SlotState → SlotState)
    (hfind : slots.find? p = some s) :
    ∃ l r, slots = l ++ s :: r ∧ modifyFirst slots p f = l ++ f s :: r := by
  obtain ⟨hs, l, r, rfl, hl⟩ := find?_eq_some_iff_append.mp hfind
  exact ⟨l, r, rfl, modifyFirst_append hl hs f r⟩

/-- Two changes of the slot that one lookup finds. -/
theorem modifyFirst_modifyFirst (slots : Slots) {f : SlotState → SlotState}
    (g : SlotState → SlotState) (hp : ∀ s, p (f s) = p s) :
    modifyFirst (modifyFirst slots p f) p g = modifyFirst slots p fun s => g (f s) := by
  cases hfind : slots.find? p with
  | none => simp only [modifyFirst_of_none _ hfind]
  | some s =>
    obtain ⟨hs, l, r, rfl, hl⟩ := find?_eq_some_iff_append.mp hfind
    rw [modifyFirst_append hl hs, modifyFirst_append hl ((hp s).trans hs),
      modifyFirst_append hl hs]

/-- `get_mut`, then a change. -/
def modifySlot (slots : Slots) (slot : Nat) (f : SlotState → SlotState) : Slots :=
  modifyFirst slots (fun s => s.slot == slot) f

/-- The key of the entry a finished task belongs to: by instance, not by key. -/
def exitTarget (slots : Slots) (slot instanceId : Nat) : Option Nat :=
  match slots.find? fun s => s.slot == slot with
  | some s =>
    if s.instanceId == instanceId then some slot
    else (slots.find? fun s => s.instanceId == instanceId).map SlotState.slot
  | none => (slots.find? fun s => s.instanceId == instanceId).map SlotState.slot

/-- The first idle line, claimed for an outbound call. -/
def claimIdleCsSlot (slots : Slots) : Option (SlotState × Slots) :=
  match slots.find? fun s => s.lifecycle == .ready && !s.hasActiveCall with
  | none => none
  | some s =>
    if s.cmdTx then some (s, modifySlot slots s.slot SlotState.claim)
    else none

def releaseSlot (slots : Slots) (slot : Nat) : Slots :=
  modifySlot slots slot SlotState.releaseCall

/-- A line told to hang up stays busy until its worker confirms; without a worker it is free
at once. -/
def requestHangup (sent : Bool) (s : SlotState) : SlotState :=
  if sent then { s with hasActiveCall := true, hangingUp := true } else s.releaseCall

/-- Over the channel of the claim, which is there. -/
def hangUpClaimedSlot (slots : Slots) (env : Answers) (slot : Nat) : Slots :=
  modifySlot slots slot (requestHangup env.hangupDelivered)

def hangUpUnbridgedCall (slots : Slots) (env : Answers) (moduleId : Text) : Slots :=
  modifyFirst slots (fun s => s.moduleId == moduleId) fun s =>
    requestHangup (s.cmdTx && env.hangupDelivered) s

/-- Whichever line is busy and not hanging up is taken for the bridged one. -/
def signalSipPeerHangup (slots : Slots) (env : Answers) : Slots :=
  modifyFirst slots (fun s => s.hasActiveCall && !s.hangingUp) fun s =>
    requestHangup (s.cmdTx && env.hangupDelivered) s

def releaseHungUpLine (slots : Slots) (moduleId : Text) : Slots :=
  modifyFirst slots (fun s => s.moduleId == moduleId && s.hangingUp) SlotState.releaseCall

/-! ## The event loop -/

structure CardPool where
  sip : SipBridge
  slots : Slots

inductive ControlCmd where
  | listSlots
  | getMode (slot : Nat)
  | setMode (slot : Nat)
  | cardRestart (slot : Nat)
  | observe
  deriving DecidableEq

/-- What the event loop wakes up for. -/
inductive Event where
  | ring (moduleId audioDevice : Text)
  | hangup (moduleId : Text)
  | lineIdle (moduleId : Text)
  | networkLost (moduleId : Text)
  /-- `SmsReceived` and `CriticalAlert` touch neither the lines' calls nor the SIP side. -/
  | smsReceived (moduleId : Text)
  | criticalAlert (moduleId : Text)
  | workerExited (slot instanceId : Nat)
  | control (cmd : ControlCmd)
  | outboundPoll
  | sipPeerPoll
  /-- The timer: the retry of one slot, or a restart that was scheduled. -/
  | retried (slot : Nat)
  | scheduledRestart (slot : Nat)
  | shutdown
  /-- The map the lines are in has no order of its own. -/
  | reordered (slots : Slots)

/-! ## Bridge events -/

def loseNetwork (s : SlotState) : SlotState :=
  (if s.lifecycle == .ready then s.park else s).releaseCall

def handleNetworkLost (p : CardPool) (moduleId : Text) : CardPool :=
  { p with slots := modifyFirst p.slots (fun s => s.moduleId == moduleId) loseNetwork }

/-- The SIP half of an answered call: the bridge, and whether the call is bridged. -/
def bridgeRing (sip : SipBridge) (env : Answers) (moduleId audioDevice : Text) :
    SipBridge × Bool :=
  if sip.state != .registered then (sip, false)
  else if !env.destination then (sip, false)
  else
    match sip.setSoundDevice env audioDevice with
    | none => (sip, false)
    | some sip =>
      match sip.makeCall env moduleId with
      | none => (sip, false)
      | some sip => (sip, true)

/-- The worker has answered the call already: one that cannot be bridged is hung up. -/
def handleRingEvent (p : CardPool) (env : Answers) (moduleId audioDevice : Text) : CardPool :=
  let slots := modifyFirst p.slots (fun s => s.moduleId == moduleId) SlotState.claim
  let bridged := bridgeRing p.sip env moduleId audioDevice
  { sip := bridged.1
    slots := if bridged.2 then slots else hangUpUnbridgedCall slots env moduleId }

/-- Tears down the SIP call, whichever line it is for. -/
def handleHangup (p : CardPool) (moduleId : Text) : CardPool where
  sip := p.sip.hangupActiveCall
  slots := modifyFirst p.slots (fun s => s.moduleId == moduleId) SlotState.releaseCall

/-! ## The other arms -/

def handleOutboundRequest (p : CardPool) (env : Answers) : CardPool :=
  if !env.requestValid then p
  else
    match claimIdleCsSlot p.slots with
    | none => p
    | some (s, slots) =>
      if !env.dialDelivered then { p with slots := releaseSlot slots s.slot }
      else
        match env.dial with
        | .accepted =>
          let accepted := p.sip.acceptOutbound env s.moduleId s.audioDevice
          { sip := accepted.1
            slots := if accepted.2 then slots else hangUpClaimedSlot slots env s.slot }
        | .refused => { p with slots := releaseSlot slots s.slot }
        | .silent => { p with slots := hangUpClaimedSlot slots env s.slot }

/-- `poll_outbound_request`: refused while there is a call. -/
def handleOutboundPoll (p : CardPool) (env : Answers) : CardPool :=
  if p.sip.activeCall.isSome then p else handleOutboundRequest p env

def pollSipPeerDisconnect (p : CardPool) (env : Answers) : CardPool :=
  if p.sip.activeCallPeerDisconnected env then
    { sip := p.sip.hangupActiveCall, slots := signalSipPeerHangup p.slots env }
  else p

/-- A restart takes the worker's channel; its calls are closed when the worker exits. -/
def restartSlot (p : CardPool) (slot : Nat) : CardPool :=
  { p with slots := modifySlot p.slots slot SlotState.park }

/-- A cycle passes over a line that is not ready, or is busy. -/
def sendReboot (p : CardPool) (slot : Nat) : CardPool :=
  match p.slots.find? fun s => s.slot == slot with
  | some s => if s.lifecycle == .ready && !s.hasActiveCall then restartSlot p slot else p
  | none => p

def handleControlCmd (p : CardPool) (env : Answers) : ControlCmd → CardPool
  | .cardRestart slot => if env.restartAccepted then restartSlot p slot else p
  | .listSlots | .getMode _ | .setMode _ | .observe => p

def onWorkerExit (p : CardPool) (slot instanceId : Nat) : CardPool :=
  match exitTarget p.slots slot instanceId with
  | none => p
  | some key =>
    { p with slots := modifySlot p.slots key fun s => s.park.releaseCall }

def retryState (env : Answers) (s : SlotState) : SlotState :=
  if s.lifecycle == .ready || s.lifecycle == .givenUp then s
  else
    match env.retry with
    | .recovered => s.recover
    | .failed => s
    | .gaveUp => { s with lifecycle := .givenUp }

def retrySlot (p : CardPool) (env : Answers) (slot : Nat) : CardPool :=
  { p with slots := modifySlot p.slots slot (retryState env) }

/-! ## Runs -/

/-- One turn of the event loop. -/
def step (p : CardPool) (env : Answers) : Event → CardPool
  | .ring moduleId audioDevice => handleRingEvent p env moduleId audioDevice
  | .hangup moduleId => handleHangup p moduleId
  | .lineIdle moduleId => { p with slots := releaseHungUpLine p.slots moduleId }
  | .networkLost moduleId => handleNetworkLost p moduleId
  | .smsReceived _ | .criticalAlert _ => p
  | .workerExited slot instanceId => onWorkerExit p slot instanceId
  | .control cmd => handleControlCmd p env cmd
  | .outboundPoll => handleOutboundPoll p env
  | .sipPeerPoll => pollSipPeerDisconnect p env
  | .retried slot => retrySlot p env slot
  | .scheduledRestart slot => sendReboot p slot
  | .shutdown => { p with sip := p.sip.unregister }
  | .reordered slots => if slots.isPerm p.slots then { p with slots } else p

/-- The pool after some turns, each with what was answered in it. -/
def run (p : CardPool) (events : List (Answers × Event)) : CardPool :=
  events.foldl (fun p turn => step p turn.1 turn.2) p

/-! ## Lines and the call of another line

While the SIP call is bridged to one line, what happens on the others should not touch
it. The busy flags are kept apart by line, and a second call is refused. But a hang-up
ends the call whichever line it comes from, and a ring points the sound device at its
own line before the second call is refused. -/

variable {p : CardPool} {env : Answers} {line : Text} {f : SlotState → SlotState}
  {P : SlotState → Bool} {moduleId : Text} {sip : SipBridge}

/-- The busy flags of a line, by slot. -/
def lineFlags (slots : Slots) (line : Text) : List (Nat × Bool × Bool) :=
  (slots.filter fun s => s.moduleId == line).map fun s => (s.slot, s.hasActiveCall, s.hangingUp)

/-- The event is not on account of the line, of its SIP peer or of the shutdown. -/
def Foreign (p : CardPool) (line : Text) (env : Answers) : Event → Prop
  | .ring moduleId _ | .hangup moduleId | .lineIdle moduleId | .networkLost moduleId =>
      moduleId ≠ line
  | .workerExited slot instanceId => ∀ key, exitTarget p.slots slot instanceId = some key →
      ∀ s ∈ p.slots, s.slot = key → s.moduleId ≠ line
  | .sipPeerPoll => env.peerDisconnected = false
  | .shutdown => False
  | .smsReceived _ | .criticalAlert _ | .control _ | .outboundPoll | .retried _
  | .scheduledRestart _ | .reordered _ => True

/-- The call of a line goes on, through the same device, and the line's flags are as they
were. -/
structure Undisturbed (line : Text) (p p' : CardPool) : Prop where
  call : p'.sip.activeCall = some line
  device : p'.sip.soundDevice = p.sip.soundDevice
  flags : (lineFlags p'.slots line).Perm (lineFlags p.slots line)

/-- An event disturbs the call of another line: a hang-up, or a ring that gets as far as
setting a sound device other than the present one. -/
def Disturbs (p : CardPool) (env : Answers) : Event → Prop
  | .hangup moduleId => ∃ line, p.sip.activeCall = some line ∧ moduleId ≠ line
  | .ring moduleId audioDevice => ∃ line index, p.sip.activeCall = some line ∧ moduleId ≠ line ∧
      p.sip.state = .registered ∧ env.destination = true ∧
      env.findAudioDevice audioDevice = some index ∧ env.soundDeviceSet = true ∧
      p.sip.soundDevice ≠ some index
  | _ => False

/-! ### The flags of a line -/

section

variable {slot : Nat} (hid : ∀ s, (f s).moduleId = s.moduleId)

include hid

theorem lineFlags_modifyFirst
    (hkeep : ∀ s ∈ slots, P s = true → s.moduleId = line →
      ((f s).slot, (f s).hasActiveCall, (f s).hangingUp) = (s.slot, s.hasActiveCall, s.hangingUp)) :
    lineFlags (modifyFirst slots P f) line = lineFlags slots line := by
  cases hfind : slots.find? P with
  | none => rw [modifyFirst_of_none f hfind]
  | some s =>
    obtain ⟨l, r, rfl, heq⟩ := modifyFirst_of_find f hfind
    rw [heq]
    unfold lineFlags
    rw [filter_append, filter_append, filter_cons, filter_cons, hid s]
    split
    · rename_i hline
      have hsame := hkeep s (mem_of_find?_eq_some hfind) (find?_some hfind) (eq_of_beq hline)
      rw [map_append, map_append, map_cons, map_cons, hsame]
    · rfl

/-- A change to the first slot of another line. -/
theorem lineFlags_of_other (hother : ∀ s ∈ slots, P s = true → s.moduleId ≠ line) :
    lineFlags (modifyFirst slots P f) line = lineFlags slots line :=
  lineFlags_modifyFirst hid fun s hs hP hline => absurd hline (hother s hs hP)

/-- A change that is not about calls. -/
theorem lineFlags_of_same
    (hkeep : ∀ s, ((f s).slot, (f s).hasActiveCall, (f s).hangingUp) =
      (s.slot, s.hasActiveCall, s.hangingUp)) :
    lineFlags (modifySlot slots slot f) line = lineFlags slots line :=
  lineFlags_modifyFirst hid fun s _ _ _ => hkeep s

end

@[simp] theorem requestHangup_keys (sent : Bool) (s : SlotState) :
    (requestHangup sent s).moduleId = s.moduleId ∧ (requestHangup sent s).slot = s.slot := by
  cases sent with
  | true | false => exact ⟨rfl, rfl⟩

@[simp] theorem loseNetwork_keys (s : SlotState) :
    (loseNetwork s).moduleId = s.moduleId ∧ (loseNetwork s).slot = s.slot ∧
      (loseNetwork s).instanceId = s.instanceId := by
  unfold loseNetwork
  split <;> exact ⟨rfl, rfl, rfl⟩

theorem retryState_keeps (env : Answers) (s : SlotState) :
    (retryState env s).moduleId = s.moduleId ∧
      ((retryState env s).slot, (retryState env s).hasActiveCall, (retryState env s).hangingUp) =
        (s.slot, s.hasActiveCall, s.hangingUp) := by
  unfold retryState
  split
  · exact ⟨rfl, rfl⟩
  · cases env.retry with
    | recovered | failed | gaveUp => exact ⟨rfl, rfl⟩

theorem lineFlags_restartSlot (p : CardPool) (slot : Nat) :
    lineFlags (restartSlot p slot).slots line = lineFlags p.slots line :=
  lineFlags_of_same (fun _ => rfl) fun _ => rfl

/-- The lookup by line finds another line's slot. -/
theorem ne_of_beq_moduleId {s : SlotState} (hother : moduleId ≠ line)
    (h : (s.moduleId == moduleId) = true) : s.moduleId ≠ line :=
  fun hline => hother ((eq_of_beq h).symm.trans hline)

/-! ### A ring during a call -/

/-- A ring is put through to SIP. -/
def RingBridged (p : CardPool) (env : Answers) (audioDevice : Text) : Prop :=
  p.sip.state = .registered ∧ env.destination = true ∧
    (env.findAudioDevice audioDevice).isSome = true ∧ env.soundDeviceSet = true ∧
    p.sip.activeCall = none ∧ env.callMade = true

/-- The SIP half of a ring, seen from outside. -/
theorem bridgeRing_cases (p : CardPool) (env : Answers) (moduleId audioDevice : Text) :
    let r := bridgeRing p.sip env moduleId audioDevice
    (RingBridged p env audioDevice ∧ r.2 = true ∧ r.1.activeCall = some moduleId) ∨
      (¬ RingBridged p env audioDevice ∧ r.2 = false ∧ r.1.activeCall = p.sip.activeCall) := by
  unfold RingBridged bridgeRing SipBridge.setSoundDevice SipBridge.makeCall
  by_cases hstate : p.sip.state = .registered
  · cases env.destination with
    | false => simp [hstate]
    | true =>
      cases env.findAudioDevice audioDevice with
      | none => simp [hstate]
      | some index =>
        cases env.soundDeviceSet with
        | false => simp [hstate]
        | true =>
          cases p.sip.activeCall with
          | some line => simp [hstate]
          | none =>
            cases env.callMade with
            | false | true => simp [hstate]
  · simp [hstate]

/-- The sound device moves exactly when the ring gets as far as setting another one. -/
theorem bridgeRing_device_iff (hcall : sip.activeCall = some line) (moduleId audioDevice : Text) :
    (bridgeRing sip env moduleId audioDevice).1.soundDevice = sip.soundDevice ↔
      ¬ ∃ index, sip.state = .registered ∧ env.destination = true ∧
        env.findAudioDevice audioDevice = some index ∧ env.soundDeviceSet = true ∧
        sip.soundDevice ≠ some index := by
  unfold bridgeRing
  by_cases hstate : sip.state = .registered
  · cases hdest : env.destination with
    | false => simp [hstate]
    | true =>
      unfold SipBridge.setSoundDevice
      cases hfind : env.findAudioDevice audioDevice with
      | none => simp [hstate]
      | some index =>
        cases hset : env.soundDeviceSet with
        | false => simp [hstate]
        | true => simp [hstate, SipBridge.makeCall, hcall, eq_comm]
  · simp [hstate]

/-- The flags of a line while another one rings. -/
theorem lineFlags_handleRingEvent (hother : moduleId ≠ line) (audioDevice : Text) :
    lineFlags (handleRingEvent p env moduleId audioDevice).slots line = lineFlags p.slots line := by
  have hbusy : ∀ slots : Slots, lineFlags (modifyFirst slots (fun s => s.moduleId == moduleId)
      SlotState.claim) line = lineFlags slots line := fun slots =>
    lineFlags_of_other (fun _ => rfl) fun s _ => ne_of_beq_moduleId hother
  unfold handleRingEvent
  dsimp only
  split
  · exact hbusy p.slots
  · refine Eq.trans ?_ (hbusy p.slots)
    exact lineFlags_of_other (fun _ => (requestHangup_keys _ _).1) fun s _ =>
      ne_of_beq_moduleId hother

/-! ### One turn -/

/-- What a turn leaves alone of the call of a line. -/
def Isolates (p : CardPool) (env : Answers) (e : Event) : Prop :=
  ∀ line, p.sip.activeCall = some line → Foreign p line env e → Undisturbed line p (step p env e)

theorem Undisturbed.of_slots (hcall : p.sip.activeCall = some line)
    (hflags : lineFlags slots line = lineFlags p.slots line) :
    Undisturbed line p { p with slots } :=
  ⟨hcall, rfl, .of_eq hflags⟩

theorem Undisturbed.refl (hcall : p.sip.activeCall = some line) : Undisturbed line p p :=
  .of_slots hcall rfl

theorem isolates_of_not_disturbs {e : Event} (h : ¬ Disturbs p env e) : Isolates p env e := by
  intro line hcall hforeign
  cases e with
  | ring moduleId audioDevice =>
    have hkept : (bridgeRing p.sip env moduleId audioDevice).1.activeCall = some line := by
      -- A second call is refused; what may change is the sound device.
      rcases bridgeRing_cases p env moduleId audioDevice with ⟨hput, -⟩ | ⟨-, -, hkept⟩
      · simp [RingBridged, hcall] at hput
      · exact hkept.trans hcall
    refine ⟨hkept, ?_, .of_eq (lineFlags_handleRingEvent hforeign audioDevice)⟩
    refine (bridgeRing_device_iff hcall moduleId audioDevice).mpr ?_
    rintro ⟨index, hset⟩
    exact h ⟨line, index, hcall, hforeign, hset⟩
  | hangup moduleId => exact absurd ⟨line, hcall, hforeign⟩ h
  | lineIdle moduleId =>
    exact .of_slots hcall (lineFlags_of_other (fun _ => rfl) fun s _ hs =>
      ne_of_beq_moduleId hforeign (Bool.and_eq_true_iff.mp hs).1)
  | networkLost moduleId =>
    exact .of_slots hcall (lineFlags_of_other (fun s => (loseNetwork_keys s).1) fun s _ =>
      ne_of_beq_moduleId hforeign)
  | smsReceived _ | criticalAlert _ => exact .refl hcall
  | workerExited slot instanceId =>
    change Undisturbed line p (onWorkerExit p slot instanceId)
    unfold onWorkerExit
    cases htarget : exitTarget p.slots slot instanceId with
    | none => exact .refl hcall
    | some key =>
      exact .of_slots hcall (lineFlags_of_other (fun _ => rfl) fun s hs hkey =>
        hforeign key htarget s hs (eq_of_beq hkey))
  | control cmd =>
    cases cmd with
    | listSlots | getMode _ | setMode _ | observe => exact .refl hcall
    | cardRestart slot =>
      change Undisturbed line p (if env.restartAccepted then restartSlot p slot else p)
      split
      · exact .of_slots hcall (lineFlags_restartSlot p slot)
      · exact .refl hcall
  | outboundPoll =>
    change Undisturbed line p (handleOutboundPoll p env)
    rw [handleOutboundPoll, if_pos (by rw [hcall]; rfl)]
    exact .refl hcall
  | sipPeerPoll =>
    change Undisturbed line p (pollSipPeerDisconnect p env)
    have hthere : p.sip.activeCallPeerDisconnected env = false := by
      rw [SipBridge.activeCallPeerDisconnected, hforeign, Bool.and_false]
    rw [pollSipPeerDisconnect, hthere]
    exact .refl hcall
  | retried slot =>
    exact .of_slots hcall (lineFlags_of_same (fun s => (retryState_keeps env s).1)
      fun s => (retryState_keeps env s).2)
  | scheduledRestart slot =>
    change Undisturbed line p (sendReboot p slot)
    unfold sendReboot
    split
    · split
      · exact .of_slots hcall (lineFlags_restartSlot p slot)
      · exact .refl hcall
    · exact .refl hcall
  | shutdown => exact hforeign.elim
  | reordered slots =>
    change Undisturbed line p (if slots.isPerm p.slots then { p with slots } else p)
    split
    · rename_i hperm
      exact ⟨hcall, rfl, ((isPerm_iff.mp hperm).filter _).map _⟩
    · exact .refl hcall

theorem isolates_iff (e : Event) : Isolates p env e ↔ ¬ Disturbs p env e := by
  refine ⟨fun h hdisturbs => ?_, isolates_of_not_disturbs⟩
  cases e with
  | ring moduleId audioDevice =>
    obtain ⟨line, index, hcall, hother, hset⟩ := hdisturbs
    have hdevice := (h line hcall hother).device
    exact (bridgeRing_device_iff hcall moduleId audioDevice).mp hdevice ⟨index, hset⟩
  | hangup moduleId =>
    obtain ⟨line, hcall, hother⟩ := hdisturbs
    cases (h line hcall hother).call
  | _ => exact hdisturbs

/-! ### Whole runs -/

/-- No event of a stretch is on account of the line, of its SIP peer or of the shutdown. -/
def ForeignAll (line : Text) : CardPool → List (Answers × Event) → Prop
  | _, [] => True
  | p, (env, e) :: rest => Foreign p line env e ∧ ForeignAll line (step p env e) rest

/-- Throughout a run, a call that is bridged to a line is left alone by every stretch of
events that are none of its business. -/
def Isolated (p : CardPool) (events : List (Answers × Event)) : Prop :=
  ∀ before during after line, events = before ++ during ++ after →
    (run p before).sip.activeCall = some line → ForeignAll line (run p before) during →
    Undisturbed line (run p before) (run p (before ++ during))

theorem run_append (p : CardPool) (events events' : List (Answers × Event)) :
    run p (events ++ events') = run (run p events) events' :=
  foldl_append

theorem Undisturbed.trans {p' p'' : CardPool} (h : Undisturbed line p p')
    (h' : Undisturbed line p' p'') : Undisturbed line p p'' :=
  ⟨h'.call, h'.device.trans h.device, h'.flags.trans h.flags⟩

theorem undisturbed_run {during : List (Answers × Event)} (hcall : p.sip.activeCall = some line)
    (hforeign : ForeignAll line p during)
    (hnone : ∀ before env e after, during = before ++ (env, e) :: after →
      ¬ Disturbs (run p before) env e) : Undisturbed line p (run p during) := by
  induction during generalizing p with
  | nil => exact .refl hcall
  | cons turn rest ih =>
    obtain ⟨env, e⟩ := turn
    obtain ⟨hfirst, hrest⟩ := hforeign
    have hstep := isolates_of_not_disturbs (hnone [] env e rest rfl) line hcall hfirst
    refine hstep.trans (ih hstep.call hrest fun before env' e' after heq => ?_)
    exact hnone ((env, e) :: before) env' e' after (heq ▸ rfl)

/-- A run leaves the lines' calls alone exactly when no event in it disturbs one: no line
hangs up, or moves the sound device by ringing, during the call of another. -/
theorem isolated_iff (p : CardPool) (events : List (Answers × Event)) :
    Isolated p events ↔
      ∀ before env e after, events = before ++ (env, e) :: after →
        ¬ Disturbs (run p before) env e := by
  constructor
  · intro h before env e after heq
    refine (isolates_iff _).mp fun line hcall hforeign => ?_
    have hstretch := h before [(env, e)] after line
      (by rw [append_assoc]; exact heq) hcall ⟨hforeign, trivial⟩
    rwa [run_append] at hstretch
  · intro h before during after line heq hcall hforeign
    rw [run_append]
    refine undisturbed_run hcall hforeign fun pre env e post hduring => ?_
    rw [← run_append]
    refine h (before ++ pre) env e (post ++ after) ?_
    rw [heq, hduring, append_assoc, append_assoc, append_assoc, cons_append]

/-- Two idle lines. -/
def twoLines : CardPool where
  sip := { state := .registered, activeCall := none, soundDevice := none }
  slots :=
    [{ slot := 0, instanceId := 1, moduleId := "a", audioDevice := "hw:1"
       lifecycle := .ready, cmdTx := true, hasActiveCall := false, hangingUp := false },
     { slot := 1, instanceId := 2, moduleId := "b", audioDevice := "hw:2"
       lifecycle := .ready, cmdTx := true, hasActiveCall := false, hangingUp := false }]

/-- Everything that is asked for works. -/
def allWorks : Answers where
  destination := true
  findAudioDevice := fun device => if device == "hw:1" then some 1 else some 2
  soundDeviceSet := true
  callMade := true
  callAnswered := true
  peerDisconnected := false
  requestValid := true
  dialDelivered := true
  dial := .accepted
  hangupDelivered := true
  restartAccepted := true
  retry := .recovered

/-- One line has a call; another one rings, and its caller hangs up again: the first line's
call moves to the second one's sound device, and is then ended. -/
theorem secondLine_disturbs :
    let ringA := (allWorks, Event.ring "a" "hw:1")
    let ringB := (allWorks, Event.ring "b" "hw:2")
    let hangupB := (allWorks, Event.hangup "b")
    (run twoLines [ringA]).sip = ⟨.registered, some "a", some 1⟩ ∧
      (run twoLines [ringA, ringB]).sip = ⟨.registered, some "a", some 2⟩ ∧
      (run twoLines [ringA, ringB, hangupB]).sip = ⟨.registered, none, some 2⟩ := by
  decide

end Modules
