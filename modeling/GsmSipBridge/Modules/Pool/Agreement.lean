-- SUMMARY: When the SIP call and the busy lines agree.
import GsmSipBridge.Lib.Assoc
import GsmSipBridge.Lib.Trace
import GsmSipBridge.Modules.Pool

/-!
# The SIP call and the busy lines

Which call is up is written down twice: as the bridge's call, and as the one line that is
busy without hanging up. Several handlers release one of the two only: a line that is
lost or whose worker ends leaves its SIP call up, and a hang-up ends the SIP call
whichever line it comes from.
-/

namespace Modules

open Sip List

variable {p : CardPool} {env : Answers} {s : SlotState} {slots : Slots}

/-- The line is busy, and not with hanging up: it is taken for the bridged one. -/
def SlotState.inCall (s : SlotState) : Bool := s.hasActiveCall && !s.hangingUp

/-- There is a SIP call exactly if one line is in a call, and that line is the one the call was
bridged to. It is the line that is told when the SIP peer hangs up, and its worker is there to
hear it. -/
def Agreement (p : CardPool) : Prop :=
  (p.sip.activeCall.isSome = true ↔ ∃! s, s ∈ p.slots ∧ s.inCall = true) ∧
    ∀ line, p.sip.activeCall = some line →
      ∃ s, p.slots.find? SlotState.inCall = some s ∧ s.moduleId = line ∧
        s.lifecycle = .ready ∧ s.cmdTx = true

/-- A pool as it is set up: keys are distinct, no line has a call, and a line is ready exactly if
it has a worker. -/
structure Bootstrapped (p : CardPool) : Prop where
  keys : (p.slots.map SlotState.slot).Nodup
  idle : ∀ s ∈ p.slots, s.hasActiveCall = false ∧ s.hangingUp = false
  workers : ∀ s ∈ p.slots, s.cmdTx = true ↔ s.lifecycle = .ready
  sip : p.sip.activeCall = none

/-! ## The events that break it -/

/-- The slot a lookup finds is in a call. -/
def InCallAt (slots : Slots) (P : SlotState → Bool) : Prop :=
  ∃ s, slots.find? P = some s ∧ s.inCall = true

def LineInCall (p : CardPool) (moduleId : Text) : Prop :=
  InCallAt p.slots fun s => s.moduleId == moduleId

def SlotInCall (p : CardPool) (slot : Nat) : Prop :=
  InCallAt p.slots fun s => s.slot == slot

/-- The events after which the SIP call and the busy lines disagree. -/
def Separates (p : CardPool) (env : Answers) : Event → Prop
  -- The line that is in the call rings, and is hung up as unbridged; or a ring is put through
  -- although its line is unknown, is still hanging up or has lost its worker.
  | .ring moduleId audioDevice =>
      LineInCall p moduleId ∨ RingBridged p env audioDevice ∧
        ¬ ∃ s, p.slots.find? (fun s => s.moduleId == moduleId) = some s ∧
          s.hangingUp = false ∧ s.cmdTx = true
  -- The SIP call is ended for a line that is not the bridged one.
  | .hangup moduleId => p.sip.activeCall.isSome = true ∧ ¬ LineInCall p moduleId
  -- The bridged line is released, or loses its worker, and the SIP call stays.
  | .networkLost moduleId => LineInCall p moduleId
  | .workerExited slot instanceId =>
      ∃ key, exitTarget p.slots slot instanceId = some key ∧ SlotInCall p key
  | .control (.cardRestart slot) => env.restartAccepted = true ∧ SlotInCall p slot
  -- The call is ended, and no line is told.
  | .shutdown => p.sip.activeCall.isSome = true
  | .lineIdle _ | .smsReceived _ | .criticalAlert _ | .control _ | .outboundPoll | .sipPeerPoll
  | .retried _ | .scheduledRestart _ | .reordered _ => False

/-! ## The lines in a call -/

def calls (slots : Slots) : Slots := slots.filter SlotState.inCall

@[simp] theorem calls_append (l r : Slots) : calls (l ++ r) = calls l ++ calls r :=
  filter_append l r

theorem calls_cons_of_inCall (r : Slots) (h : s.inCall = true) : calls (s :: r) = s :: calls r :=
  filter_cons_of_pos h

theorem calls_cons_of_idle (r : Slots) (h : s.inCall = false) : calls (s :: r) = calls r :=
  filter_cons_of_neg (by simp [h])

section Calls

variable {P : SlotState → Bool} {f : SlotState → SlotState} {t : SlotState}

/-- A line outside any call is changed and still is. -/
theorem calls_modifyFirst_idle
    (hidle : ∀ s, slots.find? P = some s → s.inCall = false ∧ (f s).inCall = false) :
    calls (modifyFirst slots P f) = calls slots := by
  cases hfind : slots.find? P with
  | none => rw [modifyFirst_of_none f hfind]
  | some s =>
    obtain ⟨l, r, rfl, heq⟩ := modifyFirst_of_find f hfind
    obtain ⟨hs, hfs⟩ := hidle s hfind
    simp [heq, calls_cons_of_idle, hs, hfs]

/-- A line comes into the only call. -/
theorem calls_modifyFirst_raise (hquiet : calls slots = []) (hfind : slots.find? P = some s)
    (hraise : (f s).inCall = true) : calls (modifyFirst slots P f) = [f s] := by
  obtain ⟨l, r, rfl, heq⟩ := modifyFirst_of_find f hfind
  rw [calls_append, append_eq_nil_iff] at hquiet
  have hr : calls r = [] := by
    cases hs : s.inCall with
    | true => simp [calls_cons_of_inCall r hs] at hquiet
    | false => simpa [calls_cons_of_idle r hs] using hquiet.2
  simp [heq, hquiet.1, hr, calls_cons_of_inCall r hraise]

/-- The line of the only call is changed. -/
theorem calls_modifyFirst_only (hone : calls slots = [t]) (hfind : slots.find? P = some s)
    (hs : s.inCall = true) :
    s = t ∧ calls (modifyFirst slots P f) = if (f s).inCall then [f s] else [] := by
  obtain ⟨l, r, rfl, heq⟩ := modifyFirst_of_find f hfind
  rw [calls_append, calls_cons_of_inCall r hs, append_eq_singleton_iff] at hone
  obtain ⟨hl, hsr⟩ | ⟨-, hnil⟩ := hone
  · obtain ⟨rfl, hr⟩ := List.cons.inj hsr
    cases hfs : (f s).inCall with
    | true => simp [heq, hl, hr, calls_cons_of_inCall r hfs]
    | false => simp [heq, hl, hr, calls_cons_of_idle r hfs]
  · cases hnil

end Calls

/-! ## The invariant -/

/-- A line that is hanging up is busy, and a line is ready exactly if it has a worker. -/
structure SlotState.Coherent (s : SlotState) : Prop where
  hanging : s.hangingUp = true → s.hasActiveCall = true
  worker : s.cmdTx = true ↔ s.lifecycle = .ready

structure Coherent (slots : Slots) : Prop where
  keys : (slots.map SlotState.slot).Nodup
  each : ∀ s ∈ slots, s.Coherent

/-- The line of the call there is, and none if there is none. -/
inductive Bridged : Option Text → Slots → Prop
  | idle {slots : Slots} (h : calls slots = []) : Bridged none slots
  | call {slots : Slots} (s : SlotState) (h : calls slots = [s]) (hworker : s.cmdTx = true) :
      Bridged (some s.moduleId) slots

structure Agreed (p : CardPool) : Prop where
  lines : Coherent p.slots
  bridged : Bridged p.sip.activeCall p.slots

theorem Bridged.length_le {call : Option Text} (h : Bridged call slots) :
    (calls slots).length ≤ 1 := by
  cases h with
  | idle h | call s h => simp [h]

theorem existsUnique_of_calls (h : calls slots = [s]) : ∃! s, s ∈ slots ∧ s.inCall = true := by
  have hmem : ∀ t, (t ∈ slots ∧ t.inCall = true) ↔ t = s := fun t => by
    rw [← mem_filter, ← calls, h, mem_singleton]
  exact ⟨s, (hmem s).mpr rfl, fun t ht => (hmem t).mp ht⟩

theorem not_exists_of_calls (h : calls slots = []) : ¬ ∃ s, s ∈ slots ∧ s.inCall = true := by
  rintro ⟨s, hs⟩
  rw [← mem_filter, ← calls, h] at hs
  cases hs

theorem not_inCallAt {P : SlotState → Bool} (h : calls slots = []) : ¬ InCallAt slots P :=
  fun ⟨s, hfind, hs⟩ => not_exists_of_calls h ⟨s, mem_of_find?_eq_some hfind, hs⟩

theorem find_inCall_of_calls (h : calls slots = [s]) : slots.find? SlotState.inCall = some s := by
  rw [← head?_filter, ← calls, h]
  rfl

theorem Agreed.agreement (h : Agreed p) : Agreement p := by
  obtain ⟨hlines, hbridged⟩ := h
  unfold Agreement
  generalize hcall : p.sip.activeCall = call at hbridged
  cases hbridged with
  | idle hnone =>
    refine ⟨⟨nofun, fun hone => absurd hone.exists (not_exists_of_calls hnone)⟩, nofun⟩
  | call s hone hworker =>
    refine ⟨⟨fun _ => existsUnique_of_calls hone, fun _ => rfl⟩, ?_⟩
    rintro line ⟨⟩
    have hfind := find_inCall_of_calls hone
    have hready := (hlines.each s (mem_of_find?_eq_some hfind)).worker.mp hworker
    exact ⟨s, hfind, rfl, hready, hworker⟩

/-- With at most one line in a call there is nothing else to agree about. -/
theorem Agreement.bridged (h : Agreement p) (hlen : (calls p.slots).length ≤ 1) :
    Bridged p.sip.activeCall p.slots := by
  match hcalls : calls p.slots with
  | [] =>
    have hnone : ¬ p.sip.activeCall.isSome = true := fun hsome =>
      not_exists_of_calls hcalls (h.1.mp hsome).exists
    rw [Option.not_isSome_iff_eq_none.mp hnone]
    exact .idle hcalls
  | [s] =>
    obtain ⟨line, hline⟩ := Option.isSome_iff_exists.mp (h.1.mpr (existsUnique_of_calls hcalls))
    obtain ⟨t, hfind, hid, -, hworker⟩ := h.2 line hline
    rw [find_inCall_of_calls hcalls] at hfind
    cases hfind
    rw [hline, ← hid]
    exact .call s hcalls hworker
  | s :: t :: rest => simp [hcalls] at hlen

/-! ### What every event keeps of the lines -/

namespace SlotState.Coherent

variable (h : s.Coherent)

include h

theorem released : s.releaseCall.Coherent := ⟨nofun, h.worker⟩

theorem claimed : s.claim.Coherent := ⟨fun _ => rfl, h.worker⟩

theorem parked : s.park.Coherent := ⟨h.hanging, ⟨nofun, nofun⟩⟩

theorem requested (sent : Bool) : (requestHangup sent s).Coherent := by
  cases sent with
  | true => exact ⟨fun _ => rfl, h.worker⟩
  | false => exact h.released

theorem networkLost : (loseNetwork s).Coherent := by
  unfold loseNetwork
  split
  · exact h.parked.released
  · exact h.released

theorem retried (env : Answers) : (retryState env s).Coherent := by
  unfold retryState
  split
  · exact h
  rename_i hdown
  have hnone : ¬ s.cmdTx = true := fun hworker => hdown (by simp [h.worker.mp hworker])
  cases env.retry with
  | recovered => exact ⟨h.hanging, ⟨fun _ => rfl, fun _ => rfl⟩⟩
  | failed => exact h
  | gaveUp => exact ⟨h.hanging, ⟨fun hworker => absurd hworker hnone, nofun⟩⟩

end SlotState.Coherent

theorem Coherent.modifyFirst {P : SlotState → Bool} {f : SlotState → SlotState} (h : Coherent slots)
    (hslot : ∀ s, (f s).slot = s.slot) (hf : ∀ s, s.Coherent → (f s).Coherent) :
    Coherent (modifyFirst slots P f) := by
  cases hfind : slots.find? P with
  | none => rwa [modifyFirst_of_none f hfind]
  | some s =>
    obtain ⟨l, r, rfl, heq⟩ := modifyFirst_of_find f hfind
    rw [heq]
    have heach := h.each
    rw [forall_mem_append, forall_mem_cons] at heach
    refine ⟨by simpa [hslot] using h.keys, ?_⟩
    rw [forall_mem_append, forall_mem_cons]
    exact ⟨heach.1, hf s heach.2.1, heach.2.2⟩

/-- A claimed line has a worker and was not hanging up; the claim is one change of its slot. -/
theorem claimIdleCsSlot_some {slots' : Slots} (h : Coherent slots)
    (hclaim : claimIdleCsSlot slots = some (s, slots')) :
    slots.find? (fun t => t.slot == s.slot) = some s ∧ s.cmdTx = true ∧ s.hangingUp = false ∧
      slots' = modifySlot slots s.slot SlotState.claim := by
  unfold claimIdleCsSlot at hclaim
  split at hclaim
  · cases hclaim
  rename_i t hfind
  split at hclaim
  · rename_i hworker
    cases hclaim
    have hmem := mem_of_find?_eq_some hfind
    have hfound := find?_some hfind
    have hhang : s.hangingUp = false := Bool.eq_false_iff.mpr fun hs => by
      simp [(h.each s hmem).hanging hs] at hfound
    exact ⟨Keyed.find_of_mem h.keys hmem, hworker, hhang, rfl⟩
  · cases hclaim

section

variable {P : SlotState → Bool} (h : Coherent slots)

include h

theorem Coherent.claim : Coherent (Modules.modifyFirst slots P SlotState.claim) :=
  h.modifyFirst (fun _ => rfl) fun _ => .claimed

theorem Coherent.release : Coherent (Modules.modifyFirst slots P SlotState.releaseCall) :=
  h.modifyFirst (fun _ => rfl) fun _ => .released

theorem Coherent.hangUp {sent : SlotState → Bool} :
    Coherent (Modules.modifyFirst slots P fun s => requestHangup (sent s) s) :=
  h.modifyFirst (fun _ => by simp) fun _ hs => hs.requested _

end

theorem Coherent.restart (h : Coherent p.slots) (slot : Nat) :
    Coherent (restartSlot p slot).slots :=
  h.modifyFirst (fun _ => rfl) fun _ => .parked

theorem Coherent.ring (h : Coherent p.slots) (env : Answers) (moduleId audioDevice : Text) :
    Coherent (handleRingEvent p env moduleId audioDevice).slots := by
  unfold handleRingEvent
  dsimp only
  split
  · exact h.claim
  · exact h.claim.hangUp

/-- A claim is kept, given back, or turned into a hang-up. -/
theorem Coherent.outbound (h : Coherent p.slots) (env : Answers) :
    Coherent (handleOutboundRequest p env).slots := by
  unfold handleOutboundRequest
  split
  · exact h
  split
  · exact h
  rename_i hclaim
  obtain ⟨-, -, -, rfl⟩ := claimIdleCsSlot_some h hclaim
  split
  · exact h.claim.release
  split
  · dsimp only
    split
    · exact h.claim
    · exact h.claim.hangUp
  · exact h.claim.release
  · exact h.claim.hangUp

theorem Coherent.step (h : Coherent p.slots) (env : Answers) (e : Event) :
    Coherent (step p env e).slots := by
  cases e with
  | ring moduleId audioDevice => exact h.ring env moduleId audioDevice
  | hangup | lineIdle => exact h.release
  | networkLost => exact h.modifyFirst (fun _ => by simp) fun _ => .networkLost
  | smsReceived | criticalAlert | shutdown => exact h
  | workerExited slot instanceId =>
    change Coherent (onWorkerExit p slot instanceId).slots
    unfold onWorkerExit
    split
    · exact h
    · exact h.modifyFirst (fun _ => rfl) fun _ hs => hs.parked.released
  | control cmd =>
    cases cmd with
    | listSlots | getMode | setMode | observe => exact h
    | cardRestart slot =>
      change Coherent (if env.restartAccepted then restartSlot p slot else p).slots
      split
      · exact h.restart slot
      · exact h
  | outboundPoll =>
    change Coherent (handleOutboundPoll p env).slots
    unfold handleOutboundPoll
    split
    · exact h
    · exact h.outbound env
  | sipPeerPoll =>
    change Coherent (pollSipPeerDisconnect p env).slots
    unfold pollSipPeerDisconnect
    split
    · exact h.hangUp
    · exact h
  | retried slot =>
    refine h.modifyFirst (fun s => ?_) fun s hs => hs.retried env
    exact congrArg Prod.fst (retryState_keeps env s).2
  | scheduledRestart slot =>
    change Coherent (sendReboot p slot).slots
    unfold sendReboot
    split
    · split
      · exact h.restart slot
      · exact h
    · exact h
  | reordered slots =>
    change Coherent (if slots.isPerm p.slots then { p with slots } else p).slots
    split
    · rename_i hperm
      have hperm := isPerm_iff.mp hperm
      exact ⟨(hperm.map _).nodup_iff.mpr h.keys, fun s hs => h.each s (hperm.mem_iff.mp hs)⟩
    · exact h

/-! ### One turn -/

/-- After a turn at most one line is in a call, and it is the bridged one unless the turn
separated them. -/
structure Decides (p' : CardPool) (separated : Prop) : Prop where
  short : (calls p'.slots).length ≤ 1
  iff : Bridged p'.sip.activeCall p'.slots ↔ ¬ separated

section Turns

variable {P : SlotState → Bool} {f : SlotState → SlotState} {call : Option Text} {p' : CardPool}
  {separated : Prop} {slots' : Slots}

theorem Decides.kept (h : Bridged p'.sip.activeCall p'.slots) (hnot : ¬ separated) :
    Decides p' separated :=
  ⟨h.length_le, fun _ => hnot, fun _ => h⟩

section

variable (h : Bridged call slots)

include h

theorem Bridged.congr (heq : calls slots' = calls slots) : Bridged call slots' := by
  cases h with
  | idle h => exact .idle (heq.trans h)
  | call s h hworker => exact .call s (heq.trans h) hworker

theorem Bridged.perm (hperm : slots'.Perm slots) : Bridged call slots' := by
  have hcalls := hperm.filter SlotState.inCall
  cases h with
  | idle hnil => exact .idle (perm_nil.mp (hnil ▸ hcalls))
  | call s hone hworker => exact .call s (perm_singleton.mp (hone ▸ hcalls)) hworker

/-- A line in a call is the bridged one, and has its worker. -/
theorem Bridged.of_inCallAt (hfind : slots.find? P = some s) (hs : s.inCall = true) :
    call = some s.moduleId ∧ calls slots = [s] ∧ s.cmdTx = true := by
  cases h with
  | idle hnone => exact absurd ⟨s, hfind, hs⟩ (not_inCallAt hnone)
  | call t hone hworker =>
    obtain ⟨rfl, -⟩ := calls_modifyFirst_only (f := id) hone hfind hs
    exact ⟨rfl, hone, hworker⟩

theorem Bridged.quiet (hnone : call = none) : calls slots = [] := by
  cases h with
  | idle hnil => exact hnil
  | call => cases hnone

/-- The bridged line leaves its call. -/
theorem Bridged.calls_drop (hat : InCallAt slots P) (hf : ∀ s, (f s).inCall = false) :
    call.isSome = true ∧ calls (modifyFirst slots P f) = [] := by
  obtain ⟨s, hfind, hs⟩ := hat
  obtain ⟨rfl, hone, -⟩ := h.of_inCallAt hfind hs
  refine ⟨rfl, (calls_modifyFirst_only hone hfind hs).2.trans ?_⟩
  simp [hf]

end

/-- Another line is changed, and does not come into a call. -/
theorem calls_keep (hat : ¬ InCallAt slots P)
    (hf : ∀ s, s.inCall = false → (f s).inCall = false) :
    calls (modifyFirst slots P f) = calls slots := by
  refine calls_modifyFirst_idle fun s hfind => ?_
  have hs : s.inCall = false := Bool.eq_false_iff.mpr fun hs => hat ⟨s, hfind, hs⟩
  exact ⟨hs, hf s hs⟩

theorem bridged_iff_of_nil (hnil : calls slots = []) : Bridged call slots ↔ call = none := by
  refine ⟨fun h => ?_, fun h => h ▸ .idle hnil⟩
  cases h with
  | idle => rfl
  | call s hone => simp [hnil] at hone

theorem bridged_iff_of_one (hone : calls slots = [s]) :
    Bridged call slots ↔ call = some s.moduleId ∧ s.cmdTx = true := by
  refine ⟨fun h => ?_, fun ⟨hcall, hworker⟩ => hcall ▸ .call s hone hworker⟩
  cases h with
  | idle hnil => simp [hnil] at hone
  | call t htone hworker =>
    rw [hone] at htone
    cases htone
    exact ⟨rfl, hworker⟩

/-- With no line in a call, a turn keeps to the bridge's having none. -/
theorem Decides.of_nil (hnil : calls p'.slots = [])
    (hiff : p'.sip.activeCall = none ↔ ¬ separated) : Decides p' separated :=
  ⟨by simp [hnil], (bridged_iff_of_nil hnil).trans hiff⟩

theorem Decides.of_one (hone : calls p'.slots = [s])
    (hiff : (p'.sip.activeCall = some s.moduleId ∧ s.cmdTx = true) ↔ ¬ separated) :
    Decides p' separated :=
  ⟨by simp [hone], (bridged_iff_of_one hone).trans hiff⟩

@[simp] theorem inCall_releaseCall (s : SlotState) : s.releaseCall.inCall = false := rfl

@[simp] theorem inCall_requestHangup (sent : Bool) (s : SlotState) :
    (requestHangup sent s).inCall = false := by
  cases sent with
  | true | false => rfl

@[simp] theorem inCall_loseNetwork (s : SlotState) : (loseNetwork s).inCall = false := rfl

section

variable (h : Bridged p.sip.activeCall p.slots)

include h

/-- A line is released, or loses its worker, and the SIP side hears nothing of it. -/
theorem decides_release (hf : ∀ s, (f s).inCall = false) :
    Decides { p with slots := modifyFirst p.slots P f } (InCallAt p.slots P) := by
  by_cases hat : InCallAt p.slots P
  · obtain ⟨hcall, hnil⟩ := h.calls_drop hat hf
    exact .of_nil hnil (by simp [hat, Option.isSome_iff_ne_none.mp hcall])
  · exact .kept (h.congr (calls_keep hat fun s _ => hf s)) hat

theorem decides_restartSlot (slot : Nat) : Decides (restartSlot p slot) (SlotInCall p slot) := by
  by_cases hat : SlotInCall p slot
  · obtain ⟨s, hfind, hs⟩ := hat
    obtain ⟨-, hone, -⟩ := h.of_inCallAt hfind hs
    have hcalls : calls (restartSlot p slot).slots =
        [s.park] :=
      (calls_modifyFirst_only hone hfind hs).2.trans (if_pos hs)
    -- The one line in a call has no worker any more.
    exact .of_one hcalls ⟨nofun, fun hnot => absurd ⟨s, hfind, hs⟩ hnot⟩
  · exact .kept (h.congr (calls_keep hat fun s hs => hs)) hat

theorem decides_exit (slot instanceId : Nat) :
    Decides (onWorkerExit p slot instanceId)
      (∃ key, exitTarget p.slots slot instanceId = some key ∧ SlotInCall p key) := by
  unfold onWorkerExit
  cases exitTarget p.slots slot instanceId with
  | none => exact .kept h (by simp)
  | some key =>
    have hdecide := decides_release (P := fun s => s.slot == key) h fun s =>
      inCall_releaseCall s.park
    exact ⟨hdecide.short, hdecide.iff.trans (by simp [SlotInCall])⟩

/-- A cycle restarts a line only while it is free. -/
theorem bridged_sendReboot (slot : Nat) :
    Bridged (sendReboot p slot).sip.activeCall (sendReboot p slot).slots := by
  unfold sendReboot
  split
  · split
    · refine (decides_restartSlot h slot).iff.mpr fun ⟨t, ht, hin⟩ => ?_
      simp_all [SlotState.inCall]
    · exact h
  · exact h

theorem decides_shutdown :
    Decides { p with sip := p.sip.unregister } (p.sip.activeCall.isSome = true) := by
  generalize hcall : p.sip.activeCall = call at h
  cases h with
  | idle hnil => exact .kept (.idle hnil) nofun
  | call s hone => exact .of_one hone ⟨nofun, fun hnot => absurd rfl hnot⟩

theorem decides_hangup (moduleId : Text) :
    Decides (handleHangup p moduleId)
      (p.sip.activeCall.isSome = true ∧ ¬ LineInCall p moduleId) := by
  by_cases hat : LineInCall p moduleId
  · obtain ⟨-, hnil⟩ := h.calls_drop hat inCall_releaseCall
    exact .kept (.idle hnil) fun hsep => hsep.2 hat
  have hkeep : calls (handleHangup p moduleId).slots = calls p.slots :=
    calls_keep hat fun s _ => inCall_releaseCall s
  generalize hcall : p.sip.activeCall = call at h
  cases h with
  | idle hnil => exact .of_nil (hkeep.trans hnil) (by simp [handleHangup, SipBridge.hangupActiveCall])
  | call s hone => exact .of_one (hkeep.trans hone) ⟨nofun, fun hnot => absurd ⟨rfl, hat⟩ hnot⟩

end

/-- A ring that is put through: there was no call, and the line is in one now. -/
theorem decides_ring_bridged (h : Bridged p.sip.activeCall p.slots) (moduleId : Text)
    {audioDevice : Text} (hput : RingBridged p env audioDevice) {sip : SipBridge}
    (hcall : sip.activeCall = some moduleId) :
    Decides { sip, slots := modifyFirst p.slots (fun s => s.moduleId == moduleId) SlotState.claim }
      (Separates p env (.ring moduleId audioDevice)) := by
  have hquiet := h.quiet hput.2.2.2.2.1
  have hnone : ¬ LineInCall p moduleId := not_inCallAt hquiet
  cases hfind : p.slots.find? fun s => s.moduleId == moduleId with
  | none =>
    refine .of_nil (by rw [modifyFirst_of_none _ hfind]; exact hquiet) ?_
    simp [hcall, Separates, hnone, hput, hfind]
  | some s =>
    have hid : s.moduleId = moduleId := by simpa using find?_some hfind
    cases hhang : s.hangingUp with
    | true =>
      have hidle : calls (modifyFirst p.slots (fun s => s.moduleId == moduleId)
          SlotState.claim) = [] := by
        refine (calls_modifyFirst_idle fun t ht => ?_).trans hquiet
        cases hfind.symm.trans ht
        simp [SlotState.inCall, SlotState.claim, hhang]
      refine .of_nil hidle ?_
      simp [hcall, Separates, hnone, hput, hfind, hhang]
    | false =>
      have hraised := calls_modifyFirst_raise (f := SlotState.claim) hquiet hfind
        (by simp [SlotState.inCall, SlotState.claim, hhang])
      refine .of_one hraised ?_
      simp [SlotState.claim, hcall, hid, Separates, hnone, hput, hfind, hhang]

theorem decides_ring (h : Bridged p.sip.activeCall p.slots) (moduleId audioDevice : Text) :
    Decides (handleRingEvent p env moduleId audioDevice)
      (Separates p env (.ring moduleId audioDevice)) := by
  unfold handleRingEvent
  dsimp only
  obtain ⟨hput, hok, hcall⟩ | ⟨hnot, hfail, hcall⟩ := bridgeRing_cases p env moduleId audioDevice
  · rw [hok]
    exact decides_ring_bridged h moduleId hput hcall
  rw [hfail, hangUpUnbridgedCall, modifyFirst_modifyFirst]
  have hdecide := decides_release (P := fun s => s.moduleId == moduleId) h fun s =>
    inCall_requestHangup (s.claim.cmdTx && env.hangupDelivered) s.claim
  refine ⟨hdecide.short, ?_⟩
  rw [hcall]
  simpa [Separates, LineInCall, hnot] using hdecide.iff
  exact fun _ => rfl

theorem acceptOutbound_cases (sip : SipBridge) (env : Answers) (line alsaDevice : Text) :
    let r := sip.acceptOutbound env line alsaDevice
    (r.2 = true ∧ r.1.activeCall = some line) ∨
      (r.2 = false ∧ r.1.activeCall = sip.activeCall) := by
  unfold SipBridge.acceptOutbound SipBridge.setSoundDevice
  cases env.findAudioDevice alsaDevice with
  | none => exact .inr ⟨rfl, rfl⟩
  | some index =>
    cases env.soundDeviceSet with
    | false => exact .inr ⟨rfl, rfl⟩
    | true =>
      cases env.callAnswered with
      | false => exact .inr ⟨rfl, rfl⟩
      | true => exact .inl ⟨rfl, rfl⟩

/-- An outbound call is bridged to the line that is claimed for it, or the claim is undone. -/
theorem Agreed.outbound (h : Agreed p) (hnone : p.sip.activeCall = none) (env : Answers) :
    Bridged (handleOutboundRequest p env).sip.activeCall (handleOutboundRequest p env).slots := by
  have hquiet := h.bridged.quiet hnone
  unfold handleOutboundRequest
  split
  · exact h.bridged
  split
  · exact h.bridged
  rename_i s slots' hclaim
  obtain ⟨hfind, hworker, hhang, rfl⟩ := claimIdleCsSlot_some h.lines hclaim
  -- Whatever undoes the claim leaves every line outside a call.
  have hundo : ∀ g : SlotState → SlotState, (∀ s, (g s).inCall = false) →
      calls (modifySlot (modifySlot p.slots s.slot SlotState.claim)
        s.slot g) = [] := fun g hg => by
    rw [modifySlot, modifySlot, modifyFirst_modifyFirst]
    · exact (calls_keep (not_inCallAt hquiet) fun _ _ => hg _).trans hquiet
    · exact fun _ => rfl
  split
  · rw [hnone]
    exact .idle (hundo _ inCall_releaseCall)
  split
  · have hraised := calls_modifyFirst_raise (f := SlotState.claim)
      hquiet hfind (by simp [SlotState.inCall, SlotState.claim, hhang])
    dsimp only
    obtain ⟨hok, hcall⟩ | ⟨hfail, hcall⟩ :=
      acceptOutbound_cases p.sip env s.moduleId s.audioDevice
    · rw [hok, hcall]
      exact .call s.claim hraised hworker
    · rw [hfail, hcall, hnone]
      exact .idle (hundo _ (inCall_requestHangup _))
  · rw [hnone]
    exact .idle (hundo _ inCall_releaseCall)
  · rw [hnone]
    exact .idle (hundo _ (inCall_requestHangup _))

/-- The SIP peer's hang-up is passed on to the bridged line, and both sides are released. -/
theorem Bridged.peerGone (h : Bridged call slots) (env : Answers) :
    calls (signalSipPeerHangup slots env) = [] := by
  cases h with
  | idle hnil =>
    exact (calls_keep (not_inCallAt hnil) fun _ _ => inCall_requestHangup _ _).trans hnil
  | call s hone =>
    have hfind := find_inCall_of_calls hone
    refine (calls_modifyFirst_only hone hfind (find?_some hfind)).2.trans ?_
    simp

/-- A retry concerns lines that are not ready; the bridged one is. -/
theorem Agreed.calls_retrySlot (h : Agreed p) (env : Answers) (slot : Nat) :
    calls (retrySlot p env slot).slots = calls p.slots := by
  by_cases hat : SlotInCall p slot
  · obtain ⟨s, hfind, hs⟩ := hat
    obtain ⟨-, hone, hworker⟩ := h.bridged.of_inCallAt hfind hs
    have hready := (h.lines.each s (mem_of_find?_eq_some hfind)).worker.mp hworker
    have hsame : retryState env s = s := by simp [retryState, hready]
    refine ((calls_modifyFirst_only hone hfind hs).2.trans ?_).trans hone.symm
    simp [hsame, hs]
  · refine calls_keep hat fun s hs => ?_
    obtain ⟨-, hflags⟩ := retryState_keeps env s
    simp only [Prod.mk.injEq] at hflags
    simpa [SlotState.inCall, hflags] using hs

theorem Agreed.decides (h : Agreed p) (env : Answers) (e : Event) :
    Decides (step p env e) (Separates p env e) := by
  have hb := h.bridged
  cases e with
  | ring moduleId audioDevice => exact decides_ring hb moduleId audioDevice
  | hangup moduleId => exact decides_hangup hb moduleId
  | lineIdle moduleId =>
    -- The line that is released was hanging up.
    refine .kept (hb.congr (calls_modifyFirst_idle fun s hfind => ⟨?_, rfl⟩)) id
    have hfound := find?_some hfind
    simp_all [SlotState.inCall]
  | networkLost moduleId => exact decides_release hb inCall_loseNetwork
  | smsReceived | criticalAlert => exact .kept hb id
  | workerExited slot instanceId => exact decides_exit hb slot instanceId
  | control cmd =>
    cases cmd with
    | listSlots | getMode | setMode | observe => exact .kept hb id
    | cardRestart slot =>
      change Decides (if env.restartAccepted then restartSlot p slot else p) _
      cases haccept : env.restartAccepted with
      | false => exact .kept hb (by simp [Separates, haccept])
      | true =>
        have hdecide := decides_restartSlot hb slot
        exact ⟨hdecide.short, hdecide.iff.trans (by simp [Separates, haccept])⟩
  | outboundPoll =>
    change Decides (handleOutboundPoll p env) _
    unfold handleOutboundPoll
    split
    · exact .kept hb id
    · rename_i hnone
      exact .kept (h.outbound (Option.not_isSome_iff_eq_none.mp hnone) env) id
  | sipPeerPoll =>
    change Decides (pollSipPeerDisconnect p env) _
    unfold pollSipPeerDisconnect
    split
    · exact .kept (.idle (hb.peerGone env)) id
    · exact .kept hb id
  | retried slot => exact .kept (hb.congr (h.calls_retrySlot env slot)) id
  | scheduledRestart slot => exact .kept (bridged_sendReboot hb slot) id
  | shutdown => exact decides_shutdown hb
  | reordered slots =>
    change Decides (if slots.isPerm p.slots then { p with slots } else p) _
    split
    · rename_i hperm
      exact .kept (hb.perm (isPerm_iff.mp hperm)) id
    · exact .kept hb id

end Turns

/-! ## Whole runs -/

theorem Bootstrapped.agreed (h : Bootstrapped p) : Agreed p := by
  refine ⟨⟨h.keys, fun s hs => ⟨fun hhang => ?_, h.workers s hs⟩⟩, ?_⟩
  · simp [(h.idle s hs).2] at hhang
  · rw [h.sip]
    refine .idle (filter_eq_nil_iff.mpr fun s hs => ?_)
    simp [SlotState.inCall, h.idle s hs]

/-- From the start on, the SIP call and the busy lines agree after every event of exactly those
runs in which no event separates them. -/
theorem agreement_iff (h : Bootstrapped p) (events : List (Answers × Event)) :
    Trace.Always (fun p turn => step p turn.1 turn.2) Agreement p events ↔
      Trace.Each (fun p turn => step p turn.1 turn.2)
        (fun p turn => ¬ Separates p turn.1 turn.2) p events := by
  refine Trace.always_iff_each (fun p => Agreed.agreement) ?_ ?_ h.agreed
  · intro p turn hp hnot
    exact ⟨hp.lines.step turn.1 turn.2, (hp.decides turn.1 turn.2).iff.mpr hnot⟩
  · intro p turn hp hagree
    have hdecides := hp.decides turn.1 turn.2
    exact hdecides.iff.mp (hagree.bridged hdecides.short)

theorem bootstrapped_twoLines : Bootstrapped twoLines where
  keys := by decide
  idle := forall_mem_cons.mpr ⟨⟨rfl, rfl⟩, forall_mem_singleton.mpr ⟨rfl, rfl⟩⟩
  workers := forall_mem_cons.mpr ⟨by decide, forall_mem_singleton.mpr (by decide)⟩
  sip := rfl

/-- A call on one line comes and goes. -/
theorem agreement_ring_hangup :
    Trace.Always (fun p turn => step p turn.1 turn.2) Agreement twoLines
      [(allWorks, .ring "a" "hw:1"), (allWorks, .hangup "a")] := by
  refine (agreement_iff bootstrapped_twoLines _).mpr ⟨?_, ?_, trivial⟩
  · rintro (⟨s, hfind, hs⟩ | ⟨-, hno⟩)
    · cases hfind
      cases hs
    · exact hno ⟨_, rfl, rfl, rfl⟩
  · rintro ⟨-, hno⟩
    exact hno ⟨_, rfl, rfl⟩

/-- The bridged line loses the network: its slot is released, and the SIP call stays up with no
line behind it. -/
theorem networkLost_separates :
    let p := run twoLines
      [(allWorks, .ring "a" "hw:1"), (allWorks, .networkLost "a")]
    Bootstrapped twoLines ∧ p.sip.activeCall = some "a".toList ∧
      (p.slots.map SlotState.inCall) = [false, false] ∧ ¬ Agreement p := by
  refine ⟨bootstrapped_twoLines, rfl, rfl, fun h => ?_⟩
  obtain ⟨s, hfind, -⟩ := h.2 _ rfl
  cases hfind

end Modules
