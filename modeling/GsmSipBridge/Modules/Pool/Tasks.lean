-- SUMMARY: The pool's tasks; the exit of one reaches the entry it was started for.
import Mathlib.Data.List.Nodup
import GsmSipBridge.Modules.Pool
import GsmSipBridge.Lib.Trace

/-!
# Tasks of the pool

Every worker and every fallback restart runs as a task of one set, and reports the
instance of the entry it was started for when it ends. Entries change keys, are given
up, found again and retried meanwhile.
-/

namespace Modules

open Sip

/-- An entry of the pool, with its retry schedule. -/
structure Entry extends SlotState where
  /-- Empty while the module has never been initialised. -/
  imei : Text
  retryCount : Nat
  nextRetryAt : Option Nat
  /-- The task of the worker last started for the entry, which the source does not keep. -/
  worker : Option Nat
  deriving DecidableEq

abbrev Entries := List Entry

inductive TaskKind where
  | worker
  | fallbackRestart
  deriving DecidableEq

/-- A task that has not been joined; what it returns is the key and the instance of its entry. -/
structure Task where
  id : Nat
  slot : Nat
  instanceId : Nat
  kind : TaskKind
  deriving DecidableEq

structure TaskPool where
  entries : Entries
  tasks : List Task
  nextInstance : Nat
  nextTask : Nat

structure ResilienceConfig where
  initialBackoffSec : Nat
  maxBackoffSec : Nat
  maxRetries : Nat

inductive RestartMode where
  | radio
  | full
  deriving DecidableEq

/-- A modem the scan found, and what `try_init_module` makes of it: its slot and IMEI. -/
structure Discovered where
  moduleId : Text
  audioDevice : Text
  init : Option (Nat × Text)

/-- What the pool does with its entries and tasks, one at a time. -/
inductive TaskEvent where
  /-- A module of the first scan, or of a rescan. -/
  | discovered (module : Discovered) (now : Nat)
  | networkLost (moduleId : Text) (now : Nat)
  /-- What rings, hang-ups and outbound calls make of a slot's flags. -/
  | callFlags (slot : Nat) (hasActiveCall hangingUp : Bool)
  | cardRestart (slot : Nat) (mode : RestartMode) (now : Nat)
  | scheduledRestart (slot : Nat) (mode : RestartMode) (now : Nat)
  | retryDue (slot : Nat) (init : Option (Nat × Text)) (now : Nat)
  | exited (task : Nat) (panicked : Bool) (now : Nat)
  | reordered (entries : Entries)

/-! ## The map of entries -/

def backoffDelay (attempt initialSec maxSec : Nat) : Nat :=
  min (min (initialSec * 2 ^ min attempt 30) (2 ^ 64 - 1)) maxSec

def retryDelayFor (mode : RestartMode) (hadWorker : Bool) : Nat :=
  if hadWorker && mode == .full then 10 else 30

def entryAt (entries : Entries) (slot : Nat) : Option Entry :=
  entries.find? fun e => e.slot == slot

/-- `get_mut`, then a change; keys are distinct. -/
def modifyEntry (entries : Entries) (slot : Nat) (f : Entry → Entry) : Entries :=
  entries.map fun e => if e.slot = slot then f e else e

def insertEntry (entries : Entries) (slot : Nat) (e : Entry) : Entries :=
  { e with slot } :: entries.filter fun e => e.slot ≠ slot

def ownsItsKey (e : Entry) : Bool := !e.imei.isEmpty

def liveSlotAt (entries : Entries) (slot : Nat) : Bool :=
  (entryAt entries slot).any fun e => e.lifecycle != .givenUp && ownsItsKey e

/-- The lowest key that is free; there is one among so many. -/
def freeSlotKeyExcept (entries : Entries) (reserved : Option Nat) : Nat :=
  ((List.range (entries.length + 2)).find? fun k =>
    (entryAt entries k).isNone && reserved != some k).getD 0

/-- A parked entry that is in the way is moved to a free key. -/
def placeSlot (entries : Entries) (slot : Nat) (e : Entry) : Entries :=
  match entryAt entries slot with
  | some parked =>
    if ownsItsKey parked then insertEntry entries slot e
    else
      let rest := entries.filter fun e => e.slot ≠ slot
      insertEntry (insertEntry rest (freeSlotKeyExcept rest (some slot)) parked) slot e
  | none => insertEntry entries slot e

def moveSlot (entries : Entries) (source target : Nat) : Entries :=
  if source = target then entries
  else
    match entryAt entries source with
    | some e => placeSlot (entries.filter fun e => e.slot ≠ source) target e
    | none => entries

def findGivenUpSlot (entries : Entries) (moduleId : Text) : Option Nat :=
  (entries.find? fun e => e.lifecycle == .givenUp && e.moduleId == moduleId).map (·.slot)

def clearStaleGivenUp (entries : Entries) (moduleId : Text) : Entries :=
  match findGivenUpSlot entries moduleId with
  | some slot => entries.filter fun e => e.slot ≠ slot
  | none => entries

/-! ## Starting and joining tasks -/

/-- The task, in the pool. -/
def spawn (p : TaskPool) (slot instanceId : Nat) (kind : TaskKind) : TaskPool :=
  { p with
    tasks := p.tasks ++ [{ id := p.nextTask, slot, instanceId, kind }]
    nextTask := p.nextTask + 1 }

/-- An entry for a module that failed to initialise, parked until its first retry. -/
def pendingSlot (config : ResilienceConfig) (instanceId slot : Nat) (module : Discovered)
    (now : Nat) : Entry where
  slot := slot
  instanceId := instanceId
  moduleId := module.moduleId
  audioDevice := module.audioDevice
  lifecycle := .initializing
  cmdTx := false
  hasActiveCall := false
  hangingUp := false
  imei := []
  retryCount := 0
  nextRetryAt := some (now + backoffDelay 0 config.initialBackoffSec config.maxBackoffSec)
  worker := none

/-- An entry that is up, with its worker. -/
def readySlot (instanceId slot task : Nat) (module : Discovered) (imei : Text) : Entry where
  slot := slot
  instanceId := instanceId
  moduleId := module.moduleId
  audioDevice := module.audioDevice
  lifecycle := .ready
  cmdTx := true
  hasActiveCall := false
  hangingUp := false
  imei := imei
  retryCount := 0
  nextRetryAt := none
  worker := some task

/-- A module of a scan, unless its slot is held already. At the first scan nothing has been
given up yet. -/
def discover (config : ResilienceConfig) (p : TaskPool) (module : Discovered) (now : Nat) :
    TaskPool :=
  match module.init with
  | some (slot, imei) =>
    if liveSlotAt p.entries slot then p
    else
      let ready := readySlot p.nextInstance slot p.nextTask module imei
      let entries := placeSlot (clearStaleGivenUp p.entries module.moduleId) slot ready
      spawn { p with entries, nextInstance := p.nextInstance + 1 } slot p.nextInstance .worker
  | none =>
    let slot := freeSlotKeyExcept p.entries none
    { p with
      entries := insertEntry p.entries slot (pendingSlot config p.nextInstance slot module now)
      nextInstance := p.nextInstance + 1 }

def abandonLost (config : ResilienceConfig) (now : Nat) (e : Entry) : Entry :=
  let lost := { e with toSlotState := loseNetwork e.toSlotState }
  if e.lifecycle == .ready then
    { lost with
      retryCount := 0
      nextRetryAt := some (now + backoffDelay 0 config.initialBackoffSec config.maxBackoffSec) }
  else lost

theorem abandonLost_spec (config : ResilienceConfig) (now : Nat) (e : Entry) :
    (abandonLost config now e).toSlotState = loseNetwork e.toSlotState ∧
      (abandonLost config now e).worker = e.worker := by
  unfold abandonLost
  split <;> exact ⟨rfl, rfl⟩

def loseModule (config : ResilienceConfig) (p : TaskPool) (moduleId : Text) (now : Nat) :
    TaskPool :=
  match p.entries.find? fun e => e.moduleId == moduleId with
  | some e => { p with entries := modifyEntry p.entries e.slot (abandonLost config now) }
  | none => p

def awaitRestart (mode : RestartMode) (hadWorker : Bool) (now : Nat) (e : Entry) : Entry :=
  { e with
    toSlotState := e.park
    retryCount := 0
    nextRetryAt := some (now + retryDelayFor mode hadWorker) }

/-- The worker is told to restart the modem and end; without one, a fallback task does it. -/
def restartEntry (p : TaskPool) (slot : Nat) (mode : RestartMode) (now : Nat) : TaskPool :=
  match entryAt p.entries slot with
  | none => p
  | some e =>
    let p := if e.cmdTx then p else spawn p slot e.instanceId .fallbackRestart
    { p with entries := modifyEntry p.entries slot (awaitRestart mode e.cmdTx now) }

def retryFailed (config : ResilienceConfig) (now : Nat) (e : Entry) : Entry :=
  let retryCount := e.retryCount + 1
  if retryCount < config.maxRetries then
    { e with
      retryCount
      nextRetryAt :=
        some (now + backoffDelay retryCount config.initialBackoffSec config.maxBackoffSec) }
  else { e with retryCount, lifecycle := .givenUp, nextRetryAt := none }

def recovered (task : Nat) (imei : Text) (e : Entry) : Entry :=
  { e with
    toSlotState := e.recover
    imei, retryCount := 0, nextRetryAt := none, worker := some task }

/-- The entry keeps its instance; its new worker is another task. -/
def retryEntry (config : ResilienceConfig) (p : TaskPool) (e : Entry)
    (init : Option (Nat × Text)) (now : Nat) : TaskPool :=
  match init with
  | none => { p with entries := modifyEntry p.entries e.slot (retryFailed config now) }
  | some (slot, imei) =>
    if slot ≠ e.slot ∧ liveSlotAt p.entries slot then
      { p with entries := modifyEntry p.entries e.slot (retryFailed config now) }
    else
      let entries := modifyEntry p.entries e.slot (recovered p.nextTask imei)
      let entries := moveSlot (clearStaleGivenUp entries e.moduleId) e.slot slot
      spawn { p with entries } slot e.instanceId .worker

def retryDue (e : Entry) (now : Nat) : Bool :=
  e.lifecycle != .ready && e.lifecycle != .givenUp && e.nextRetryAt.any fun t => t ≤ now

def afterExit (config : ResilienceConfig) (now : Nat) (e : Entry) : Entry :=
  { e with
    toSlotState := e.park.releaseCall
    nextRetryAt :=
      some (now + backoffDelay e.retryCount config.initialBackoffSec config.maxBackoffSec) }

/-- `on_worker_exit`, for a task that did not panic. -/
def parkExited (config : ResilienceConfig) (entries : Entries) (task : Task) (now : Nat) :
    Entries :=
  match exitTarget (entries.map Entry.toSlotState) task.slot task.instanceId with
  | none => entries
  | some slot => modifyEntry entries slot (afterExit config now)

def joinTask (config : ResilienceConfig) (p : TaskPool) (task : Task) (panicked : Bool)
    (now : Nat) : TaskPool :=
  { p with
    tasks := p.tasks.filter fun t => t.id ≠ task.id
    entries := if panicked then p.entries else parkExited config p.entries task now }

/-! ## Runs -/

def taskStep (config : ResilienceConfig) (p : TaskPool) : TaskEvent → TaskPool
  | .discovered module now => discover config p module now
  | .networkLost moduleId now => loseModule config p moduleId now
  | .callFlags slot hasActiveCall hangingUp =>
    { p with entries := modifyEntry p.entries slot fun e => { e with hasActiveCall, hangingUp } }
  | .cardRestart slot mode now => restartEntry p slot mode now
  | .scheduledRestart slot mode now =>
    match entryAt p.entries slot with
    | some e =>
      if e.lifecycle == .ready && !e.hasActiveCall then restartEntry p slot mode now else p
    | none => p
  | .retryDue slot init now =>
    match entryAt p.entries slot with
    | some e => if retryDue e now then retryEntry config p e init now else p
    | none => p
  | .exited id panicked now =>
    match p.tasks.find? fun t => t.id == id with
    | some task => joinTask config p task panicked now
    | none => p
  | .reordered entries => if entries.isPerm p.entries then { p with entries } else p

/-- Before the first scan. -/
def TaskPool.empty : TaskPool where
  entries := []
  tasks := []
  nextInstance := 1
  nextTask := 0

/-! ## Exits of finished tasks

An exit is matched by the instance of the entry, which the entry keeps over retries and
changes of key. So an exit never reaches another entry, whoever holds its key by now;
but it reaches the entry's newer worker when a retry brings the entry back before an
older task of it has been joined. -/

open List

variable {config : ResilienceConfig} {p : TaskPool} {entries : Entries} {e : Entry} {slot : Nat}
  {e' : Entry} {t : Task} {entries' : Entries} {f : Entry → Entry}

/-- An exit changes an entry only on behalf of the entry's own worker, the one last started. -/
def ExitOfWorker (config : ResilienceConfig) (p : TaskPool) : TaskEvent → Prop
  | .exited id panicked now => ∀ t, p.tasks.find? (fun t => t.id == id) = some t →
      ∀ e ∈ p.entries, e ∈ (taskStep config p (.exited id panicked now)).entries ∨
        e.worker = some t.id
  | _ => True

/-- The task is the entry's own worker, the one last started, or a fallback restart while the entry
has no worker to disturb. -/
def Serves (t : Task) (e : Entry) : Prop :=
  t.kind = .worker ∧ e.worker = some t.id ∨ t.kind = .fallbackRestart ∧ e.cmdTx = false

/-- A worker has been started for the entry since. -/
def Superseded (t : Task) (e : Entry) : Prop := ∃ worker, e.worker = some worker ∧ t.id < worker

/-- An exit changes an entry only on behalf of a task that was started for it, and that serves it
unless a newer worker has been started. -/
def ExitSpares (config : ResilienceConfig) (p : TaskPool) : TaskEvent → Prop
  | .exited id panicked now => ∀ t, p.tasks.find? (fun t => t.id == id) = some t →
      ∀ e ∈ p.entries, e ∈ (taskStep config p (.exited id panicked now)).entries ∨
        t.instanceId = e.instanceId ∧ (¬ Superseded t e → Serves t e)
  | _ => True

/-! ### The map of entries -/

/-- Keys and instances are distinct. -/
structure Tidy (entries : Entries) : Prop where
  keys : (entries.map fun e => e.slot).Nodup
  instances : (entries.map fun e => e.instanceId).Nodup

theorem Tidy.filter (h : Tidy entries) (P : Entry → Bool) : Tidy (entries.filter P) :=
  ⟨h.keys.sublist (filter_sublist.map _), h.instances.sublist (filter_sublist.map _)⟩

theorem Tidy.modify (h : Tidy entries) (hslot : ∀ e, (f e).slot = e.slot)
    (hinst : ∀ e, (f e).instanceId = e.instanceId) (slot : Nat) :
    Tidy (modifyEntry entries slot f) := by
  have hkeep : ∀ {β : Type} (g : Entry → β), (∀ e, g (f e) = g e) →
      (modifyEntry entries slot f).map g = entries.map g := fun g hg => by
    refine (map_map ..).trans (map_congr_left fun e _ => ?_)
    dsimp only [Function.comp]
    split
    · exact hg e
    · rfl
  exact ⟨by rw [hkeep _ hslot]; exact h.keys, by rw [hkeep _ hinst]; exact h.instances⟩

theorem Tidy.insert (h : Tidy entries) (slot : Nat)
    (hfresh : ∀ e' ∈ entries, e'.slot ≠ slot → e'.instanceId ≠ e.instanceId) :
    Tidy (insertEntry entries slot e) := by
  have hrest := h.filter fun e => e.slot ≠ slot
  refine ⟨nodup_cons.mpr ⟨?_, hrest.keys⟩, nodup_cons.mpr ⟨?_, hrest.instances⟩⟩
  · simp
  · simp only [mem_map, mem_filter, decide_eq_true_eq]
    rintro ⟨e', ⟨hmem, hne⟩, heq⟩
    exact hfresh e' hmem hne heq

theorem mem_of_entryAt (h : entryAt entries slot = some e) : e ∈ entries ∧ e.slot = slot :=
  ⟨mem_of_find?_eq_some h, by simpa using find?_some h⟩

theorem Tidy.eq_of_slot (h : Tidy entries) (he : e ∈ entries) (he' : e' ∈ entries)
    (heq : e.slot = e'.slot) : e = e' :=
  inj_on_of_nodup_map h.keys he he' heq

theorem Tidy.eq_of_instance (h : Tidy entries) (he : e ∈ entries) (he' : e' ∈ entries)
    (heq : e.instanceId = e'.instanceId) : e = e' :=
  inj_on_of_nodup_map h.instances he he' heq

/-! #### Entries under another key -/

/-- The same entry, perhaps under another key. -/
structure Rekeys (e e' : Entry) : Prop where
  instanceId : e'.instanceId = e.instanceId
  worker : e'.worker = e.worker
  cmdTx : e'.cmdTx = e.cmdTx

theorem Rekeys.refl (e : Entry) : Rekeys e e := ⟨rfl, rfl, rfl⟩

theorem Rekeys.superseded (h : Rekeys e e') : Superseded t e' ↔ Superseded t e := by
  simp [Superseded, h.worker]

theorem Rekeys.serves (h : Rekeys e e') : Serves t e' ↔ Serves t e := by
  simp [Serves, h.worker, h.cmdTx]

/-- Every entry is one of the given ones, perhaps under another key. -/
def Rekeyed (entries entries' : Entries) : Prop :=
  ∀ e' ∈ entries', ∃ e ∈ entries, Rekeys e e'

theorem Rekeyed.of_subset (h : ∀ e ∈ entries', e ∈ entries) :
    Rekeyed entries entries' := fun e he => ⟨e, h e he, .refl e⟩

theorem Rekeyed.trans {entries'' : Entries} (h : Rekeyed entries entries')
    (h' : Rekeyed entries' entries'') : Rekeyed entries entries'' := by
  intro e'' he''
  obtain ⟨e', he', hsame'⟩ := h' e'' he''
  obtain ⟨e, he, hsame⟩ := h e' he'
  exact ⟨e, he, hsame'.instanceId.trans hsame.instanceId, hsame'.worker.trans hsame.worker,
    hsame'.cmdTx.trans hsame.cmdTx⟩

theorem Rekeyed.cons (h : Rekeyed entries entries') (e : Entry) :
    Rekeyed (e :: entries) (e :: entries') := by
  refine forall_mem_cons.mpr ⟨⟨e, mem_cons_self, .refl e⟩, fun e' he' => ?_⟩
  obtain ⟨e₀, he₀, hsame⟩ := h e' he'
  exact ⟨e₀, mem_cons_of_mem _ he₀, hsame⟩

theorem rekeyed_insert (entries : Entries) (slot : Nat) (e : Entry) :
    Rekeyed (e :: entries) (insertEntry entries slot e) :=
  forall_mem_cons.mpr ⟨⟨e, mem_cons_self, rfl, rfl, rfl⟩, fun e' he' =>
    ⟨e', mem_cons_of_mem _ (mem_of_mem_filter he'), .refl e'⟩⟩

/-- An entry is taken out of the map. -/
theorem rekeyed_out (h : entryAt entries slot = some e) (P : Entry → Bool) :
    Rekeyed entries (e :: entries.filter P) :=
  .of_subset (forall_mem_cons.mpr ⟨(mem_of_entryAt h).1, fun _ => mem_of_mem_filter⟩)

theorem Rekeyed.instance_ne (h : Rekeyed entries entries') {n : Nat}
    (hne : ∀ e ∈ entries, e.instanceId ≠ n) : ∀ e ∈ entries', e.instanceId ≠ n := by
  intro e' he'
  obtain ⟨e, he, hsame⟩ := h e' he'
  rw [hsame.instanceId]
  exact hne e he

theorem rekeyed_place (entries : Entries) (slot : Nat) (e : Entry) :
    Rekeyed (e :: entries) (placeSlot entries slot e) := by
  unfold placeSlot
  split
  · rename_i parked hparked
    split
    · exact rekeyed_insert entries slot e
    · -- The parked entry goes to its new key first.
      exact .trans (.cons (.trans (rekeyed_out hparked _) (rekeyed_insert _ _ parked)) e)
        (rekeyed_insert _ slot e)
  · exact rekeyed_insert entries slot e

theorem Tidy.place (h : Tidy entries) (slot : Nat)
    (hfresh : ∀ e' ∈ entries, e'.instanceId ≠ e.instanceId) : Tidy (placeSlot entries slot e) := by
  unfold placeSlot
  split
  · rename_i parked hparked
    obtain ⟨hmem, hslot⟩ := mem_of_entryAt hparked
    split
    · exact h.insert slot fun e' he' _ => hfresh e' he'
    refine Tidy.insert ?_ slot fun e' he' _ => ?_
    · refine (h.filter _).insert _ fun e' he' _ heq => ?_
      obtain ⟨he', hne⟩ := mem_filter.mp he'
      cases h.eq_of_instance he' hmem heq
      simp [hslot] at hne
    · exact ((rekeyed_out hparked _).trans (rekeyed_insert _ _ parked)).instance_ne hfresh e' he'
  · exact h.insert slot fun e' he' _ => hfresh e' he'

theorem rekeyed_move (entries : Entries) (source target : Nat) :
    Rekeyed entries (moveSlot entries source target) := by
  unfold moveSlot
  split
  · exact .of_subset fun _ => id
  split
  · rename_i e he
    exact (rekeyed_out he _).trans (rekeyed_place _ target e)
  · exact .of_subset fun _ => id

theorem Tidy.move (h : Tidy entries) (source target : Nat) :
    Tidy (moveSlot entries source target) := by
  unfold moveSlot
  split
  · exact h
  split
  · rename_i e he
    obtain ⟨hmem, hslot⟩ := mem_of_entryAt he
    refine (h.filter _).place target fun e' he' heq => ?_
    obtain ⟨he', hne⟩ := mem_filter.mp he'
    cases h.eq_of_instance he' hmem heq
    simp [hslot] at hne
  · exact h

theorem rekeyed_clear (entries : Entries) (moduleId : Text) :
    Rekeyed entries (clearStaleGivenUp entries moduleId) := by
  unfold clearStaleGivenUp
  split
  · exact .of_subset fun _ => mem_of_mem_filter
  · exact .of_subset fun _ => id

theorem Tidy.clear (h : Tidy entries) (moduleId : Text) :
    Tidy (clearStaleGivenUp entries moduleId) := by
  unfold clearStaleGivenUp
  split
  · exact h.filter _
  · exact h

theorem mem_modifyEntry (h : e' ∈ modifyEntry entries slot f) :
    ∃ e ∈ entries, (e.slot = slot ∧ e' = f e) ∨ (e.slot ≠ slot ∧ e' = e) := by
  obtain ⟨e, he, rfl⟩ := mem_map.mp h
  by_cases hslot : e.slot = slot
  · exact ⟨e, he, .inl ⟨hslot, if_pos hslot⟩⟩
  · exact ⟨e, he, .inr ⟨hslot, if_neg hslot⟩⟩

/-! ### Tasks and the entries they serve -/

/-- Every task that has not been joined serves the entry it was started for, if that is there and
has no newer worker. -/
structure InStep (p : TaskPool) : Prop where
  tidy : Tidy p.entries
  entriesBelow : ∀ e ∈ p.entries, e.instanceId < p.nextInstance
  tasksBelow : ∀ t ∈ p.tasks, t.instanceId < p.nextInstance ∧ t.id < p.nextTask
  serves : ∀ t ∈ p.tasks, ∀ e ∈ p.entries, t.instanceId = e.instanceId →
    ¬ Superseded t e → Serves t e

theorem inStep_empty : InStep .empty where
  tidy := ⟨.nil, .nil⟩
  entriesBelow := nofun
  tasksBelow := nofun
  serves := nofun

namespace InStep

variable (h : InStep p)

include h

/-- Entries that come from others of the same instance, and are served if those are. -/
theorem replace (htidy : Tidy entries')
    (hfrom : ∀ e' ∈ entries', ∃ e ∈ p.entries, e'.instanceId = e.instanceId ∧
      ∀ t ∈ p.tasks, (¬ Superseded t e → Serves t e) → ¬ Superseded t e' → Serves t e') :
    InStep { p with entries := entries' } := by
  refine ⟨htidy, fun e' he' => ?_, h.tasksBelow, fun t ht e' he' heq => ?_⟩
  · obtain ⟨e, he, hinst, -⟩ := hfrom e' he'
    rw [hinst]
    exact h.entriesBelow e he
  · obtain ⟨e, he, hinst, hserves⟩ := hfrom e' he'
    exact hserves t ht (h.serves t ht e he (heq.trans hinst))

theorem rekey (htidy : Tidy entries') (hrekeyed : Rekeyed p.entries entries') :
    InStep { p with entries := entries' } := by
  refine h.replace htidy fun e' he' => ?_
  obtain ⟨e, he, hsame⟩ := hrekeyed e' he'
  exact ⟨e, he, hsame.instanceId, fun t _ => by rw [hsame.superseded, hsame.serves]; exact id⟩

/-- A change that starts no worker. -/
theorem modify (hslot : ∀ e, (f e).slot = e.slot) (hinst : ∀ e, (f e).instanceId = e.instanceId)
    (hworker : ∀ e, (f e).worker = e.worker) (hcmd : ∀ e, e.cmdTx = false → (f e).cmdTx = false)
    (slot : Nat) : InStep { p with entries := modifyEntry p.entries slot f } := by
  refine h.replace (h.tidy.modify hslot hinst slot) fun e' he' => ?_
  obtain ⟨e, he, ⟨-, rfl⟩ | ⟨-, rfl⟩⟩ := mem_modifyEntry he'
  · refine ⟨e, he, hinst e, fun t _ hserves hnew => ?_⟩
    rw [Superseded, hworker] at hnew
    obtain ⟨hkind, hown⟩ | ⟨hkind, hnone⟩ := hserves hnew
    · exact .inl ⟨hkind, (hworker e).trans hown⟩
    · exact .inr ⟨hkind, hcmd e hnone⟩
  · exact ⟨e', he, rfl, fun _ _ => id⟩

/-- A task is started for an entry that it serves. -/
theorem spawn (slot instanceId : Nat) (kind : TaskKind) (hbelow : instanceId < p.nextInstance)
    (hserves : ∀ e ∈ p.entries, instanceId = e.instanceId →
      Serves ⟨p.nextTask, slot, instanceId, kind⟩ e) :
    InStep (Modules.spawn p slot instanceId kind) := by
  refine ⟨h.tidy, h.entriesBelow, forall_mem_append.mpr ⟨fun t ht => ?_, ?_⟩,
    forall_mem_append.mpr ⟨h.serves, ?_⟩⟩
  · exact ⟨(h.tasksBelow t ht).1, Nat.lt_succ_of_lt (h.tasksBelow t ht).2⟩
  · exact forall_mem_singleton.mpr ⟨hbelow, Nat.lt_succ_self _⟩
  · exact forall_mem_singleton.mpr fun e he heq _ => hserves e he heq

/-- An entry with an instance of its own is added. -/
theorem add (hinst : e.instanceId = p.nextInstance) (htidy : Tidy entries')
    (hrekeyed : Rekeyed (e :: p.entries) entries') :
    InStep { p with entries := entries', nextInstance := p.nextInstance + 1 } := by
  refine ⟨htidy, fun e' he' => ?_,
    fun t ht => ⟨Nat.lt_succ_of_lt (h.tasksBelow t ht).1, (h.tasksBelow t ht).2⟩,
    fun t ht e' he' heq hnew => ?_⟩
  · obtain ⟨e₀, he₀, hsame⟩ := hrekeyed e' he'
    rw [hsame.instanceId]
    rcases mem_cons.mp he₀ with rfl | he₀
    · exact hinst ▸ Nat.lt_succ_self _
    · exact Nat.lt_succ_of_lt (h.entriesBelow e₀ he₀)
  · obtain ⟨e₀, he₀, hsame⟩ := hrekeyed e' he'
    have heq := heq.trans hsame.instanceId
    rw [hsame.superseded] at hnew
    rcases mem_cons.mp he₀ with rfl | he₀
    · exact absurd (heq.trans hinst) (Nat.ne_of_lt (h.tasksBelow t ht).1)
    · exact hsame.serves.mpr (h.serves t ht e₀ he₀ heq hnew)

theorem fresh : ∀ e ∈ p.entries, e.instanceId ≠ p.nextInstance := fun e he =>
  Nat.ne_of_lt (h.entriesBelow e he)

theorem discover (module : Discovered) (now : Nat) :
    InStep (Modules.discover config p module now) := by
  unfold Modules.discover
  split
  · rename_i slot imei hinit
    split
    · exact h
    have hkept := rekeyed_clear p.entries module.moduleId
    have hplaced := (hkept.cons (readySlot p.nextInstance slot p.nextTask module imei)).trans
      (rekeyed_place _ slot _)
    have hadded := h.add (by rfl) ((h.tidy.clear _).place slot (hkept.instance_ne h.fresh)) hplaced
    refine hadded.spawn slot p.nextInstance .worker (Nat.lt_succ_self _) fun e he heq => ?_
    obtain ⟨e₀, he₀, hsame⟩ := hplaced e he
    rcases mem_cons.mp he₀ with rfl | he₀
    · exact .inl ⟨rfl, hsame.worker⟩
    · exact absurd (heq.trans hsame.instanceId).symm (h.fresh e₀ he₀)
  · exact h.add (by rfl) (h.tidy.insert _ fun e he _ => h.fresh e he) (rekeyed_insert _ _ _)

theorem restart (slot : Nat) (mode : RestartMode) (now : Nat) :
    InStep (restartEntry p slot mode now) := by
  unfold restartEntry
  split
  · exact h
  rename_i e hat
  have hmem := (mem_of_entryAt hat).1
  split
  · exact h.modify (f := awaitRestart mode e.cmdTx now) (fun _ => rfl) (fun _ => rfl)
      (fun _ => rfl) (fun _ _ => rfl) slot
  rename_i hnone
  refine (h.spawn slot e.instanceId .fallbackRestart (h.entriesBelow e hmem)
    fun e' he' heq => ?_).modify (f := awaitRestart mode e.cmdTx now) (fun _ => rfl)
    (fun _ => rfl) (fun _ => rfl) (fun _ _ => rfl) slot
  cases h.tidy.eq_of_instance hmem he' heq
  exact .inr ⟨rfl, Bool.eq_false_iff.mpr hnone⟩

theorem failed (now : Nat) (slot : Nat) :
    InStep { p with entries := modifyEntry p.entries slot (retryFailed config now) } := by
  refine h.modify ?_ ?_ ?_ ?_ slot
  all_goals
    intro e
    unfold retryFailed
    dsimp only
    split
  all_goals first | rfl | exact id

/-- The new worker is the entry's own; an older task of it is superseded. -/
theorem recover (slot : Nat) (imei : Text) :
    InStep { p with entries := modifyEntry p.entries slot (recovered p.nextTask imei) } := by
  refine h.replace (h.tidy.modify (f := recovered p.nextTask imei) (fun _ => rfl) (fun _ => rfl) slot)
    fun e' he' => ?_
  obtain ⟨e, he, ⟨-, rfl⟩ | ⟨-, rfl⟩⟩ := mem_modifyEntry he'
  · refine ⟨e, he, rfl, fun t ht _ hnew => ?_⟩
    exact absurd ⟨p.nextTask, rfl, (h.tasksBelow t ht).2⟩ hnew
  · exact ⟨e', he, rfl, fun _ _ => id⟩

theorem retry (init : Option (Nat × Text)) (now : Nat) (hmem : e ∈ p.entries) :
    InStep (retryEntry config p e init now) := by
  unfold retryEntry
  split
  · exact h.failed now e.slot
  rename_i slot imei
  split
  · exact h.failed now e.slot
  have hup := h.recover e.slot imei
  have hmoved := (rekeyed_clear _ e.moduleId).trans
    (rekeyed_move (clearStaleGivenUp (modifyEntry p.entries e.slot
      (recovered p.nextTask imei)) e.moduleId) e.slot slot)
  refine (hup.rekey ((hup.tidy.clear _).move _ _) hmoved).spawn slot e.instanceId .worker
    (h.entriesBelow e hmem) fun e' he' heq => ?_
  obtain ⟨e₁, he₁, hsame⟩ := hmoved e' he'
  obtain ⟨e₀, he₀, ⟨-, rfl⟩ | ⟨hslot, rfl⟩⟩ := mem_modifyEntry he₁
  · exact .inl ⟨rfl, hsame.worker⟩
  · cases h.tidy.eq_of_instance he₀ hmem (heq.trans hsame.instanceId).symm
    exact absurd rfl hslot

end InStep

/-! ### One turn -/

theorem exitTarget_some {slots : Slots} {instanceId key : Nat}
    (h : exitTarget slots slot instanceId = some key) :
    ∃ s ∈ slots, s.slot = key ∧ s.instanceId = instanceId := by
  have hby : ((slots.find? fun s => s.instanceId == instanceId).map SlotState.slot) = some key →
      ∃ s ∈ slots, s.slot = key ∧ s.instanceId = instanceId := fun h => by
    obtain ⟨s, hfind, hslot⟩ := Option.map_eq_some_iff.mp h
    exact ⟨s, mem_of_find?_eq_some hfind, hslot, by simpa using find?_some hfind⟩
  unfold exitTarget at h
  split at h
  · rename_i s hfind
    split at h
    · rename_i hinst
      cases h
      exact ⟨s, mem_of_find?_eq_some hfind, by simpa using find?_some hfind, by simpa using hinst⟩
    · exact hby h
  · exact hby h

theorem InStep.taskStep (h : InStep p) (ev : TaskEvent) : InStep (taskStep config p ev) := by
  cases ev with
  | discovered module now => exact h.discover module now
  | networkLost moduleId now =>
    change InStep (loseModule config p moduleId now)
    unfold loseModule
    split
    · have hlost := abandonLost_spec config now
      refine h.modify (fun e => by simp [hlost]) (fun e => by simp [hlost]) (fun e => (hlost e).2)
        (fun e hnone => ?_) _
      rw [(hlost e).1, loseNetwork]
      split
      · rfl
      · exact hnone
    · exact h
  | callFlags slot hasActiveCall hangingUp =>
    exact h.modify (f := fun e => { e with hasActiveCall, hangingUp }) (fun _ => rfl)
      (fun _ => rfl) (fun _ => rfl) (fun _ => id) slot
  | cardRestart slot mode now => exact h.restart slot mode now
  | scheduledRestart slot mode now =>
    unfold Modules.taskStep
    dsimp only
    split
    · split
      · exact h.restart slot mode now
      · exact h
    · exact h
  | retryDue slot init now =>
    unfold Modules.taskStep
    dsimp only
    split
    · rename_i e hat
      split
      · exact h.retry init now (mem_of_entryAt hat).1
      · exact h
    · exact h
  | exited id panicked now =>
    unfold Modules.taskStep
    dsimp only
    split
    · rename_i t hfind
      have hfewer : InStep { p with tasks := p.tasks.filter fun t' => t'.id ≠ t.id } :=
        ⟨h.tidy, h.entriesBelow, fun t' ht' => h.tasksBelow t' (mem_of_mem_filter ht'),
          fun t' ht' => h.serves t' (mem_of_mem_filter ht')⟩
      unfold joinTask
      split
      · exact hfewer
      unfold parkExited
      split
      · exact hfewer
      · exact hfewer.modify (f := afterExit config now) (fun _ => rfl) (fun _ => rfl)
          (fun _ => rfl) (fun _ _ => rfl) _
    · exact h
  | reordered entries =>
    unfold Modules.taskStep
    dsimp only
    split
    · rename_i hperm
      have hperm := isPerm_iff.mp hperm
      exact h.rekey ⟨(hperm.map _).nodup_iff.mpr h.tidy.keys,
        (hperm.map _).nodup_iff.mpr h.tidy.instances⟩ (.of_subset fun e => hperm.mem_iff.mp)
    · exact h

theorem taskStep_exited {id : Nat} (hfind : p.tasks.find? (fun t => t.id == id) = some t)
    (panicked : Bool) (now : Nat) :
    taskStep config p (.exited id panicked now) = joinTask config p t panicked now := by
  simp [taskStep, hfind]

theorem InStep.exitSpares (h : InStep p) (ev : TaskEvent) : ExitSpares config p ev := by
  cases ev with
  | exited id panicked now =>
    intro t hfind e he
    rw [taskStep_exited hfind]
    unfold joinTask
    split
    · exact .inl he
    unfold parkExited
    split
    · exact .inl he
    rename_i key htarget
    by_cases hkey : e.slot = key
    · -- The entry under that key is the one with the task's instance.
      obtain ⟨s, hs, hslot, hinst⟩ := exitTarget_some htarget
      obtain ⟨e', he', rfl⟩ := mem_map.mp hs
      cases h.tidy.eq_of_slot he he' (hkey.trans hslot.symm)
      exact .inr ⟨hinst.symm, h.serves t (mem_of_find?_eq_some hfind) e he hinst.symm⟩
    · exact .inl (mem_map.mpr ⟨e, he, if_neg hkey⟩)
  | _ => trivial

/-! ### The slots of the entries

The event loop has the entries without their retry schedules, and does to them what is done
here. -/

def TaskPool.view (p : TaskPool) (sip : SipBridge) : CardPool :=
  ⟨sip, p.entries.map Entry.toSlotState⟩

/-- The turn of the event loop in which a change of the tasks' entries is made. -/
def turnOf (p : TaskPool) : TaskEvent → Option Event
  | .networkLost moduleId _ => some (.networkLost moduleId)
  | .cardRestart slot _ _ => some (.control (.cardRestart slot))
  | .exited id false _ => (p.tasks.find? fun t => t.id == id).map fun t =>
      .workerExited t.slot t.instanceId
  | .retryDue slot none _ => some (.retried slot)
  | _ => none

/-- What a retry that fails comes to. -/
def FailsAs (config : ResilienceConfig) (p : TaskPool) (env : Answers) : TaskEvent → Prop
  | .retryDue slot none now => ∃ e, entryAt p.entries slot = some e ∧ retryDue e now = true ∧
      env.retry = if e.retryCount + 1 < config.maxRetries then .failed else .gaveUp
  | _ => True

variable {P : SlotState → Bool} {g : SlotState → SlotState}

/-- The entry that a lookup finds is the only one under its key. -/
theorem Tidy.view_modify (h : Tidy entries)
    (hfind : (entries.find? fun e => P e.toSlotState) = some e) (hslot : e.slot = slot)
    (hg : (f e).toSlotState = g e.toSlotState) :
    (modifyEntry entries slot f).map Entry.toSlotState =
      modifyFirst (entries.map Entry.toSlotState) P g := by
  subst hslot
  obtain ⟨he, l, r, rfl, hl⟩ := find?_eq_some_iff_append.mp hfind
  have hkeys := h.keys
  rw [map_append, map_cons, nodup_middle, nodup_cons, ← map_append] at hkeys
  have hother : ∀ e' ∈ l ++ r, e'.slot ≠ e.slot := fun e' he' heq =>
    hkeys.1 (mem_map.mpr ⟨e', he', heq⟩)
  rw [forall_mem_append] at hother
  rw [map_append, map_cons, modifyFirst_append (forall_mem_map.mpr hl) he, ← hg]
  unfold modifyEntry
  rw [map_append, map_cons, if_pos rfl, map_congr_left fun e' he' => if_neg (hother.1 e' he'),
    map_congr_left fun e' he' => if_neg (hother.2 e' he'), map_id', map_id', map_append, map_cons]

theorem view_unchanged (hnone : (entries.find? fun e => P e.toSlotState) = none) :
    entries.map Entry.toSlotState = modifyFirst (entries.map Entry.toSlotState) P g := by
  rw [modifyFirst_of_none g (find?_map.trans (congrArg _ hnone))]

/-- Where keys and instances are distinct, the slots of the entries change as in the event loop. -/
theorem Tidy.view_taskStep {env : Answers} {ev : TaskEvent} {turn : Event} (h : Tidy p.entries)
    (hturn : turnOf p ev = some turn) (haccepted : env.restartAccepted = true)
    (hfails : FailsAs config p env ev) (sip : SipBridge) :
    (taskStep config p ev).view sip = step (p.view sip) env turn := by
  unfold turnOf at hturn
  split at hturn
  · cases hturn
    refine congrArg (CardPool.mk sip) ?_
    simp only [taskStep, loseModule]
    split
    · rename_i e hfind
      exact h.view_modify hfind rfl (abandonLost_spec _ _ e).1
    · rename_i hfind
      exact view_unchanged hfind
  · rename_i slot mode now
    cases hturn
    refine Eq.trans (congrArg (CardPool.mk sip) ?_) (if_pos haccepted).symm
    simp only [taskStep, restartEntry]
    split
    · rename_i hat
      exact view_unchanged (P := fun s => s.slot == slot) hat
    · rename_i e hat
      refine Eq.trans ?_ (h.view_modify (P := fun s => s.slot == slot)
        (f := awaitRestart mode e.cmdTx now) hat (mem_of_entryAt hat).2 rfl)
      split <;> rfl
  · obtain ⟨t, hfind, rfl⟩ := Option.map_eq_some_iff.mp hturn
    rw [taskStep_exited hfind]
    simp only [joinTask, parkExited, step, onWorkerExit, TaskPool.view, Bool.false_eq_true,
      if_false]
    cases hkey : exitTarget (p.entries.map Entry.toSlotState) t.slot t.instanceId with
    | none => rfl
    | some key =>
      obtain ⟨s, hs, hslot, -⟩ := exitTarget_some hkey
      obtain ⟨e, he, rfl⟩ := mem_map.mp hs
      have hsome : (entryAt p.entries key).isSome = true :=
        find?_isSome.mpr ⟨e, he, beq_iff_eq.mpr hslot⟩
      obtain ⟨e', hat⟩ := Option.isSome_iff_exists.mp hsome
      exact congrArg (CardPool.mk sip) (h.view_modify hat (mem_of_entryAt hat).2 rfl)
  · cases hturn
    obtain ⟨e, hat, hdue, hretry⟩ := hfails
    have hslot := (mem_of_entryAt hat).2
    simp only [taskStep, hat, hdue, if_true, retryEntry, hslot]
    refine congrArg (CardPool.mk sip) (h.view_modify hat hslot ?_)
    simp only [retryDue, Bool.and_eq_true, bne_iff_ne] at hdue
    simp only [retryFailed, retryState, hretry]
    split <;> simp [hdue]
  · cases hturn

/-! ### Whole runs -/

/-- In every run, an exit changes an entry only on behalf of a task that was started for it: its own
worker, or a fallback restart while it has none, or a task it has a newer worker than. -/
theorem exits_spare (config : ResilienceConfig) (events : List TaskEvent) :
    Trace.Each (taskStep config) (ExitSpares config) .empty events :=
  Trace.each_of_invariant (I := InStep) (fun _ ev hp => hp.taskStep ev)
    (fun _ ev hp => hp.exitSpares ev) inStep_empty events

def defaultResilience : ResilienceConfig where
  initialBackoffSec := 5
  maxBackoffSec := 120
  maxRetries := 10

/-- One modem, which always comes up under the same slot. -/
def modemA : Discovered where
  moduleId := "a"
  audioDevice := "hw:1"
  init := some (0, "imei")

/-- A fallback restart ends and moves the retry of an entry whose worker it is not; and a worker
that was abandoned at the loss of the network ends after a retry, and takes the entry down on
which another worker is running. -/
theorem exits_reach_others :
    ¬ Trace.Each (taskStep defaultResilience) (ExitOfWorker defaultResilience) .empty
        [.discovered modemA 0, .networkLost "a" 10, .exited 0 false 11,
          .cardRestart 0 .full 12, .exited 1 false 20] ∧
      ¬ Trace.Each (taskStep defaultResilience) (ExitOfWorker defaultResilience) .empty
        [.discovered modemA 0, .networkLost "a" 10, .retryDue 0 modemA.init 15,
          .exited 0 false 16] := by
  constructor
  · rintro ⟨-, -, -, -, h, -⟩
    have hexit := h _ rfl _ mem_cons_self
    revert hexit
    decide
  · rintro ⟨-, -, -, h, -⟩
    have hexit := h _ rfl _ mem_cons_self
    revert hexit
    decide

end Modules
