-- SUMMARY: The teardown of a run (`supervise/shutdown.rs`): its plan, budget and deadline.
import GsmSipBridge.Lib.Trace
import GsmSipBridge.Lib.Text
import Mathlib.Algebra.Ring.Nat
import Mathlib.Data.List.Forall2

/-!
# Shutdown

The steps of a teardown stand in the order in which they depend on each other, so the deletes
that release a device come last. A budget holds back what they need, and steps that only wait
are abandoned once no more than that is left. How each step goes, and how long it takes, is
left open.
-/

namespace Supervise.Shutdown

open Clock

def terminateTimeoutSecs : Nat := 5
def deleteLinkTimeoutSecs : Nat := 5
def deleteRetrySettle : Nat := 500000000
def killConfirmMaxPolls : Nat := 20
def pollInterval : Nat := 250000000
def deleteNetnsBudgetSecs : Nat := 1

structure ChildHandle where
  id : Nat

inductive Signal where
  | term
  | kill

inductive TeardownStep where
  | reapInitiates
  | killChild (handle : ChildHandle) (signal : Signal)
  | waitForExit (handle : ChildHandle) (maxPolls : Nat)
  | runInNetns (netns : Text) (argv : List Text)
  | run (argv : List Text)
  | terminateIke (connName : Text) (timeoutSecs : Nat)
  | deleteLink (netns : Option Text) (iface : Text) (timeoutSecs : Nat)
  | flushXfrm
  | deleteNetns (netns : Text)

structure StrongswanTeardownInfo where
  connName : Text
  tunIface : Text

structure StartedVowifiLine where
  strongswan : Option StrongswanTeardownInfo
  netns : Text
  vethHost : Text

structure StartedVolteLine where
  index : Nat
  netns : Text
  carrierAgentHandles : List ChildHandle
  vethHost : Option Text

structure StartedState where
  daemonSupervisor : Option ChildHandle := none
  sipAgentSupervisor : Option ChildHandle := none
  pcscd : Option ChildHandle := none
  vowifiChildHandles : List ChildHandle := []
  startedNetns : List Text := []
  volteLines : List StartedVolteLine := []
  volteBridgeSupervisor : Option ChildHandle := none
  vowifiLines : List StartedVowifiLine := []
  /-- Whether there is a registry of `swanctl --initiate` clients. -/
  initiateClients : Bool := false

/-! ## The plan -/

def StartedVowifiLine.deletes (line : StartedVowifiLine) : List TeardownStep :=
  (line.strongswan.toList.map fun sw =>
    .deleteLink (some line.netns) sw.tunIface deleteLinkTimeoutSecs) ++
  if line.vethHost.isEmpty then [] else [.deleteLink none line.vethHost deleteLinkTimeoutSecs]

def StartedVolteLine.cleanup (configPath : Text) (line : StartedVolteLine) : TeardownStep :=
  .runInNetns line.netns ["gsm-sip-bridge", "--config", configPath,
    "volte-cleanup", "--line", Numeral.display line.index]

namespace StartedState

variable (state : StartedState)

def volteSteps (configPath : Text) : List TeardownStep :=
  if state.volteLines.isEmpty then []
  else
    let agents := state.volteLines.flatMap StartedVolteLine.carrierAgentHandles
    (state.volteBridgeSupervisor.toList ++ agents).map (.killChild · .kill) ++
    agents.map (.waitForExit · killConfirmMaxPolls) ++
    state.volteLines.map (StartedVolteLine.cleanup configPath) ++
    state.volteLines.filterMap fun line => line.vethHost.map fun veth =>
      .deleteLink none veth deleteLinkTimeoutSecs

def buildShutdownPlan (configPath : Text) : List TeardownStep :=
  (if state.initiateClients then [.reapInitiates] else []) ++
  (state.vowifiLines.filterMap fun line => line.strongswan.map fun sw =>
    .terminateIke sw.connName terminateTimeoutSecs) ++
  (state.daemonSupervisor.toList ++ state.sipAgentSupervisor.toList ++
    state.vowifiChildHandles).map (.killChild · .term) ++
  (state.vowifiChildHandles.flatMap fun h =>
    [.waitForExit h killConfirmMaxPolls, .killChild h .kill,
      .waitForExit h killConfirmMaxPolls]) ++
  state.volteSteps configPath ++
  state.pcscd.toList.map (.killChild · .term) ++
  (if state.vowifiLines.any fun line => line.strongswan.isSome then [.flushXfrm] else []) ++
  state.vowifiLines.flatMap StartedVowifiLine.deletes ++
  state.startedNetns.map .deleteNetns

end StartedState

/-! ## Its execution -/

inductive StepOutcome where
  | ok
  | notReleased (reason : Text)
  | abandoned
  deriving DecidableEq

/-- What becomes of a command; the text is what it wrote to its standard error. -/
inductive Ran where
  | exited (success : Bool) (stderr : Text)
  | failed (error : Text)

def runOutcome : Ran → StepOutcome
  | .exited true _ => .ok
  | .exited false stderr => .notReleased (Text.trim stderr)
  | .failed error => .notReleased error

inductive XfrmFlushOutcome where
  | empty
  | flushed
  | leftForeign
  | unreadable

/-- How a step goes. -/
structure Course where
  took : Nat
  ran : Ran := .exited true []
  /-- The second attempt at a delete, if there is one. -/
  retryTook : Nat := 0
  retry : Ran := .exited true []
  /-- How often a child is found alive. -/
  alive : Nat := 0
  flush : XfrmFlushOutcome := .empty

structure TeardownBudget where
  deadline : Nat
  reserve : Nat

def TeardownBudget.new (allowance reserve now : Nat) : TeardownBudget :=
  { deadline := now + allowance, reserve }

def TeardownBudget.exhausted (budget : TeardownBudget) (now : Nat) : Bool :=
  budget.deadline ≤ now + budget.reserve

namespace TeardownStep

def label : TeardownStep → Text
  | reapInitiates => "swanctl --initiate clients"
  | killChild handle _ => "process " ++ Numeral.display handle.id
  | waitForExit handle _ => "process " ++ Numeral.display handle.id ++ " exiting"
  | runInNetns netns argv =>
    "`" ++ " ".toList.intercalate argv ++ "` in netns " ++ netns
  | run argv => "`" ++ " ".toList.intercalate argv ++ "`"
  | terminateIke connName _ => "IKE_SA " ++ connName
  | deleteLink (some netns) iface _ => iface ++ " in netns " ++ netns
  | deleteLink none iface _ => iface
  | flushXfrm => "this deployment's XFRM state"
  | deleteNetns netns => "netns " ++ netns

def isAbandonable : TeardownStep → Bool
  | waitForExit _ _ | runInNetns _ _ | run _ | terminateIke _ _ | flushXfrm => true
  | _ => false

/-- What becomes of a step that is not abandoned. -/
def execute (step : TeardownStep) (course : Course) (mayRetry : Bool) : StepOutcome :=
  match step with
  | reapInitiates | killChild _ _ => .ok
  | waitForExit _ maxPolls =>
    if course.alive < maxPolls then .ok
    else .notReleased "did not exit within the kill-confirm bound"
  | runInNetns _ _ | run _ | terminateIke _ _ | deleteNetns _ => runOutcome course.ran
  | deleteLink _ _ _ =>
    if mayRetry ∧ runOutcome course.ran ≠ .ok then runOutcome course.retry
    else runOutcome course.ran
  | flushXfrm =>
    match course.flush with
    | .empty | .flushed => .ok
    | .leftForeign => .notReleased
      "XFRM state present that is not this deployment's — left untouched, same rule as at startup"
    | .unreadable => .notReleased "could not read the host's XFRM state"

/-- How long it takes; a signal takes no time. -/
def elapsed (step : TeardownStep) (course : Course) (mayRetry : Bool) : Nat :=
  match step with
  | killChild _ _ => 0
  | deleteLink _ _ _ =>
    if mayRetry ∧ runOutcome course.ran ≠ .ok then
      course.took + deleteRetrySettle + course.retryTook
    else course.took
  | _ => course.took

/-- One round of the loop over the plan: the outcome, and the time that it takes. -/
def perform (step : TeardownStep) (budget : TeardownBudget) (now : Nat) (course : Course) :
    StepOutcome × Nat :=
  if step.isAbandonable && budget.exhausted now then (.abandoned, 0)
  else (step.execute course !budget.exhausted now, step.elapsed course !budget.exhausted now)

/-- What `release_reserve_for` counts for a step. -/
def reserve : TeardownStep → Nat
  | deleteLink _ _ timeoutSecs => secs timeoutSecs
  | deleteNetns _ => secs deleteNetnsBudgetSecs
  | _ => 0

end TeardownStep

open TeardownStep

structure StepReport where
  label : Text
  outcome : StepOutcome
  /-- When the step was over. -/
  endedAt : Nat

def executeShutdownPlan (budget : TeardownBudget) :
    Nat → List (TeardownStep × Course) → List StepReport
  | _, [] => []
  | now, (step, course) :: rest =>
    let r := step.perform budget now course
    { label := step.label, outcome := r.1, endedAt := now + r.2 } ::
      executeShutdownPlan budget (now + r.2) rest

/-! ## The deletes and the deadline -/

namespace TeardownStep

def isDelete : TeardownStep → Bool
  | deleteLink _ _ _ | deleteNetns _ => true
  | _ => false

/-- The longest that an attempt at a step may take. -/
def bound : TeardownStep → Nat
  | killChild _ _ => 0
  | waitForExit _ maxPolls => maxPolls * pollInterval
  | terminateIke _ timeoutSecs | deleteLink _ _ timeoutSecs => secs timeoutSecs
  | deleteNetns _ => secs deleteNetnsBudgetSecs
  | reapInitiates | runInNetns _ _ | run _ | flushXfrm => secs 5

end TeardownStep

/-- Every attempt keeps to its bound. -/
def Course.Within (course : Course) (step : TeardownStep) : Prop :=
  course.took ≤ step.bound ∧ course.retryTook ≤ step.bound

/-- Every delete of the plan that is run is attempted, and over before the deadline. -/
def InTime (budget : TeardownBudget) (start : Nat) (run : List (TeardownStep × Course)) : Prop :=
  List.Forall₂ (fun step report => step.isDelete = true →
    report.outcome ≠ .abandoned ∧ report.endedAt < budget.deadline)
    (run.map Prod.fst) (executeShutdownPlan budget start run)

section

variable {step : TeardownStep} {course : Course}

end

namespace Sample

end Sample

open List

def Killed (h : ChildHandle) (plan : List TeardownStep) : Prop :=
  ∃ signal, .killChild h signal ∈ plan

/-- Whenever the child is sent a signal, a wait for it is still to come. -/
def Confirmed (h : ChildHandle) (plan : List TeardownStep) : Prop :=
  ∀ signal rest, .killChild h signal :: rest <:+ plan → ∃ polls, .waitForExit h polls ∈ rest

/-- The device that is deleted: its namespace, unless it is the default one, and its name. -/
def TeardownStep.device? : TeardownStep → Option (Option Text × Text)
  | deleteLink netns iface _ => some (netns, iface)
  | _ => none

def StartedVowifiLine.devices (line : StartedVowifiLine) : List (Option Text × Text) :=
  (line.strongswan.toList.map fun sw => (some line.netns, sw.tunIface)) ++
  if line.vethHost.isEmpty then [] else [(none, line.vethHost)]

namespace StartedState

variable (state : StartedState) (configPath : Text) {h : ChildHandle}

/-- Every tunnel and every host-side end of a veth pair, as often as it is recorded. -/
def devices : List (Option Text × Text) :=
  (state.volteLines.filterMap fun line => line.vethHost.map fun veth => (none, veth)) ++
  state.vowifiLines.flatMap StartedVowifiLine.devices

def carrierAgents : List ChildHandle :=
  state.volteLines.flatMap StartedVolteLine.carrierAgentHandles

/-- The VoLTE bridge, which the plan has a place for where a VoLTE line is recorded. -/
def bridge : List ChildHandle :=
  if state.volteLines.isEmpty then [] else state.volteBridgeSupervisor.toList

def children : List ChildHandle :=
  state.daemonSupervisor.toList ++ state.sipAgentSupervisor.toList ++ state.vowifiChildHandles ++
  state.bridge ++ state.carrierAgents ++ state.pcscd.toList

/-- The plan deals with everything that was started, in order. -/
structure Orderly (plan : List TeardownStep) : Prop where
  killed : ∀ h ∈ state.children, Killed h plan
  vowifiConfirmed : ∀ h ∈ state.vowifiChildHandles, h ∉ state.bridge → state.pcscd ≠ some h →
    Confirmed h plan
  volteConfirmed : ∀ h ∈ state.carrierAgents, state.pcscd ≠ some h → Confirmed h plan
  waitsFirst : ∃ l l', plan = l ++ l' ∧ (∀ h polls, .waitForExit h polls ∉ l') ∧
    .flushXfrm ∉ l ∧ (∀ netns, .deleteNetns netns ∉ l) ∧
    ∀ netns iface secs, .deleteLink netns iface secs ∉ l
  terminatesFirst : ∃ l l', plan = l ++ l' ∧ (∀ conn secs, .terminateIke conn secs ∉ l') ∧
    ∀ h signal, .killChild h signal ∉ l
  devices : plan.filterMap device? = state.devices
  namespaces : ∃ l, plan = l ++ state.startedNetns.map .deleteNetns ∧
    ∀ netns, .deleteNetns netns ∉ l

/-- Without recorded lines, all that the VoLTE section would have is the kill of the bridge. -/
theorem volteSteps_eq : state.volteSteps configPath =
    (state.bridge ++ state.carrierAgents).map (.killChild · .kill) ++
    state.carrierAgents.map (.waitForExit · killConfirmMaxPolls) ++
    state.volteLines.map (StartedVolteLine.cleanup configPath) ++
    state.volteLines.filterMap fun line => line.vethHost.map fun veth =>
      .deleteLink none veth deleteLinkTimeoutSecs := by
  unfold volteSteps bridge carrierAgents
  split
  case isTrue hnil =>
    rw [List.isEmpty_iff.1 hnil]
    rfl
  case isFalse => rfl

theorem killed_child (hh : h ∈ state.children) : Killed h (state.buildShutdownPlan configPath) := by
  rw [buildShutdownPlan, volteSteps_eq]
  simp only [children, mem_append, Option.mem_toList] at hh
  rcases hh with ((((hh | hh) | hh) | hh) | hh) | hh
  · exact ⟨.term, by simp [hh]⟩
  · exact ⟨.term, by simp [hh]⟩
  · exact ⟨.term, by simp [hh]⟩
  · exact ⟨.kill, by simp [hh]⟩
  · exact ⟨.kill, by simp [hh]⟩
  · exact ⟨.term, by simp [hh]⟩

theorem confirmed_of_cut {l l' : List TeardownStep} {polls : Nat}
    (hwait : .waitForExit h polls ∈ l') (hquiet : ¬ Killed h l') : Confirmed h (l ++ l') := by
  induction l with
  | nil => exact fun signal rest hsuffix => absurd ⟨signal, hsuffix.subset mem_cons_self⟩ hquiet
  | cons step l ih =>
    intro signal rest hsuffix
    cases suffix_cons_iff.1 hsuffix with
    | inl heq =>
      cases heq
      exact ⟨polls, mem_append_right l hwait⟩
    | inr hsuffix => exact ih signal rest hsuffix

attribute [simp] StartedVolteLine.cleanup StartedVowifiLine.deletes

theorem confirmed_agent (hh : h ∈ state.carrierAgents) (hpcscd : state.pcscd ≠ some h) :
    Confirmed h (state.buildShutdownPlan configPath) := by
  rw [buildShutdownPlan, volteSteps_eq]
  simp only [append_assoc]
  iterate 4 rw [← append_assoc]
  apply confirmed_of_cut
  · exact mem_append_left _ (mem_map_of_mem hh)
  · simp [Killed, hpcscd]

theorem confirmed_child (hh : h ∈ state.vowifiChildHandles) (hagent : h ∉ state.carrierAgents)
    (hbridge : h ∉ state.bridge) (hpcscd : state.pcscd ≠ some h) :
    Confirmed h (state.buildShutdownPlan configPath) := by
  obtain ⟨later, earlier, hsplit, hlast⟩ := eq_append_cons_of_mem (mem_reverse.2 hh)
  rw [reverse_eq_iff, reverse_append, reverse_cons] at hsplit
  rw [buildShutdownPlan, volteSteps_eq, hsplit]
  simp only [append_assoc, flatMap_append, flatMap_singleton]
  iterate 3 rw [← append_assoc]
  -- the cut is before the last wait for the child
  change Confirmed h (_ ++ ([_, _] ++ ([_] ++ _)))
  rw [← append_assoc]
  apply confirmed_of_cut
  · exact mem_append_left _ mem_cons_self
  · simp [Killed, hlast, hagent, hbridge, hpcscd]

theorem filterMap_deletes (line : StartedVowifiLine) :
    line.deletes.filterMap device? = line.devices := by
  obtain ⟨_ | sw, netns, _ | ⟨c, veth⟩⟩ := line <;> rfl

end StartedState

open StartedState in
/-- For all that was started, the plan has its kills, waits and deletes, and in order. -/
theorem plan_orderly (state : StartedState) (configPath : Text) :
    state.Orderly (state.buildShutdownPlan configPath) where
  killed h hh := state.killed_child configPath hh
  vowifiConfirmed h hh hbridge hpcscd := by
    by_cases hagent : h ∈ state.carrierAgents
    · exact state.confirmed_agent configPath hagent hpcscd
    · exact state.confirmed_child configPath hh hagent hbridge hpcscd
  volteConfirmed h hh hpcscd := state.confirmed_agent configPath hh hpcscd
  waitsFirst := by
    rw [buildShutdownPlan, volteSteps_eq]
    simp only [append_assoc]
    iterate 5 rw [← append_assoc]
    exact ⟨_, _, rfl, by simp, by simp, by simp, by simp⟩
  terminatesFirst := by
    rw [buildShutdownPlan, volteSteps_eq]
    simp only [append_assoc]
    rw [← append_assoc]
    exact ⟨_, _, rfl, by simp, by simp⟩
  devices := by
    rw [buildShutdownPlan, volteSteps_eq]
    simp [filterMap_filterMap, filterMap_flatMap, Function.comp_def, apply_ite (filterMap _),
      filterMap_cons, device?, -StartedVowifiLine.deletes, filterMap_deletes,
      Option.map_eq_bind, Option.bind_assoc, devices]
  namespaces := by
    rw [buildShutdownPlan, volteSteps_eq]
    exact ⟨_, rfl, by simp⟩

/-- A bridge that is recorded without any line is not killed. -/
theorem bridge_spared_without_lines :
    ¬ ∀ (state : StartedState) (configPath : Text), ∀ h ∈ state.volteBridgeSupervisor,
      Killed h (state.buildShutdownPlan configPath) := by
  intro h
  obtain ⟨signal, hmem⟩ := h { volteBridgeSupervisor := some ⟨7⟩ } [] ⟨7⟩ rfl
  exact not_mem_nil hmem

end Supervise.Shutdown
