-- SUMMARY: The alert timeline (`store/events.rs`): open alerts, and the rows of raises and resolves.
import GsmSipBridge.Lib.Trace
import GsmSipBridge.Lib.Bytes
import Mathlib.Data.List.AList

/-!
# The alert timeline

Which alerts are open is kept in memory; the store finds the row that a resolve closes by the
second in which that was raised. Times are in nanoseconds, durations in milliseconds; a stored
kind stands for its text, a stored time for the second that its text names. Events other than
alerts are left out.
-/

namespace Store.Events

open List

inductive EventKind where
  | alertRaised (category : Text)
  | alertResolved (category : Text)
deriving DecidableEq

def EventKind.category : EventKind → Text
  | alertRaised c | alertResolved c => c

def EventKind.severity : EventKind → Text
  | alertRaised _ => "critical"
  | alertResolved _ => "info"

structure EventRecord where
  time : Int
  moduleId : Option Text
  kind : EventKind
  detail : Text
  duration : Option Nat
  resolvesRaiseAt : Option Int

structure Row where
  id : Nat
  second : Int
  moduleId : Option Text
  kind : EventKind
  severity : Text
  detail : Text
  raiseId : Option Nat
  duration : Option Nat

def maxDetailChars : Nat := 500

def stamp (t : Int) : Int := t / 1000000000

/-- `SELECT id FROM events WHERE kind = ?1 AND module_id IS ?2 AND at = ?3 ORDER BY id DESC`. -/
def raiseId (rows : List Row) (record : EventRecord) : Option Nat :=
  match record.kind, record.resolvesRaiseAt with
  | .alertResolved category, some raiseAt =>
    (rows.filter fun r => r.kind == .alertRaised category && r.moduleId == record.moduleId &&
      r.second == stamp raiseAt).getLast?.map Row.id
  | _, _ => none

def insertEvent (rows : List Row) (record : EventRecord) : List Row :=
  rows ++ [{
    id := rows.length + 1
    second := stamp record.time
    moduleId := record.moduleId
    kind := record.kind
    severity := record.kind.severity
    detail := record.detail.take maxDetailChars
    raiseId := raiseId rows record
    duration := record.duration }]

abbrev OpenKey := Text × Option Text

abbrev Opened := AList fun _ : OpenKey => Int

structure Alert where
  category : Text
  moduleId : Option Text
  raised : Bool
  detail : Text
  time : Int

def recordAlert (opened : Opened) (a : Alert) : Opened × List EventRecord :=
  let key := (a.category, a.moduleId)
  match a.raised, opened.lookup key with
  | true, some _ | false, none => (opened, [])
  | true, none => (opened.insert key a.time,
      [⟨a.time, a.moduleId, .alertRaised a.category, a.detail, none, none⟩])
  | false, some raisedAt => (opened.erase key,
      [⟨a.time, a.moduleId, .alertResolved a.category, a.detail,
        some ((a.time - raisedAt).tdiv 1000000).toNat, some raisedAt⟩])

structure OpenRaise where
  category : Text
  moduleId : Option Text
  since : Int

def openRaises (opened : Opened) : List OpenRaise :=
  (opened.entries.map fun e => ⟨e.1.1, e.1.2, e.2⟩).mergeSort fun a b => a.since ≤ b.since

/-! ## Pairs of rows -/

def OpenRaise.key (o : OpenRaise) : OpenKey := (o.category, o.moduleId)

def Row.key (r : Row) : OpenKey := (r.kind.category, r.moduleId)

variable (key : OpenKey) (rows : List Row)

def rowsOf : List Row := rows.filter (·.key == key)

/-- Raises and resolves in turn, each resolve with the id of the raise before it. The first
argument says whether the last row is a raise. -/
inductive Paired : Bool → List Row → Prop
  | nil : Paired false []
  | raise {l : List Row} {r : Row} (h : Paired false l) (hr : r.kind = .alertRaised key.1) :
      Paired true (l ++ [r])
  | resolve {l : List Row} {r r' : Row} (h : Paired true (l ++ [r]))
      (hr : r'.kind = .alertResolved key.1) (hid : r'.raiseId = some r.id) : Paired false (l ++ [r, r'])

/-- What the rows of an alert are, given since when it is open. -/
def Agrees (key : OpenKey) : Option Int → List Row → Prop
  | none, l => Paired key false l
  | some t, l => ∃ l' r, l = l' ++ [r] ∧ Paired key false l' ∧ r.kind = .alertRaised key.1 ∧
      r.second = stamp t

variable {key rows} {r : Row} {opened opened' : Opened}

/-- A new row changes nothing but for the alert that it is about. -/
theorem agrees_concat (h : ∀ key, Agrees key (opened.lookup key) (rowsOf key rows))
    (hr : r.key = key) (hother : ∀ key' ≠ key, opened'.lookup key' = opened.lookup key')
    (hself : Agrees key (opened'.lookup key) (rowsOf key rows ++ [r])) (key' : OpenKey) :
    Agrees key' (opened'.lookup key') (rowsOf key' (rows ++ [r])) := by
  rw [rowsOf, filter_append, filter_singleton, hr]
  by_cases hkey : key' = key
  · rw [hkey, beq_self_eq_true]
    exact hself
  · rw [hother key' hkey, beq_false_of_ne (Ne.symm hkey), cond_false, append_nil]
    exact h key'

/-- The raise that is open is the last row that the statement finds. -/
theorem getLast_raised {l : List Row} {t : Int} (hrows : rowsOf key rows = l ++ [r])
    (hr : r.kind = .alertRaised key.1) (ht : r.second = stamp t) :
    (rows.filter fun r => r.kind == .alertRaised key.1 && r.moduleId == key.2 &&
      r.second == stamp t).getLast? = some r := by
  have hmem : r ∈ rowsOf key rows := hrows ▸ mem_concat_self
  have hmodule : r.moduleId = key.2 := congrArg Prod.snd (beq_iff_eq.1 (mem_filter.1 hmem).2)
  have hfilter (q : Row → Bool) (hq : ∀ r, q r = true → r.key = key) :
      rows.filter q = (rowsOf key rows).filter q := by
    rw [rowsOf, filter_filter]
    refine filter_congr fun r _ => ?_
    cases hr : q r with
    | false => rfl
    | true => simp [hq r hr]
  rw [hfilter _ (by simp +contextual [Row.key, EventKind.category]), hrows]
  simp [hr, ht, hmodule]

theorem agrees_recordAlert (h : ∀ key, Agrees key (opened.lookup key) (rowsOf key rows))
    (a : Alert) (key : OpenKey) :
    Agrees key ((recordAlert opened a).1.lookup key)
      (rowsOf key ((recordAlert opened a).2.foldl insertEvent rows)) := by
  have hself := h (a.category, a.moduleId)
  unfold recordAlert
  dsimp only
  split
  · exact h key
  · exact h key
  case _ hclosed =>
    rw [hclosed] at hself
    apply agrees_concat h (by rfl) fun _ => AList.lookup_insert_ne
    rw [AList.lookup_insert]
    exact ⟨_, _, rfl, hself, rfl, rfl⟩
  case _ hopen =>
    rw [hopen] at hself
    obtain ⟨l, r, hrows, hl, hr, ht⟩ := hself
    apply agrees_concat h (by rfl) fun _ => AList.lookup_erase_ne
    rw [AList.lookup_erase, hrows, append_assoc]
    exact .resolve (.raise hl hr) rfl (congrArg (Option.map Row.id) (getLast_raised hrows hr ht))

theorem Agrees.paired {since : Option Int} {l : List Row} (h : Agrees key since l) :
    Paired key since.isSome l := by
  cases since with
  | none => exact h
  | some t =>
    obtain ⟨l, r, rfl, hl, hr, -⟩ := h
    exact .raise hl hr

theorem any_openRaises :
    (openRaises opened).any (·.key == key) = (opened.lookup key).isSome := by
  rw [openRaises, (mergeSort_perm _ _).any_eq, Bool.eq_iff_iff, AList.lookup_isSome]
  simp [AList.mem_keys, AList.keys, List.keys, OpenRaise.key]

/-- Whatever alerts are recorded, the rows of each are raises and resolves in turn, and the open
ones are those whose last row is a raise. -/
theorem alerts_paired (alerts : List Alert) (key : OpenKey) :
    Paired key ((openRaises (Run.run recordAlert ∅ alerts).1).any (·.key == key))
      (rowsOf key ((Run.run recordAlert ∅ alerts).2.foldl insertEvent [])) := by
  rw [any_openRaises]
  apply Agrees.paired
  apply Run.run_induction (I := fun _ (opened : Opened) records => ∀ key,
    Agrees key (opened.lookup key) (rowsOf key (records.foldl insertEvent [])))
  · exact fun _ => .nil
  · intro _ a opened records h
    rw [foldl_append]
    exact agrees_recordAlert h a

end Store.Events
