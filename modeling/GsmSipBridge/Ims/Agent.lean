-- SUMMARY: What an inbound `MESSAGE` does (`ims/agent/mod.rs`).
import GsmSipBridge.Volte.Sms.Interleaving

/-!
# Inbound messages over the registration

A text that arrives in a SIP `MESSAGE` is claimed in the duplicate filter, taken into
reassembly if it is a part, relayed to the telephone side, and then acknowledged; a
failed relay is not acknowledged, so that the network sends the text again. Whether
the gateway of a report can be addressed is left out, and so is the check of the
content type before all of this.
-/

namespace Ims.Agent

open Ims.SmsPdu Volte.Sms

/-- What the two routes of a line share. -/
structure Line where
  dedupe : Dedupe
  reassembly : Reassembly

def Line.new : Line :=
  { dedupe := Dedupe.new 64, reassembly := Reassembly.new reassemblyCapacity }

/-- The report owed to the network. -/
inductive Report where
  | rpAck (mr : UInt8)
  | rpError (mr : UInt8)
  deriving DecidableEq

structure Handled where
  line : Line
  /-- Sender and body handed to the telephone side. -/
  relay : Option (Text × Text)
  /-- Whether the `200 OK` goes out. -/
  answered : Bool
  report : Option Report

/-- The report that goes with the `200 OK`. -/
def acknowledge (decoded : Option DecodedSms) (sendDeliveryReport : Bool) : Option Report :=
  if sendDeliveryReport then decoded.map fun sms => .rpAck sms.rpMr else none

/-- The relay of a claimed text and what follows from its success. -/
def relayText (line : Line) (key sender body : Text) (completedPart : Option ConcatPart)
    (relayed : Bool) (report : Option Report) : Handled :=
  if relayed then
    { line :=
        { dedupe := line.dedupe.confirm key
          reassembly :=
            match completedPart with
            | some part => line.reassembly.markDelivered sender part
            | none => line.reassembly }
      relay := some (sender, body), answered := true, report }
  else
    -- released, so that the text is taken as new when it comes again
    { line := { line with dedupe := line.dedupe.forget key }
      relay := some (sender, body), answered := false, report := none }

/-- A text that is not a report of the network. -/
def handleText (line : Line) (smsDeliveryReport : Bool) (sender body : Text)
    (decoded : Option DecodedSms) (now : Nat) (relayed : Bool) : Handled :=
  if decoded.any (·.isTypeZero) then
    { line, relay := none, answered := true, report := acknowledge decoded smsDeliveryReport }
  else
    let key := dedupeKey sender body
    let decided := decideOn line.dedupe key
    let line := { line with dedupe := decided.1 }
    match decided.2 with
    | .acknowledgeOnly =>
      { line, relay := none, answered := true
        report := acknowledge decoded (smsDeliveryReport && line.dedupe.isConfirmed key) }
    | .handle =>
      let report := acknowledge decoded smsDeliveryReport
      match decoded.bind (·.part) with
      | some part =>
        let text := (decoded.map (·.text)).getD []
        let admitted := line.reassembly.admitPart sender part text now
        let line := { line with reassembly := admitted.1 }
        match admitted.2 with
        | .pending => { line, relay := none, answered := true, report }
        | .complete joined => relayText line key sender joined (some part) relayed report
        | .malformed => relayText line key sender body none relayed report
      | none => relayText line key sender body none relayed report

/-- `handle_message`, with the sender and body of the SIP request, its decoded body, and
whether the relay succeeds. -/
def handleMessage (line : Line) (smsDeliveryReport : Bool) (sender body : Text)
    (decoded : Option DecodedRp) (now : Nat) (relayed : Bool) : Handled :=
  match decoded with
  | some (.ack _) => { line, relay := none, answered := true, report := none }
  | some (.error _ _) => { line, relay := none, answered := true, report := none }
  | some (.unsupportedTpdu mr _) =>
    { line, relay := none, answered := true, report := some (.rpAck mr) }
  | some (.undecodable mr) =>
    { line, relay := none, answered := true, report := some (.rpError mr) }
  | some (.message sms) =>
    let body :=
      match sms.part with
      | some part => labelled part.sequence part.total sms.text
      | none => sms.text
    handleText line smsDeliveryReport sms.sender body (some sms) now relayed
  | none => handleText line smsDeliveryReport sender body none now relayed

/-! ## What becomes of a text -/

section Cases

variable {line : Line} {smsDeliveryReport : Bool} {sender body : Text} {decoded : Option DecodedSms}
  {now : Nat} {relayed : Bool} {d : Dedupe} (decoded)

/-- A text that was claimed before is acknowledged and nothing else. -/
theorem handleText_acknowledgeOnly (hzero : decoded.any (·.isTypeZero) = false)
    (h : decideOn line.dedupe (dedupeKey sender body) = (d, .acknowledgeOnly)) :
    handleText line smsDeliveryReport sender body decoded now relayed =
      { line := { line with dedupe := d }, relay := none, answered := true
        report := acknowledge decoded
          (smsDeliveryReport && d.isConfirmed (dedupeKey sender body)) } := by
  simp [handleText, hzero, h]

/-- A new part goes to reassembly, and is relayed unless it has to wait. -/
theorem handleText_part {part : ConcatPart} (sms : DecodedSms) {r : Reassembly}
    {outcome : PartOutcome} (hzero : sms.isTypeZero = false) (hpart : sms.part = some part)
    (h : decideOn line.dedupe (dedupeKey sender body) = (d, .handle))
    (hadmitted : line.reassembly.admitPart sender part sms.text now = (r, outcome)) :
    handleText line smsDeliveryReport sender body (some sms) now relayed =
      let report := acknowledge (some sms) smsDeliveryReport
      match outcome with
      | .pending => { line := ⟨d, r⟩, relay := none, answered := true, report }
      | .complete joined =>
        relayText ⟨d, r⟩ (dedupeKey sender body) sender joined (some part) relayed report
      | .malformed => relayText ⟨d, r⟩ (dedupeKey sender body) sender body none relayed report := by
  simp only [handleText, Option.any_some, hzero, h, Bool.false_eq_true, if_false,
    Option.bind_some, hpart, Option.map_some, Option.getD_some, hadmitted]
  cases outcome <;> rfl

end Cases

/-! ## Two messages at once

The identity of a part in the duplicate filter is its sender and `[seq/total] text`;
the concatenation reference, which tells two messages apart, is not in it. A part of
one message that looks like a part of the other is taken for a repetition and never
reaches its buffer. The filter looks back over 64 claims. -/

open List

variable {d : Dedupe} {key : Text} {arrivals : List Arrival} {seen : List Arrival}

/-! ### A run over the registration -/

/-- The decoded part of an arrival. -/
def decodedSms (a : Arrival) : DecodedSms :=
  { sender := a.message.sender, text := a.text, part := some a.part, rpMr := a.rpMr
    isTypeZero := false }

/-- The part arrives and every relay succeeds. -/
def receive (smsDeliveryReport : Bool) (line : Line) (a : Arrival) : Handled :=
  handleMessage line smsDeliveryReport [] [] (some (.message (decodedSms a))) a.now true

/-- What is relayed, in order. -/
def relays (smsDeliveryReport : Bool) : Line → List Arrival → List (Text × Text)
  | _, [] => []
  | line, a :: rest =>
    let handled := receive smsDeliveryReport line a
    handled.relay.toList ++ relays smsDeliveryReport handled.line rest

/-- Which part of which message an arrival is. -/
def position (a : Arrival) : Multipart × Nat := (a.message, a.index.val)

def positions (m : Multipart) : List (Multipart × Nat) :=
  (List.range m.texts.length).map fun i => (m, i)

/-- What the duplicate filter sees of a part, the sender apart. -/
def label (a : Arrival) : UInt8 × UInt8 × Text := (a.sequence, a.message.total, a.text)

/-- No part looks like one of the 64 parts before it. -/
def Apart (arrivals : List Arrival) : Prop :=
  ∀ j : Fin arrivals.length,
    label (arrivals.get j) ∉ ((arrivals.take j).drop (j - 64)).map label

instance (arrivals : List Arrival) : Decidable (Apart arrivals) :=
  inferInstanceAs (Decidable (∀ j : Fin arrivals.length,
    label (arrivals.get j) ∉ ((arrivals.take j).drop (j - 64)).map label))

/-! ### The identity of a part -/

def identity (a : Arrival) : Text :=
  dedupeKey a.message.sender (labelled a.sequence a.message.total a.text)

theorem display_inj {m n : UInt8} (h : Numeral.display m.toNat = Numeral.display n.toNat) : m = n := by
  have := (Numeral.parseU8_display m).symm.trans ((congrArg Numeral.parseU8 h).trans
    (Numeral.parseU8_display n))
  exact Option.some.inj this

theorem not_mem_display {c : Char} (h : Numeral.isDigit 10 c = false) (n : Nat) :
    c ∉ Numeral.display n := fun hc =>
  Bool.false_ne_true (h.symm.trans (Numeral.isDigit_of_mem_display hc))

theorem labelled_inj {s s' t t' : UInt8} {x x' : Text} (h : labelled s t x = labelled s' t' x') :
    (s, t, x) = (s', t', x') := by
  unfold labelled at h
  rw [cons_append, cons_append, cons_append, cons_append, append_assoc, append_assoc] at h
  have hsplit := congrArg (Text.splitOnce '/') (List.cons.inj h).2
  rw [cons_append, cons_append, Text.splitOnce_append (not_mem_display (by decide) _),
    Text.splitOnce_append (not_mem_display (by decide) _)] at hsplit
  obtain ⟨hseq, hrest⟩ := Prod.mk.inj (Option.some.inj hsplit)
  have hsplit' := congrArg (Text.splitOnce ']') hrest
  rw [Text.splitOnce_append (not_mem_display (by decide) _),
    Text.splitOnce_append (not_mem_display (by decide) _)] at hsplit'
  obtain ⟨htotal, htext⟩ := Prod.mk.inj (Option.some.inj hsplit')
  rw [display_inj hseq, display_inj htotal, (List.cons.inj htext).2]

theorem identity_eq_iff {a b : Arrival} (h : a.message.sender = b.message.sender) :
    identity a = identity b ↔ label a = label b := by
  unfold identity dedupeKey
  rw [h]
  constructor
  · intro heq
    exact labelled_inj (List.cons.inj (append_cancel_left heq)).2
  · intro heq
    obtain ⟨h1, h2⟩ := Prod.mk.inj heq
    obtain ⟨h2, h3⟩ := Prod.mk.inj h2
    rw [h1, h2, h3]

/-! ### The filter -/

/-- The claims after one more. -/
def remember (capacity : Nat) (seen : List Text) (key : Text) : List Text :=
  (if capacity ≤ seen.length then seen.drop 1 else seen) ++ [key]

/-- The arrivals that pass the filter. -/
def passed (capacity : Nat) : List Text → List Arrival → List Arrival
  | _, [] => []
  | seen, a :: rest =>
    if identity a ∈ seen then passed capacity seen rest
    else a :: passed capacity (remember capacity seen (identity a)) rest

theorem contains_iff : d.contains key = true ↔ key ∈ d.seen := by
  simp [Dedupe.contains]

theorem admitKey_mem (h : key ∈ d.seen) : d.admitKey key = (d, false) :=
  if_pos (contains_iff.mpr h)

theorem evict_seen (d : Dedupe) :
    d.evict.seen = (if d.capacity ≤ d.seen.length then d.seen.drop 1 else d.seen) ∧
      d.evict.capacity = d.capacity := by
  unfold Dedupe.evict
  split
  · cases h : d.seen with
    | nil => exact ⟨h, rfl⟩
    | cons oldest rest => exact ⟨rfl, rfl⟩
  · exact ⟨rfl, rfl⟩

theorem admitKey_not_mem (h : key ∉ d.seen) :
    (d.admitKey key).2 = true ∧ (d.admitKey key).1.seen = remember d.capacity d.seen key ∧
      (d.admitKey key).1.capacity = d.capacity := by
  unfold Dedupe.admitKey
  rw [if_neg (mt contains_iff.mp h)]
  obtain ⟨hseen, hcap⟩ := evict_seen d
  refine ⟨rfl, ?_, hcap⟩
  rw [hseen]
  rfl

theorem confirm_seen (d : Dedupe) (key : Text) :
    (d.confirm key).seen = d.seen ∧ (d.confirm key).capacity = d.capacity := by
  unfold Dedupe.confirm
  split <;> exact ⟨rfl, rfl⟩

/-- What the outcome of a part makes of it. -/
def relayOf (a : Arrival) : PartOutcome → Option (Text × Text)
  | .complete joined => some (a.message.sender, joined)
  | .pending => none
  | .malformed => some (a.message.sender, labelled a.sequence a.message.total a.text)

section Receive

variable (report : Bool) {line : Line} {a : Arrival}

theorem receive_duplicate (h : identity a ∈ line.dedupe.seen) :
    (receive report line a).relay = none ∧ (receive report line a).line = line := by
  have hdecide : decideOn line.dedupe (identity a) = (line.dedupe, .acknowledgeOnly) := by
    unfold decideOn
    rw [admitKey_mem h]
    rfl
  have heq : receive report line a = _ :=
    handleText_acknowledgeOnly (some (decodedSms a)) rfl hdecide
  rw [heq]
  exact ⟨rfl, rfl⟩

/-- A part that passes is delivered to reassembly. -/
theorem receive_new (h : identity a ∉ line.dedupe.seen) : let r := receive report line a
    r.relay = relayOf a (line.reassembly.deliver a).2 ∧
      r.line.reassembly = (line.reassembly.deliver a).1 ∧
      r.line.dedupe.seen = remember line.dedupe.capacity line.dedupe.seen (identity a) ∧
      r.line.dedupe.capacity = line.dedupe.capacity := by
  obtain ⟨hnew, hseen, hcap⟩ := admitKey_not_mem h
  have hdecide : decideOn line.dedupe (identity a) = ((line.dedupe.admitKey (identity a)).1, .handle) := by
    unfold decideOn
    dsimp only
    rw [hnew]
    rfl
  obtain ⟨r, outcome, hadmitted⟩ : ∃ r outcome,
      line.reassembly.admitPart a.message.sender a.part a.text a.now = (r, outcome) := ⟨_, _, rfl⟩
  have heq : receive report line a = _ :=
    handleText_part (decodedSms a) rfl rfl hdecide hadmitted
  unfold Reassembly.deliver
  rw [heq, hadmitted]
  have hconfirm := confirm_seen (line.dedupe.admitKey (identity a)).1 (identity a)
  cases outcome with
  | pending => exact ⟨rfl, rfl, hseen, hcap⟩
  | complete | malformed => exact ⟨rfl, rfl, hconfirm.1.trans hseen, hconfirm.2.trans hcap⟩

end Receive

/-- Relaying is reassembly of what passes the filter. -/
theorem relays_eq (report : Bool) (line : Line) (arrivals : List Arrival) :
    let kept := passed line.dedupe.capacity line.dedupe.seen arrivals
    relays report line arrivals =
      (kept.zip (line.reassembly.deliverAll kept).2).filterMap fun p => relayOf p.1 p.2 := by
  induction arrivals generalizing line with
  | nil => rfl
  | cons a rest ih =>
    dsimp only [relays, passed]
    rw [ih]
    by_cases h : identity a ∈ line.dedupe.seen
    · obtain ⟨hrelay, hline⟩ := receive_duplicate report h
      rw [if_pos h, hrelay, hline]
      rfl
    obtain ⟨hrelay, hreassembly, hseen, hcap⟩ := receive_new report h
    rw [if_neg h, hrelay, hreassembly, hseen, hcap]
    dsimp only [Reassembly.deliverAll]
    rw [zip_cons_cons, filterMap_cons]
    cases hrelay' : relayOf a (line.reassembly.deliver a).2 with
    | none | some => rfl

/-! ### What is completed -/

/-- The messages the arrivals complete, in order. -/
def completions : List Arrival → List Arrival → List Multipart
  | _, [] => []
  | seen, a :: rest =>
    if Covered a.message (seen ++ [a]) then a.message :: completions (seen ++ [a]) rest
    else completions (seen ++ [a]) rest

theorem filterMap_dues (seen arrivals : List Arrival) :
    (arrivals.zip (dues seen arrivals)).filterMap (fun p => relayOf p.1 p.2) =
      (completions seen arrivals).map fun m => (m.sender, m.joined) := by
  induction arrivals generalizing seen with
  | nil => rfl
  | cons a rest ih =>
    dsimp only [dues, completions]
    rw [zip_cons_cons, filterMap_cons, ih]
    unfold due
    by_cases h : Covered a.message (seen ++ [a])
    · rw [if_pos h, if_pos h]
      rfl
    · rw [if_neg h, if_neg h]
      rfl

theorem mem_completions {m : Multipart} (h : Stops seen arrivals) :
    m ∈ completions seen arrivals ↔ ¬ Covered m seen ∧ Covered m (seen ++ arrivals) := by
  induction arrivals generalizing seen with
  | nil =>
    rw [append_nil]
    exact ⟨fun hm => absurd hm not_mem_nil, fun hm => absurd hm.2 hm.1⟩
  | cons a rest ih =>
    obtain ⟨hopen, hrest⟩ := Stops.tail h
    have ih := ih hrest
    rw [append_assoc] at ih
    unfold completions
    by_cases hm : a.message = m
    · subst hm
      split
      · rename_i hcover
        have hlater : Covered a.message (seen ++ a :: rest) := by
          rw [append_cons]
          exact hcover.mono (subset_append_left _ _)
        exact ⟨fun _ => ⟨hopen, hlater⟩, fun _ => mem_cons_self⟩
      · rename_i hcover
        rw [ih]
        exact ⟨fun hc => ⟨hopen, hc.2⟩, fun hc => ⟨hcover, hc.2⟩⟩
    · rw [covered_append_other hm] at ih
      split
      · rw [mem_cons, ih]
        exact ⟨fun hc => hc.resolve_left (Ne.symm hm), .inr⟩
      · exact ih

theorem nodup_completions (h : Stops seen arrivals) : (completions seen arrivals).Nodup := by
  induction arrivals generalizing seen with
  | nil => exact nodup_nil
  | cons a rest ih =>
    obtain ⟨-, hrest⟩ := Stops.tail h
    unfold completions
    split
    · refine nodup_cons.mpr ⟨fun hmem => ?_, ih hrest⟩
      exact ((mem_completions hrest).mp hmem).1 ‹_›
    · exact ih hrest

/-! ### Two messages -/

theorem passed_sublist (capacity : Nat) (seen : List Text) (arrivals : List Arrival) :
    (passed capacity seen arrivals).Sublist arrivals := by
  induction arrivals generalizing seen with
  | nil => exact Sublist.refl _
  | cons a rest ih =>
    unfold passed
    split
    · exact (ih _).cons a
    · exact (ih _).cons_cons a

/-- Without a position twice, no part comes after its message is complete. -/
theorem stops_of_nodup (h : (arrivals.map position).Nodup) : Stops [] arrivals := by
  intro i hcover
  obtain ⟨b, hb, hmsg, hindex⟩ := hcover _ (arrivals.get i).index.isLt
  have hsplit : arrivals = arrivals.take i ++ arrivals.get i :: arrivals.drop (i + 1) := by
    rw [get_eq_getElem, getElem_cons_drop, take_append_drop]
  rw [hsplit, map_append, nodup_append] at h
  refine h.2.2 (position b) (mem_map_of_mem hb) _ mem_cons_self ?_
  exact Prod.ext hmsg hindex

/-- All but the last 64. -/
theorem remember_drop (l : List Text) (key : Text) :
    remember 64 (l.drop (l.length - 64)) key = (l ++ [key]).drop ((l ++ [key]).length - 64) := by
  unfold remember
  rw [length_drop, length_append, length_singleton]
  split
  · rw [drop_drop, drop_append_of_le_length (by omega)]
    congr 2
    omega
  · rw [show l.length - 64 = 0 by omega, show l.length + 1 - 64 = 0 by omega]
    rfl

/-- Everything passes exactly when no identity is among the 64 before it. -/
theorem passed_eq_iff (before arrivals : List Arrival) :
    passed 64 ((before.map identity).drop (before.length - 64)) arrivals = arrivals ↔
      ∀ j : Fin arrivals.length, identity (arrivals.get j) ∉
        ((before ++ arrivals.take j).map identity).drop (before.length + j - 64) := by
  induction arrivals generalizing before with
  | nil => exact ⟨fun _ j => j.elim0, fun _ => rfl⟩
  | cons a rest ih =>
    have hlength : (before.map identity).length = before.length := length_map _
    have hremember := remember_drop (before.map identity) (identity a)
    rw [hlength] at hremember
    have hbefore : before.map identity ++ [identity a] = (before ++ [a]).map identity := by
      rw [map_append]
      rfl
    rw [hbefore, length_map] at hremember
    have hrest := ih (before ++ [a])
    simp only [length_append, length_singleton, append_assoc] at hrest hremember
    have hshift (i : Nat) : before.length + (i + 1) - 64 = before.length + 1 + i - 64 := by omega
    unfold passed
    simp only [length_cons, Fin.forall_fin_succ, Fin.val_zero, Fin.val_succ, take_zero, append_nil,
      hshift]
    split
    · -- a part that is dropped is missing
      rename_i hseen
      refine iff_of_false (fun hpassed => ?_) fun hall => hall.1 hseen
      have hle := (passed_sublist 64 ((before.map identity).drop (before.length - 64)) rest).length_le
      rw [hpassed, length_cons] at hle
      omega
    · rename_i hfresh
      rw [hremember, List.cons.injEq, hrest]
      exact and_congr_left fun _ => iff_of_true rfl hfresh

section Pair

variable {m₁ m₂ : Multipart} {m : Multipart}

theorem mem_positions {n : Multipart} {i : Nat} :
    (n, i) ∈ positions m ↔ n = m ∧ i < m.texts.length := by
  simp [positions, and_comm, eq_comm]

theorem nodup_positions (m : Multipart) : (positions m).Nodup :=
  nodup_range.map fun _ _ heq => (Prod.mk.inj heq).2

theorem nodup_pair (h : m₁ ≠ m₂) : (positions m₁ ++ positions m₂).Nodup := by
  refine (nodup_positions m₁).append (nodup_positions m₂) ?_
  rintro ⟨m, i⟩ h1 h2
  exact h ((mem_positions.mp h1).1.symm.trans (mem_positions.mp h2).1)

variable (hperm : (arrivals.map position).Perm (positions m₁ ++ positions m₂))
include hperm

theorem message_of_mem {a : Arrival} (ha : a ∈ arrivals) : a.message = m₁ ∨ a.message = m₂ := by
  have hmem := hperm.mem_iff.mp (mem_map_of_mem ha)
  cases mem_append.mp hmem with
  | inl h1 => exact .inl (mem_positions.mp h1).1
  | inr h2 => exact .inr (mem_positions.mp h2).1

theorem covered_of_perm (hm : m = m₁ ∨ m = m₂) : Covered m arrivals := by
  intro i hi
  have hmem : (m, i) ∈ positions m₁ ++ positions m₂ := by
    cases hm with
    | inl h1 => exact mem_append_left _ (mem_positions.mpr ⟨h1, h1 ▸ hi⟩)
    | inr h2 => exact mem_append_right _ (mem_positions.mpr ⟨h2, h2 ▸ hi⟩)
  obtain ⟨a, ha, heq⟩ := mem_map.mp (hperm.mem_iff.mpr hmem)
  obtain ⟨hmsg, hindex⟩ := Prod.mk.inj heq
  exact ⟨a, ha, hmsg, hindex⟩

theorem passed_iff_apart (hsender : m₁.sender = m₂.sender) :
    passed 64 [] arrivals = arrivals ↔ Apart arrivals := by
  have hsame : ∀ a ∈ arrivals, a.message.sender = m₁.sender := by
    intro a ha
    cases message_of_mem hperm ha with
    | inl h1 => rw [h1]
    | inr h2 => rw [h2, hsender]
  refine (passed_eq_iff [] arrivals).trans (forall_congr' fun j => not_congr ?_)
  rw [length_nil, Nat.zero_add, ← map_drop, mem_map, mem_map]
  have hmem : ∀ b ∈ (arrivals.take j).drop (j - 64), b ∈ arrivals := fun b hb =>
    mem_of_mem_take (mem_of_mem_drop hb)
  refine exists_congr fun b => and_congr_right fun hb => ?_
  exact identity_eq_iff ((hsame b (hmem b hb)).trans (hsame _ (get_mem arrivals j)).symm)

theorem stops_passed (hne : m₁ ≠ m₂) : Stops [] (passed 64 [] arrivals) :=
  stops_of_nodup (((passed_sublist 64 [] arrivals).map position).nodup
    (hperm.nodup_iff.mpr (nodup_pair hne)))

/-- What is relayed: the messages that the parts the filter passes complete. -/
theorem relays_completions (href : m₁.reference ≠ m₂.reference) (smsDeliveryReport : Bool)
    (hstops : Stops [] (passed 64 [] arrivals)) :
    relays smsDeliveryReport Line.new arrivals =
      (completions [] (passed 64 [] arrivals)).map fun m => (m.sender, m.joined) := by
  have hkeys : ([m₁, m₂].map Multipart.key).Nodup :=
    nodup_cons.mpr ⟨fun hmem => href (congrArg Prod.snd (mem_singleton.mp hmem)), nodup_singleton _⟩
  have hfrom : ∀ a ∈ passed 64 [] arrivals, a.message ∈ [m₁, m₂] := fun a ha =>
    mem_pair.mpr (message_of_mem hperm ((passed_sublist 64 [] arrivals).subset ha))
  have hfit : [m₁, m₂].length ≤ max reassemblyCapacity 1 := (by decide : 2 ≤ 64)
  have hdues := (deliverAll_dues hkeys (tracks_new _ reassemblyCapacity) hfit hfrom hstops).1
  rw [← filterMap_dues, ← hdues]
  exact relays_eq smsDeliveryReport Line.new arrivals

/-- Parts of the two messages complete none but these. -/
theorem completions_subset {passing : List Arrival} (hsub : passing.Sublist arrivals)
    (hstops : Stops [] passing) : ∀ m ∈ completions [] passing, m ∈ [m₁, m₂] := by
  intro m hm
  obtain ⟨a, ha, hmsg, -⟩ := ((mem_completions hstops).mp hm).2 0 m.nonempty
  exact hmsg ▸ mem_pair.mpr (message_of_mem hperm (hsub.subset ha))

/-- When both messages are completed, the filter passed every part. -/
theorem passed_of_completions (hne : m₁ ≠ m₂)
    (hlength : (completions [] (passed 64 [] arrivals)).length = 2) :
    passed 64 [] arrivals = arrivals := by
  have hsub : (passed 64 [] arrivals).Sublist arrivals := passed_sublist 64 [] arrivals
  have hstops := stops_passed hperm hne
  have hall := ((nodup_completions hstops).subperm
    (completions_subset hperm hsub hstops)).perm_of_length_le (Nat.le_of_eq hlength.symm)
  have hcover : ∀ m, m = m₁ ∨ m = m₂ → Covered m (passed 64 [] arrivals) := fun m hm =>
    ((mem_completions hstops).mp (hall.mem_iff.mpr (mem_pair.mpr hm))).2
  have hsubset : arrivals.map position ⊆ (passed 64 [] arrivals).map position := by
    intro p hp
    obtain ⟨a, ha, rfl⟩ := mem_map.mp hp
    obtain ⟨b, hb, hmsg, hindex⟩ := hcover a.message (message_of_mem hperm ha) _
      a.index.isLt
    exact mem_map.mpr ⟨b, hb, Prod.ext hmsg hindex⟩
  have hnodup : (arrivals.map position).Nodup := hperm.nodup_iff.mpr (nodup_pair hne)
  have hle := (hnodup.subperm hsubset).length_le
  rw [length_map, length_map] at hle
  exact hsub.eq_of_length_le hle

/-- All parts together complete both messages. -/
theorem completions_perm (hne : m₁ ≠ m₂) (hstops : Stops [] arrivals) :
    (completions [] arrivals).Perm [m₁, m₂] := by
  have hpair : [m₁, m₂].Nodup :=
    nodup_cons.mpr ⟨fun hmem => hne (mem_singleton.mp hmem), nodup_singleton _⟩
  refine (perm_ext_iff_of_nodup (nodup_completions hstops) hpair).mpr fun m => ?_
  refine ⟨completions_subset hperm (Sublist.refl _) hstops m, fun hm => ?_⟩
  exact (mem_completions hstops).mpr
    ⟨not_covered_of_none fun _ ha => absurd ha not_mem_nil, covered_of_perm hperm (mem_pair.mp hm)⟩

end Pair

/-- Two messages from one sender, whose parts come in any order: both are relayed once, as
their own texts, exactly when no part looks like one of the 64 before it. -/
theorem both_relayed_iff (m₁ m₂ : Multipart) (hsender : m₁.sender = m₂.sender)
    (href : m₁.reference ≠ m₂.reference) (smsDeliveryReport : Bool) (arrivals : List Arrival)
    (hperm : (arrivals.map position).Perm (positions m₁ ++ positions m₂)) :
    (relays smsDeliveryReport Line.new arrivals).Perm
        [(m₁.sender, m₁.joined), (m₂.sender, m₂.joined)] ↔
      Apart arrivals := by
  have hne : m₁ ≠ m₂ := fun heq => href (congrArg Multipart.reference heq)
  have hstops := stops_passed hperm hne
  rw [relays_completions hperm href smsDeliveryReport hstops, ← passed_iff_apart hperm hsender]
  constructor
  · intro hboth
    have hlength := hboth.length_eq
    rw [length_map] at hlength
    exact passed_of_completions hperm hne hlength
  · intro hpassed
    rw [hpassed] at hstops ⊢
    exact (completions_perm hperm hne hstops).map _

/-- Two messages that begin alike. -/
def hiAnn : Multipart :=
  { sender := "+491", reference := 1, texts := ["Hi ", "Ann"]
    nonempty := by decide, fits := by decide }

def hiBob : Multipart :=
  { sender := "+491", reference := 2, texts := ["Hi ", "Bob"]
    nonempty := by decide, fits := by decide }

/-- Part by part in turn: the second message is never relayed. -/
theorem secondMessage_swallowed :
    let arrivals : List Arrival := [⟨hiAnn, ⟨0, by decide⟩, 0, 1⟩, ⟨hiBob, ⟨0, by decide⟩, 1, 2⟩,
      ⟨hiAnn, ⟨1, by decide⟩, 2, 3⟩, ⟨hiBob, ⟨1, by decide⟩, 3, 4⟩]
    (arrivals.map position).Perm (positions hiAnn ++ positions hiBob) ∧
      relays true Line.new arrivals = [("+491".toList, "Hi Ann".toList)] := by
  decide +kernel

/-- With other texts both arrive. -/
theorem both_relayed_iff_greeting :
    let arrivals : List Arrival := [⟨greeting, ⟨0, by decide⟩, 0, 1⟩, ⟨farewell, ⟨0, by decide⟩, 1, 2⟩,
      ⟨greeting, ⟨1, by decide⟩, 2, 3⟩]
    (relays true Line.new arrivals).Perm
      [("+491", "Hello"), ("+491", "Bye")] := by
  intro arrivals
  exact (both_relayed_iff greeting farewell rfl (by decide) true arrivals (by decide +kernel)).mpr
    (by decide +kernel)

end Ims.Agent
