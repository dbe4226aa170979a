-- SUMMARY: Names and addresses in header values (`ims/identity.rs`).
import GsmSipBridge.Lib.Text

/-!
# Names and addresses

A header line holds values with commas between them, each a URI with an optional display
name. The list is cut first and each value parsed then; both track quotes and escapes on their
own, and so does the writer of a quoted name (`escape_display_name` of `ims/session.rs`).
-/

namespace Ims.Identity

open Text List

/-! ## Reading -/

/-- The pieces between the commas outside of brackets and quotes, from the state that the
characters so far have led to. -/
def splitFrom (depth : Nat) (quoted escaped : Bool) (piece : Text) : Text → List Text
  | [] => [piece]
  | c :: rest =>
    if quoted then
      if escaped then splitFrom depth true false (piece ++ [c]) rest
      else splitFrom depth (c != '\"') (c == '\\') (piece ++ [c]) rest
    else if c = '\"' then splitFrom depth true false (piece ++ [c]) rest
    else if c = '<' then splitFrom (depth + 1) false false (piece ++ [c]) rest
    else if c = '>' then splitFrom (depth - 1) false false (piece ++ [c]) rest
    else if c = ',' ∧ depth = 0 then piece :: splitFrom 0 false false [] rest
    else splitFrom depth false false (piece ++ [c]) rest

def splitHeaderValues (value : Text) : List Text :=
  ((splitFrom 0 false false [] value).map trim).filter (!·.isEmpty)

inductive HeaderParams where
  | allowed
  | none

structure NameAddr where
  display : Option Text
  uri : Text
  deriving DecidableEq

/-- A quoted name up to its closing quote, and what follows; none without one. -/
def unquote (escaped : Bool) : Text → Option (Text × Text)
  | [] => none
  | c :: rest =>
    let keep := (unquote false rest).map fun p => (c :: p.1, p.2)
    if escaped then keep
    else if c = '\\' then unquote true rest
    else if c = '\"' then some ([], rest)
    else keep

def parseNameAddr (value : Text) (params : HeaderParams) : Option NameAddr :=
  let value := trim value
  let found : Option (Text × Text) :=
    match value.dropPrefix? ['\"'] with
    | some after =>
      (unquote false after).bind fun named =>
        ((trimStart named.2).dropPrefix? ['<']).bind fun rest =>
          (splitOnce '>' rest).map fun uri => (named.1, uri.1)
    | none =>
      match splitOnce '<' value with
      | some (before, rest) => (splitOnce '>' rest).map fun uri => (trim before, uri.1)
      | none =>
        some ([], match params with
          | .allowed => (value.splitOn ';').headD value
          | .none => value)
  found.bind fun found =>
    let uri := trim found.2
    if ':' ∈ uri then
      some
        { display :=
            if found.1.isEmpty || found.1.any (fun c => c = '\r' || c = '\n') then none
            else some found.1
          uri }
    else none

/-! ## Writing -/

/-- Every `c` replaced. -/
def replace (c : Char) (by' : Text) (t : Text) : Text :=
  t.flatMap fun x => if x = c then by' else [x]

def escapeDisplayName (name : Text) : Text :=
  replace '\"' "\\\"" (replace '\\' "\\\\" name)

/-- A name and an address. -/
structure Entry where
  name : Text
  uri : Text

/-- As this bridge writes one: the name quoted, the address in brackets. -/
def Entry.render (e : Entry) : Text :=
  '\"' :: (escapeDisplayName e.name ++ '\"' :: ' ' :: '<' :: (e.uri ++ ['>']))

/-- The value of a header line. -/
def joined (entries : List Entry) : Text :=
  [','].intercalate (entries.map Entry.render)

/-- The name is on one line, and the address has a scheme and no delimiter of its own. -/
structure Entry.Proper (e : Entry) : Prop where
  name : '\r' ∉ e.name ∧ '\n' ∉ e.name
  uri : '\"' ∉ e.uri ∧ '<' ∉ e.uri ∧ '>' ∉ e.uri
  scheme : ':' ∈ e.uri

/-! ## Reading what was written -/

theorem escapeDisplayName_cons (c : Char) (name : Text) :
    escapeDisplayName (c :: name) =
      (if c = '\\' ∨ c = '\"' then ['\\', c] else [c]) ++ escapeDisplayName name := by
  simp only [escapeDisplayName, replace, flatMap_cons, flatMap_append]
  by_cases hslash : c = '\\'
  · simp [hslash]
  · by_cases hquote : c = '\"' <;> simp [hslash, hquote]

variable {e : Entry} {depth : Nat} (piece rest : Text) {entries : List Entry}

/-- An escaped name stays inside its quotes. -/
theorem splitFrom_escaped (name : Text) :
    splitFrom depth true false piece (escapeDisplayName name ++ '\"' :: rest) =
      splitFrom depth false false (piece ++ escapeDisplayName name ++ ['\"']) rest := by
  induction name generalizing piece with
  | nil => simp [escapeDisplayName, replace, splitFrom]
  | cons c name ih =>
    rw [escapeDisplayName_cons]
    by_cases hspecial : c = '\\' ∨ c = '\"'
    · simp [hspecial, splitFrom, ih]
    · rw [not_or] at hspecial
      simp [hspecial, splitFrom, ih, bne_iff_ne.2 hspecial.2, beq_eq_false_iff_ne.2 hspecial.1]

theorem splitFrom_uri {uri : Text} (h : '\"' ∉ uri ∧ '<' ∉ uri ∧ '>' ∉ uri) :
    splitFrom (depth + 1) false false piece (uri ++ '>' :: rest) =
      splitFrom depth false false (piece ++ uri ++ ['>']) rest := by
  induction uri generalizing piece with
  | nil => simp [splitFrom]
  | cons c uri ih =>
    simp only [mem_cons, not_or] at h
    have hc := And.intro (Ne.symm h.1.1) (And.intro (Ne.symm h.2.1.1) (Ne.symm h.2.2.1))
    simp [splitFrom, hc, ih _ ⟨h.1.2, h.2.1.2, h.2.2.2⟩]

theorem splitFrom_render (h : e.Proper) :
    splitFrom 0 false false piece (e.render ++ rest) =
      splitFrom 0 false false (piece ++ e.render) rest := by
  simp [Entry.render, splitFrom, splitFrom_escaped, splitFrom_uri _ _ h.uri]

theorem trim_render : trim e.render = e.render := by
  have hclosed : Closed ['>'] := by decide
  refine trim_of_trimmed ⟨?_, (((hclosed.append e.uri).append ['\"', ' ', '<']).append
    ('\"' :: escapeDisplayName e.name)).2⟩
  rintro _ ⟨⟩
  rfl

theorem splitFrom_joined (h : ∀ e ∈ entries, e.Proper) (hne : entries ≠ []) :
    splitFrom 0 false false [] (joined entries) = entries.map Entry.render := by
  induction entries with
  | nil => exact absurd rfl hne
  | cons e entries ih =>
    rw [forall_mem_cons] at h
    cases entries with
    | nil => simpa [joined, splitFrom] using splitFrom_render [] [] h.1
    | cons f entries =>
      have hjoined : joined (e :: f :: entries) = e.render ++ ',' :: joined (f :: entries) := by
        simp [joined, intercalate]
      rw [hjoined, splitFrom_render _ _ h.1, map_cons, ← ih h.2 (cons_ne_nil f entries)]
      simp [splitFrom]

theorem splitHeaderValues_joined (h : ∀ e ∈ entries, e.Proper) :
    splitHeaderValues (joined entries) = entries.map Entry.render := by
  cases entries with
  | nil => rfl
  | cons e entries =>
    rw [splitHeaderValues, splitFrom_joined h (cons_ne_nil e entries), map_map]
    have htrim : trim ∘ Entry.render = Entry.render := funext fun _ => trim_render
    rw [htrim, filter_eq_self]
    intro value hvalue
    obtain ⟨e, -, rfl⟩ := mem_map.1 hvalue
    rfl

theorem unquote_escaped (name : Text) :
    unquote false (escapeDisplayName name ++ '\"' :: rest) = some (name, rest) := by
  induction name with
  | nil => simp [escapeDisplayName, replace, unquote]
  | cons c name ih =>
    rw [escapeDisplayName_cons]
    by_cases hspecial : c = '\\' ∨ c = '\"'
    · simp [hspecial, unquote, ih]
    · rw [not_or] at hspecial
      simp [hspecial, unquote, ih]

theorem parseNameAddr_render (h : e.Proper) (params : HeaderParams) :
    parseNameAddr e.render params =
      some ⟨if e.name.isEmpty then none else some e.name, trim e.uri⟩ := by
  have hcolon : ':' ∈ trim e.uri := mem_trim h.scheme rfl
  have hline : ¬ ∃ c, c ∈ e.name ∧ (c = '\r' ∨ c = '\n') := by
    rintro ⟨c, hc, rfl | rfl⟩
    · exact h.name.1 hc
    · exact h.name.2 hc
  have hafter : trimStart (' ' :: '<' :: (e.uri ++ ['>'])) = '<' :: (e.uri ++ ['>']) := rfl
  simp only [parseNameAddr, trim_render]
  simp [Entry.render, dropPrefix?, unquote_escaped, hafter, splitOnce_append h.uri.2.2, hcolon, hline]

/-- Whatever names are quoted, and however the entries are put on lines: reading gives back
the same names and addresses, an empty name as none and an address without the white space
around it. -/
theorem quoted_names_reread (lines : List (List Entry)) (params : HeaderParams)
    (h : ∀ entries ∈ lines, ∀ e ∈ entries, e.Proper) :
    (lines.flatMap fun entries => splitHeaderValues (joined entries)).map (parseNameAddr · params) =
      lines.flatten.map fun e =>
        some ⟨if e.name.isEmpty then none else some e.name, trim e.uri⟩ := by
  induction lines with
  | nil => rfl
  | cons entries lines ih =>
    rw [forall_mem_cons] at h
    rw [flatMap_cons, map_append, ih h.2, flatten_cons, map_append, splitHeaderValues_joined h.1,
      map_map]
    congr 1
    exact map_congr_left fun e he => parseNameAddr_render (h.1 e he) params

/-- A name with a quote, a backslash, a comma and a bracket, next to one that is empty. -/
theorem quoted_names_reread_pair :
    (splitHeaderValues "\"a\\\", <\\\\\" <sip:1,2@b>,\"\" <tel:3>").map
        (parseNameAddr · .allowed) =
      [some ⟨some "a\", <\\", "sip:1,2@b"⟩, some ⟨none, "tel:3"⟩] := by
  refine quoted_names_reread
    [[⟨"a\", <\\", "sip:1,2@b"⟩, ⟨[], "tel:3"⟩]] .allowed ?_
  intro entries he
  rw [mem_singleton.1 he, forall_mem_cons, forall_mem_singleton]
  exact ⟨⟨by decide, by decide, by decide⟩, ⟨by decide, by decide, by decide⟩⟩

/-- White space around an address is not part of it. -/
theorem padded_uri_trimmed :
    (splitHeaderValues (joined [⟨"a", " tel:3"⟩])).map (parseNameAddr · .allowed) =
      [some ⟨some "a", "tel:3"⟩] := by
  decide +kernel

end Ims.Identity
