-- SUMMARY: Rendered multiparts are split into their parts, and `extractSdp` selects among them.
import GsmSipBridge.Ims.Body

/-!
# Framing

A multipart body is rendered with CRLF line ends, an optional preamble and an
optional epilogue. The proofs follow the text line by line: `lineInduction` is
the induction on lines, `spans` says where the source's iterator puts them, and
a stretch without delimiter lines is crossed in one step.
-/

namespace Ims.Body

open Bytes List Utf8 MediaType

/-! ## Rendering -/

def crlf : Bytes := [cr, lf]

/-- Header lines, the blank line and the content. -/
def renderPart (headers : List Bytes) (content : Bytes) : Bytes :=
  headers.flatMap (· ++ crlf) ++ (crlf ++ content)

/-- The parts from a delimiter line on. -/
def renderParts (boundary : Bytes) (epilogue : Option Bytes) : List Bytes → Bytes
  | [] => dashes ++ (boundary ++ (dashes ++ (epilogue.map (crlf ++ ·)).getD []))
  | raw :: raws =>
    dashes ++ (boundary ++ (crlf ++ (raw ++ (crlf ++ renderParts boundary epilogue raws))))

def renderMultipart (boundary : Text) (preamble epilogue : Option Bytes) (raws : List Bytes) :
    Bytes :=
  (preamble.map (· ++ crlf)).getD [] ++ renderParts (encode boundary) epilogue raws

/-! ## Lines -/

theorem lineInduction {P : Bytes → Prop} (last : ∀ l, lf ∉ l → P l)
    (line : ∀ l rest, lf ∉ l → P rest → P (l ++ lf :: rest)) (bytes : Bytes) : P bytes := by
  have hfree : ∀ {l : Bytes}, (∀ x ∈ l, (x == lf) = false) → lf ∉ l := fun h hmem =>
    Bool.false_ne_true ((h lf hmem).symm.trans (beq_self_eq_true lf))
  induction bytes using separatorInduction (· == lf) with
  | last l h => exact last l (hfree h)
  | piece l sep rest h hsep ih =>
    rw [beq_iff_eq.mp hsep]
    exact line l rest (hfree h) ih

/-- A line without its line feed, without the carriage return before it. -/
def chomp (l : Bytes) : Bytes :=
  l.chop cr

theorem chomp_concat_cr (l : Bytes) : chomp (l ++ [cr]) = l :=
  chop_concat_self cr l

/-- The lines of `rest`, which starts at `pos`. -/
def spans (pos : Nat) (rest : Bytes) : List Line :=
  linesFrom rest.length pos rest

variable {l rest : Bytes} {pos fuel : Nat} {epilogue : Option Bytes} (boundary : Bytes)

theorem findIdx_last (h : lf ∉ l) : l.findIdx? (· == lf) = none := by
  rw [findIdx?_eq_none_iff]
  intro b hb
  exact beq_false_of_ne fun hlf => h (hlf ▸ hb)

theorem findIdx_line (h : lf ∉ l) : (l ++ lf :: rest).findIdx? (· == lf) = some l.length := by
  rw [findIdx?_append, findIdx_last h, findIdx?_cons]
  simp

/-- Where the source's test puts the end of a line's content. -/
theorem contentEnd_eq :
    (if 0 < l.length ∧ byteAt (l ++ lf :: rest) (l.length - 1) = cr then pos + l.length - 1
      else pos + l.length) = pos + (chomp l).length := by
  cases eq_nil_or_concat l with
  | inl hnil =>
    subst hnil
    rfl
  | inr hconcat =>
    obtain ⟨l, b, rfl⟩ := hconcat
    rw [concat_eq_append]
    have hlast : byteAt (l ++ [b] ++ lf :: rest) ((l ++ [b]).length - 1) = b := by
      simp [byteAt]
    rw [hlast]
    by_cases hb : b = cr
    · subst hb
      rw [chomp_concat_cr, if_pos ⟨by simp, rfl⟩]
      simp only [length_append, length_singleton]
      omega
    · rw [if_neg fun h => hb h.2, chomp, chop, getLast?_concat, if_neg fun h => hb (Option.some.inj h)]

theorem linesFrom_line (h : lf ∉ l) :
    linesFrom (fuel + 1) pos (l ++ lf :: rest) =
      ⟨pos, pos + (chomp l).length, pos + l.length + 1⟩ ::
        linesFrom fuel (pos + l.length + 1) rest := by
  conv => lhs; unfold linesFrom
  rw [findIdx_line h]
  simp only [contentEnd_eq]
  simp

theorem linesFrom_last (h : lf ∉ l) (hne : l ≠ []) :
    linesFrom (fuel + 1) pos l = [⟨pos, pos + l.length, pos + l.length⟩] := by
  unfold linesFrom
  rw [if_neg (by simpa using hne), findIdx_last h]

theorem linesFrom_nil : linesFrom fuel pos [] = [] := by
  cases fuel <;> rfl

/-- More fuel than bytes changes nothing. -/
theorem linesFrom_fuel (h : rest.length ≤ fuel) : linesFrom fuel pos rest = spans pos rest := by
  induction rest using lineInduction generalizing fuel pos with
  | last l hl =>
    by_cases hne : l = []
    · subst hne
      rw [linesFrom_nil, spans, linesFrom_nil]
    have hpos := length_pos_of_ne_nil hne
    obtain ⟨fuel, rfl⟩ := Nat.exists_eq_add_of_le' (Nat.le_trans hpos h)
    obtain ⟨n, hn⟩ := Nat.exists_eq_add_of_le' hpos
    rw [spans, hn, linesFrom_last hl hne, linesFrom_last hl hne]
  | line l rest hl ih =>
    rw [length_append, length_cons] at h
    obtain ⟨fuel, rfl⟩ := Nat.exists_eq_add_of_le' (show 1 ≤ fuel by omega)
    rw [spans, length_append, length_cons, ← Nat.add_assoc, linesFrom_line hl,
      linesFrom_line hl, ih (by omega), ih (by omega)]

section

variable (h : lf ∉ l)

include h

theorem spans_last (hne : l ≠ []) : spans pos l = [⟨pos, pos + l.length, pos + l.length⟩] := by
  rw [← linesFrom_fuel (Nat.le_succ _), linesFrom_last h hne]

theorem spans_line (rest : Bytes) (pos : Nat) :
    spans pos (l ++ lf :: rest) =
      ⟨pos, pos + (chomp l).length, pos + l.length + 1⟩ :: spans (pos + l.length + 1) rest := by
  rw [← linesFrom_fuel (Nat.le_succ _), linesFrom_line h, linesFrom_fuel (by simp; omega)]

theorem lf_not_mem_concat_cr : lf ∉ l ++ [cr] := by
  rw [mem_append]
  exact fun hmem => hmem.elim h (by decide)

theorem spans_crlf :
    spans pos (l ++ (crlf ++ rest)) =
      ⟨pos, pos + l.length, pos + (l ++ crlf).length⟩ :: spans (pos + (l ++ crlf).length) rest := by
  have hline := spans_line (lf_not_mem_concat_cr h) rest pos
  rw [chomp_concat_cr, append_assoc] at hline
  simp only [length_append] at hline ⊢
  exact hline

end

/-- The text of a line of `body`. -/
def Line.content (body : Bytes) (l : Line) : Bytes :=
  body.slice l.start l.contentEnd

theorem slice_of_isPrefix (done : Bytes) (h : l <+: rest) :
    slice (done ++ rest) done.length (done.length + l.length) = l := by
  obtain ⟨more, rfl⟩ := h
  rw [slice, ← append_assoc, take_left' length_append, drop_left]

/-- The content of the line at a position. -/
theorem slice_line (done l rest : Bytes) :
    slice (done ++ (l ++ lf :: rest)) done.length (done.length + (chomp l).length) = chomp l :=
  slice_of_isPrefix done ((chop_isPrefix cr l).trans (prefix_append l (lf :: rest)))

/-- The text lines of a byte string. -/
def textLines (bytes : Bytes) : List Bytes :=
  (lines bytes).map (Line.content bytes)

theorem map_content_line (h : lf ∉ l) (done rest : Bytes) :
    (spans done.length (l ++ lf :: rest)).map (Line.content (done ++ (l ++ lf :: rest))) =
      chomp l :: (spans (done ++ (l ++ [lf])).length rest).map
        (Line.content (done ++ (l ++ [lf]) ++ rest)) := by
  have hbody : done ++ (l ++ lf :: rest) = done ++ (l ++ [lf]) ++ rest := by simp
  have hpos : done.length + l.length + 1 = (done ++ (l ++ [lf])).length := by simp; omega
  rw [spans_line h, hpos, ← hbody]
  exact congrArg (· :: _) (slice_line done l rest)

theorem map_content_last (h : lf ∉ l) (hne : l ≠ []) (done : Bytes) :
    (spans done.length l).map (Line.content (done ++ l)) = [l] := by
  rw [spans_last h hne]
  exact congrArg (fun c => [c]) (slice_of_isPrefix done (prefix_refl l))

/-- Where the lines lie in a body does not change what they say. -/
theorem map_content_spans (done rest : Bytes) :
    (spans done.length rest).map (Line.content (done ++ rest)) = textLines rest := by
  induction rest using lineInduction generalizing done with
  | last l hl =>
    by_cases hne : l = []
    · subst hne
      rfl
    · exact (map_content_last hl hne done).trans (map_content_last hl hne []).symm
  | line l rest hl ih =>
    have hself := map_content_line hl [] rest
    rw [ih] at hself
    rw [map_content_line hl, ih]
    exact hself.symm

theorem textLines_line (h : lf ∉ l) : textLines (l ++ lf :: rest) = chomp l :: textLines rest := by
  have hline := map_content_line h [] rest
  rw [map_content_spans, map_content_spans] at hline
  exact hline

theorem textLines_last (h : lf ∉ l) (hne : l ≠ []) : textLines l = [l] :=
  map_content_last h hne []

/-! ## Delimiters -/

/-- No line is a delimiter line. -/
def Free (boundary bytes : Bytes) : Prop :=
  ∀ line ∈ textLines bytes, delimiter line boundary = none

instance (boundary bytes : Bytes) : Decidable (Free boundary bytes) :=
  inferInstanceAs (Decidable (∀ line ∈ textLines bytes, _))

theorem delimiter_nil : delimiter [] boundary = none := rfl

theorem delimiter_part : delimiter (dashes ++ boundary) boundary = some .part := by
  have hb : (boundary ++ []).dropPrefix? boundary = some [] :=
    dropPrefix?_append_of_beq [] (beq_self_eq_true boundary)
  rw [append_nil] at hb
  unfold delimiter
  rw [dropPrefix?_append_of_beq boundary (beq_self_eq_true dashes)]
  simp only [bind, Option.bind, hb]
  rfl

theorem delimiter_close : delimiter (dashes ++ (boundary ++ dashes)) boundary = some .close := by
  unfold delimiter
  rw [dropPrefix?_append_of_beq _ (beq_self_eq_true dashes)]
  simp only [bind, Option.bind, dropPrefix?_append_of_beq dashes (beq_self_eq_true boundary)]
  rfl

/-! ## Splitting -/

section Split

variable {boundary : Bytes} (partStart : Option Nat) (parts : List Part)

/-- A line that is no delimiter is passed over. -/
theorem splitLoop_pass (hl : lf ∉ l) (hd : delimiter (chomp l) boundary = none)
    (done rest : Bytes) :
    splitLoop (done ++ (l ++ lf :: rest)) boundary (spans done.length (l ++ lf :: rest)) partStart
        parts =
      splitLoop (done ++ (l ++ lf :: rest)) boundary (spans (done ++ (l ++ [lf])).length rest)
        partStart parts := by
  rw [spans_line hl, splitLoop]
  simp only [slice_line, hd]
  rw [length_append, length_append, length_singleton, Nat.add_assoc]

/-- A stretch without delimiter lines is passed over. -/
theorem splitLoop_free {seg : Bytes} (h : Free boundary seg) (done rest : Bytes) :
    splitLoop (done ++ (seg ++ (crlf ++ rest))) boundary
        (spans done.length (seg ++ (crlf ++ rest))) partStart parts =
      splitLoop (done ++ (seg ++ (crlf ++ rest))) boundary
        (spans (done ++ (seg ++ crlf)).length rest) partStart parts := by
  induction seg using lineInduction generalizing done with
  | last l hl =>
    have hd : delimiter (chomp (l ++ [cr])) boundary = none := by
      rw [chomp_concat_cr]
      by_cases hne : l = []
      · rw [hne, delimiter_nil]
      · exact h l (by rw [textLines_last hl hne]; exact mem_singleton_self l)
    have hpass := splitLoop_pass partStart parts (lf_not_mem_concat_cr hl) hd done rest
    rw [append_assoc, append_assoc] at hpass
    exact hpass
  | line l seg hl ih =>
    rw [Free, textLines_line hl] at h
    have hpass := splitLoop_pass partStart parts hl
      (h _ mem_cons_self) done (seg ++ (crlf ++ rest))
    have hrest := ih (fun line hmem => h line (mem_cons_of_mem _ hmem)) (done ++ (l ++ [lf]))
    have hbody : done ++ (l ++ [lf]) ++ (seg ++ (crlf ++ rest)) =
        done ++ (l ++ lf :: (seg ++ (crlf ++ rest))) := by simp
    have hdone : done ++ (l ++ [lf]) ++ (seg ++ crlf) = done ++ (l ++ lf :: seg ++ crlf) := by simp
    rw [hbody, hdone] at hrest
    rw [append_assoc, cons_append, hpass, hrest]

variable {partStart parts} {done : Bytes} {pending : Option Bytes}

/-- The line break before a delimiter belongs to the delimiter. -/
theorem slice_partEnd (done raw rest : Bytes) :
    slice (done ++ (raw ++ (crlf ++ rest))) done.length
      (max (partEnd (done ++ (raw ++ (crlf ++ rest))) done.length (done ++ (raw ++ crlf)).length)
        done.length) = raw := by
  have hlen : (done ++ (raw ++ crlf)).length = done.length + raw.length + 2 := by
    simp [crlf]
    omega
  have hlf : byteAt (done ++ (raw ++ (crlf ++ rest))) (done.length + raw.length + 1) = lf := by
    rw [← append_assoc, ← length_append]
    exact byteAt_append _ _ 1
  have hcr : byteAt (done ++ (raw ++ (crlf ++ rest))) (done.length + raw.length) = cr := by
    rw [← append_assoc, ← length_append]
    exact byteAt_append _ _ 0
  have hend : partEnd (done ++ (raw ++ (crlf ++ rest))) done.length
      (done.length + raw.length + 2) = done.length + raw.length := by
    unfold partEnd
    rw [if_pos ⟨by omega, hlf⟩, if_pos ⟨by omega, hcr⟩]
    rfl
  rw [hlen, hend, Nat.max_eq_left (Nat.le_add_right _ _)]
  exact slice_of_isPrefix done (prefix_append raw _)

/-- What the walk has seen when it stands at a delimiter line: nothing, or a part
whose line break has just been read. -/
def Pending (done : Bytes) : Option Nat → Option Bytes → Prop
  | none, none => True
  | some from_, some raw => ∃ before, done = before ++ (raw ++ crlf) ∧ from_ = before.length
  | _, _ => False

theorem Pending.endPart (h : Pending done partStart pending)
    (hroom : parts.length + pending.toList.length ≤ maxParts) :
    endPart (done ++ rest) done.length partStart parts =
      .ok (parts ++ pending.toList.map parsePart) := by
  cases partStart with
  | none =>
    cases pending with
    | none => rw [Option.toList_none, map_nil, append_nil]; rfl
    | some raw => exact h.elim
  | some from_ =>
    cases pending with
    | none => exact h.elim
    | some raw =>
      obtain ⟨before, rfl, rfl⟩ := h
      have hslice := slice_partEnd before raw rest
      rw [Option.toList_some, length_singleton] at hroom
      simp only [Body.endPart]
      rw [if_neg (by omega), append_assoc, append_assoc, hslice]
      rfl

theorem renderParts_nil :
    renderParts boundary epilogue [] =
      dashes ++ (boundary ++ dashes) ++ (epilogue.map (crlf ++ ·)).getD [] := by
  rw [renderParts, append_assoc, append_assoc]

theorem renderParts_cons (raw : Bytes)
    (raws : List Bytes) :
    renderParts boundary epilogue (raw :: raws) =
      dashes ++ boundary ++ (crlf ++ (raw ++ (crlf ++ renderParts boundary epilogue raws))) := by
  rw [renderParts, append_assoc]

/-- The close delimiter is a line of its own, with or without an epilogue. -/
theorem spans_close (hb : lf ∉ dashes ++ boundary) (epilogue : Option Bytes) (pos : Nat) :
    ∃ next ls, spans pos (renderParts boundary epilogue []) =
      ⟨pos, pos + (dashes ++ (boundary ++ dashes)).length, next⟩ :: ls := by
  have hclose : lf ∉ dashes ++ (boundary ++ dashes) := by
    rw [← append_assoc, mem_append]
    exact fun hmem => hmem.elim hb (by decide)
  rw [renderParts_nil]
  cases epilogue with
  | none =>
    rw [Option.map_none, Option.getD_none, append_nil]
    exact ⟨_, _, spans_last hclose (cons_ne_nil _ _)⟩
  | some epilogue => exact ⟨_, _, spans_crlf hclose⟩

/-- From a delimiter line on, the walk collects the part that is pending and
every part that follows. -/
theorem splitLoop_renderParts (hb : lf ∉ dashes ++ boundary) {raws : List Bytes}
    (hfree : ∀ raw ∈ raws, Free boundary raw) (hpend : Pending done partStart pending)
    (hsome : 0 < pending.toList.length + raws.length)
    (hroom : parts.length + pending.toList.length + raws.length ≤ maxParts) :
    splitLoop (done ++ renderParts boundary epilogue raws) boundary
        (spans done.length (renderParts boundary epilogue raws)) partStart parts =
      .ok (parts ++ (pending.toList ++ raws).map parsePart) := by
  induction raws generalizing done partStart pending parts with
  | nil =>
    have hstart : partStart.isSome := by
      cases partStart with
      | none =>
        cases pending with
        | none => exact absurd hsome (Nat.lt_irrefl 0)
        | some raw => exact hpend.elim
      | some from_ => rfl
    obtain ⟨next, ls, hspans⟩ := spans_close hb epilogue done.length
    have hclose : delimiter (slice (done ++ renderParts boundary epilogue []) done.length
        (done.length + (dashes ++ (boundary ++ dashes)).length)) boundary = some .close := by
      rw [renderParts_nil, slice_of_isPrefix done (prefix_append _ _), delimiter_close]
    rw [hspans, append_nil, splitLoop]
    simp only [hclose, hpend.endPart (Nat.le_of_add_right_le hroom), bind, Except.bind, hstart,
      if_true]
  | cons raw raws ih =>
    have hend : endPart (done ++ renderParts boundary epilogue (raw :: raws)) done.length partStart
        parts = _ := hpend.endPart (Nat.le_trans (Nat.le_add_right _ _) hroom)
    have hfirst : delimiter (slice (done ++ renderParts boundary epilogue (raw :: raws)) done.length
        (done.length + (dashes ++ boundary).length)) boundary = some .part := by
      rw [renderParts_cons, slice_of_isPrefix done (prefix_append _ _), delimiter_part]
    -- `before` ends with the delimiter line; the part's raw bytes follow.
    generalize hbefore : done ++ (dashes ++ boundary ++ crlf) = before
    have hbody : done ++ renderParts boundary epilogue (raw :: raws) =
        before ++ (raw ++ (crlf ++ renderParts boundary epilogue raws)) := by
      rw [← hbefore, renderParts_cons]
      simp
    have hlen : done.length + (dashes ++ boundary ++ crlf).length = before.length := by
      rw [← hbefore]
      exact length_append.symm
    rw [renderParts_cons, spans_crlf hb, ← renderParts_cons, splitLoop]
    simp only [hfirst, hend, bind, Except.bind]
    rw [hlen, hbody, splitLoop_free _ _ (hfree raw mem_cons_self), ← append_assoc raw,
      ← append_assoc before]
    have hraw : Pending (before ++ (raw ++ crlf)) (some before.length) (some raw) :=
      ⟨before, rfl, rfl⟩
    rw [ih (fun raw' h => hfree raw' (mem_cons_of_mem raw h)) hraw
      (Nat.add_pos_left Nat.zero_lt_one _) ?_]
    · simp only [map_append, append_assoc]
      rfl
    · simp only [length_append, length_map, length_cons, Option.toList_some, length_nil] at hroom ⊢
      omega

end Split

/-- What a multipart needs to be split again: a boundary of a legal length on
one line, one to sixteen parts, and no delimiter line in the preamble or in a
part. -/
structure Framed (boundary : Text) (preamble : Option Bytes) (raws : List Bytes) : Prop where
  boundary_pos : 1 ≤ (encode boundary).length
  boundary_le : (encode boundary).length ≤ maxBoundaryLen
  boundary_line : lf ∉ encode boundary
  parts_pos : 1 ≤ raws.length
  parts_le : raws.length ≤ maxParts
  preamble_free : ∀ p ∈ preamble, Free (encode boundary) p
  parts_free : ∀ raw ∈ raws, Free (encode boundary) raw

theorem splitMultipart_render {boundary : Text} {preamble : Option Bytes} {raws : List Bytes}
    (h : Framed boundary preamble raws) :
    splitMultipart (renderMultipart boundary preamble epilogue raws) boundary =
      .ok (raws.map parsePart) := by
  have hb : lf ∉ dashes ++ encode boundary := by
    rw [mem_append]
    exact fun hmem => hmem.elim (by decide) h.boundary_line
  have hwalk : ∀ done, splitLoop (done ++ renderParts (encode boundary) epilogue raws)
      (encode boundary) (spans done.length (renderParts (encode boundary) epilogue raws))
      none [] = .ok (raws.map parsePart) := fun done =>
    splitLoop_renderParts hb h.parts_free (show Pending done none none from trivial)
      (Nat.add_pos_right _ h.parts_pos) (by simpa using h.parts_le)
  have hlen : ¬((encode boundary).isEmpty || decide (maxBoundaryLen <
      (encode boundary).length)) = true := by
    have hpos := length_pos_iff.mp h.boundary_pos
    simpa [hpos] using h.boundary_le
  unfold splitMultipart
  rw [if_neg hlen]
  unfold renderMultipart
  cases hp : preamble with
  | none => exact hwalk []
  | some p =>
    have hfree := splitLoop_free none [] (h.preamble_free p hp) []
      (renderParts (encode boundary) epilogue raws)
    have hrest := hwalk (p ++ crlf)
    rw [append_assoc] at hrest
    rw [Option.map_some, Option.getD_some, append_assoc]
    exact hfree.trans hrest

/-! ## Reading a part -/

/-- A header line: something, on one line. -/
def HeaderLine (l : Bytes) : Prop :=
  l ≠ [] ∧ lf ∉ l

instance (l : Bytes) : Decidable (HeaderLine l) :=
  inferInstanceAs (Decidable (_ ∧ _))

/-- The headers that header lines give. -/
def readHeaders (headers : List Bytes) : List (Text × Text) :=
  headers.foldl pushHeaderLine []

variable {content : Bytes} {headers : List Bytes}

theorem renderPart_cons (headers : List Bytes) :
    renderPart (l :: headers) content = l ++ (crlf ++ renderPart headers content) := by
  simp [renderPart]

/-- The headers are read up to the blank line, and the content starts behind it. -/
theorem headerLoop_render (h : ∀ l ∈ headers, HeaderLine l) (done content : Bytes)
    (hs : List (Text × Text)) :
    headerLoop (done ++ renderPart headers content)
        (spans done.length (renderPart headers content)) hs =
      (headers.foldl pushHeaderLine hs,
        done.length + (headers.flatMap (· ++ crlf) ++ crlf).length) := by
  induction headers generalizing done hs with
  | nil =>
    have hspans : spans done.length (renderPart [] content) = _ :=
      spans_crlf (l := []) not_mem_nil
    have hline : slice (done ++ renderPart [] content) done.length (done.length + 0) = [] :=
      slice_of_isPrefix done nil_prefix
    rw [hspans, headerLoop]
    simp only [length_nil, hline]
    rfl
  | cons l headers ih =>
    obtain ⟨hne, hl⟩ := h l mem_cons_self
    have hline : slice (done ++ (l ++ (crlf ++ renderPart headers content))) done.length
        (done.length + l.length) = l := slice_of_isPrefix done (prefix_append _ _)
    have hrest := ih (fun l' hmem => h l' (mem_cons_of_mem l hmem)) (done ++ (l ++ crlf))
      (pushHeaderLine hs l)
    rw [append_assoc, append_assoc, length_append] at hrest
    rw [renderPart_cons, spans_crlf hl, headerLoop]
    simp only [hline]
    rw [if_neg (by simpa using hne), hrest, foldl_cons, flatMap_cons, Nat.add_assoc,
      ← length_append, append_assoc (l ++ crlf)]

theorem parsePart_render (h : ∀ l ∈ headers, HeaderLine l) :
    parsePart (renderPart headers content) = partOf (readHeaders headers) content := by
  have hloop := headerLoop_render h [] content []
  have hdrop : (renderPart headers content).drop
      (headers.flatMap (· ++ crlf) ++ crlf).length = content := by
    rw [renderPart, ← append_assoc, drop_left]
  rw [nil_append, length_nil, Nat.zero_add] at hloop
  unfold parsePart
  rw [show lines (renderPart headers content) = spans 0 (renderPart headers content) from rfl,
    hloop]
  exact congrArg (partOf _) hdrop

/-! ## Selection

A tree of parts says what a sender means; `Node.render` is what it sends, and
`Node.candidates` is the selection over the tree: an identity-encoded session
part counts, `multipart/alternative` keeps its last part that has any, every
other multipart keeps all. The walk over the rendered bytes computes the same. -/

/-! ### Trees of parts -/

inductive Node where
  | leaf (headers : List Bytes) (content : Bytes)
  | multipart (headers : List Bytes) (boundary : Text) (preamble epilogue : Option Bytes)
      (parts : List Node)

mutual

def Node.render : Node → Bytes
  | .leaf headers content => renderPart headers content
  | .multipart headers boundary preamble epilogue parts =>
    renderPart headers (renderMultipart boundary preamble epilogue (Node.renderAll parts))

def Node.renderAll : List Node → List Bytes
  | [] => []
  | n :: ns => n.render :: Node.renderAll ns

end

/-- The media type that header lines declare. -/
def declaredType (headers : List Bytes) : Option MediaType :=
  (partOf (readHeaders headers) []).mediaType

def MediaType.isAlternative (m : MediaType) : Bool :=
  m.subtype == "alternative"

/-- What a multipart keeps of what its parts have. -/
def select (alternative : Bool) (perPart : List (List Bytes)) : List Bytes :=
  if alternative then (perPart.reverse.find? (!·.isEmpty)).getD [] else perPart.flatten

mutual

/-- The contents of the leaves that are selected. -/
def Node.candidates : Node → List Bytes
  | .leaf headers content =>
    let part := partOf (readHeaders headers) content
    if part.isSession && part.isIdentity then [content] else []
  | .multipart headers _ _ _ parts =>
    select ((declaredType headers).any isAlternative) (Node.candidatesAll parts)

def Node.candidatesAll : List Node → List (List Bytes)
  | [] => []
  | n :: ns => n.candidates :: Node.candidatesAll ns

end

mutual

/-- Whether some session part has a transfer encoding that is not decoded. -/
def Node.encoded : Node → Bool
  | .leaf headers content =>
    let part := partOf (readHeaders headers) content
    part.isSession && !part.isIdentity
  | .multipart _ _ _ _ parts => Node.encodedAny parts

def Node.encodedAny : List Node → Bool
  | [] => false
  | n :: ns => n.encoded || Node.encodedAny ns

end

variable {ns : List Node} {walk : Walk} {parts : List Node} {levels : Nat} {m : MediaType}

theorem Node.renderAll_eq : Node.renderAll ns = ns.map Node.render := by
  induction ns with
  | nil => rfl
  | cons n ns ih => rw [Node.renderAll, ih, map_cons]

theorem Node.candidatesAll_eq : Node.candidatesAll ns = ns.map Node.candidates := by
  induction ns with
  | nil => rfl
  | cons n ns ih => rw [Node.candidatesAll, ih, map_cons]

theorem Node.encodedAny_eq : Node.encodedAny ns = ns.any Node.encoded := by
  induction ns with
  | nil => rfl
  | cons n ns ih => rw [Node.encodedAny, ih, any_cons]

/-- Trees that are sent as they should be, with at most `levels` multiparts
inside each other. -/
inductive Node.WellFormed : Nat → Node → Prop
  | leaf {levels : Nat} {headers : List Bytes} {content : Bytes}
      (lines : ∀ l ∈ headers, HeaderLine l)
      (single : (declaredType headers).any isMultipart = false) :
      WellFormed levels (.leaf headers content)
  | multipart {levels : Nat} {headers : List Bytes} {boundary : Text}
      {preamble epilogue : Option Bytes} {parts : List Node} {m : MediaType}
      (lines : ∀ l ∈ headers, HeaderLine l)
      (declared : declaredType headers = some m) (multi : m.isMultipart = true)
      (boundary_eq : m.param "boundary" = some boundary)
      (framed : Framed boundary preamble (parts.map Node.render))
      (parts_wf : ∀ n ∈ parts, WellFormed levels n) :
      WellFormed (levels + 1) (.multipart headers boundary preamble epilogue parts)

/-! ### The walk -/

/-- A walk over a tree ends with its candidates, and remembers whether it met an
encoded session part. -/
def Finds (result : Except Text (List Bytes × Walk)) (walk : Walk) (candidates : List Bytes)
    (encoded : Bool) : Prop :=
  ∃ walk', result = .ok (candidates, walk') ∧
    walk'.encodedSdp.isSome = (walk.encodedSdp.isSome || encoded)

theorem eachPart_render {nested : MediaType → Bytes → Walk → Except Text (List Bytes × Walk)}
    (h : ∀ n ∈ parts, ∀ walk,
      Finds (partSessions nested (parsePart n.render) walk) walk n.candidates n.encoded)
    (walk : Walk) :
    ∃ walk', eachPart nested ((parts.map Node.render).map parsePart) walk =
        .ok (parts.map Node.candidates, walk') ∧
      walk'.encodedSdp.isSome = (walk.encodedSdp.isSome || parts.any Node.encoded) := by
  induction parts generalizing walk with
  | nil => exact ⟨walk, rfl, (Bool.or_false _).symm⟩
  | cons n parts ih =>
    obtain ⟨walk₁, hn, henc₁⟩ := h n mem_cons_self walk
    obtain ⟨walk₂, hparts, henc₂⟩ :=
      ih (fun n' hn' => h n' (mem_cons_of_mem n hn')) walk₁
    refine ⟨walk₂, ?_, ?_⟩
    · simp only [map_cons, eachPart, hn, bind, Except.bind, hparts]
    · rw [henc₂, henc₁, any_cons, Bool.or_assoc]

/-- The index the source looks for names the last part that has candidates. -/
theorem chosenPart_eq (perPart : List (List Bytes)) :
    (match chosenPart perPart with
      | none => []
      | some chosen => perPart.getD chosen []) = select true perPart := by
  have hfst : (perPart.zipIdx.reverse.find? fun p => !p.1.isEmpty).map Prod.fst =
      perPart.reverse.find? (!·.isEmpty) := by
    conv => rhs; rw [← zipIdx_map_fst 0 perPart, ← map_reverse, find?_map]
    rfl
  unfold chosenPart select
  rw [← hfst]
  cases hfind : perPart.zipIdx.reverse.find? fun p => !p.1.isEmpty with
  | none => rfl
  | some p =>
    have hmem : p ∈ perPart.zipIdx := mem_reverse.mp (mem_of_find?_eq_some hfind)
    have hget : perPart[p.2]? = some p.1 := mem_zipIdx_iff_getElem?.mp hmem
    simp [hget]

theorem sessions_render {boundary : Text} {preamble epilogue : Option Bytes}
    (hbound : m.param "boundary" = some boundary)
    (hframed : Framed boundary preamble (parts.map Node.render))
    (h : ∀ n ∈ parts, ∀ walk,
      Finds (partSessions (sessions levels) (parsePart n.render) walk) walk n.candidates
        n.encoded) :
    Finds (sessions (levels + 1) m
        (renderMultipart boundary preamble epilogue (parts.map Node.render)) walk) walk
      (select m.isAlternative (parts.map Node.candidates)) (parts.any Node.encoded) := by
  obtain ⟨walk', heach, henc⟩ := eachPart_render h walk
  have hchosen := chosenPart_eq (parts.map Node.candidates)
  unfold sessions
  simp only [hbound, bind, Except.bind, splitMultipart_render hframed, heach]
  by_cases halt : m.subtype = "alternative"
  · have hsel : m.isAlternative = true := beq_iff_eq.mpr halt
    rw [if_pos halt, hsel, ← hchosen]
    cases chosenPart (parts.map Node.candidates) with
    | none => exact ⟨walk', rfl, henc⟩
    | some chosen => exact ⟨_, rfl, henc⟩
  · have hsel : m.isAlternative = false := beq_eq_false_iff_ne.mpr halt
    rw [if_neg halt, hsel]
    exact ⟨walk', rfl, henc⟩

/-- Every well-formed tree is walked to its candidates. The induction is on the
tree; `levels` counts down with it. -/
theorem partSessions_render {n : Node} (h : n.WellFormed levels) :
    Finds (partSessions (sessions levels) (parsePart n.render) walk) walk n.candidates
      n.encoded := by
  induction h generalizing walk with
  | @leaf levels headers content lines single =>
    have htype : (partOf (readHeaders headers) content).mediaType.filter isMultipart =
        none := by
      rw [Option.any_eq_false] at single
      exact Option.filter_eq_none_iff.mpr fun m hm => by simp [single m hm]
    rw [Node.render, parsePart_render lines]
    unfold partSessions Node.candidates Node.encoded
    rw [htype]
    dsimp only
    cases hsess : (partOf (readHeaders headers) content).isSession with
    | false => exact ⟨_, rfl, (Bool.or_false _).symm⟩
    | true =>
      cases hidentity : (partOf (readHeaders headers) content).isIdentity with
      | false => exact ⟨_, rfl, (Bool.or_true _).symm⟩
      | true => exact ⟨_, rfl, (Bool.or_false _).symm⟩
  | @multipart levels headers boundary preamble epilogue parts m lines declared multi boundary_eq
      framed parts_wf ih =>
    have htype : ∀ content, (partOf (readHeaders headers) content).mediaType.filter
        isMultipart = some m := fun content => by
      rw [show (partOf (readHeaders headers) content).mediaType = some m from declared,
        Option.filter_some, if_pos multi]
    rw [Node.render, parsePart_render lines, Node.renderAll_eq]
    unfold partSessions Node.candidates Node.encoded
    rw [htype, declared, Node.candidatesAll_eq, Node.encodedAny_eq]
    exact sessions_render boundary_eq framed ih

/-! ### The result -/

/-- A result without its diagnostics. -/
inductive Outcome where
  | empty
  | sdp (text : Text)
  | unsupported
  | noSession
  | malformed (reason : Text)
  | ambiguous (count : Nat)
  deriving DecidableEq

def outcome : Except Rejection Decoded → Outcome
  | .ok .empty => .empty
  | .ok (.sdp text _) => .sdp text
  | .error (.unsupported _ _) => .unsupported
  | .error (.noSession _ _) => .noSession
  | .error (.malformed _ reason) => .malformed reason
  | .error (.ambiguous _ count) => .ambiguous count

/-- What a selection comes to. -/
def verdict (found : List Bytes) (encoded : Bool) : Outcome :=
  match found with
  | [one] => .sdp (fromUtf8Lossy one)
  | [] => if encoded then .unsupported else .noSession
  | many => .ambiguous many.length

theorem outcome_conclude (outer : Text) (found : List Bytes) :
    outcome (conclude outer found walk) = verdict found walk.encodedSdp.isSome := by
  cases found with
  | nil =>
    unfold conclude verdict
    cases walk.encodedSdp <;> rfl
  | cons one rest => cases rest <;> rfl

theorem verdict_perm {found found' : List Bytes} (h : found.Perm found') (encoded : Bool) :
    verdict found encoded = verdict found' encoded := by
  cases found with
  | nil => rw [nil_perm.mp h]
  | cons one rest =>
    cases rest with
    | nil => rw [singleton_perm.mp h]
    | cons two rest =>
      have hlen := h.length_eq
      match found', hlen with
      | one' :: two' :: rest', hlen => exact congrArg Outcome.ambiguous hlen

theorem isBlank_render (boundary : Text) (preamble epilogue : Option Bytes) (raws : List Bytes) :
    isBlank (renderMultipart boundary preamble epilogue raws) = false := by
  have hdash : (0x2d : UInt8) ∈ renderMultipart boundary preamble epilogue raws := by
    refine mem_append_right _ ?_
    cases raws <;> exact mem_cons_self
  refine Bool.eq_false_iff.mpr fun hblank => ?_
  exact absurd (all_eq_true.mp hblank _ hdash) (by decide)

theorem isSdp_of_isMultipart (h : m.isMultipart = true) : m.isSdp = false := by
  have htype : m.type_ = "multipart" := beq_iff_eq.mp h
  have hsplit : Text.splitOnce '/' "application/sdp" =
      some ("application".toList, "sdp".toList) := by decide
  have hneq : Text.eqIgnoreAsciiCase "multipart" "application" = false := by decide
  unfold isSdp is
  rw [hsplit]
  simp only [htype, hneq, Bool.false_and]

section Extract

variable {contentType boundary : Text} {preamble : Option Bytes}

/-- The outcome on a rendered tree is the verdict on its selection. -/
theorem extractSdp_render (htype : parse contentType = some m)
    (hmulti : m.isMultipart = true) (hbound : m.param "boundary" = some boundary)
    (hframed : Framed boundary preamble (parts.map Node.render))
    (hparts : ∀ n ∈ parts, n.WellFormed (maxDepth - 1)) (epilogue : Option Bytes) :
    outcome (extractSdp (some contentType)
        (renderMultipart boundary preamble epilogue (parts.map Node.render))) =
      verdict (select m.isAlternative (parts.map Node.candidates)) (parts.any Node.encoded) := by
  have hwalk : Finds (sessions maxDepth m
      (renderMultipart boundary preamble epilogue (parts.map Node.render)) {}) {} _ _ :=
    sessions_render hbound hframed (fun n hn walk => partSessions_render (hparts n hn))
  obtain ⟨walk, hsessions, henc⟩ := hwalk
  unfold extractSdp
  rw [isBlank_render]
  simp only [Bool.false_eq_true, if_false, htype, isSdp_of_isMultipart hmulti, hmulti,
    Bool.not_true, hsessions, outcome_conclude, henc]
  rfl

theorem Framed.perm {raws raws' : List Bytes} (h : Framed boundary preamble raws)
    (hperm : raws.Perm raws') : Framed boundary preamble raws' :=
  { h with
    parts_pos := hperm.length_eq ▸ h.parts_pos
    parts_le := hperm.length_eq ▸ h.parts_le
    parts_free := fun raw hraw => h.parts_free raw (hperm.mem_iff.mpr hraw) }

/-- The session description of a tree of parts is the leaf that the selection
over the tree picks, as text; without diagnostics the order of the parts does not
matter unless they are alternatives. -/
theorem extractSdp_selects (htype : parse contentType = some m)
    (hmulti : m.isMultipart = true) (hboundary : m.param "boundary" = some boundary)
    (hframed : Framed boundary preamble (parts.map Node.render))
    (hparts : ∀ n ∈ parts, n.WellFormed (maxDepth - 1)) (epilogue : Option Bytes) :
    let result := fun parts : List Node => outcome (extractSdp (some contentType)
      (renderMultipart boundary preamble epilogue (parts.map Node.render)))
    let found := select m.isAlternative (parts.map Node.candidates)
    (∀ content, found = [content] → result parts = .sdp (fromUtf8Lossy content)) ∧
      (∀ text, found = [encode text] → result parts = .sdp text) ∧
      (1 < found.length → result parts = .ambiguous found.length) ∧
      (found = [] →
        result parts = if parts.any Node.encoded then .unsupported else .noSession) ∧
      (m.isAlternative = false → ∀ parts', parts.Perm parts' → result parts' = result parts) := by
  intro result found
  have hresult : result parts = verdict found (parts.any Node.encoded) :=
    extractSdp_render htype hmulti hboundary hframed hparts epilogue
  refine ⟨?_, ?_, ?_, ?_, ?_⟩
  · intro content hfound
    rw [hresult, hfound]
    rfl
  · intro text hfound
    rw [hresult, hfound]
    exact congrArg Outcome.sdp (fromUtf8Lossy_encode text)
  · intro hmany
    rw [hresult]
    match found, hmany with
    | _ :: _ :: _, _ => rfl
  · intro hnone
    rw [hresult, hnone]
    rfl
  · intro hmixed parts' hperm
    have hresult' : result parts' = verdict (select m.isAlternative (parts'.map Node.candidates))
        (parts'.any Node.encoded) :=
      extractSdp_render htype hmulti hboundary (hframed.perm (hperm.map Node.render))
        (fun n hn => hparts n (hperm.mem_iff.mpr hn)) epilogue
    have hfound : (select m.isAlternative (parts'.map Node.candidates)).Perm found := by
      change (select _ _).Perm (select _ _)
      rw [hmixed]
      exact (hperm.map Node.candidates).symm.flatten
    rw [hresult', hresult, hperm.any_eq]
    exact verdict_perm hfound _

end Extract

/-! #### A nested body, and where text and order show -/

def sdpHeaders : List Bytes :=
  [encode "Content-Type: application/sdp"]

def plainHeaders : List Bytes :=
  [encode "Content-Type: text/plain"]

/-- The header is folded, and the boundary starts with that of the outer body. -/
def alternativeHeaders : List Bytes :=
  [encode "Content-Type: multipart/alternative;", encode " boundary=bo"]

/-- A text part, then alternatives of which the last is to be taken. -/
def nestedParts : List Node :=
  [.leaf plainHeaders (encode "--bogus"),
    .multipart alternativeHeaders "bo" none none
      [.leaf sdpHeaders (encode "v=0"), .leaf sdpHeaders (encode "v=1")]]

theorem wellFormed_nestedParts : ∀ n ∈ nestedParts, n.WellFormed (maxDepth - 1) := by
  have hsdp : ∀ n ∈ [Node.leaf sdpHeaders (encode "v=0"),
      Node.leaf sdpHeaders (encode "v=1")], n.WellFormed 2 := by
    refine forall_mem_cons.mpr ⟨?_, forall_mem_singleton.mpr ?_⟩
    all_goals exact .leaf (by decide +kernel) (by decide +kernel)
  have htype : declaredType alternativeHeaders = some
      { type_ := "multipart", subtype := "alternative",
        params := [("boundary", "bo")] } := by decide +kernel
  refine forall_mem_cons.mpr ⟨?_, forall_mem_singleton.mpr ?_⟩
  · exact .leaf (by decide +kernel) (by decide +kernel)
  · refine .multipart (by decide +kernel) htype (by decide +kernel) (by decide +kernel) ?_ hsdp
    constructor <;> decide +kernel

theorem extractSdp_selects_nested :
    outcome (extractSdp (some "multipart/mixed;boundary=b")
      (renderMultipart "b" (some (encode "hello")) none
        (nestedParts.map Node.render))) = .sdp "v=1" := by
  have htype : parse "multipart/mixed;boundary=b" = some
      { type_ := "multipart", subtype := "mixed",
        params := [("boundary", "b")] } := by decide +kernel
  have hframed : Framed "b" (some (encode "hello"))
      (nestedParts.map Node.render) := by
    constructor <;> decide +kernel
  exact (extractSdp_selects htype (by decide +kernel) (by decide +kernel) hframed
    wellFormed_nestedParts none).2.1 "v=1" (by decide +kernel)

/-- The text of a leaf that is no UTF-8 is not its bytes, a multipart without
parts is refused, and the diagnostics follow the order of the parts. -/
theorem extractSdp_text_is_lossy :
    outcome (extractSdp (some "multipart/mixed;boundary=b")
        (renderMultipart "b" none none [(Node.leaf sdpHeaders [0xff]).render])) =
      .sdp [replacement] ∧
    encode [replacement] ≠ [0xff] ∧
    outcome (extractSdp (some "multipart/mixed;boundary=b")
        (renderMultipart "b" none none [])) =
      .malformed "close delimiter before any part" ∧
    (extractSdp (some "multipart/mixed;boundary=b") (renderMultipart "b" none none
        [renderPart [] [], renderPart [encode "Content-Type: a/b"] [],
          renderPart sdpHeaders []])).toOption ≠
      (extractSdp (some "multipart/mixed;boundary=b") (renderMultipart "b" none none
        [renderPart [encode "Content-Type: a/b"] [], renderPart [] [],
          renderPart sdpHeaders []])).toOption := by
  decide +kernel

end Ims.Body
