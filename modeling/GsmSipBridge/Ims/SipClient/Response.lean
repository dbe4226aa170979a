-- SUMMARY: What a peer's request can put into our response.
import GsmSipBridge.Ims.SipClient.Framing

/-!
# Responses

A response copies header values of the request into a line protocol. The values
come out of the request parser, so they hold no line end and no white space at
their ends, and a copied value is read back as it was. What the request can
influence is the tag: whether `To` already carries one is decided by splitting at
every semicolon, while a receiver passes over quoted strings and angle brackets.
-/

namespace Ims.SipClient

open Text Delimited List

variable {lines : List Text} {h : Header}

/-! ## Parsed values -/

/-- A header value that a line can carry and a parser returns unchanged. -/
def Clean (value : Text) : Prop :=
  Free '\r' '\n' value ∧ Trimmed value

instance (value : Text) : Decidable (Clean value) :=
  inferInstanceAs (Decidable (_ ∧ _))

theorem free_unfold (hlines : ∀ l ∈ lines, Free '\r' '\n' l) {done : List Text}
    (hdone : ∀ l ∈ done, Free '\r' '\n' l) : ∀ l ∈ unfold done lines, Free '\r' '\n' l := by
  induction lines generalizing done with
  | nil => exact hdone
  | cons line lines ih =>
    have hline := hlines line mem_cons_self
    have hrest : ∀ l ∈ lines, Free '\r' '\n' l := fun l hl => hlines l (mem_cons_of_mem _ hl)
    unfold unfold
    split
    · exact hdone
    split
    · refine ih hrest ?_
      rcases eq_nil_or_concat done with rfl | ⟨before, last, rfl⟩
      · simp [modifyLast, modifyLast.go]
      rw [concat_eq_append, modifyLast_concat]
      rw [concat_eq_append] at hdone
      refine forall_mem_append.mpr ⟨fun l hl => hdone l (mem_append_left _ hl), ?_⟩
      refine forall_mem_singleton.mpr ?_
      -- the space that joins the two lines is no half of a line end
      have htail : Free '\r' '\n' (' ' :: trimStart line) := by
        refine isChain_cons.mpr ⟨fun _ _ h => absurd h.1 (by decide), ?_⟩
        exact hline.within (dropWhile_suffix _).isInfix
      exact (hdone last (by simp)).append htail (by rintro b ⟨⟩; decide)
    · refine ih hrest (forall_mem_append.mpr ⟨hdone, ?_⟩)
      exact forall_mem_singleton.mpr hline

theorem clean_of_mem_parseHeaders (hlines : ∀ l ∈ lines, Free '\r' '\n' l)
    (hmem : h ∈ parseHeaders lines) : Clean h.2 := by
  obtain ⟨line, hline, hparse⟩ := mem_filterMap.mp hmem
  have hfree := free_unfold hlines (by simp) line hline
  obtain ⟨⟨a, b⟩, hsplit, rfl⟩ := Option.map_eq_some_iff.mp hparse
  obtain ⟨rfl, -⟩ := eq_of_splitOnce hsplit
  have hvalue : b <:+: a ++ ':' :: b := ((suffix_cons ':' b).trans (suffix_append _ _)).isInfix
  exact ⟨hfree.within (trim_within.trans hvalue), trimmed_trim⟩

/-- The header values of a parsed request are clean. -/
theorem clean_of_tryParse {profile : Profile} {bytes : Bytes} {r : SipRequest} {n : Nat}
    (h : SipRequest.tryParse profile bytes = .ok (some (r, n))) : ∀ kv ∈ r.headers, Clean kv.2 := by
  obtain ⟨headerLen, first, lines, start, body, -, hlines, -, -, rfl⟩ := tryParseWith_inv h
  have hfree : ∀ l ∈ lines, Free '\r' '\n' l := fun l hl =>
    free_of_mem_split l (hlines ▸ mem_cons_of_mem first hl)
  exact fun kv hkv => clean_of_mem_parseHeaders hfree hkv

variable {headers : List Header} {name value : Text} {tag reason : Text}

theorem clean_header (hclean : ∀ kv ∈ headers, Clean kv.2) (h : header headers name = some value) :
    Clean value := by
  obtain ⟨kv, hfind, rfl⟩ := Option.map_eq_some_iff.mp h
  exact hclean kv (mem_of_find?_eq_some hfind)

theorem clean_headersAll (hclean : ∀ kv ∈ headers, Clean kv.2)
    (h : value ∈ headersAll headers name) :
    Clean value := by
  obtain ⟨kv, hkv, rfl⟩ := mem_map.mp h
  exact hclean kv (mem_of_mem_filter hkv)

/-! ## Written headers -/

/-- A name under which a clean value makes a header line of its own. -/
def Writable (h : Header) : Prop :=
  Clean h.1 ∧ Clean h.2

/-- A header of this name is read back under it. -/
def Canonical (name : Text) : Prop :=
  ':' ∉ name ∧ canonicalHeaderName name = name

instance (name : Text) : Decidable (Canonical name) :=
  inferInstanceAs (Decidable (_ ∧ _))

def lineOf (h : Header) : Text :=
  headerLine h.1 h.2

theorem Clean.head (h : Clean value) : ∀ b ∈ value.head?, b ≠ '\n' := by
  rintro b hb rfl
  exact absurd (h.2.1 '\n' hb) (by decide)

theorem isLine_lineOf (hw : Writable h) : IsLine (lineOf h) := by
  obtain ⟨hname, hvalue⟩ := hw
  refine ⟨?_, ?_⟩
  · have hcolon : Free '\r' '\n' (h.1 ++ ": ") :=
      hname.1.append (by decide) (by rintro b ⟨⟩; decide)
    exact hcolon.append hvalue.1 hvalue.head
  · exact append_ne_nil_of_left_ne_nil
      (append_ne_nil_of_right_ne_nil _ (cons_ne_nil _ _)) _

theorem isContinuation_lineOf (hw : Writable h) : isContinuation (lineOf h) = false := by
  obtain ⟨name, value⟩ := h
  cases name with
  | nil => rfl
  | cons c name =>
    have hc : isWhitespace c = false := hw.1.2.1 c rfl
    have hother : ∀ d, isWhitespace d = true → (c == d) = false := fun d hd =>
      beq_false_of_ne fun heq => Bool.false_ne_true (hc.symm.trans (heq ▸ hd))
    change (c == ' ' || c == '\t') = false
    rw [hother _ rfl, hother _ rfl]
    rfl

theorem unfold_plain (h : ∀ l ∈ lines, l ≠ [] ∧ isContinuation l = false) (done rest : List Text) :
    unfold done (lines ++ rest) = unfold (done ++ lines) rest := by
  induction lines generalizing done with
  | nil => simp
  | cons line lines ih =>
    obtain ⟨hne, hflush⟩ := h line mem_cons_self
    rw [cons_append, unfold, if_neg (by simpa using hne), hflush, Bool.false_and,
      if_neg Bool.false_ne_true, ih fun l hl => h l (mem_cons_of_mem line hl), append_assoc]
    rfl

theorem lineOf_eq (h : Header) : lineOf h = h.1 ++ ':' :: (' ' :: h.2) := by
  rw [lineOf, headerLine, append_assoc]
  rfl

/-- A written header as it is read back. -/
def reread (h : Header) : Header :=
  (parseHeader (lineOf h)).getD h

theorem parseHeader_lineOf (h : Header) :
    parseHeader (lineOf h) = some (reread h) ∧
      ∃ a, ':' ∉ a ∧ (reread h).1 = canonicalHeaderName (trim a) := by
  have hcolon : ':' ∈ lineOf h := by
    rw [lineOf_eq]
    simp
  obtain ⟨a, b, hsplit⟩ := exists_splitOnce hcolon
  have hparse : parseHeader (lineOf h) = some (canonicalHeaderName (trim a), trim b) := by
    rw [parseHeader, hsplit]
    rfl
  rw [reread, hparse]
  exact ⟨rfl, a, (eq_of_splitOnce hsplit).2, rfl⟩

theorem reread_canonical (hw : Writable h) (hc : Canonical h.1) : reread h = h := by
  rw [reread, parseHeader, lineOf_eq, splitOnce_append hc.1]
  rw [Option.map_some, Option.getD_some, trim_of_trimmed hw.1.2, hc.2, trim_cons (by decide),
    trim_of_trimmed hw.2.2]

/-- A header that is read back as written. -/
def Settled (h : Header) : Prop :=
  Writable h ∧ Canonical h.1

theorem settled_of (hname : Clean name ∧ Canonical name) (hvalue : Clean value) :
    Settled (name, value) :=
  ⟨⟨hname.1, hvalue⟩, hname.2⟩

theorem map_reread (h : ∀ kv ∈ headers, Settled kv) : headers.map reread = headers :=
  (map_congr_left fun kv hkv => reread_canonical (h kv hkv).1 (h kv hkv).2).trans
    (map_id headers)

theorem canonicalHeaderName_colon (h : ':' ∉ name) : ':' ∉ canonicalHeaderName name := by
  unfold canonicalHeaderName
  repeat' split
  all_goals first | exact h | decide

/-- A header read back under its own name was written with a canonical one. -/
theorem canonical_of_reread (hw : Writable h) (heq : reread h = h) : Canonical h.1 := by
  have hcolon : ':' ∉ h.1 := by
    obtain ⟨-, a, ha, hname⟩ := parseHeader_lineOf h
    rw [← heq, hname]
    exact canonicalHeaderName_colon fun hmem => ha (mem_of_mem_trim hmem)
  refine ⟨hcolon, ?_⟩
  rw [reread, parseHeader, lineOf_eq, splitOnce_append hcolon, Option.map_some] at heq
  have hname := congrArg Prod.fst heq
  rwa [trim_of_trimmed hw.1.2] at hname

/-- Headers are read back as written exactly when their names are canonical. -/
theorem map_reread_iff (hw : ∀ h ∈ headers, Writable h) :
    headers.map reread = headers ↔ ∀ h ∈ headers, Canonical h.1 := by
  constructor
  · intro hfix h hh
    refine canonical_of_reread (hw h hh) ?_
    exact map_eq_map_iff.mp (hfix.trans (map_id headers).symm) h hh
  · exact fun hcanon => map_reread fun h hh => ⟨hw h hh, hcanon h hh⟩

theorem isLine_lines (hw : ∀ h ∈ headers, Writable h) : ∀ l ∈ headers.map lineOf, IsLine l :=
  forall_mem_map.mpr fun h hmem => isLine_lineOf (hw h hmem)

theorem parseHeaders_lines (h : ∀ kv ∈ headers, Writable kv) :
    parseHeaders (headers.map lineOf ++ [[], []]) = headers.map reread := by
  rw [parseHeaders, unfold_plain, unfold_blank, nil_append, filterMap_map]
  · have hsome : parseHeader ∘ lineOf = some ∘ reread :=
      funext fun kv => (parseHeader_lineOf kv).1
    rw [hsome, filterMap_eq_map]
  · exact forall_mem_map.mpr fun kv hkv =>
      ⟨(isLine_lineOf (h kv hkv)).2, isContinuation_lineOf (h kv hkv)⟩

/-! ## Tags -/

/-- The fields of a header value from a position on: semicolons inside quoted
strings and angle brackets do not separate; `field` is the one being read. -/
def fieldsFrom : Text → (field : Text) → (quoted escaped angle : Bool) → List Text
  | [], field, _, _, _ => [field]
  | c :: rest, field, quoted, escaped, angle =>
    if escaped then fieldsFrom rest (field ++ [c]) quoted false angle
    else if quoted then fieldsFrom rest (field ++ [c]) (c != '\"') (c == '\\') angle
    else if angle then fieldsFrom rest (field ++ [c]) false false (c != '>')
    else if c = ';' then field :: fieldsFrom rest [] false false false
    else fieldsFrom rest (field ++ [c]) (c == '\"') false (c == '<')

/-- A parameter named `tag`. -/
def isTag (field : Text) : Bool :=
  match splitOnce '=' field with
  | some (name, _) => eqIgnoreAsciiCase (trim name) "tag"
  | none => false

/-- How many tag parameters a `To` value has, those inside a quoted display name or
a URI not counted. -/
def tagCount (value : Text) : Nat :=
  ((fieldsFrom value [] false false false).tail.filter isTag).length

def withTag (value tag : Text) : Text :=
  value ++ ";tag=" ++ tag

/-- The `To` a response is to have: the request's own, with our tag if it had none. -/
def taggedTo (value tag : Text) : Text :=
  if tagCount value = 0 then withTag value tag else value

/-- The already-tagged test agrees with the parameters, and one tag results. -/
def TagAgrees (value tag : Text) : Prop :=
  (toAlreadyTagged value = true ∧ tagCount value = 1) ∨
  (toAlreadyTagged value = false ∧ tagCount value = 0 ∧ tagCount (withTag value tag) = 1)

instance (value tag : Text) : Decidable (TagAgrees value tag) :=
  inferInstanceAs (Decidable (_ ∨ _))

/-- The `To` a response has. -/
def answeredTo (value tag : Text) : Text :=
  if toAlreadyTagged value then value else withTag value tag

theorem tagAgrees_iff :
    TagAgrees value tag ↔
      answeredTo value tag = taggedTo value tag ∧ tagCount (taggedTo value tag) = 1 := by
  have hlonger : withTag value tag ≠ value := by
    intro h
    have := congrArg length h
    simp [withTag] at this
  unfold TagAgrees answeredTo taggedTo
  cases htest : toAlreadyTagged value with
  | true =>
    by_cases hnone : tagCount value = 0
    · simp [hnone, hlonger.symm]
    · simp [hnone]
  | false =>
    by_cases hnone : tagCount value = 0
    · simp [hnone]
    · simp [hnone, hlonger]

theorem fieldsFrom_ne_nil (value field : Text) (quoted escaped angle : Bool) :
    fieldsFrom value field quoted escaped angle ≠ [] := by
  fun_induction fieldsFrom value field quoted escaped angle with
  | case1 | case5 => exact cons_ne_nil _ _
  | _ => assumption

theorem intercalate_fieldsFrom (value field : Text) (quoted escaped angle : Bool) :
    [';'].intercalate (fieldsFrom value field quoted escaped angle) = field ++ value := by
  fun_induction fieldsFrom value field quoted escaped angle with
  | case5 rest field quoted escaped angle _ _ _ ih =>
    rw [intercalate_cons_of_ne_nil (fieldsFrom_ne_nil _ _ _ _ _), ih]
    simp
  | _ => simp_all

theorem toLower_eq_semicolon {c : Char} : c.toLower = ';' ↔ c = ';' := by
  refine ⟨fun h => ?_, by rintro rfl; rfl⟩
  unfold Char.toLower at h
  split at h
  case isTrue hupper =>
    have hval : c.val + 32 = 59 := congrArg Char.val h
    rw [UInt32.eq_sub_iff_add_eq.2 hval] at hupper
    exact absurd hupper (by decide)
  case isFalse => exact h

theorem splitOn_toAsciiLowercase (value : Text) :
    (toAsciiLowercase value).splitOn ';' = (value.splitOn ';').map toAsciiLowercase := by
  rw [splitOn_eq_splitOnP, splitOn_eq_splitOnP]
  induction value with
  | nil => rfl
  | cons c value ih =>
    rw [toAsciiLowercase, map_cons, ← toAsciiLowercase, splitOnP_cons_eq_if_modifyHead, ih,
      splitOnP_cons_eq_if_modifyHead]
    by_cases hc : c = ';'
    · simp [hc, toAsciiLowercase]
    · simp [hc, toLower_eq_semicolon]
      cases splitOnP (· == ';') value <;> simp [toAsciiLowercase]

/-- The test is wrong only where a semicolon is quoted or in brackets, and where a tag does not
start with `tag=`, for a blank in it. -/
theorem toAlreadyTagged_iff (h : ∀ field ∈ fieldsFrom value [] false false false, ';' ∉ field)
    (htag : ∀ field ∈ (fieldsFrom value [] false false false).tail,
      isTag field = "tag=".toList.isPrefixOf (trimStart (toAsciiLowercase field))) :
    toAlreadyTagged value = true ↔ tagCount value ≠ 0 := by
  have hfields : value.splitOn ';' = fieldsFrom value [] false false false := by
    conv_lhs => rw [← nil_append value, ← intercalate_fieldsFrom value [] false false false]
    exact splitOn_intercalate ';' h (fieldsFrom_ne_nil _ _ _ _ _)
  rw [toAlreadyTagged, splitOn_toAsciiLowercase, hfields, ← map_tail, any_map, any_eq_true, tagCount,
    ne_eq, length_eq_zero_iff, filter_eq_nil_iff]
  simp only [not_forall, not_not, exists_prop, Function.comp]
  refine exists_congr fun field => and_congr_right fun hmem => ?_
  rw [htag field hmem]

/-! ## The response read back -/

/-- What is left of a message whose headers and body are given is the headers as
they are reread, and as much of the body as they declare. -/
theorem tryParse_written (profile : Profile) {status : UInt16}
    (hstart : Free '\r' '\n' (Start.response status reason).line)
    (hheaders : ∀ h ∈ headers, Writable h) {head tail : Bytes}
    (hhead : head = headBlock ((Start.response status reason).line :: headers.map lineOf))
    {n : Nat} (hn : n = contentLength (headers.map reread))
    (hfits : head.length + tail.length ≤ isizeMax) (response : SipResponse) :
    (∃ consumed, SipResponse.tryParse profile (head ++ tail) = .ok (some (response, consumed))) ↔
      n ≤ tail.length ∧
      response =
        { status, reason, headers := headers.map reread,
          body := Utf8.fromUtf8Lossy (tail.take n) } := by
  subst hhead hn
  have hlines := isLine_lines hheaders
  by_cases hsum : (headBlock ((Start.response status reason).line :: headers.map lineOf)).length +
      contentLength (headers.map reread) ≤ usizeMax
  · rw [SipResponse.tryParse, tryParseWith_block hstart hlines tail (statusLine_line status reason)
      (parseHeaders_lines hheaders) hsum]
    by_cases hshort : tail.length < contentLength (headers.map reread)
    · rw [if_pos hshort]
      refine ⟨?_, fun h => absurd h.1 (Nat.not_le.mpr hshort)⟩
      rintro ⟨_, ⟨⟩⟩
    rw [if_neg hshort]
    constructor
    · rintro ⟨_, ⟨⟩⟩
      exact ⟨Nat.not_lt.mp hshort, rfl⟩
    · rintro ⟨-, rfl⟩
      exact ⟨_, rfl⟩
  · -- a declared length past the end of memory does not return
    have hlong : ¬ contentLength (headers.map reread) ≤ tail.length := by
      unfold usizeMax at hsum
      unfold isizeMax at hfits
      omega
    refine ⟨?_, fun h => absurd h.1 hlong⟩
    rintro ⟨consumed, hparse⟩
    obtain ⟨headerLen, first, lines, _, body, hend, hhead, -, hbody, -⟩ := tryParseWith_inv hparse
    cases (headerEnd_block hstart hlines tail).symm.trans hend
    cases (headLines_block hstart hlines tail).symm.trans hhead
    rw [parseHeaders_lines hheaders] at hbody
    obtain ⟨failure, hfail, -⟩ := takeBody_overflow (Nat.not_le.mp hsum)
      (headerEnd_bounds hend).2 (contentLength_le _)
    cases hfail.symm.trans hbody

def routingHeaders (request : SipRequest) (fromValue : Text) : List Header :=
  (headersAll request.headers "Via").map ("Via".toList, ·) ++
  (headersAll request.headers "Record-Route").map ("Record-Route".toList, ·) ++
  [("From".toList, fromValue)]

def dialogHeaders (callId cseq : Text) (contact : Option Text) : List Header :=
  [("Call-ID".toList, callId), ("CSeq", cseq)] ++ (contact.map ("Contact".toList, ·)).toList

def bodyHeaders (body : Text) : List Header :=
  (if body.isEmpty then [] else [("Content-Type".toList, "application/sdp".toList)]) ++
  [("Content-Length".toList, Numeral.display (Utf8.encode body).length)]

/-- The headers of a response with a given `To`. -/
def answerHeaders (request : SipRequest) (fromValue toValue callId cseq : Text)
    (contact body : Option Text) (extra : List Header) : List Header :=
  routingHeaders request fromValue ++ ("To".toList, toValue) ::
    (dialogHeaders callId cseq contact ++ (extra ++ bodyHeaders (body.getD [])))

/-- What a response says in its own words: it carries no line end, and no white
space at its ends. -/
def Plain (t : Text) : Prop :=
  '\r' ∉ t ∧ '\n' ∉ t ∧ Trimmed t

instance (t : Text) : Decidable (Plain t) :=
  inferInstanceAs (Decidable (_ ∧ _ ∧ _))

theorem Plain.clean {t : Text} (h : Plain t) : Clean t :=
  ⟨free_of_not_mem h.1, h.2.2⟩

theorem free_responseLine (status : UInt16) (hreason : Plain reason) :
    Free '\r' '\n' (Start.response status reason).line := by
  refine free_of_not_mem fun hmem => ?_
  simp only [Start.line, mem_append, mem_cons] at hmem
  rcases hmem with hmem | hmem | hmem | hmem | hmem
  · exact absurd hmem (by decide)
  · exact absurd hmem (by decide)
  · exact (Numeral.token_display status.toNat).not_mem (by decide) hmem
  · exact absurd hmem (by decide)
  · exact hreason.1 hmem

theorem clean_withTag (hvalue : Clean value) (htag : Plain tag) : Clean (withTag value tag) := by
  have hmid : Closed (";tag=" ++ tag) := by
    cases tag with
    | nil => decide +kernel
    | cons c tag =>
      exact Closed.append _ ⟨cons_ne_nil _ _, htag.2.2.2⟩
  have hfree : Free '\r' '\n' (";tag=" ++ tag) :=
    Free.append (by decide) htag.clean.1 htag.clean.head
  rw [withTag, append_assoc]
  refine ⟨hvalue.1.append hfree (by rintro b ⟨⟩; decide), ?_, (hmid.append value).2⟩
  cases value with
  | nil => rintro c ⟨⟩; decide
  | cons c value => exact hvalue.2.1

theorem clean_answeredTo (hvalue : Clean value) (htag : Plain tag) :
    Clean (answeredTo value tag) := by
  unfold answeredTo
  split
  · exact hvalue
  · exact clean_withTag hvalue htag

/-- The length of the body that the headers of a response declare: an extra header
of that name comes before our own. -/
def declaredLength (body : Text) (extra : List Header) : Nat :=
  contentLength (extra ++ [("Content-Length".toList, Numeral.display (Utf8.encode body).length)])

theorem header_append (a b : List Header) (name : Text) :
    header (a ++ b) name = (header a name).or (header b name) := by
  unfold header
  rw [find?_append]
  cases a.find? fun kv => eqIgnoreAsciiCase kv.1 name <;> rfl

theorem header_other (h : ∀ kv ∈ headers, eqIgnoreAsciiCase kv.1 name = false) :
    header headers name = none := by
  unfold header
  rw [find?_eq_none.mpr fun kv hkv => Bool.eq_false_iff.mp (h kv hkv)]
  rfl

theorem contentLength_answerHeaders (request : SipRequest) (fromValue toValue callId cseq : Text)
    (contact body : Option Text) (extra : List Header) :
    contentLength (answerHeaders request fromValue toValue callId cseq contact body extra) =
      declaredLength (body.getD []) extra := by
  have hnamed : ∀ (name : Text) (values : List Text),
      eqIgnoreAsciiCase name "Content-Length" = false →
      header (values.map (name, ·)) "Content-Length" = none := by
    intro name values hname
    refine header_other fun kv hkv => ?_
    obtain ⟨v, -, rfl⟩ := mem_map.mp hkv
    exact hname
  have hcont : header (contact.map ("Contact".toList, ·)).toList "Content-Length" = none := by
    cases contact with
    | none => rfl
    | some c => exact hnamed "Contact" [c] (by decide)
  have htype : header (if (body.getD []).isEmpty then [] else
      [("Content-Type", "application/sdp")]) "Content-Length" = none := by
    split <;> rfl
  unfold declaredLength contentLength answerHeaders routingHeaders dialogHeaders bodyHeaders
  rw [← singleton_append (x := ("To".toList, toValue))]
  simp only [header_append]
  rw [hnamed "Via" _ (by decide), hnamed "Record-Route" _ (by decide), hcont, htype]
  rfl

/-- The body survives the length that is declared for it. -/
def BodyAgrees (body : Text) (extra : List Header) : Prop :=
  declaredLength body extra ≤ (Utf8.encode body).length ∧
  Utf8.fromUtf8Lossy ((Utf8.encode body).take (declaredLength body extra)) = body

/-- Our response, read back by a receiver, is the one that was meant: the request's
routing and dialog headers, the given contact, extras and body, and one tag. -/
def Faithful (profile : Profile) (status : UInt16) (reason : Text) (request : SipRequest)
    (tag : Text) (contact body : Option Text) (extra : List Header) : Prop :=
  ∃ fromValue toValue callId cseq consumed,
    header request.headers "From" = some fromValue ∧
    header request.headers "To" = some toValue ∧
    header request.headers "Call-ID" = some callId ∧
    header request.headers "CSeq" = some cseq ∧
    SipResponse.tryParse profile (Utf8.encode
      (buildUasResponseWithHeaders status reason request (some tag) contact body extra)) =
      .ok (some ({ status, reason, body := body.getD [],
                   headers := answerHeaders request fromValue (taggedTo toValue tag) callId cseq
                     contact body extra }, consumed)) ∧
    tagCount (taggedTo toValue tag) = 1

/-- A request with clean values and the headers a response copies, and plain ones to add. -/
structure Answerable (request : SipRequest) (fromValue toValue callId cseq tag : Text)
    (contact : Option Text) (extra : List Header) : Prop where
  clean : ∀ kv ∈ request.headers, Clean kv.2
  hfrom : header request.headers "From" = some fromValue
  hto : header request.headers "To" = some toValue
  hcallId : header request.headers "Call-ID" = some callId
  hcseq : header request.headers "CSeq" = some cseq
  tag : Plain tag
  contact : ∀ c ∈ contact, Plain c
  extra : ∀ h ∈ extra, Plain h.1 ∧ Plain h.2

namespace Answerable

variable {request : SipRequest} {fromValue toValue callId cseq : Text} {contact : Option Text}
  {extra : List Header} (ha : Answerable request fromValue toValue callId cseq tag contact extra)
  (body : Option Text)
include ha

theorem responseLines :
    responseLines request (some tag) contact body extra =
      (answerHeaders request fromValue (answeredTo toValue tag) callId cseq contact body
        extra).map lineOf := by
  unfold SipClient.responseLines answerHeaders routingHeaders dialogHeaders bodyHeaders answeredTo withTag
  rw [ha.hfrom, ha.hto, ha.hcallId, ha.hcseq]
  have hname : ∀ (name : Text) (values : List Text),
      values.map (headerLine name) = (values.map (name, ·)).map lineOf := fun name values =>
    (map_map (g := lineOf) (f := (name, ·))).symm
  have hcont : (contact.map (headerLine "Contact")).toList =
      (contact.map ("Contact".toList, ·)).toList.map lineOf := by
    cases contact <;> rfl
  have hbody : (if (body.getD []).isEmpty then []
      else [headerLine "Content-Type" "application/sdp"]) =
      (if (body.getD []).isEmpty then [] else
        [("Content-Type".toList, "application/sdp".toList)]).map lineOf := by
    split <;> rfl
  dsimp only
  rw [hname, hname, hcont, hbody]
  simp only [map_append, map_cons, append_assoc]
  rfl

theorem buildUasResponse (status : UInt16) (reason : Text) :
    Utf8.encode (buildUasResponseWithHeaders status reason request (some tag) contact body extra) =
      headBlock ((Start.response status reason).line ::
        (answerHeaders request fromValue (answeredTo toValue tag) callId cseq contact body
          extra).map lineOf) ++ Utf8.encode (body.getD []) := by
  rw [headBlock, ← Utf8.encode_append, buildUasResponseWithHeaders, ha.responseLines]
  simp [terminated, crlf, Start.line]

theorem writable_extra : ∀ h ∈ extra, Writable h := fun h hh =>
  ⟨(ha.extra h hh).1.clean, (ha.extra h hh).2.clean⟩

/-- What a response copies or says in its own words is read back. -/
theorem settled :
    (∀ h ∈ routingHeaders request fromValue, Settled h) ∧
      Settled ("To", answeredTo toValue tag) ∧
      (∀ h ∈ dialogHeaders callId cseq contact, Settled h) ∧
      ∀ h ∈ bodyHeaders (body.getD []), Settled h := by
  have hvalue {name value} (h : header request.headers name = some value) := clean_header ha.clean h
  have hnumeral : ∀ n, Clean (Numeral.display n) := fun n =>
    ⟨free_of_not_mem ((Numeral.token_display n).not_mem (by decide)), (Numeral.token_display n).trimmed⟩
  refine ⟨?_, settled_of (by decide +kernel) (clean_answeredTo (hvalue ha.hto) ha.tag), ?_, ?_⟩
  · simp only [routingHeaders, forall_mem_append, forall_mem_map, forall_mem_singleton]
    refine ⟨⟨fun v hv => ?_, fun v hv => ?_⟩, settled_of (by decide +kernel) (hvalue ha.hfrom)⟩
    all_goals exact settled_of (by decide +kernel) (clean_headersAll ha.clean hv)
  · simp only [dialogHeaders, forall_mem_append, forall_mem_cons, Option.toList_map, forall_mem_map,
      Option.mem_toList]
    refine ⟨⟨settled_of (by decide +kernel) (hvalue ha.hcallId),
      settled_of (by decide +kernel) (hvalue ha.hcseq), nofun⟩, fun c hc => ?_⟩
    exact settled_of (by decide +kernel) (ha.contact c hc).clean
  · refine forall_mem_append.mpr ⟨?_, forall_mem_singleton.mpr ?_⟩
    · split
      · nofun
      · exact forall_mem_singleton.mpr (settled_of (by decide +kernel) (by decide +kernel))
    · exact settled_of (by decide +kernel) (hnumeral _)

theorem writable :
    ∀ h ∈ answerHeaders request fromValue (answeredTo toValue tag) callId cseq contact body extra,
      Writable h := by
  obtain ⟨hrouting, hto, hdialog, hbody⟩ := ha.settled body
  refine forall_mem_append.mpr ⟨fun h hh => (hrouting h hh).1, forall_mem_cons.mpr ⟨hto.1, ?_⟩⟩
  refine forall_mem_append.mpr ⟨fun h hh => (hdialog h hh).1, forall_mem_append.mpr ⟨?_, ?_⟩⟩
  · exact ha.writable_extra
  · exact fun h hh => (hbody h hh).1

/-- The headers of a response are read back as written, extras apart. -/
theorem reread :
    (answerHeaders request fromValue (answeredTo toValue tag) callId cseq contact body extra).map
      SipClient.reread =
      routingHeaders request fromValue ++ ("To".toList, answeredTo toValue tag) ::
        (dialogHeaders callId cseq contact ++ (extra.map SipClient.reread ++ bodyHeaders (body.getD []))) := by
  obtain ⟨hrouting, hto, hdialog, hbody⟩ := ha.settled body
  rw [answerHeaders, map_append, map_cons, map_append, map_append,
    map_reread hrouting, reread_canonical hto.1 hto.2, map_reread hdialog, map_reread hbody]

/-- They are read back as the headers with another `To` only when that is the `To`
they have, and the extras have names that are read back. -/
theorem reread_iff (to' : Text) :
    (answerHeaders request fromValue (answeredTo toValue tag) callId cseq contact body extra).map
        SipClient.reread = answerHeaders request fromValue to' callId cseq contact body extra ↔
      answeredTo toValue tag = to' ∧ ∀ h ∈ extra, Canonical h.1 := by
  rw [ha.reread body, answerHeaders, append_cancel_left_eq, List.cons.injEq,
    append_cancel_left_eq, append_cancel_right_eq, map_reread_iff ha.writable_extra]
  exact and_congr_left fun _ => by simp

theorem faithful_iff {body} {profile : Profile} {status : UInt16} (hreason : Plain reason)
    (hfits : (Utf8.encode (buildUasResponseWithHeaders status reason request (some tag) contact body
      extra)).length ≤ isizeMax) :
    Faithful profile status reason request tag contact body extra ↔
      TagAgrees toValue tag ∧ (∀ h ∈ extra, Canonical h.1) ∧ BodyAgrees (body.getD []) extra := by
  have hstart := free_responseLine status hreason
  have hbuild := ha.buildUasResponse body status reason
  rw [hbuild, length_append] at hfits
  have hparse := tryParse_written profile hstart (ha.writable body) rfl rfl hfits
  have hsame := ha.reread_iff body (taggedTo toValue tag)
  constructor
  · rintro ⟨_, _, _, _, consumed, hf, ht, hc, hq, hresult, hone⟩
    cases ha.hfrom.symm.trans hf
    cases ha.hto.symm.trans ht
    cases ha.hcallId.symm.trans hc
    cases ha.hcseq.symm.trans hq
    rw [hbuild] at hresult
    obtain ⟨hlen, heq⟩ := (hparse _).mp ⟨consumed, hresult⟩
    have hheaders := (congrArg SipResponse.headers heq).symm
    have hbody := congrArg SipResponse.body heq
    dsimp only at hheaders hbody
    obtain ⟨htagged, hcanon⟩ := hsame.mp hheaders
    rw [hheaders, contentLength_answerHeaders] at hlen
    refine ⟨tagAgrees_iff.mpr ⟨htagged, hone⟩, hcanon, hlen, ?_⟩
    rw [hheaders, contentLength_answerHeaders] at hbody
    exact hbody.symm
  · rintro ⟨htags, hcanon, hlen, hbody⟩
    obtain ⟨htagged, hone⟩ := tagAgrees_iff.mp htags
    have hheaders := hsame.mpr ⟨htagged, hcanon⟩
    obtain ⟨consumed, hresult⟩ := (hparse ⟨status, reason, answerHeaders request fromValue
      (taggedTo toValue tag) callId cseq contact body extra, body.getD []⟩).mpr (by
        rw [hheaders, contentLength_answerHeaders, hbody]
        exact ⟨hlen, rfl⟩)
    rw [← hbuild] at hresult
    exact ⟨fromValue, toValue, callId, cseq, consumed, ha.hfrom, ha.hto, ha.hcallId, ha.hcseq, hresult, hone⟩

end Answerable

/-- A response to any request that was parsed is read back as it was meant exactly
when the already-tagged test agrees with the parameters of `To`, the extra headers
have names that are read back, and none of them declares another body. -/
theorem response_faithful_iff {profile : Profile} {bytes : Bytes} {request : SipRequest} {n : Nat}
    (hparse : SipRequest.tryParse profile bytes = .ok (some (request, n))) {toValue : Text}
    (hfrom : (header request.headers "From").isSome = true)
    (hto : header request.headers "To" = some toValue)
    (hcallId : (header request.headers "Call-ID").isSome = true)
    (hcseq : (header request.headers "CSeq").isSome = true)
    {status : UInt16} {reason tag : Text} (hreason : Plain reason) (htag : Plain tag)
    {contact body : Option Text} (hcontact : ∀ c ∈ contact, Plain c)
    {extra : List Header} (hextra : ∀ h ∈ extra, Plain h.1 ∧ Plain h.2)
    (hfits : (Utf8.encode (buildUasResponseWithHeaders status reason request (some tag) contact body
      extra)).length ≤ isizeMax) :
    Faithful profile status reason request tag contact body extra ↔
      TagAgrees toValue tag ∧ (∀ h ∈ extra, Canonical h.1) ∧ BodyAgrees (body.getD []) extra := by
  obtain ⟨fromValue, hfrom⟩ := Option.isSome_iff_exists.mp hfrom
  obtain ⟨callId, hcallId⟩ := Option.isSome_iff_exists.mp hcallId
  obtain ⟨cseq, hcseq⟩ := Option.isSome_iff_exists.mp hcseq
  exact Answerable.faithful_iff
    ⟨clean_of_tryParse hparse, hfrom, hto, hcallId, hcseq, htag, hcontact, hextra⟩ hreason hfits

/-- An `OPTIONS` request with a given `To`. -/
def optionsRequest (toValue : Text) : SipRequest where
  method := "OPTIONS"
  requestUri := "sip:a"
  headers := [("Via", "SIP/2.0/UDP b"), ("From", "<sip:c>;tag=1"),
    ("To", toValue), ("Call-ID", "d"), ("CSeq", "1 OPTIONS")]
  body := []
  bodyBytes := []

def optionsBytes (toValue : Text) : Bytes :=
  Utf8.encode (terminated '\r' '\n'
    (["OPTIONS sip:a SIP/2.0", "v: SIP/2.0/UDP b", "From: <sip:c>;tag=1",
      "To: " ++ toValue, "i: d", "CSeq: 1 OPTIONS", []]))

set_option maxRecDepth 20000 in
theorem response_faithful_options :
    Faithful .release 200 "OK" (optionsRequest "<sip:e>") "t" none none [] := by
  have hparse : SipRequest.tryParse .release (optionsBytes "<sip:e>") =
      .ok (some (optionsRequest "<sip:e>", 100)) := rfl
  have hto : header (optionsRequest "<sip:e>").headers "To" =
      some "<sip:e>" := rfl
  refine (response_faithful_iff hparse rfl hto rfl rfl (by decide +kernel)
    (by decide +kernel) (by simp) (by simp) (by decide +kernel)).mpr
    ⟨by decide +kernel, by simp, by decide +kernel, by decide +kernel⟩

set_option maxRecDepth 20000 in
/-- A display name that looks like a parameter keeps our tag off the response. -/
theorem quotedTag_unfaithful :
    SipRequest.tryParse .release (optionsBytes "\"a;tag=b\" <sip:e>") =
      .ok (some (optionsRequest "\"a;tag=b\" <sip:e>", 110)) ∧
    ¬ Faithful .release 200 "OK" (optionsRequest "\"a;tag=b\" <sip:e>") "t"
      none none [] := by
  refine ⟨rfl, fun h => ?_⟩
  have hclean : ∀ kv ∈ (optionsRequest "\"a;tag=b\" <sip:e>").headers, Clean kv.2 := by
    decide +kernel
  have hto : header (optionsRequest "\"a;tag=b\" <sip:e>").headers "To" =
      some "\"a;tag=b\" <sip:e>" := rfl
  have hagree := (Answerable.faithful_iff ⟨hclean, rfl, hto, rfl, rfl, by decide +kernel, by simp, by simp⟩
    (by decide +kernel) (by decide +kernel)).mp h
  exact absurd hagree.1 (by decide +kernel)

end Ims.SipClient
