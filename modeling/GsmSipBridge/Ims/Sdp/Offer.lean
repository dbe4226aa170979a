-- SUMMARY: Accepted SDP offers, and the lines of an answer read back by the offer parser.
import GsmSipBridge.Ims.Sdp

/-!
# Accepted offers

The media sections of a body are read a second time here, line by line and
without a state, so that what the parser collects can be compared with them.
The parser's invariant is carried over the lines it has read: one lemma says what
a line can change, the induction is over the lines from the end.
-/

namespace Ims.Sdp

open Text Numeral List

variable {rest : Text} {c : Char} {fields : Text}

/-- Kind and port of a media section, read off its line. -/
def mediaSection (line : Text) : Option (Text × Text) :=
  ((trim line).dropPrefix? "m=").map fun rest =>
    let fields := splitWhitespace rest
    (fields[0]?.getD [], fields[1]?.getD [])

/-- The media sections of a body, in order. -/
def mediaSections (body : Text) : List (Text × Text) :=
  (lines body).filterMap mediaSection

theorem mediaSection_eq {line : Text} (h : (trim line).dropPrefix? "m=" = some rest) :
    [line].filterMap mediaSection =
      [((splitWhitespace rest)[0]?.getD [], (splitWhitespace rest)[1]?.getD [])] := by
  refine filterMap_cons_some ?_
  rw [mediaSection, h]
  rfl

/-- The section was read off a line of fields. -/
def DeclinedMedia.OfFields (dm : DeclinedMedia) (fields : List Text) : Prop :=
  (∀ f ∈ fields, Token f) ∧ dm.kind = fields[0]?.getD [] ∧ dm.proto = fields[2]?.getD [] ∧
    dm.fmts = join (fields.drop 3)

/-! ## One line -/

theorem mem_of_splitOnce {t a b : Text} (h : splitOnce c t = some (a, b)) : b ⊆ t := by
  induction t generalizing a with
  | nil => cases h
  | cons x t ih =>
    rw [splitOnce] at h
    split at h
    · cases h
      exact fun _ => mem_cons_of_mem x
    · obtain ⟨⟨a', b'⟩, hsplit, hparts⟩ := Option.map_eq_some_iff.mp h
      cases hparts
      exact subset_cons_of_subset x (ih hsplit)

theorem subset_of_splitTwo {t b : Text} (h : (splitTwo c t).2 = some b) : b ⊆ t := by
  rw [splitTwo] at h
  split at h
  next hsplit =>
    cases h
    exact mem_of_splitOnce hsplit
  next => cases h

theorem subset_of_dropPrefix? {t p : Text} (h : t.dropPrefix? p = some rest) : rest ⊆ t := by
  obtain ⟨p', rfl, -⟩ := dropPrefix?_eq_some_iff.mp h
  exact subset_append_right p' rest

/-- What a line other than a media line leaves alone. New format parameters are
trimmed and come from the line. -/
structure Frame (line : Text) (s s' : ParseState) : Prop where
  otherMedia : s'.otherMedia = s.otherMedia
  audioSeen : s'.audioSeen = s.audioSeen
  rtpPort : s'.rtpPort = s.rtpPort
  fmtp : ∀ p ∈ s'.fmtp, p ∈ s.fmtp ∨ (Trimmed p.2 ∧ p.2 ⊆ line)

section Frame

variable (line : Text) (s : ParseState)

theorem frame_parseFmtp (hrest : rest ⊆ line) : Frame line s (parseFmtp s rest) := by
  unfold parseFmtp
  dsimp only
  split
  next pt params hpt hparams =>
    refine ⟨rfl, rfl, rfl, forall_mem_cons.mpr
      ⟨.inr ⟨trimmed_trim, fun c hc => hrest ?_⟩, fun _ => .inl⟩⟩
    exact subset_of_splitTwo hparams (mem_of_mem_trim hc)
  next => exact ⟨rfl, rfl, rfl, fun _ => .inl⟩

-- Only format parameters carry something of the line into a field of the frame.
theorem frame_parseAttribute : Frame line s (parseAttribute s line) := by
  unfold parseAttribute parseRtpmap parseRtcp parseDesired parseCurrent
  dsimp only
  repeat' split
  all_goals first
    | exact ⟨rfl, rfl, rfl, fun _ => .inl⟩
    | exact frame_parseFmtp line s (subset_of_dropPrefix? (by assumption))

/-- A line is a media line, or it changes nothing about the sections. -/
theorem parseLine_cases :
    (∃ rest, (trim line).dropPrefix? "m=" = some rest ∧ parseLine s line = parseMedia s rest) ∨
      ((trim line).dropPrefix? "m=" = none ∧ Frame (trim line) s (parseLine s line)) := by
  unfold parseLine parseConnection parseDirection
  dsimp only
  split
  next rest h => exact .inl ⟨rest, h, rfl⟩
  next h =>
    refine .inr ⟨h, ?_⟩
    repeat' split
    all_goals first
      | exact ⟨rfl, rfl, rfl, fun _ => .inl⟩
      | exact frame_parseAttribute _ s

end Frame

/-- The kind of a section that starts with `audio `. -/
theorem kind_of_audio (h : rest.dropPrefix? "audio " = some fields) :
    (splitWhitespace rest)[0]? = some "audio".toList := by
  obtain ⟨p, rfl, hp⟩ := dropPrefix?_eq_some_iff.mp h
  have hsplit : p ++ fields = "audio" ++ ' ' :: fields := by
    rw [eq_of_beq hp]
    rfl
  rw [hsplit, splitWhitespace_append (by decide)]
  rfl

/-! ## The invariant -/

/-- The sections collected from the lines read: those before the audio section,
the audio section once it is there, and those after it. -/
def Sections (ls : List Text) (s : ParseState) : Prop :=
  ∃ before after,
    s.otherMedia = before ++ after ∧
    (∀ dm ∈ before, dm.beforeAudio = true) ∧ (∀ dm ∈ after, dm.beforeAudio = false) ∧
    (ls.filterMap mediaSection).map Prod.fst =
      before.map (·.kind) ++ (if s.audioSeen then "audio".toList :: after.map (·.kind) else []) ∧
    (s.audioSeen = false → after = [] ∧ s.rtpPort = none)

structure Parsed (ls : List Text) (s : ParseState) : Prop where
  media : ∀ dm ∈ s.otherMedia, ∃ fields, dm.OfFields fields
  fmtp : ∀ p ∈ s.fmtp, Trimmed p.2 ∧ '\n' ∉ p.2
  sections : Sections ls s

theorem parsed_init : Parsed [] {} where
  media := forall_mem_nil _
  fmtp := forall_mem_nil _
  sections := ⟨[], [], rfl, forall_mem_nil _, forall_mem_nil _, rfl, fun _ => ⟨rfl, rfl⟩⟩

variable {ls : List Text} {s : ParseState} {line : Text} {offer : SdpOffer} {o : OfferedCodec}

theorem Parsed.frame (h : Parsed ls s) {s' : ParseState} (hf : Frame (trim line) s s')
    (hline : '\n' ∉ line) (hm : (trim line).dropPrefix? "m=" = none) :
    Parsed (ls ++ [line]) s' where
  media := by
    rw [hf.otherMedia]
    exact h.media
  fmtp p hp := by
    cases hf.fmtp p hp with
    | inl hold => exact h.fmtp p hold
    | inr hnew => exact ⟨hnew.1, fun hmem => hline (mem_of_mem_trim (hnew.2 hmem))⟩
  sections := by
    have hnone : mediaSection line = none := by rw [mediaSection, hm]; rfl
    rw [Sections, filterMap_append, filterMap_cons_none hnone, filterMap_nil,
      append_nil, hf.otherMedia, hf.audioSeen, hf.rtpPort]
    exact h.sections

theorem parseMedia_audio (h : s.audioSeen = false)
    (hrest : rest.dropPrefix? "audio " = some fields) :
    (parseMedia s rest).otherMedia = s.otherMedia ∧ (parseMedia s rest).fmtp = s.fmtp ∧
      (parseMedia s rest).audioSeen = true := by
  unfold parseMedia
  dsimp only
  rw [h, hrest]
  exact ⟨rfl, rfl, rfl⟩

theorem parseMedia_declined (h : s.audioSeen = true ∨ rest.dropPrefix? "audio " = none) :
    parseMedia s rest =
      { s with
        seenMedia := true
        inAudio := false
        otherMedia := s.otherMedia ++
          [{ kind := (splitWhitespace rest)[0]?.getD []
             proto := (splitWhitespace rest)[2]?.getD []
             fmts := join ((splitWhitespace rest).drop 3)
             beforeAudio := !s.audioSeen }] } := by
  have hnone : (if s.audioSeen then none else rest.dropPrefix? "audio ") = none := by
    cases h with
    | inl hseen => rw [hseen, if_pos rfl]
    | inr hrest => rw [hrest, ite_self]
  unfold parseMedia
  dsimp only
  rw [hnone]

theorem Parsed.audio (h : Parsed ls s) (hseen : s.audioSeen = false)
    (hm : (trim line).dropPrefix? "m=" = some rest)
    (hrest : rest.dropPrefix? "audio " = some fields) :
    Parsed (ls ++ [line]) (parseMedia s rest) := by
  obtain ⟨hother, hfmtp, hafter⟩ := parseMedia_audio hseen hrest
  refine ⟨by rw [hother]; exact h.media, by rw [hfmtp]; exact h.fmtp, ?_⟩
  obtain ⟨before, after, hmedia, hbefore, -, hkinds, hnone⟩ := h.sections
  obtain ⟨rfl, -⟩ := hnone hseen
  refine ⟨before, [], by rw [hother, hmedia], hbefore, forall_mem_nil _, ?_,
    fun hfalse => absurd (hafter.symm.trans hfalse) (by decide)⟩
  rw [hseen, if_neg Bool.false_ne_true, append_nil] at hkinds
  rw [filterMap_append, map_append, hkinds, hafter, mediaSection_eq hm,
    kind_of_audio hrest]
  rfl

theorem Parsed.declined (h : Parsed ls s) (hm : (trim line).dropPrefix? "m=" = some rest)
    (hrest : s.audioSeen = true ∨ rest.dropPrefix? "audio " = none) :
    Parsed (ls ++ [line]) (parseMedia s rest) := by
  rw [parseMedia_declined hrest]
  refine ⟨forall_mem_append.mpr ⟨h.media, forall_mem_singleton.mpr ?_⟩, h.fmtp, ?_⟩
  · exact ⟨splitWhitespace rest, fun _ => token_of_mem_splitWhitespace, rfl, rfl, rfl⟩
  · obtain ⟨before, after, hmedia, hbefore, hafter, hkinds, hnone⟩ := h.sections
    rw [Sections, filterMap_append, mediaSection_eq hm, map_append, hkinds]
    cases hseen : s.audioSeen with
    | true =>
      refine ⟨before, after ++ [_], by rw [hmedia, append_assoc], hbefore, ?_, by simp, nofun⟩
      exact forall_mem_append.mpr ⟨hafter, forall_mem_singleton.mpr rfl⟩
    | false =>
      obtain ⟨rfl, hport⟩ := hnone hseen
      refine ⟨before ++ [_], [], by rw [hmedia, append_nil, append_nil], ?_,
        forall_mem_nil _, by simp, fun _ => ⟨rfl, hport⟩⟩
      exact forall_mem_append.mpr ⟨hbefore, forall_mem_singleton.mpr rfl⟩

theorem Parsed.parseLine (h : Parsed ls s) (hline : '\n' ∉ line) :
    Parsed (ls ++ [line]) (parseLine s line) := by
  cases parseLine_cases line s with
  | inr hother => exact h.frame hother.2 hline hother.1
  | inl hmedia =>
    obtain ⟨rest, hm, hparse⟩ := hmedia
    rw [hparse]
    cases hseen : s.audioSeen with
    | true => exact h.declined hm (.inl hseen)
    | false =>
      cases hrest : rest.dropPrefix? "audio " with
      | none => exact h.declined hm (.inr hrest)
      | some fields => exact h.audio hseen hm hrest

theorem parsed_foldl (h : ∀ l ∈ ls, '\n' ∉ l) : Parsed ls (ls.foldl parseLine {}) := by
  induction ls using reverseRecOn with
  | nil => exact parsed_init
  | append_singleton ls line ih =>
    rw [foldl_append]
    exact (ih fun l hl => h l (mem_append_left _ hl)).parseLine
      (h line (mem_append_right _ (mem_singleton_self line)))

/-! ## Accepted offers -/

/-- An accepted offer, against the state it was made of. -/
theorem finishOffer_ok (h : finishOffer s = .ok offer) :
    s.rtpPort ≠ none ∧ offer.otherMedia = s.otherMedia ∧
      ∀ o ∈ offer.offered, o.fmtp = (s.fmtp.lookup o.payloadType).getD [] ∧
        codecOf s o.payloadType = some o.codec := by
  unfold finishOffer at h
  split at h
  · cases h
  split at h
  · cases h
  next rtpPort hport =>
    split at h
    · cases h
    cases h
    refine ⟨by rw [hport]; exact Option.some_ne_none _, rfl, fun o ho => ?_⟩
    obtain ⟨pt, -, hpt⟩ := mem_filterMap.mp ho
    obtain ⟨codec, hcodec, rfl⟩ := Option.map_eq_some_iff.mp hpt
    exact ⟨rfl, hcodec⟩

section Accepted

variable {body : Text}

theorem parsed_body (body : Text) : Parsed (lines body) ((lines body).foldl parseLine {}) :=
  parsed_foldl fun _ => newline_not_mem_of_mem_lines

variable (h : parseOffer body = .ok offer)

include h

/-- Every section that is not negotiated was read off a line of fields. -/
theorem otherMedia_ofFields : ∀ dm ∈ offer.otherMedia, ∃ fields, dm.OfFields fields := by
  rw [(finishOffer_ok h).2.1]
  exact (parsed_body body).media

/-- The body's sections are the ones the offer keeps, around the audio section. -/
theorem mediaSections_kinds :
    offer.otherMedia.filter (·.beforeAudio) ++ offer.otherMedia.filter (!·.beforeAudio) =
        offer.otherMedia ∧
      (mediaSections body).map Prod.fst =
        (offer.otherMedia.filter (·.beforeAudio)).map (·.kind) ++
          "audio".toList :: (offer.otherMedia.filter (!·.beforeAudio)).map (·.kind) := by
  obtain ⟨hport, hother, -⟩ := finishOffer_ok h
  obtain ⟨before, after, hmedia, hbefore, hafter, hkinds, hnone⟩ := (parsed_body body).sections
  have hseen : ((lines body).foldl parseLine {}).audioSeen = true := by
    cases hseen : ((lines body).foldl parseLine {}).audioSeen with
    | true => rfl
    | false => exact absurd (hnone hseen).2 hport
  have hfirst : offer.otherMedia.filter (·.beforeAudio) = before := by
    rw [hother, hmedia, filter_append, filter_eq_self.mpr hbefore,
      filter_eq_nil_iff.mpr (by simpa using hafter), append_nil]
  have hsecond : offer.otherMedia.filter (!·.beforeAudio) = after := by
    rw [hother, hmedia, filter_append, filter_eq_nil_iff.mpr (by simpa using hbefore),
      filter_eq_self.mpr (by simpa using hafter), nil_append]
  rw [hseen] at hkinds
  rw [hfirst, hsecond]
  exact ⟨(hother.trans hmedia).symm, hkinds⟩

/-- The format parameters of an accepted offer are trimmed and on one line. -/
theorem offered_fmtp : ∀ o ∈ offer.offered, Trimmed o.fmtp ∧ '\n' ∉ o.fmtp := by
  intro o ho
  obtain ⟨hfmtp, -⟩ := (finishOffer_ok h).2.2 o ho
  rw [hfmtp]
  cases hlookup : lookup o.payloadType ((lines body).foldl parseLine {}).fmtp with
  | none => exact ⟨by decide, not_mem_nil⟩
  | some params =>
    obtain ⟨l₁, l₂, hl, -⟩ := lookup_eq_some_iff.mp hlookup
    exact (parsed_body body).fmtp (o.payloadType, params) (by rw [hl]; simp)

/-- Payload type 0 is PCMU. -/
theorem offered_zero : ∀ o ∈ offer.offered, o.payloadType = pcmuPayloadType → o.codec = .pcmu := by
  intro o ho hzero
  have hcodec := ((finishOffer_ok h).2.2 o ho).2
  rw [codecOf, if_pos hzero] at hcodec
  exact (Option.some.inj hcodec).symm

end Accepted

/-! ## The chosen codec -/

theorem pickOffered_mem {codec : NegotiatedCodec} (h : pickOffered offer codec = some o) :
    o ∈ offer.offered ∧ o.codec = codec := by
  have hmem : o ∈ offer.offered.filter (·.codec == codec) := by
    cases Option.or_eq_some_iff.mp h with
    | inl hfind => exact mem_of_find?_eq_some hfind
    | inr hhead => exact mem_of_head? hhead.2
  obtain ⟨ho, hcodec⟩ := mem_filter.mp hmem
  exact ⟨ho, eq_of_beq hcodec⟩

/-- A choice is an entry of the offer, and never a linear one. -/
theorem selectCodecWith_mem {amrAvailable wideband : Bool} {preference : AnswerPreference}
    (h : selectCodecWith offer amrAvailable wideband preference = some o) :
    o ∈ offer.offered ∧ o.codec ≠ .l16 := by
  have hpick : ∀ {codec : NegotiatedCodec}, codec ≠ .l16 →
      (if !amrAvailable && codec != .pcmu then none else pickOffered offer codec) = some o →
      o ∈ offer.offered ∧ o.codec ≠ .l16 := by
    intro codec hne hsome
    split at hsome
    · cases hsome
    · obtain ⟨hmem, rfl⟩ := pickOffered_mem hsome
      exact ⟨hmem, hne⟩
  unfold selectCodecWith at h
  split at h
  on_goal 1 => split at h
  all_goals
    simp only [Option.or_eq_some_iff] at h
    rcases h with h | ⟨-, h | ⟨-, h⟩⟩ <;> exact hpick (by decide) h

/-! ## Lines of an answer

What `parseLine` makes of every kind of line that `answerLines` writes. The state
is arbitrary; what a lemma asks of it is only which section it is in. -/

/-- A direction seen from the other side. -/
def mirror : MediaDirection → MediaDirection
  | .sendOnly => .recvOnly
  | .recvOnly => .sendOnly
  | .inactive => .inactive
  | .sendRecv => .sendRecv

/-! ### Numbers in fields -/

variable {n : Nat} {dms : List DeclinedMedia}

theorem space_not_mem_display : ' ' ∉ display n :=
  (token_display n).not_mem (by decide)

theorem slash_not_mem_display : '/' ∉ display n := fun h =>
  absurd (isDigit_of_mem_display h) (by decide)

/-- What follows a number and a space. -/
theorem splitTwo_display (rest : Text) :
    splitTwo ' ' (display n ++ ' ' :: rest) = (display n, some rest) := by
  rw [splitTwo, splitOnce_append space_not_mem_display]

theorem splitTwo_none {t : Text} (h : c ∉ t) : splitTwo c t = (t, none) := by
  rw [splitTwo, splitOnce_none h]

/-! ### Sessions and ignored lines -/

section Session

variable (s : ParseState)

/-- Only media, connection and attribute lines are read. -/
theorem parseLine_ignored {c : Char} {line : Text} (h : line.head? = some c)
    (hws : isWhitespace c = false) (hm : c ≠ 'm') (hc : c ≠ 'c') (ha : c ≠ 'a') :
    parseLine s line = s := by
  obtain ⟨rest, htrim⟩ := trim_of_head h hws
  have hdir : directionLine (c :: rest) = none := by
    simp [directionLine, ha]
  have hattr : parseAttribute s (c :: rest) = s := by
    have hnone : ∀ {p : Text}, p.head? = some 'a' → (c :: rest).dropPrefix? p = none :=
      fun hp => dropPrefix?_of_head_ne hp ha
    unfold parseAttribute
    rw [hnone rfl, hnone rfl, hnone rfl, hnone rfl, hnone rfl, hnone rfl]
  unfold parseLine
  dsimp only
  rw [htrim, dropPrefix?_of_head_ne rfl hm, dropPrefix?_of_head_ne rfl hc, hdir, hattr, ite_self]

theorem parseLine_connection (h : s.seenMedia = false) (ip : IpAddr) :
    parseLine s ("c=IN " ++ (ipAddrtype ip ++ ' ' :: ip.toText)) =
      { s with connIp := some ip } := by
  have htype : Token (ipAddrtype ip) := by
    unfold ipAddrtype
    split <;> decide
  have hclosed : Closed (ipAddrtype ip ++ ' ' :: ip.toText) :=
    .append _ (.cons _ (IpAddr.token_toText ip).closed)
  have hread : parseConnection s (ipAddrtype ip ++ ' ' :: ip.toText) = { s with connIp := some ip } := by
    unfold parseConnection
    rw [h, splitWhitespace_append (by decide), splitWhitespace_token htype,
      splitWhitespace_token (IpAddr.token_toText ip)]
    simp [IpAddr.parse_toText]
  unfold parseLine
  dsimp only
  rw [trim_append_of_closed (by decide) (by decide) hclosed, dropPrefix?_self_append, ← hread]
  rfl

end Session

/-! ### Attributes of the audio section -/

theorem token_statusType (t : QosStatusType) : Token (qosStatusTypeToken t) := by
  cases t <;> decide

theorem token_direction (d : QosDirection) : Token (qosDirectionToken d) := by
  cases d <;> decide

/-- An association that is left out when it has no text. -/
def withParams (pt : UInt8) (params : Text) (fmtp : List (UInt8 × Text)) : List (UInt8 × Text) :=
  if params = [] then fmtp else (pt, params) :: fmtp

section Audio

variable {s : ParseState} (h : s.inAudio = true) (pt : UInt8)
include h

theorem parseLine_attribute {line line' : Text} (htrim : trim line = line')
    (hhead : line'.head? = some 'a') (hdir : directionLine line' = none) :
    parseLine s line = parseAttribute s line' := by
  obtain ⟨rest, rfl⟩ := head?_eq_some_iff.mp hhead
  unfold parseLine
  dsimp only
  rw [htrim, dropPrefix?_of_head_ne rfl (by decide), dropPrefix?_of_head_ne rfl (by decide), hdir,
    if_pos h]

theorem parseLine_rtpmap (rate : UInt32) {name : Text} (hslash : '/' ∉ name) :
    parseLine s ("a=rtpmap:" ++ (display pt.toNat ++ ' ' :: (name ++ '/' :: display rate.toNat))) =
      { s with rtpmap := (pt, toAsciiUppercase name, rate) :: s.rtpmap } := by
  have hclosed : Closed (display pt.toNat ++ ' ' :: (name ++ '/' :: display rate.toNat)) :=
    .append _ (.cons _ (.append _ (.cons _ (token_display rate.toNat).closed)))
  rw [parseLine_attribute h (trim_append_of_closed (by decide) (by decide) hclosed) rfl rfl,
    parseAttribute, dropPrefix?_self_append]
  simp only [parseRtpmap, splitTwo_display, parseU8_display, splitOnce_append hslash,
    splitTwo_none slash_not_mem_display, parseU32_display]

theorem parseLine_params {params : Text} (hparams : Trimmed params) :
    parseLine s ("a=fmtp:" ++ (display pt.toNat ++ ' ' :: params)) =
      { s with fmtp := withParams pt params s.fmtp } := by
  by_cases hnil : params = []
  · -- Nothing is left behind the payload type once the line is trimmed.
    have hkept : Trimmed ("a=fmtp:" ++ display pt.toNat) := by
      rw [← trim_append_of_closed (by decide) (by decide) (token_display pt.toNat).closed]
      exact trimmed_trim
    have htrim := trim_append hkept (by simp) [' ']
    rw [append_assoc, show trimEnd [' '] = [] from rfl, append_nil] at htrim
    rw [hnil, parseLine_attribute h htrim rfl rfl, parseAttribute, dropPrefix?_self_append]
    change parseFmtp s _ = _
    simp [parseFmtp, splitTwo_none space_not_mem_display, parseU8_display, withParams]
  · have hclosed : Closed (display pt.toNat ++ ' ' :: params) :=
      .append _ (.cons _ ⟨hnil, hparams.2⟩)
    rw [parseLine_attribute h (trim_append_of_closed (by decide) (by decide) hclosed) rfl rfl,
      parseAttribute, dropPrefix?_self_append]
    change parseFmtp s _ = _
    simp [parseFmtp, splitTwo_display, parseU8_display, trim_of_trimmed hparams, withParams, hnil]

theorem parseLine_maxptime (mp : UInt32) :
    parseLine s ("a=maxptime:" ++ display mp.toNat) = { s with maxptime := some mp } := by
  have hmp := token_display mp.toNat
  rw [parseLine_attribute h (trim_append_of_closed (by decide) (by decide) hmp.closed) rfl rfl,
    parseAttribute, dropPrefix?_self_append]
  change { s with maxptime := parseU32 (trim _) } = _
  rw [trim_of_trimmed hmp.trimmed, parseU32_display]

theorem parseLine_rtcp (port : UInt16) :
    parseLine s ("a=rtcp:" ++ display port.toNat) =
      { s with rtcpPort := (some port).filter (· ≠ 0) } := by
  have hport := token_display port.toNat
  rw [parseLine_attribute h (trim_append_of_closed (by decide) (by decide) hport.closed) rfl rfl,
    parseAttribute, dropPrefix?_self_append]
  change parseRtcp s _ = _
  rw [parseRtcp, splitWhitespace_token hport]
  simp [parseU16_display]

theorem parseLine_direction (dir : MediaDirection) :
    parseLine s (directionAnswer dir) = { s with audioDirection := some (mirror dir) } := by
  have hline : parseLine s (directionAnswer dir) = parseDirection s (mirror dir) := by
    cases dir <;> rfl
  rw [hline, parseDirection, if_pos h]

theorem parseLine_current (line : QosStatus) :
    parseLine s (currentLine line) = { s with offererCurr := s.offererCurr ++ [line] } := by
  obtain ⟨statusType, met⟩ := line
  have hclosed : Closed (qosStatusTypeToken statusType ++ ' ' :: qosDirectionToken met) :=
    .append _ (.cons _ (token_direction met).closed)
  have htrim := trim_append_of_closed (p := "a=curr:qos ") (by decide) (by decide) hclosed
  unfold currentLine
  rw [append_assoc, parseLine_attribute h htrim rfl rfl, parseAttribute]
  cases statusType <;> cases met <;> rfl

theorem parseLine_desired {line : QosDesired} {text : Text} (htext : desiredLine line = some text) :
    parseLine s text = { s with preconditions := s.preconditions ++ [line] } := by
  obtain ⟨strength, statusType, direction⟩ := line
  obtain ⟨token, htoken, rfl⟩ := Option.map_eq_some_iff.mp htext
  have hstrength : Token token ∧ parseQosStrength token = strength := by
    cases strength <;> cases htoken <;> decide
  have hclosed : Closed (token ++ ' ' :: (qosStatusTypeToken statusType ++
      ' ' :: qosDirectionToken direction)) :=
    .append _ (.cons _ (.append _ (.cons _ (token_direction direction).closed)))
  have htrim := trim_append_of_closed (p := "a=des:qos ") (by decide) (by decide) hclosed
  simp only [append_assoc, cons_append]
  rw [parseLine_attribute h htrim rfl rfl, parseAttribute, dropPrefix?_self_append]
  change parseDesired s _ = _
  rw [parseDesired, splitWhitespace_append (by decide), splitWhitespace_append (by decide),
    splitWhitespace_token hstrength.1, splitWhitespace_token (token_statusType _),
    splitWhitespace_token (token_direction _)]
  simp only [cons_append, nil_append, hstrength.2]
  cases statusType <;> cases direction <;> rfl

end Audio

/-! ### Media lines -/

section Media

variable {s : ParseState} {proto : Text}

theorem parseLine_media {line rest : Text} (h : trim line = "m=" ++ rest) :
    parseLine s line = parseMedia s rest := by
  unfold parseLine
  dsimp only
  rw [h, dropPrefix?_self_append]

theorem token_audioField (port : UInt16) (hproto : Token proto) (pts : List UInt8) :
    ∀ f ∈ display port.toNat :: proto :: pts.map (display ·.toNat), Token f := by
  simp only [forall_mem_cons, forall_mem_map]
  exact ⟨token_display _, hproto, fun _ _ => token_display _⟩

theorem trim_audioLine {fields : List Text} (h : ∀ f ∈ fields, Token f) (hne : fields ≠ []) :
    trim ("m=" ++ ("audio " ++ join fields)) =
      "m=" ++ ("audio " ++ join fields) :=
  trim_append_of_closed (by decide) (by decide) ((closed_join h hne).append "audio ")

/-- The media line of the answered section. -/
theorem parseLine_audio (h : s.audioSeen = false) (port : UInt16) (hproto : Token proto)
    (pts : List UInt8) :
    parseLine s ("m=" ++ ("audio " ++
        join (display port.toNat :: proto :: pts.map (display ·.toNat)))) =
      { s with
        inAudio := true
        audioSeen := true
        seenMedia := true
        rtpPort := some port
        proto := proto
        listedPts := pts } := by
  have htokens := token_audioField port hproto pts
  rw [parseLine_media (trim_audioLine htokens (cons_ne_nil _ _))]
  have hpts : (pts.map (display ·.toNat)).filterMap parseU8 = pts := by
    rw [filterMap_map]
    exact (filterMap_congr fun pt _ => parseU8_display pt).trans filterMap_some
  unfold parseMedia
  dsimp only
  rw [h, if_neg Bool.false_ne_true, dropPrefix?_self_append]
  dsimp only
  rw [splitWhitespace_join htokens]
  simp [parseU16_display, hpts]

variable {dm : DeclinedMedia} {fields : List Text}

theorem declinedLine_eq :
    declinedLine dm = "m=" ++ (dm.kind ++ ' ' :: ("0" ++ ' ' :: (dm.proto ++
      if dm.fmts.isEmpty then [] else ' ' :: dm.fmts))) := by
  unfold declinedLine
  split <;> simp

variable (h : dm.OfFields fields)

include h

theorem DeclinedMedia.OfFields.kind_token (hkind : dm.kind ≠ []) : Token dm.kind := by
  obtain ⟨htokens, hk, -, -⟩ := h
  cases fields with
  | nil => exact absurd hk hkind
  | cons f fields =>
    rw [hk]
    exact htokens f mem_cons_self

/-- Behind the port the fields of the section are written as they were read. -/
theorem DeclinedMedia.OfFields.splitWhitespace_rest :
    splitWhitespace (dm.proto ++ if dm.fmts.isEmpty then [] else ' ' :: dm.fmts) =
      fields.drop 2 := by
  obtain ⟨htokens, -, hproto, hfmts⟩ := h
  rw [hproto, hfmts]
  rcases fields with _ | ⟨kind, _ | ⟨port, _ | ⟨proto, fmts⟩⟩⟩
  · rfl
  · rfl
  · rfl
  have hproto : Token proto := htokens proto (by simp)
  have hfmts : ∀ f ∈ fmts, Token f := fun f hf => htokens f (by simp [hf])
  change splitWhitespace (proto ++ if (join fmts).isEmpty then [] else ' ' :: join fmts) =
    proto :: fmts
  cases hempty : (join fmts).isEmpty with
  | true =>
    have hnil : fmts = [] := by
      rw [← splitWhitespace_join hfmts, isEmpty_iff.mp hempty]
      rfl
    rw [if_pos rfl, append_nil, splitWhitespace_token hproto, hnil]
  | false =>
    rw [if_neg Bool.false_ne_true, splitWhitespace_append (by decide),
      splitWhitespace_token hproto, splitWhitespace_join hfmts]
    rfl

variable (hkind : dm.kind ≠ [])

include hkind

/-- A declined section, trimmed: its kind, port 0 and its other fields. -/
theorem DeclinedMedia.OfFields.trim_line :
    ∃ rest, trim (declinedLine dm) = "m=" ++ rest ∧
      splitWhitespace rest = dm.kind :: "0" :: fields.drop 2 := by
  rw [declinedLine_eq, trim_append (by decide) (by decide)]
  refine ⟨_, rfl, ?_⟩
  rw [splitWhitespace_trimEnd, splitWhitespace_append (by decide),
    splitWhitespace_append (by decide), splitWhitespace_token (h.kind_token hkind),
    h.splitWhitespace_rest]
  rfl

theorem mediaSection_declinedLine :
    mediaSection (declinedLine dm) = some (dm.kind, "0".toList) := by
  obtain ⟨rest, htrim, hfields⟩ := h.trim_line hkind
  rw [mediaSection, htrim, dropPrefix?_self_append, Option.map_some, hfields]
  rfl

theorem parseLine_declinedLine (hbefore : dm.beforeAudio = !s.audioSeen)
    (haudio : s.audioSeen = true ∨ dm.kind ≠ "audio") :
    parseLine s (declinedLine dm) =
      { s with seenMedia := true, inAudio := false, otherMedia := s.otherMedia ++ [dm] } := by
  obtain ⟨rest, htrim, hfields⟩ := h.trim_line hkind
  have hrest : s.audioSeen = true ∨ rest.dropPrefix? "audio " = none := by
    refine haudio.imp_right fun hne => ?_
    cases hdrop : rest.dropPrefix? "audio " with
    | none => rfl
    | some more =>
      have hfirst := kind_of_audio hdrop
      rw [hfields] at hfirst
      exact absurd (Option.some.inj hfirst) hne
  have hdm : dm = ⟨dm.kind, fields[2]?.getD [], join (fields.drop 3), !s.audioSeen⟩ := by
    rw [← hbefore, ← h.2.2.1, ← h.2.2.2]
  rw [parseLine_media htrim, parseMedia_declined hrest, hfields]
  simp only [getElem?_cons_zero, getElem?_cons_succ, getElem?_drop,
    Option.getD_some, drop_succ_cons, drop_drop]
  rw [← hdm]

end Media

/-! ### Blocks of lines -/

/-- Everything an answer needs to decline a section in its place. -/
structure Declinable (audioSeen : Bool) (dm : DeclinedMedia) : Prop where
  ofFields : ∃ fields, dm.OfFields fields
  kind : dm.kind ≠ []
  place : dm.beforeAudio = !audioSeen
  notAudio : audioSeen = true ∨ dm.kind ≠ "audio"

theorem foldl_declinedLine {s : ParseState} (h : ∀ dm ∈ dms, Declinable s.audioSeen dm) :
    (dms.map declinedLine).foldl parseLine s =
      { s with
        inAudio := s.inAudio && dms.isEmpty
        seenMedia := s.seenMedia || !dms.isEmpty
        otherMedia := s.otherMedia ++ dms } := by
  induction dms generalizing s with
  | nil => simp
  | cons dm dms ih =>
    obtain ⟨⟨fields, hfields⟩, hkind, hplace, haudio⟩ := h dm mem_cons_self
    rw [map_cons, foldl_cons, parseLine_declinedLine hfields hkind hplace haudio, ih]
    · simp
    · exact fun dm' hdm' => h dm' (mem_cons_of_mem dm hdm')

theorem filterMap_mediaSection_declinedLine {audioSeen : Bool}
    (h : ∀ dm ∈ dms, Declinable audioSeen dm) :
    (dms.map declinedLine).filterMap mediaSection = dms.map fun dm => (dm.kind, "0".toList) := by
  rw [filterMap_map, ← filterMap_eq_map]
  refine filterMap_congr fun dm hdm => ?_
  obtain ⟨⟨fields, hfields⟩, hkind, -, -⟩ := h dm hdm
  exact mediaSection_declinedLine hfields hkind

/-- What the answer says about the preconditions. -/
def statedQos (offer : SdpOffer) : List QosStatus × List QosDesired :=
  match preconditionVerdict offer with
  | .proceed current desired => (current, desired.filter (·.strength ≠ .unknown))
  | .decline => ([], [])

/-- The parameters that are answered: those of the adaptive codecs. -/
def keptFmtp (o : OfferedCodec) : Text :=
  match o.codec with
  | .amrNb | .amrWb => o.fmtp
  | .pcmu | .l16 => []

def codecName : NegotiatedCodec → Text
  | .pcmu => "PCMU"
  | .l16 => "L16"
  | .amrNb => "AMR"
  | .amrWb => "AMR-WB"

section Audio

variable {s : ParseState} (h : s.inAudio = true)
include h

theorem foldl_currentLine (current : List QosStatus) :
    (current.map currentLine).foldl parseLine s =
      { s with offererCurr := s.offererCurr ++ current } := by
  induction current generalizing s with
  | nil => simp
  | cons line current ih =>
    rw [map_cons, foldl_cons, parseLine_current h, ih]
    · simp
    · exact h

theorem foldl_desiredLine (desired : List QosDesired) :
    (desired.filterMap desiredLine).foldl parseLine s =
      { s with
        preconditions := s.preconditions ++ desired.filter (·.strength ≠ .unknown) } := by
  induction desired generalizing s with
  | nil => simp
  | cons line desired ih =>
    cases htext : desiredLine line with
    | none =>
      have hunknown : line.strength = .unknown := by
        obtain ⟨strength, statusType, direction⟩ := line
        cases strength
        case unknown => rfl
        all_goals cases htext
      rw [filterMap_cons_none htext, ih h, filter_cons_of_neg (by simp [hunknown])]
    | some text =>
      have hknown : line.strength ≠ .unknown := by
        intro hunknown
        rw [desiredLine, hunknown] at htext
        cases htext
      rw [filterMap_cons_some htext, foldl_cons, parseLine_desired h htext, ih,
        filter_cons_of_pos (by simp [hknown])]
      · simp
      · exact h

theorem foldl_qosLines (offer : SdpOffer) :
    (qosLines offer).foldl parseLine s =
      { s with
        offererCurr := s.offererCurr ++ (statedQos offer).1
        preconditions := s.preconditions ++ (statedQos offer).2 } := by
  unfold qosLines statedQos
  cases preconditionVerdict offer with
  | decline => simp
  | proceed current desired =>
    rw [foldl_append, foldl_currentLine h, foldl_desiredLine]
    exact h

/-- The line that maps the payload type, for each way a codec's name and rate are written. -/
theorem parseLine_codec (pt : UInt8) (codec : NegotiatedCodec) {text : Text}
    (htext : text = ' ' :: (codecName codec ++ '/' :: display (chosenRate codec).toNat)) :
    parseLine s ("a=rtpmap:" ++ display pt.toNat ++ text) =
      { s with rtpmap := (pt, codecName codec, chosenRate codec) :: s.rtpmap } := by
  have hslash : '/' ∉ codecName codec := by cases codec <;> decide
  have hupper : toAsciiUppercase (codecName codec) = codecName codec := by cases codec <;> decide
  rw [append_assoc, htext, parseLine_rtpmap h pt _ hslash, hupper]

theorem foldl_rtpmapLines {chosen : OfferedCodec} (hfmtp : Trimmed chosen.fmtp) :
    (rtpmapLines chosen).foldl parseLine s =
      { s with
        rtpmap := (chosen.payloadType, codecName chosen.codec, chosenRate chosen.codec) :: s.rtpmap
        fmtp := withParams chosen.payloadType (keptFmtp chosen) s.fmtp } := by
  obtain ⟨pt, codec, fmtp⟩ := chosen
  have hcodec := @parseLine_codec s h pt codec
  unfold rtpmapLines
  cases codec with
  | pcmu | l16 => exact hcodec (by decide)
  | amrNb | amrWb =>
    rw [foldl_cons, hcodec (by decide), foldl_cons, append_assoc, parseLine_params _ pt hfmtp]
    · rfl
    · exact h

theorem foldl_dtmfLines (dtmf : Option (UInt8 × UInt32)) :
    (dtmfLines dtmf).foldl parseLine s =
      { s with
        rtpmap := dtmf.toList.map (fun d => (d.1, "TELEPHONE-EVENT".toList, d.2)) ++ s.rtpmap
        fmtp := dtmf.toList.map (fun d => (d.1, "0-15".toList)) ++ s.fmtp } := by
  obtain _ | ⟨pt, rate⟩ := dtmf
  · rfl
  have hname : '/' ∉ "telephone-event".toList := by decide
  have hrtpmap : "a=rtpmap:" ++ display pt.toNat ++ " telephone-event/" ++
      display rate.toNat = "a=rtpmap:" ++ (display pt.toNat ++
        ' ' :: ("telephone-event" ++ '/' :: display rate.toNat)) := by simp
  have hfmtp : "a=fmtp:" ++ display pt.toNat ++ " 0-15" =
      "a=fmtp:" ++ (display pt.toNat ++ ' ' :: "0-15") := by simp
  unfold dtmfLines
  dsimp only
  rw [hrtpmap, hfmtp, foldl_cons, parseLine_rtpmap h pt rate hname, foldl_cons,
    parseLine_params _ pt (by decide)]
  · rfl
  · exact h

end Audio

end Ims.Sdp
