-- SUMMARY: What the offer parser finds in an SDP answer, and that the answer answers the offer.
import GsmSipBridge.Ims.Sdp.Offer

/-!
# Reading an answer back

An answer is read with the parser that reads offers. The lines are followed block
by block to the state after the last one; `parseOffer_buildAnswerFor` says what is
made of it, for every codec of the model.
-/

namespace Ims.Sdp

open Text Numeral List

variable {line : Text} {fields : List Text} {ls : List Text}

/-! ## The state after an answer -/

section State

variable (localIp : IpAddr) (rtpPort : UInt16) (sessionId : UInt64) (chosen : OfferedCodec)
  (dtmf : Option (UInt8 × UInt32))

/-- The lines before the first media line. -/
def sessionLines : List Text :=
  ["v=0",
    "o=- " ++ display sessionId.toNat ++ ' ' :: display sessionId.toNat ++ " IN " ++
      (ipAddrtype localIp ++ ' ' :: localIp.toText),
    "s=gsm-sip-bridge vowifi bridge",
    "c=IN " ++ (ipAddrtype localIp ++ ' ' :: localIp.toText),
    "t=0 0"]

theorem foldl_session :
    (sessionLines localIp sessionId).foldl parseLine {} = { connIp := some localIp } := by
  unfold sessionLines
  rw [foldl_cons, parseLine_ignored _ rfl (by decide) (by decide) (by decide) (by decide),
    foldl_cons, parseLine_ignored _ rfl (by decide) (by decide) (by decide) (by decide),
    foldl_cons, parseLine_ignored _ rfl (by decide) (by decide) (by decide) (by decide),
    foldl_cons, parseLine_connection _ rfl,
    foldl_cons, parseLine_ignored _ rfl (by decide) (by decide) (by decide) (by decide),
    foldl_nil]

theorem foldl_bandwidth (s : ParseState) (codec : NegotiatedCodec) :
    ["b=AS:" ++ display (asKbps codec), "b=RS:" ++ display rtcpSrBandwidthBps,
      "b=RR:" ++ display rtcpRrBandwidthBps].foldl parseLine s = s := by
  have hb : ∀ (s : ParseState) {line : Text}, line.head? = some 'b' → parseLine s line = s :=
    fun s _ hline => parseLine_ignored s hline (by decide) (by decide) (by decide) (by decide)
  rw [foldl_cons, hb s rfl, foldl_cons, hb s rfl, foldl_cons, hb s rfl, foldl_nil]

/-- The answer's own media line, by its fields. -/
def audioLine : Text :=
  "m=" ++ ("audio " ++ join (display rtpPort.toNat :: "RTP/AVP" ::
    (chosen.payloadType :: dtmf.toList.map Prod.fst).map (display ·.toNat)))

theorem audioLine_eq :
    "m=audio " ++ display rtpPort.toNat ++ " RTP/AVP " ++
        display chosen.payloadType.toNat ++ (dtmf.map fun d => ' ' :: display d.1.toNat).getD [] =
      audioLine rtpPort chosen dtmf := by
  cases dtmf <;> simp [audioLine, join]

section Audio

variable {s : ParseState} (h : s.inAudio = true)
include h

theorem foldl_rtcp (declared : Option UInt16) :
    (declared.map fun port => "a=rtcp:" ++ display port.toNat).toList.foldl parseLine s =
      { s with rtcpPort := declared.elim s.rtcpPort fun port => (some port).filter (· ≠ 0) } := by
  cases declared with
  | none => rfl
  | some port => exact parseLine_rtcp h port

theorem foldl_maxptime (maxptime : Option UInt32) :
    (maxptime.map fun mp => "a=maxptime:" ++ display mp.toNat).toList.foldl parseLine s =
      { s with maxptime := maxptime.or s.maxptime } := by
  cases maxptime with
  | none => rfl
  | some mp => exact parseLine_maxptime h mp

theorem parseLine_ptime : parseLine s "a=ptime:20" = s := by
  rw [parseLine_attribute h rfl rfl rfl]
  rfl

end Audio

/-- The sections of an offer that an answer can decline in their places. -/
def SdpOffer.Declinable (offer : SdpOffer) : Prop :=
  (∀ dm ∈ offer.otherMedia.filter (·.beforeAudio), Sdp.Declinable false dm) ∧
    ∀ dm ∈ offer.otherMedia.filter (!·.beforeAudio), Sdp.Declinable true dm

variable {offer : SdpOffer} (hdeclinable : offer.Declinable) {chosen} (hfmtp : Trimmed chosen.fmtp)
  (declared : Option UInt16)
include hdeclinable hfmtp

theorem foldl_answerLines :
    (answerLines localIp rtpPort sessionId chosen offer declared).foldl parseLine {} =
      { connIp := some localIp
        rtpPort := some rtpPort
        listedPts := chosen.payloadType ::
          (dtmfPick offer.dtmf (chosenRate chosen.codec)).toList.map Prod.fst
        rtpmap := (dtmfPick offer.dtmf (chosenRate chosen.codec)).toList.map
            (fun d => (d.1, "TELEPHONE-EVENT".toList, d.2)) ++
          [(chosen.payloadType, codecName chosen.codec, chosenRate chosen.codec)]
        fmtp := (dtmfPick offer.dtmf (chosenRate chosen.codec)).toList.map
            (fun d => (d.1, "0-15".toList)) ++
          withParams chosen.payloadType (keptFmtp chosen) []
        maxptime := offer.maxptime
        proto := "RTP/AVP"
        rtcpPort := declared.filter (· ≠ 0)
        sessionDirection := .sendRecv
        audioDirection := some (mirror offer.direction)
        otherMedia := offer.otherMedia.filter (·.beforeAudio) ++
          offer.otherMedia.filter (!·.beforeAudio)
        preconditions := (statedQos offer).2
        offererCurr := (statedQos offer).1
        inAudio := (offer.otherMedia.filter (!·.beforeAudio)).isEmpty
        audioSeen := true
        seenMedia := true } := by
  have hone : ∀ (s : ParseState) (line : Text), [line].foldl parseLine s = parseLine s line :=
    fun _ _ => rfl
  unfold answerLines
  simp only [foldl_append, hone]
  rw [← sessionLines, foldl_session,
    foldl_declinedLine (s := { connIp := some localIp }) hdeclinable.1, audioLine_eq, audioLine,
    parseLine_audio rfl rtpPort (by decide), foldl_rtcp rfl, foldl_bandwidth,
    foldl_rtpmapLines rfl hfmtp, foldl_dtmfLines rfl, parseLine_ptime rfl, foldl_maxptime rfl,
    parseLine_direction rfl, foldl_qosLines rfl, foldl_declinedLine hdeclinable.2]
  cases declared <;> simp

/-! ## What the parser finds -/

/-- The offer that an answer reads as. -/
def rereadOffer (chosen : OfferedCodec) (offer : SdpOffer) : SdpOffer where
  remoteRtp := (localIp, rtpPort)
  offered := [{ chosen with fmtp := keptFmtp chosen }]
  dtmf := (dtmfPick offer.dtmf (chosenRate chosen.codec)).toList
  maxptime := offer.maxptime
  direction := mirror offer.direction
  proto := "RTP/AVP"
  otherMedia := offer.otherMedia.filter (·.beforeAudio) ++ offer.otherMedia.filter (!·.beforeAudio)
  rtcp := declared.filter (· ≠ 0)
  preconditions := (statedQos offer).2
  offererCurr := (statedQos offer).1

end State

/-! ## Payload types -/

/-- A state that has read the payload types of an answer. -/
structure Mapped (s : ParseState) (chosen : OfferedCodec) (dtmf : Option (UInt8 × UInt32)) : Prop where
  listedPts : s.listedPts = chosen.payloadType :: dtmf.toList.map Prod.fst
  rtpmap : s.rtpmap = dtmf.toList.map (fun d => (d.1, "TELEPHONE-EVENT".toList, d.2)) ++
    [(chosen.payloadType, codecName chosen.codec, chosenRate chosen.codec)]
  fmtp : s.fmtp = dtmf.toList.map (fun d => (d.1, "0-15".toList)) ++
    withParams chosen.payloadType (keptFmtp chosen) []
  distinct : ∀ d ∈ dtmf, d.1 ≠ chosen.payloadType

namespace Mapped

variable {s : ParseState} {chosen : OfferedCodec} {dtmf : Option (UInt8 × UInt32)}
  (h : Mapped s chosen dtmf) {d : UInt8 × UInt32}

include h

theorem lookup_rtpmap :
    s.rtpmap.lookup chosen.payloadType =
      some (codecName chosen.codec, chosenRate chosen.codec) := by
  rw [h.rtpmap]
  cases dtmf with
  | none => simp
  | some d =>
    have hne : (chosen.payloadType == d.1) = false := beq_eq_false_iff_ne.mpr (h.distinct d rfl).symm
    simp [lookup_cons, hne]

theorem lookup_fmtp : (s.fmtp.lookup chosen.payloadType).getD [] = keptFmtp chosen := by
  have hkept : ((withParams chosen.payloadType (keptFmtp chosen) []).lookup
      chosen.payloadType).getD [] = keptFmtp chosen := by
    unfold withParams
    split
    next hnil => rw [hnil]; rfl
    next => simp
  rw [h.fmtp]
  cases dtmf with
  | none => exact hkept
  | some d =>
    have hne : (chosen.payloadType == d.1) = false := beq_eq_false_iff_ne.mpr (h.distinct d rfl).symm
    rw [Option.toList_some, map_singleton, singleton_append, lookup_cons, hne]
    exact hkept

theorem lookup_dtmf (hd : dtmf = some d) :
    s.rtpmap.lookup d.1 = some ("TELEPHONE-EVENT".toList, d.2) := by
  rw [h.rtpmap, hd]
  simp

theorem codecOf_chosen (hzero : chosen.payloadType = pcmuPayloadType → chosen.codec = .pcmu) :
    codecOf s chosen.payloadType = some chosen.codec := by
  unfold codecOf
  by_cases hpcmu : chosen.payloadType = pcmuPayloadType
  · rw [if_pos hpcmu, hzero hpcmu]
  · rw [if_neg hpcmu, h.lookup_rtpmap]
    cases chosen.codec <;> rfl

theorem codecOf_dtmf (hd : dtmf = some d) (hne : d.1 ≠ pcmuPayloadType) : codecOf s d.1 = none := by
  unfold codecOf
  rw [if_neg hne, h.lookup_dtmf hd]
  rfl

theorem dtmfRate_chosen : dtmfRate s chosen.payloadType = none := by
  unfold dtmfRate
  rw [h.lookup_rtpmap]
  cases chosen.codec <;> rfl

theorem dtmfRate_dtmf (hd : dtmf = some d) : dtmfRate s d.1 = some d.2 := by
  unfold dtmfRate
  rw [h.lookup_dtmf hd]
  rfl

/-- One codec is found, with its own payload type. -/
theorem offered (hzero : chosen.payloadType = pcmuPayloadType → chosen.codec = .pcmu)
    (hdtmf : ∀ d ∈ dtmf, d.1 ≠ pcmuPayloadType) :
    (s.listedPts.filterMap fun pt => (codecOf s pt).map fun codec =>
      ({ payloadType := pt, codec, fmtp := (s.fmtp.lookup pt).getD [] } : OfferedCodec)) =
      [{ chosen with fmtp := keptFmtp chosen }] := by
  rw [h.listedPts, filterMap_cons, h.codecOf_chosen hzero, h.lookup_fmtp]
  cases dtmf with
  | none => rfl
  | some d => simp [h.codecOf_dtmf rfl (hdtmf d rfl)]

/-- The kept `telephone-event` is found, and no other. -/
theorem telephoneEvents :
    (s.listedPts.filterMap fun pt => (dtmfRate s pt).map fun rate => (pt, rate)) = dtmf.toList := by
  rw [h.listedPts, filterMap_cons, h.dtmfRate_chosen]
  cases dtmf with
  | none => rfl
  | some d => simp [h.dtmfRate_dtmf rfl]

theorem finishOffer {connIp : IpAddr} {rtpPort : UInt16} (hip : s.connIp = some connIp)
    (hport : s.rtpPort = some rtpPort)
    (hzero : chosen.payloadType = pcmuPayloadType → chosen.codec = .pcmu)
    (hdtmf : ∀ d ∈ dtmf, d.1 ≠ pcmuPayloadType) :
    Sdp.finishOffer s = .ok
      { remoteRtp := (connIp, rtpPort)
        offered := [{ chosen with fmtp := keptFmtp chosen }]
        dtmf := dtmf.toList
        maxptime := s.maxptime
        direction := s.audioDirection.getD s.sessionDirection
        proto := s.proto
        otherMedia := s.otherMedia
        rtcp := s.rtcpPort
        preconditions := s.preconditions
        offererCurr := s.offererCurr } := by
  have hlisted : s.listedPts.isEmpty = false := by rw [h.listedPts]; rfl
  unfold Sdp.finishOffer
  rw [hip]
  rw [hport]
  dsimp only
  rw [hlisted, if_neg Bool.false_ne_true, h.offered hzero hdtmf, h.telephoneEvents]

end Mapped

/-! ## Lines that are not media lines -/

/-- One line, and not of a media section. -/
structure Plain (line : Text) : Prop where
  oneLine : '\n' ∉ line
  notMedia : mediaSection line = none

theorem plain_of_head {c : Char} (h : line.head? = some c) (hws : isWhitespace c = false)
    (hm : c ≠ 'm') (hline : '\n' ∉ line) : Plain line := by
  obtain ⟨rest, htrim⟩ := trim_of_head h hws
  refine ⟨hline, ?_⟩
  rw [mediaSection, htrim, dropPrefix?_of_head_ne rfl hm]
  rfl

theorem newline_not_mem_display (n : Nat) : '\n' ∉ display n :=
  (token_display n).not_mem (by decide)

theorem newline_not_mem_toText (ip : IpAddr) : '\n' ∉ ip.toText :=
  (IpAddr.token_toText ip).not_mem (by decide)

theorem newline_not_mem_ipAddrtype (ip : IpAddr) : '\n' ∉ ipAddrtype ip := by
  unfold ipAddrtype
  split <;> decide

theorem plain_attribute (h : line.head? = some 'a') (hline : '\n' ∉ line) : Plain line :=
  plain_of_head h (by decide) (by decide) hline

theorem forall_plain_cons (h : Plain line) (hs : ∀ l ∈ ls, Plain l) : ∀ l ∈ line :: ls, Plain l :=
  forall_mem_cons.mpr ⟨h, hs⟩

theorem forall_plain_singleton (h : Plain line) : ∀ l ∈ [line], Plain l :=
  forall_mem_singleton.mpr h

theorem forall_plain_append {ls' : List Text} (h : ∀ l ∈ ls, Plain l) (h' : ∀ l ∈ ls', Plain l) :
    ∀ l ∈ ls ++ ls', Plain l :=
  forall_mem_append.mpr ⟨h, h'⟩

theorem forall_plain_toList {α : Type} {o : Option α} {f : α → Text} (h : ∀ a, Plain (f a)) :
    ∀ l ∈ (o.map f).toList, Plain l := by
  cases o with
  | none => exact forall_mem_nil _
  | some a => exact forall_plain_singleton (h a)

theorem plain_session (localIp : IpAddr) (sessionId : UInt64) :
    ∀ l ∈ sessionLines localIp sessionId, Plain l := by
  have hid := newline_not_mem_display sessionId.toNat
  have htype := newline_not_mem_ipAddrtype localIp
  have hip := newline_not_mem_toText localIp
  simp only [sessionLines, forall_mem_cons]
  refine ⟨?_, ?_, ?_, ?_, ?_, forall_mem_nil _⟩
  all_goals exact plain_of_head rfl (by decide) (by decide) (by simp [hid, htype, hip])

theorem plain_bandwidth (codec : NegotiatedCodec) :
    ∀ l ∈ ["b=AS:" ++ display (asKbps codec), "b=RS:" ++ display rtcpSrBandwidthBps,
      "b=RR:" ++ display rtcpRrBandwidthBps], Plain l := by
  simp only [forall_mem_cons]
  refine ⟨?_, ?_, ?_, forall_mem_nil _⟩
  all_goals exact plain_of_head rfl (by decide) (by decide) (by simp [newline_not_mem_display])

theorem plain_rtpmapLines {chosen : OfferedCodec} (h : '\n' ∉ chosen.fmtp) :
    ∀ l ∈ rtpmapLines chosen, Plain l := by
  have hmap : ∀ {name : Text}, '\n' ∉ name →
      Plain ("a=rtpmap:" ++ display chosen.payloadType.toNat ++ name) := fun hname =>
    plain_attribute rfl (by simp [hname, newline_not_mem_display])
  have hfmtp : Plain ("a=fmtp:" ++ display chosen.payloadType.toNat ++ ' ' :: chosen.fmtp) :=
    plain_attribute rfl (by simp [h, newline_not_mem_display])
  unfold rtpmapLines
  cases chosen.codec with
  | pcmu | l16 => exact forall_plain_singleton (hmap (by decide))
  | amrNb | amrWb =>
    exact forall_plain_cons (hmap (by decide)) (forall_plain_singleton hfmtp)

theorem plain_dtmfLines (dtmf : Option (UInt8 × UInt32)) : ∀ l ∈ dtmfLines dtmf, Plain l := by
  cases dtmf with
  | none => exact forall_mem_nil _
  | some d =>
    exact forall_plain_cons (plain_attribute rfl (by simp [newline_not_mem_display]))
      (forall_plain_singleton (plain_attribute rfl (by simp [newline_not_mem_display])))

theorem plain_qosLines (offer : SdpOffer) : ∀ l ∈ qosLines offer, Plain l := by
  have htype : ∀ t, '\n' ∉ qosStatusTypeToken t := by intro t; cases t <;> decide
  have hdir : ∀ d, '\n' ∉ qosDirectionToken d := by intro d; cases d <;> decide
  unfold qosLines
  cases preconditionVerdict offer with
  | decline => exact forall_mem_nil _
  | proceed current desired =>
    refine forall_plain_append (forall_mem_map.mpr fun line _ => ?_) (fun l hl => ?_)
    · unfold currentLine
      exact plain_attribute rfl (by simp [htype, hdir])
    · obtain ⟨line, -, hline⟩ := mem_filterMap.mp hl
      obtain ⟨token, htoken, rfl⟩ := Option.map_eq_some_iff.mp hline
      have hstrength : '\n' ∉ token := by
        cases hs : line.strength <;> rw [hs] at htoken <;> cases htoken <;> decide
      exact plain_attribute rfl (by simp [htype, hdir, hstrength])

/-! ## Media lines -/

theorem newline_not_mem_join (h : ∀ f ∈ fields, Token f) : '\n' ∉ join fields := by
  have hfree : ∀ f ∈ fields, '\n' ∉ f := fun f hf => (h f hf).not_mem (by decide)
  cases fields with
  | nil => exact not_mem_nil
  | cons f fields =>
    rw [join, mem_append, mem_flatMap]
    rintro (hmem | ⟨f', hf', hmem⟩)
    · exact hfree f mem_cons_self hmem
    · cases mem_cons.mp hmem with
      | inl h => exact absurd h (by decide)
      | inr h => exact hfree f' (mem_cons_of_mem f hf') h

theorem newline_not_mem_field (h : ∀ f ∈ fields, Token f) (i : Nat) :
    '\n' ∉ fields[i]?.getD [] := by
  cases hfield : fields[i]? with
  | none => exact not_mem_nil
  | some f => exact (h f (mem_of_getElem? hfield)).not_mem (by decide)

theorem newline_not_mem_declinedLine {dm : DeclinedMedia} (h : dm.OfFields fields) :
    '\n' ∉ declinedLine dm := by
  obtain ⟨htokens, hkind, hproto, hfmts⟩ := h
  have hk : '\n' ∉ dm.kind := by rw [hkind]; exact newline_not_mem_field htokens 0
  have hp : '\n' ∉ dm.proto := by rw [hproto]; exact newline_not_mem_field htokens 2
  have hf : '\n' ∉ dm.fmts := by
    rw [hfmts]
    exact newline_not_mem_join fun f hf => htokens f (mem_of_mem_drop hf)
  unfold declinedLine
  split
  · simp [hk, hp]
  · simp [hk, hp, hf]

theorem audioLine_reads (rtpPort : UInt16) (chosen : OfferedCodec)
    (dtmf : Option (UInt8 × UInt32)) :
    '\n' ∉ audioLine rtpPort chosen dtmf ∧
      mediaSection (audioLine rtpPort chosen dtmf) =
        some ("audio".toList, display rtpPort.toNat) := by
  have hproto : Token "RTP/AVP" := by decide
  have htokens := token_audioField rtpPort hproto (chosen.payloadType :: dtmf.toList.map Prod.fst)
  refine ⟨?_, ?_⟩
  · have hjoin := newline_not_mem_join htokens
    unfold audioLine
    simp only [mem_append]
    exact fun hmem => hmem.elim (by decide) fun hmem => hmem.elim (by decide) hjoin
  · have hsplit : ∀ t : Text, splitWhitespace ("audio " ++ t) = "audio".toList :: splitWhitespace t :=
      fun t => (splitWhitespace_append (by decide) "audio" t).trans rfl
    unfold audioLine
    rw [mediaSection, trim_audioLine htokens (cons_ne_nil _ _), dropPrefix?_self_append,
      Option.map_some, hsplit, splitWhitespace_join htokens]
    rfl

/-! ## The whole answer -/

section Whole

variable (localIp : IpAddr) (rtpPort : UInt16) (sessionId : UInt64) (chosen : OfferedCodec)
  (offer : SdpOffer) (declared : Option UInt16)

/-- The lines of an answer around its media lines. -/
theorem answerLines_eq (h : '\n' ∉ chosen.fmtp) :
    ∃ session attributes, answerLines localIp rtpPort sessionId chosen offer declared =
        session ++ ((offer.otherMedia.filter (·.beforeAudio)).map declinedLine ++
          audioLine rtpPort chosen (dtmfPick offer.dtmf (chosenRate chosen.codec)) ::
            (attributes ++ (offer.otherMedia.filter (!·.beforeAudio)).map declinedLine)) ∧
      (∀ l ∈ session, Plain l) ∧ ∀ l ∈ attributes, Plain l := by
  have hnumber : ∀ {p : Text} (n : Nat), p.head? = some 'a' → '\n' ∉ p → Plain (p ++ display n) :=
    fun n hhead hp => plain_attribute (by rw [head?_append, hhead]; rfl)
      (by simp [hp, newline_not_mem_display])
  have hptime : Plain "a=ptime:20" := plain_attribute rfl (by decide)
  have hdir : Plain (directionAnswer offer.direction) :=
    plain_attribute (by cases offer.direction <;> rfl) (by cases offer.direction <;> decide)
  have hattrs :=
    forall_plain_append (forall_plain_toList (o := declared) fun port =>
      hnumber (p := "a=rtcp:") port.toNat rfl (by decide)) <|
    forall_plain_append (plain_bandwidth chosen.codec) <|
    forall_plain_append (plain_rtpmapLines h) <|
    forall_plain_append (plain_dtmfLines (dtmfPick offer.dtmf (chosenRate chosen.codec))) <|
    forall_plain_cons hptime <|
    forall_plain_append (forall_plain_toList (o := offer.maxptime) fun mp =>
      hnumber (p := "a=maxptime:") mp.toNat rfl (by decide)) <|
    forall_plain_cons hdir (plain_qosLines offer)
  refine ⟨_, _, ?_, plain_session localIp sessionId, hattrs⟩
  unfold answerLines sessionLines
  dsimp only
  rw [audioLine_eq]
  simp

variable {offer chosen} (hdeclinable : offer.Declinable) (hline : '\n' ∉ chosen.fmtp)
include hdeclinable hline

theorem lines_buildAnswerFor :
    lines (buildAnswerFor localIp rtpPort sessionId chosen offer declared).1 =
      answerLines localIp rtpPort sessionId chosen offer declared := by
  refine lines_flatMap_crlf ?_
  obtain ⟨session, attributes, heq, hsess, hattrs⟩ :=
    answerLines_eq localIp rtpPort sessionId chosen offer declared hline
  have hdeclined : ∀ {dms : List DeclinedMedia} {audioSeen : Bool},
      (∀ dm ∈ dms, Declinable audioSeen dm) → ∀ l ∈ dms.map declinedLine, '\n' ∉ l := by
    refine fun h => forall_mem_map.mpr fun dm hdm => ?_
    obtain ⟨fields, hfields⟩ := (h dm hdm).ofFields
    exact newline_not_mem_declinedLine hfields
  rw [heq]
  refine forall_mem_append.mpr ⟨fun l hl => (hsess l hl).oneLine, ?_⟩
  refine forall_mem_append.mpr ⟨hdeclined hdeclinable.1, ?_⟩
  refine forall_mem_cons.mpr ⟨(audioLine_reads rtpPort chosen _).1, ?_⟩
  exact forall_mem_append.mpr
    ⟨fun l hl => (hattrs l hl).oneLine, hdeclined hdeclinable.2⟩

/-- The sections of an answer: those of the offer, in their order, with port 0. -/
theorem mediaSections_buildAnswerFor :
    mediaSections (buildAnswerFor localIp rtpPort sessionId chosen offer declared).1 =
      (offer.otherMedia.filter (·.beforeAudio)).map (fun dm => (dm.kind, "0".toList)) ++
        ("audio".toList, display rtpPort.toNat) ::
          (offer.otherMedia.filter (!·.beforeAudio)).map (fun dm => (dm.kind, "0")) := by
  obtain ⟨session, attributes, heq, hsess, hattrs⟩ :=
    answerLines_eq localIp rtpPort sessionId chosen offer declared hline
  have hplain : ∀ {ls : List Text}, (∀ l ∈ ls, Plain l) → ls.filterMap mediaSection = [] :=
    fun h => filterMap_eq_nil_iff.mpr fun l hl => (h l hl).notMedia
  rw [mediaSections, lines_buildAnswerFor localIp rtpPort sessionId declared hdeclinable hline, heq,
    filterMap_append, hplain hsess, nil_append, filterMap_append,
    filterMap_mediaSection_declinedLine hdeclinable.1,
    filterMap_cons_some (audioLine_reads rtpPort chosen _).2, filterMap_append,
    hplain hattrs, nil_append, filterMap_mediaSection_declinedLine hdeclinable.2]

/-- The parser finds in an answer what the answer was built from. -/
theorem parseOffer_buildAnswerFor (hfmtp : Trimmed chosen.fmtp)
    (hzero : chosen.payloadType = pcmuPayloadType → chosen.codec = .pcmu)
    (hpt : ∀ d ∈ dtmfPick offer.dtmf (chosenRate chosen.codec), d.1 ≠ chosen.payloadType)
    (hdtmf : ∀ d ∈ dtmfPick offer.dtmf (chosenRate chosen.codec), d.1 ≠ pcmuPayloadType) :
    parseOffer (buildAnswerFor localIp rtpPort sessionId chosen offer declared).1 =
      .ok (rereadOffer localIp rtpPort declared chosen offer) := by
  rw [parseOffer, lines_buildAnswerFor localIp rtpPort sessionId declared hdeclinable hline,
    foldl_answerLines localIp rtpPort sessionId hdeclinable hfmtp declared]
  exact Mapped.finishOffer ⟨rfl, rfl, rfl, hpt⟩ rfl rfl hzero hdtmf

end Whole

/-! ## The answer answers the offer

The correspondence between an accepted offer and the answer built for it, both
read with `parseOffer`. The preconditions are compared with what the offer says
seen from the other side. -/

variable {offer : SdpOffer} {e2eMet : QosDirection} {lines : List QosDesired}

/-! ### Preconditions -/

/-- A desired status seen from the other side. -/
def QosDesired.invert (line : QosDesired) : QosDesired :=
  { line with
    statusType := invertQosStatusType line.statusType
    direction := invertQosDirection line.direction }

/-- A current status seen from the other side. -/
def QosStatus.invert (line : QosStatus) : QosStatus :=
  ⟨invertQosStatusType line.statusType, invertQosDirection line.met⟩

/-- An end-to-end status is demanded that cannot be confirmed. -/
def MandatoryE2e (lines : List QosDesired) : Prop :=
  ∃ line ∈ lines, line.statusType = .e2e ∧ line.strength = .mandatory

theorem mandatoryE2e_cons {line : QosDesired} :
    MandatoryE2e (line :: lines) ↔
      line.statusType = .e2e ∧ line.strength = .mandatory ∨ MandatoryE2e lines := by
  simp [MandatoryE2e]

theorem currentFor_none (h : currentFor e2eMet lines = none) : MandatoryE2e lines := by
  induction lines with
  | nil => cases h
  | cons line lines ih =>
    rw [mandatoryE2e_cons]
    rw [currentFor] at h
    split at h
    next => exact .inr (ih (Option.map_eq_none_iff.mp h))
    next htype =>
      split at h
      next hstrength => exact .inl ⟨htype, hstrength⟩
      next => exact .inr (ih (Option.map_eq_none_iff.mp h))
    next => exact .inr (ih h)

/-- The statuses stated for the desired lines: the bridge's own segment, and end
to end no more than the offerer said. -/
theorem currentFor_some {current : List QosStatus} (h : currentFor e2eMet lines = some current) :
    ¬ MandatoryE2e lines ∧
      ∀ s ∈ current, s.statusType = .local ∨ (s.statusType = .e2e ∧ s.met = e2eMet) := by
  induction lines generalizing current with
  | nil =>
    cases h
    exact ⟨fun ⟨_, hline, _⟩ => absurd hline not_mem_nil, forall_mem_nil _⟩
  | cons line lines ih =>
    rw [mandatoryE2e_cons, not_or]
    rw [currentFor] at h
    split at h
    next htype =>
      obtain ⟨later, hlater, rfl⟩ := Option.map_eq_some_iff.mp h
      obtain ⟨hno, hall⟩ := ih hlater
      exact ⟨⟨by simp [htype], hno⟩, forall_mem_cons.mpr ⟨.inl rfl, hall⟩⟩
    next htype =>
      split at h
      next => cases h
      next hstrength =>
        obtain ⟨later, hlater, rfl⟩ := Option.map_eq_some_iff.mp h
        obtain ⟨hno, hall⟩ := ih hlater
        exact ⟨⟨fun hnot => hstrength hnot.2, hno⟩, forall_mem_cons.mpr ⟨.inr ⟨rfl, rfl⟩, hall⟩⟩
    next htype =>
      obtain ⟨hno, hall⟩ := ih h
      exact ⟨⟨by simp [htype], hno⟩, hall⟩

theorem offererE2e_said (offer : SdpOffer) :
    offererE2e offer = .none ∨
      ∃ said ∈ offer.offererCurr, said.statusType ≠ .remote ∧
        offererE2e offer = invertQosDirection said.met := by
  unfold offererE2e
  split
  next said h =>
    refine .inr ⟨said, ?_⟩
    rcases Option.or_eq_some_iff.mp h with hfind | ⟨-, hfind⟩
    · have htype : said.statusType = .e2e := by simpa using find?_some hfind
      exact ⟨mem_of_find?_eq_some hfind, by rw [htype]; decide, rfl⟩
    · have htype : said.statusType = .local := by simpa using find?_some hfind
      exact ⟨mem_of_find?_eq_some hfind, by rw [htype]; decide, rfl⟩
  next => exact .inl rfl

/-- What an answer states when no precondition makes it decline. -/
theorem statedQos_proceed (h : ¬ MandatoryE2e offer.preconditions) :
    ∃ current, (∀ s ∈ current, s.statusType = .local ∨
        (s.statusType = .e2e ∧ s.met = offererE2e offer)) ∧
      statedQos offer =
        (current ++ (offer.offererCurr.filter (·.statusType = .local)).map QosStatus.invert,
          (offer.preconditions.map QosDesired.invert).filter (·.strength ≠ .unknown)) := by
  cases hcur : currentFor (offererE2e offer) offer.preconditions with
  | none => exact absurd (currentFor_none hcur) h
  | some current =>
    refine ⟨current, (currentFor_some hcur).2, ?_⟩
    have hmirrored : (offer.offererCurr.filterMap fun s =>
        if s.statusType = .local then
          some ({ statusType := .remote, met := invertQosDirection s.met } : QosStatus)
        else none) = (offer.offererCurr.filter (·.statusType = .local)).map QosStatus.invert := by
      rw [← filterMap_eq_map, filterMap_filter]
      refine filterMap_congr fun s _ => ?_
      by_cases hlocal : s.statusType = .local
      · simp [hlocal, QosStatus.invert, invertQosStatusType]
      · simp [hlocal]
    unfold statedQos preconditionVerdict
    rw [hcur]
    rw [hmirrored]
    rfl

theorem statedQos_decline (h : MandatoryE2e offer.preconditions) : statedQos offer = ([], []) := by
  unfold statedQos preconditionVerdict
  cases hcur : currentFor (offererE2e offer) offer.preconditions with
  | none => rfl
  | some current => exact absurd h (currentFor_some hcur).1

/-! ### The answer answers the offer -/

/-- An answer, read back, against the offer it answers. -/
structure Answers (body sdp : Text) (rtpPort : UInt16) (offer reread : SdpOffer)
    (choice : ChosenCodec) : Prop where
  /-- The sections of the offer, in their order; all but the audio section with port 0. -/
  sections : ∃ before after,
    (mediaSections body).map Prod.fst = before ++ "audio".toList :: after ∧
    mediaSections sdp = before.map (·, "0".toList) ++
      ("audio".toList, display rtpPort.toNat) :: after.map (·, "0")
  otherMedia : reread.otherMedia = offer.otherMedia
  /-- One codec, an entry of the offer. -/
  codec : ∃ o ∈ offer.offered, o.payloadType = choice.payloadType ∧ o.codec = choice.codec ∧
    reread.offered = [{ o with fmtp := keptFmtp o }]
  dtmf : reread.dtmf.length ≤ 1 ∧ ∀ d ∈ reread.dtmf, d ∈ offer.dtmf
  direction : reread.direction = mirror offer.direction
  declined : MandatoryE2e offer.preconditions →
    reread.preconditions = [] ∧ reread.offererCurr = []
  desired : ¬ MandatoryE2e offer.preconditions →
    reread.preconditions =
      (offer.preconditions.map QosDesired.invert).filter (·.strength ≠ .unknown)
  /-- The offerer's own segment is as met as the offerer said. -/
  segment : ¬ MandatoryE2e offer.preconditions →
    reread.offererCurr.filter (·.statusType = .remote) =
      (offer.offererCurr.filter (·.statusType = .local)).map QosStatus.invert
  /-- And end to end no more is met than the offerer said. -/
  endToEnd : ∀ s ∈ reread.offererCurr, s.statusType = .e2e →
    s.met = .none ∨ ∃ said ∈ offer.offererCurr, said.statusType ≠ .remote ∧
      s.met = invertQosDirection said.met

theorem dtmfPick_mem {dtmf : List (UInt8 × UInt32)} {rate : UInt32} {d : UInt8 × UInt32}
    (h : dtmfPick dtmf rate = some d) : d ∈ dtmf := by
  cases Option.or_eq_some_iff.mp h with
  | inl hfind => exact mem_of_find?_eq_some hfind
  | inr hhead => exact mem_of_head? hhead.2

/-- The statuses of an answer, sorted by whose segment they are about. -/
theorem statedQos_segment (h : ¬ MandatoryE2e offer.preconditions) :
    (statedQos offer).1.filter (·.statusType = .remote) =
      (offer.offererCurr.filter (·.statusType = .local)).map QosStatus.invert := by
  obtain ⟨current, hcur, heq⟩ := statedQos_proceed h
  have hown : current.filter (·.statusType = .remote) = [] := by
    refine filter_eq_nil_iff.mpr fun s hs => ?_
    rcases hcur s hs with htype | ⟨htype, -⟩ <;> simp [htype]
  rw [heq, filter_append, hown]
  refine filter_eq_self.mpr fun s hs => ?_
  obtain ⟨said, hsaid, rfl⟩ := mem_map.mp hs
  have hlocal : said.statusType = .local := by simpa using (mem_filter.mp hsaid).2
  simp [QosStatus.invert, invertQosStatusType, hlocal]

theorem statedQos_endToEnd {s : QosStatus} (hs : s ∈ (statedQos offer).1)
    (hsType : s.statusType = .e2e) :
    s.met = .none ∨ ∃ said ∈ offer.offererCurr, said.statusType ≠ .remote ∧
      s.met = invertQosDirection said.met := by
  by_cases h : MandatoryE2e offer.preconditions
  · rw [statedQos_decline h] at hs
    exact absurd hs not_mem_nil
  obtain ⟨current, hcur, heq⟩ := statedQos_proceed h
  rw [heq] at hs
  cases mem_append.mp hs with
  | inl hmem =>
    rcases hcur s hmem with hlocal | ⟨-, hmet⟩
    · rw [hsType] at hlocal
      cases hlocal
    · rw [hmet]
      exact offererE2e_said offer
  | inr hmem =>
    obtain ⟨said, hsaid, rfl⟩ := mem_map.mp hmem
    have hlocal : said.statusType = .local := by simpa using (mem_filter.mp hsaid).2
    rw [QosStatus.invert, hlocal] at hsType
    cases hsType

section

variable {body : Text} (hoffer : parseOffer body = .ok offer)
include hoffer

theorem declinable_of_parseOffer (hkinds : ∀ dm ∈ offer.otherMedia, dm.kind ≠ [])
    (hfirst : ∀ dm ∈ offer.otherMedia, dm.beforeAudio = true → dm.kind ≠ "audio") :
    offer.Declinable := by
  refine ⟨fun dm hdm => ?_, fun dm hdm => ?_⟩
  · obtain ⟨hmem, hbefore⟩ := mem_filter.mp hdm
    exact ⟨otherMedia_ofFields hoffer dm hmem, hkinds dm hmem, hbefore, .inr (hfirst dm hmem hbefore)⟩
  · obtain ⟨hmem, hbefore⟩ := mem_filter.mp hdm
    refine ⟨otherMedia_ofFields hoffer dm hmem, hkinds dm hmem, ?_, .inl rfl⟩
    simpa using hbefore

/-- Every answer to an accepted offer can be read back and answers the offer. -/
theorem buildAnswer_answers (hkinds : ∀ dm ∈ offer.otherMedia, dm.kind ≠ [])
    (hfirst : ∀ dm ∈ offer.otherMedia, dm.beforeAudio = true → dm.kind ≠ "audio")
    {localIp : IpAddr} {rtpPort : UInt16} {sessionId : UInt64} {amrAvailable wideband : Bool}
    {preference : AnswerPreference} {declared : Option UInt16} {sdp : Text} {choice : ChosenCodec}
    (hanswer : buildAnswer localIp rtpPort sessionId offer amrAvailable wideband preference declared =
      .ok (sdp, choice))
    (hpt : ∀ d ∈ offer.dtmf, d.1 ≠ choice.payloadType)
    (hdtmf : choice.dtmfPayloadType ≠ some pcmuPayloadType) :
    ∃ reread, parseOffer sdp = .ok reread ∧ Answers body sdp rtpPort offer reread choice := by
  unfold buildAnswer at hanswer
  split at hanswer
  · cases hanswer
  next chosen hchosen =>
    obtain ⟨hmem, -⟩ := selectCodecWith_mem hchosen
    obtain ⟨hfmtp, hline⟩ := offered_fmtp hoffer chosen hmem
    have hdeclinable := declinable_of_parseOffer hoffer hkinds hfirst
    cases hanswer
    have hdistinct : ∀ d ∈ dtmfPick offer.dtmf (chosenRate chosen.codec), d.1 ≠ chosen.payloadType :=
      fun d hd => hpt d (dtmfPick_mem hd)
    have hnotPcmu : ∀ d ∈ dtmfPick offer.dtmf (chosenRate chosen.codec), d.1 ≠ pcmuPayloadType := by
      intro d hd hzero
      refine hdtmf ?_
      rw [Option.mem_def.mp hd, Option.map_some, hzero]
    have hreread := parseOffer_buildAnswerFor localIp rtpPort sessionId declared hdeclinable hline hfmtp
      (offered_zero hoffer chosen hmem) hdistinct hnotPcmu
    have hsections :=
      mediaSections_buildAnswerFor localIp rtpPort sessionId declared hdeclinable hline
    obtain ⟨hsplit, hkindsOf⟩ := mediaSections_kinds hoffer
    refine ⟨_, hreread, ?_⟩
    exact {
      sections := by
        refine ⟨_, _, hkindsOf, hsections.trans ?_⟩
        rw [map_map, map_map]
        rfl
      otherMedia := hsplit
      codec := ⟨chosen, hmem, rfl, rfl, rfl⟩
      dtmf := by
        refine ⟨?_, fun d hd => dtmfPick_mem (Option.mem_toList.mp hd)⟩
        exact Option.length_toList_le
      direction := rfl
      declined := fun h => by
        rw [rereadOffer, statedQos_decline h]
        exact ⟨rfl, rfl⟩
      desired := fun h => by
        obtain ⟨current, -, heq⟩ := statedQos_proceed h
        rw [rereadOffer, heq]
      segment := statedQos_segment
      endToEnd := fun s hs => statedQos_endToEnd hs }

end

/-- An offer with a video section before the audio section, a wideband codec,
telephone events and a precondition. -/
def wideBody : Text :=
  ["c=IN IP4 10.0.0.1".toList, "m=video 5 RTP/AVP 34", "m=audio 4 RTP/AVP 104 101",
    "a=rtpmap:104 AMR-WB/16000", "a=fmtp:104 octet-align=1",
    "a=rtpmap:101 telephone-event/16000", "a=sendonly",
    "a=curr:qos local send", "a=des:qos mandatory local sendrecv"].flatMap (· ++ crlf)

def wideOffer : SdpOffer where
  remoteRtp := (.v4 10 0 0 1, 4)
  offered := [⟨104, .amrWb, "octet-align=1"⟩]
  dtmf := [(101, 16000)]
  maxptime := none
  direction := .sendOnly
  proto := "RTP/AVP"
  otherMedia := [⟨"video", "RTP/AVP", "34", true⟩]
  rtcp := none
  preconditions := [⟨.mandatory, .local, .sendRecv⟩]
  offererCurr := [⟨.local, .send⟩]

set_option maxRecDepth 20000 in
theorem parseOffer_wideBody : parseOffer wideBody = .ok wideOffer := rfl

theorem buildAnswer_answers_wide :
    ∃ sdp choice reread, parseOffer wideBody = .ok wideOffer ∧
      buildAnswer (.v4 10 0 0 2) 6 7 wideOffer true true .cellular none = .ok (sdp, choice) ∧
      parseOffer sdp = .ok reread ∧ Answers wideBody sdp 6 wideOffer reread choice := by
  have hanswer : buildAnswer (.v4 10 0 0 2) 6 7 wideOffer true true .cellular none =
      .ok (buildAnswerFor (.v4 10 0 0 2) 6 7 ⟨104, .amrWb, "octet-align=1"⟩ wideOffer none) :=
    rfl
  obtain ⟨reread, hreread, hanswers⟩ := buildAnswer_answers parseOffer_wideBody (by decide) (by decide)
    hanswer (forall_mem_singleton.mpr (by decide)) (by decide)
  exact ⟨_, _, reread, parseOffer_wideBody, hanswer, hreread, hanswers⟩

/-- A narrowband offer with format parameters and an end-to-end demand. -/
def narrowBody : Text :=
  ["c=IN IP4 10.0.0.1".toList, "m=audio 4 RTP/AVP 0", "a=fmtp:0 x",
    "a=des:qos mandatory e2e send"].flatMap (· ++ crlf)

def narrowOffer : SdpOffer where
  remoteRtp := (.v4 10 0 0 1, 4)
  offered := [⟨0, .pcmu, "x"⟩]
  dtmf := []
  maxptime := none
  direction := .sendRecv
  proto := "RTP/AVP"
  otherMedia := []
  rtcp := none
  preconditions := [⟨.mandatory, .e2e, .send⟩]
  offererCurr := []

/-- The format parameters of a codec that is not adaptive are not answered, and a
demanded end-to-end status leaves the answer without precondition lines. -/
theorem buildAnswer_drops_parameters :
    ∃ sdp choice reread, parseOffer narrowBody = .ok narrowOffer ∧
      buildAnswer (.v4 10 0 0 2) 6 7 narrowOffer true true .cellular none = .ok (sdp, choice) ∧
      (∀ d ∈ narrowOffer.dtmf, d.1 ≠ choice.payloadType) ∧
      parseOffer sdp = .ok reread ∧
      (¬ ∃ o ∈ narrowOffer.offered, reread.offered = [o]) ∧
      narrowOffer.preconditions.map QosDesired.invert = [⟨.mandatory, .e2e, .recv⟩] ∧
      reread.preconditions = [] := by
  have hbody : parseOffer narrowBody = .ok narrowOffer := rfl
  have hanswer : buildAnswer (.v4 10 0 0 2) 6 7 narrowOffer true true .cellular none =
      .ok (buildAnswerFor (.v4 10 0 0 2) 6 7 ⟨0, .pcmu, "x"⟩ narrowOffer none) :=
    rfl
  have hdeclinable : narrowOffer.Declinable := ⟨forall_mem_nil _, forall_mem_nil _⟩
  have hreread : parseOffer (buildAnswerFor (.v4 10 0 0 2) 6 7 ⟨0, .pcmu, "x"⟩
      narrowOffer none).1 = .ok _ :=
    parseOffer_buildAnswerFor (.v4 10 0 0 2) 6 7 none hdeclinable (by decide) (by decide)
      (fun _ => rfl) nofun nofun
  exact ⟨_, _, _, hbody, hanswer, forall_mem_nil _, hreread, by decide, by decide, rfl⟩

end Ims.Sdp
