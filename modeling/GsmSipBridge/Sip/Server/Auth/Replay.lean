-- SUMMARY: Digest authentication admits no replay and no poisoning.
import Mathlib.Data.UInt
import Mathlib.Data.List.MinMax
import GsmSipBridge.Sip.Server.Auth

/-!
# No replay, no poisoning

What a header presented once it was accepted is guarded from then on: its nonce is gone, or the
account's count stands at least as high. Every later call keeps that, and an entry of the table is
only ever the one its nonce was issued with, with counts that have grown. A refusal changes the table
at most in ways that no later call can tell.
-/

namespace Sip.Server

open Text Ims.Digest List

/-! ## What a verification says -/

theorem foldl_or_eq_zero (l : List (UInt8 × UInt8)) (acc : UInt8) :
    l.foldl (fun acc xy => acc ||| (xy.1 ^^^ xy.2)) acc = 0 ↔ acc = 0 ∧ ∀ xy ∈ l, xy.1 = xy.2 := by
  induction l generalizing acc with
  | nil => simp
  | cons xy l ih =>
    rw [foldl_cons, ih, UInt8.or_eq_zero_iff]
    simp [and_assoc]

theorem constantTimeEq_iff {a b : Bytes} : constantTimeEq a b = true ↔ a = b := by
  rw [constantTimeEq, Bool.and_eq_true, beq_iff_eq, beq_iff_eq, foldl_or_eq_zero]
  constructor
  · rintro ⟨hlength, -, hall⟩
    apply ext_getElem hlength
    intro i ha hb
    apply hall (a[i], b[i])
    rw [mem_iff_getElem]
    exact ⟨i, by simp [hlength, hb], by simp⟩
  · rintro rfl
    refine ⟨rfl, rfl, fun xy hxy => ?_⟩
    obtain ⟨i, hi, rfl⟩ := getElem_of_mem hxy
    rw [getElem_zip]

theorem encode_injective {s t : Text} (h : Utf8.encode s = Utf8.encode t) : s = t := by
  rw [← Utf8.fromUtf8Lossy_encode s, h, Utf8.fromUtf8Lossy_encode]

/-- The nonce count a header presents, if it has a `qop`. -/
def Attempt.nonceCount (a : Attempt) : Option UInt32 :=
  (a.get "qop").bind fun _ => (a.get "nc").bind Numeral.parseHexU32

variable {md5Hex : Bytes → Text} {a : Attempt} {c : Credential} {s : NonceStore} {now : Nat}
  {u n : Text} {e' : NonceEntry}

section Digest

variable (md5Hex : Bytes → Text)

/-- The digest of some fields with colons between them. -/
def fieldsDigest (fields : List Text) : Text := md5Hex (Utf8.encode ([':'].intercalate fields))

/-- The response is the one that a password gives: over the nonce count as well if there is a
`qop`. -/
def Credential.Answers (c : Credential) (a : Attempt) (password response : Text) : Prop :=
  let secret := fieldsDigest md5Hex [c.username, a.realm, password]
  let request := fieldsDigest md5Hex [a.method, (a.get "uri").getD a.requestUri]
  match a.get "qop" with
  | none => c.nonceCount = none ∧ response = fieldsDigest md5Hex [secret, c.nonce, request]
  | some qop => ∃ nc n cnonce, a.get "nc" = some nc ∧ Numeral.parseHexU32 nc = some n ∧
      c.nonceCount = some n ∧ a.get "cnonce" = some cnonce ∧
      response = fieldsDigest md5Hex [secret, c.nonce, nc, cnonce, qop, request]

/-- The header is an account's own: it names the account, a nonce and the response that the
account's password gives. -/
structure Genuine (a : Attempt) (c : Credential) : Prop where
  username : a.get "username" = some c.username
  nonce : a.get "nonce" = some c.nonce
  response : ∃ password response, a.lookup c.username = some password ∧
    a.get "response" = some response ∧ c.Answers md5Hex a password response

end Digest

theorem Genuine.count (h : Genuine md5Hex a c) : a.nonceCount = c.nonceCount := by
  obtain ⟨_, _, -, -, hanswers⟩ := h.response
  unfold Credential.Answers at hanswers
  unfold Attempt.nonceCount
  cases hqop : a.get "qop" with
  | none =>
    rw [hqop] at hanswers
    exact hanswers.1.symm
  | some qop =>
    rw [hqop] at hanswers
    obtain ⟨nc, n, -, hnc, hn, hcount, -⟩ := hanswers
    rw [Option.bind_some, hnc, Option.bind_some, hn, hcount]

theorem answers_of_expected {username nonce password response : Text} {count : Option UInt32}
    (h : a.expected md5Hex username nonce (some password) = some (response, count)) :
    Credential.Answers md5Hex ⟨username, nonce, count⟩ a password response := by
  have hsecret : ha1 md5Hex username a.realm (Utf8.encode password) =
      fieldsDigest md5Hex [username, a.realm, password] := by
    simp [ha1, fieldsDigest, Utf8.encodeChar]
  have hrequest (uri : Text) : ha2 md5Hex a.method uri = fieldsDigest md5Hex [a.method, uri] := by
    simp [ha2, fieldsDigest]
  simp only [Attempt.expected, Option.getD_some, hsecret, hrequest] at h
  unfold Credential.Answers
  cases hqop : a.get "qop" with
  | none =>
    rw [hqop] at h
    cases h
    simp [responseSimple, fieldsDigest]
  | some qop =>
    simp only [hqop] at h
    split at h
    case h_2 => cases h
    case h_1 nc cnonce hnc hcnonce =>
      obtain ⟨n, hn, heq⟩ := Option.map_eq_some_iff.1 h
      cases heq
      refine ⟨nc, n, cnonce, hnc, hn, rfl, hcnonce, ?_⟩
      simp [responseQop, fieldsDigest]

theorem check_ok {isLive : Text → Bool} (h : a.check md5Hex isLive = .ok c) :
    Genuine md5Hex a c ∧ isLive c.nonce = true := by
  unfold Attempt.check at h
  split at h
  case h_2 => cases h
  case h_1 username nonce response huser hnonce hresp =>
    split at h
    · cases h
    split at h
    · cases h
    split at h
    · cases h
    rename_i hlive
    split at h
    · cases h
    rename_i expected count hexpected
    split at h
    · cases h
    rename_i hequal
    split at h
    · cases h
    rename_i hknown
    cases h
    obtain ⟨password, hpassword⟩ : ∃ p, a.lookup username = some p := by
      rwa [Bool.not_eq_true, Option.isNone_eq_false_iff, Option.isSome_iff_exists]
        at hknown
    have hsame : expected = response := by
      apply encode_injective
      exact constantTimeEq_iff.1 (by simpa using hequal)
    subst hsame
    rw [hpassword] at hexpected
    refine ⟨⟨huser, hnonce, password, expected, hpassword, hresp, ?_⟩, by simpa using hlive⟩
    exact answers_of_expected hexpected

open NonceStore

/-- What becomes of a proven credential, with the table it leaves. -/
@[elab_as_elim]
theorem accept_cases {motive : NonceStore × Except AuthFailure Text → Prop}
    (consumed : c.nonceCount = none → motive (s.consume c.nonce, .ok c.username))
    (gone : motive (s, .error .rejected))
    (counted : ∀ n e, c.nonceCount = some n → s.inner.lookup c.nonce = some e →
      e.seen c.username < n → motive (s.record c.username c.nonce n, .ok c.username))
    (refused : ∀ e, s.inner.lookup c.nonce = some e →
      motive (s.record c.username c.nonce (e.seen c.username), .error .rejected)) :
    motive (s.accept c) := by
  unfold accept acceptNc
  cases hcount : c.nonceCount with
  | none => exact consumed hcount
  | some n =>
    cases hlookup : s.inner.lookup c.nonce with
    | none => exact gone
    | some e =>
      by_cases hlt : e.seen c.username < n
      · simp only [if_pos hlt]
        exact counted n e hcount hlookup hlt
      · simp only [if_neg hlt]
        exact refused e hlookup

theorem verify_ok (h : (verify md5Hex a now s).2 = .ok u) :
    ∃ c, Genuine md5Hex a c ∧ c.username = u ∧ s.isLive c.nonce now = true ∧
      (s.accept c).2 = .ok u ∧ (verify md5Hex a now s).1 = (s.accept c).1 := by
  unfold verify at h ⊢
  cases hcheck : a.check md5Hex (s.isLive · now) with
  | error failure =>
    rw [hcheck] at h
    cases h
  | ok c =>
    simp only [hcheck] at h ⊢
    obtain ⟨hgen, hlive⟩ := check_ok hcheck
    refine ⟨c, hgen, ?_, hlive, h, rfl⟩
    revert h
    exact accept_cases (fun _ => Except.ok.inj) nofun (fun _ _ _ _ _ => Except.ok.inj) fun _ _ => nofun

theorem isLive_iff : s.isLive n now = true ↔
    ∃ e, s.inner.lookup n = some e ∧ now - e.issuedAt < s.lifetime := by
  simp [isLive, unexpired, Option.any_eq_true]

/-! ## Runs -/

inductive Call where
  | issue (nonce : Text) (tie : Nat)
  | sweep
  | verify (a : Attempt)

structure Turn where
  now : Nat
  call : Call

variable {t : Turn} {turns : List Turn}

inductive Outcome where
  | issued (nonce : Text)
  | swept (remaining : Nat)
  | verified (result : Except AuthFailure Text)

def NonceStore.act (md5Hex : Bytes → Text) (s : NonceStore) (t : Turn) : NonceStore × Outcome :=
  match t.call with
  | .issue nonce tie => (s.issue t.now nonce tie, .issued nonce)
  | .sweep => ((s.sweep t.now).1, .swept (s.sweep t.now).2)
  | .verify a => ((verify md5Hex a t.now s).1, .verified (verify md5Hex a t.now s).2)

def NonceStore.step (md5Hex : Bytes → Text) (s : NonceStore) (t : Turn) : NonceStore :=
  (s.act md5Hex t).1

def NonceStore.run (md5Hex : Bytes → Text) (s : NonceStore) (turns : List Turn) : NonceStore :=
  turns.foldl (step md5Hex) s

def NonceStore.outcomes (md5Hex : Bytes → Text) : NonceStore → List Turn → List Outcome
  | _, [] => []
  | s, t :: turns => (s.act md5Hex t).2 :: (s.step md5Hex t).outcomes md5Hex turns

/-- The headers that a run accepts, in order, each with the account it was accepted as. -/
def NonceStore.accepted (md5Hex : Bytes → Text) : NonceStore → List Turn → List (Attempt × Text)
  | _, [] => []
  | s, t :: turns =>
    match t.call, (s.act md5Hex t).2 with
    | .verify a, .verified (.ok u) => (a, u) :: (s.step md5Hex t).accepted md5Hex turns
    | _, _ => (s.step md5Hex t).accepted md5Hex turns

def Turn.nonce (t : Turn) : Option Text :=
  match t.call with
  | .issue nonce _ => some nonce
  | _ => none

/-! ## What one call does to an entry -/

/-- The same entry at a later time. -/
structure NonceEntry.Grown (e e' : NonceEntry) : Prop where
  issuedAt : e'.issuedAt = e.issuedAt
  seen : ∀ u, e.seen u ≤ e'.seen u

theorem NonceEntry.Grown.rfl {e : NonceEntry} : e.Grown e := ⟨Eq.refl _, fun _ => UInt32.le_refl _⟩

/-- A table whose entries are those of another one, later. -/
structure NonceStore.Within (s' s : NonceStore) : Prop where
  lifetime : s'.lifetime = s.lifetime
  length : s'.inner.entries.length ≤ s.inner.entries.length
  lookup : ∀ n e', s'.inner.lookup n = some e' → ∃ e, s.inner.lookup n = some e ∧ e.Grown e'

theorem NonceStore.Within.rfl : s.Within s :=
  ⟨Eq.refl _, Nat.le_refl _, fun _ e' h => ⟨e', h, .rfl⟩⟩

theorem NonceStore.Within.trans {s₁ s₂ s₃ : NonceStore} (h : s₁.Within s₂) (h' : s₂.Within s₃) :
    s₁.Within s₃ := by
  refine ⟨h.lifetime.trans h'.lifetime, Nat.le_trans h.length h'.length, fun n e₁ h₁ => ?_⟩
  obtain ⟨e₂, h₂, hgrown⟩ := h.lookup n e₁ h₁
  obtain ⟨e₃, h₃, hgrown'⟩ := h'.lookup n e₂ h₂
  refine ⟨e₃, h₃, hgrown.issuedAt.trans hgrown'.issuedAt, fun u => ?_⟩
  exact UInt32.le_trans (hgrown'.seen u) (hgrown.seen u)

theorem within_sweep : (s.sweep now).1.Within s := by
  refine ⟨rfl, length_filter_le .., fun n e' h => ?_⟩
  simp only [sweep, AList.lookup_retain, Option.filter_eq_some_iff] at h
  exact ⟨e', h.1, .rfl⟩

theorem within_erase (n : Text) : NonceStore.Within { s with inner := s.inner.erase n } s := by
  refine ⟨rfl, AList.length_erase_le s.inner n, fun m e' h => ?_⟩
  exact ⟨e', AList.lookup_of_erase h, .rfl⟩

theorem within_evict (tie : Nat) : (s.evict tie).Within s := by
  unfold evict
  split
  · exact within_erase _
  · exact .rfl

/-- What a challenge leaves of the table before it adds its nonce. -/
theorem issue_eq (s : NonceStore) (now : Nat) (nonce : Text) (tie : Nat) :
    ∃ room : NonceStore, room.Within s ∧
      (maxOutstandingNonces ≤ (s.sweep now).1.inner.entries.length →
        room = (s.sweep now).1.evict tie) ∧
      ((s.sweep now).1.inner.entries.length < maxOutstandingNonces → room = (s.sweep now).1) ∧
      s.issue now nonce tie = { room with inner := room.inner.insert nonce ⟨now, ∅⟩ } := by
  unfold issue
  by_cases hfull : maxOutstandingNonces ≤ (s.sweep now).1.inner.entries.length
  · refine ⟨_, (within_evict tie).trans within_sweep, fun _ => rfl, fun h => ?_, ?_⟩
    · exact absurd hfull (Nat.not_le_of_lt h)
    · simp [if_pos hfull]
  · refine ⟨_, within_sweep, fun h => absurd h hfull, fun _ => rfl, ?_⟩
    simp [if_neg hfull]

/-- After a challenge the table holds its nonce, new, and no others but those before. -/
theorem lookup_issue {nonce : Text} {tie : Nat}
    (h : (s.issue now nonce tie).inner.lookup n = some e') :
    (n = nonce ∧ e'.issuedAt = now) ∨ n ≠ nonce ∧ ∃ e, s.inner.lookup n = some e ∧ e.Grown e' := by
  obtain ⟨room, hwithin, -, -, heq⟩ := issue_eq s now nonce tie
  rw [heq] at h
  by_cases hn : n = nonce
  · subst hn
    rw [AList.lookup_insert] at h
    cases h
    exact .inl ⟨rfl, rfl⟩
  · rw [AList.lookup_insert_ne hn] at h
    exact .inr ⟨hn, hwithin.lookup n e' h⟩

theorem seen_insert (e : NonceEntry) (u v : Text) (n : UInt32) :
    NonceEntry.seen { e with lastNc := e.lastNc.insert u n } v = if v = u then n else e.seen v := by
  unfold NonceEntry.seen
  by_cases hvu : v = u
  · subst hvu
    simp
  · rw [if_neg hvu]
    simp only [AList.lookup_insert_ne hvu]

/-- Recording a count that is not lower. -/
theorem within_record {nonce : Text} {n : UInt32}
    (hn : ∀ e, s.inner.lookup nonce = some e → e.seen u ≤ n) : (s.record u nonce n).Within s := by
  refine ⟨rfl, Nat.le_of_eq (length_map _), fun m e' h => ?_⟩
  simp only [record, AList.lookup_modify] at h
  split at h
  case isFalse => exact ⟨e', h, .rfl⟩
  case isTrue hm =>
    subst hm
    obtain ⟨e, he, rfl⟩ := Option.map_eq_some_iff.1 h
    refine ⟨e, he, rfl, fun v => ?_⟩
    rw [seen_insert]
    split
    case isTrue hvu =>
      subst hvu
      exact hn e he
    case isFalse => exact UInt32.le_refl _

theorem within_accept : (s.accept c).1.Within s := by
  refine accept_cases ?consumed ?gone ?counted ?refused
  case consumed => exact fun _ => within_erase c.nonce
  case gone => exact .rfl
  case counted =>
    intro n e _ hlookup hlt
    apply within_record
    intro e' he'
    cases hlookup.symm.trans he'
    exact UInt32.le_of_lt hlt
  case refused =>
    intro e hlookup
    apply within_record
    intro e' he'
    cases hlookup.symm.trans he'
    exact UInt32.le_refl _

theorem within_verify : (verify md5Hex a now s).1.Within s := by
  unfold verify
  split
  · exact .rfl
  · exact within_accept

/-- An entry after a call is the one of its nonce before it, or has just been issued. -/
theorem lookup_step (h : (s.step md5Hex t).inner.lookup n = some e') :
    (t.nonce = some n ∧ e'.issuedAt = t.now) ∨
      t.nonce ≠ some n ∧ ∃ e, s.inner.lookup n = some e ∧ e.Grown e' := by
  obtain ⟨now, call⟩ := t
  cases call with
  | issue nonce tie =>
    rcases lookup_issue h with ⟨rfl, hissued⟩ | ⟨hne, hold⟩
    · exact .inl ⟨rfl, hissued⟩
    · exact .inr ⟨fun heq => hne (Option.some.inj heq).symm, hold⟩
  | sweep => exact .inr ⟨nofun, within_sweep.lookup n e' h⟩
  | verify a => exact .inr ⟨nofun, within_verify.lookup n e' h⟩

/-! ## Nothing is accepted twice -/

/-- The nonce is gone, or it was used with a count and the account's stands at least as high. -/
def NonceStore.Guarded (s : NonceStore) (c : Credential) : Prop :=
  ∀ e, s.inner.lookup c.nonce = some e → ∃ n, c.nonceCount = some n ∧ n ≤ e.seen c.username

theorem guarded_accept : (s.accept c).2 = .ok u → (s.accept c).1.Guarded c := by
  refine accept_cases ?consumed nofun ?counted fun _ _ => nofun
  case consumed =>
    intro _ _ e' he'
    rw [consume, AList.lookup_erase] at he'
    cases he'
  case counted =>
    intro n e hcount he _ _ e' he'
    refine ⟨n, hcount, ?_⟩
    simp only [record, AList.lookup_modify, he, if_true, Option.map_some,
      Option.some.injEq] at he'
    rw [← he', seen_insert, if_pos rfl]
    exact UInt32.le_refl n

variable (md5Hex) in
theorem NonceStore.Guarded.step (h : s.Guarded c) (ht : t.nonce ≠ some c.nonce) :
    (s.step md5Hex t).Guarded c := by
  intro e' he'
  rcases lookup_step he' with ⟨hissued, -⟩ | ⟨-, e, he, hgrown⟩
  · exact absurd hissued ht
  · obtain ⟨n, hn, hle⟩ := h e he
    exact ⟨n, hn, UInt32.le_trans hle (hgrown.seen c.username)⟩

/-- Of two headers under one nonce the earlier one had a count, and the later one's is higher if both
are of the same account. -/
def Credential.Before (c d : Credential) : Prop :=
  c.nonce = d.nonce → ∃ n, c.nonceCount = some n ∧
    (c.username = d.username → ∀ m, d.nonceCount = some m → n < m)

theorem NonceStore.Guarded.before (h : s.Guarded c) {d : Credential}
    (hlive : s.isLive d.nonce now = true) (haccept : (s.accept d).2 = .ok u) : c.Before d := by
  intro hnonce
  obtain ⟨e, he, -⟩ := isLive_iff.1 hlive
  obtain ⟨n, hn, hle⟩ := h e (hnonce ▸ he)
  refine ⟨n, hn, fun huser m hm => ?_⟩
  revert haccept
  refine accept_cases ?consumed nofun ?counted fun _ _ => nofun
  case consumed =>
    intro hnone
    cases hnone.symm.trans hm
  case counted =>
    intro m' e' hm' he' hlt _
    cases he.symm.trans he'
    cases hm.symm.trans hm'
    rw [huser] at hle
    exact UInt32.lt_of_le_of_lt hle hlt

/-- Two headers of a run, in the order they were accepted. -/
structure Follows (x y : Attempt × Text) : Prop where
  header : x.1.authorization ≠ y.1.authorization
  used : x.1.get "nonce" = y.1.get "nonce" → x.1.nonceCount ≠ none
  advances : x.1.get "nonce" = y.1.get "nonce" → x.2 = y.2 →
    ∀ n m, x.1.nonceCount = some n → y.1.nonceCount = some m → n < m

theorem Credential.Before.follows {b : Attempt} {d : Credential} (ha : Genuine md5Hex a c)
    (hb : Genuine md5Hex b d) (h : c.Before d) : Follows (a, c.username) (b, d.username) := by
  have hused : a.get "nonce" = b.get "nonce" → ∃ n, c.nonceCount = some n ∧
      (c.username = d.username → ∀ m, d.nonceCount = some m → n < m) := by
    intro hnonce
    rw [ha.nonce, hb.nonce] at hnonce
    exact h (Option.some.inj hnonce)
  refine ⟨fun hheader => ?_, fun hnonce hnone => ?_, fun hnonce huser n m hn hm => ?_⟩
  · have hget (key : Text) : a.get key = b.get key := by
      simp only [Attempt.get] at hheader ⊢
      rw [hheader]
    obtain ⟨n, hn, hlt⟩ := hused (hget _)
    have huser : c.username = d.username := by
      have := hget "username"
      rw [ha.username, hb.username] at this
      exact Option.some.inj this
    have hcount : d.nonceCount = some n := by
      rw [← hb.count, ← hn, ← ha.count]
      simp [Attempt.nonceCount, hget]
    exact UInt32.lt_irrefl n (hlt huser n hcount)
  · obtain ⟨n, hn, -⟩ := hused hnonce
    rw [ha.count, hn] at hnone
    cases hnone
  · obtain ⟨n', hn', hlt⟩ := hused hnonce
    rw [ha.count, hn'] at hn
    cases hn
    rw [hb.count] at hm
    exact hlt huser m hm

variable (md5Hex) in
/-- What a turn accepts, as a case distinction. -/
theorem accepted_cons (s : NonceStore) (t : Turn) (turns : List Turn) :
    (s.accepted md5Hex (t :: turns) = (s.step md5Hex t).accepted md5Hex turns) ∨
      ∃ a c, t.call = .verify a ∧ Genuine md5Hex a c ∧ s.isLive c.nonce t.now = true ∧
        (s.accept c).2 = .ok c.username ∧ s.step md5Hex t = (s.accept c).1 ∧
        s.accepted md5Hex (t :: turns) =
          (a, c.username) :: (s.step md5Hex t).accepted md5Hex turns := by
  obtain ⟨now, call⟩ := t
  cases call with
  | issue | sweep => exact .inl rfl
  | verify a =>
    cases hresult : (verify md5Hex a now s).2 with
    | error failure =>
      simp [accepted, act, hresult]
    | ok u =>
      obtain ⟨c, hgen, rfl, hlive, haccept, hstore⟩ := verify_ok hresult
      right
      refine ⟨a, c, rfl, hgen, hlive, haccept, hstore, ?_⟩
      simp [accepted, act, hresult]

/-- What is guarded is followed by what is accepted later. -/
theorem follows_of_guarded {b : Attempt} (hb : Genuine md5Hex b c) (h : s.Guarded c)
    (hfresh : c.nonce ∉ turns.filterMap Turn.nonce) :
    ∀ y ∈ s.accepted md5Hex turns, Follows (b, c.username) y := by
  induction turns generalizing s with
  | nil => nofun
  | cons t turns ih =>
    rw [mem_filterMap] at hfresh
    have ht : t.nonce ≠ some c.nonce := fun heq => hfresh ⟨t, mem_cons_self, heq⟩
    have hrest : c.nonce ∉ turns.filterMap Turn.nonce := by
      rw [mem_filterMap]
      rintro ⟨t', ht', heq⟩
      exact hfresh ⟨t', mem_cons_of_mem t ht', heq⟩
    have hlater := ih (h.step md5Hex ht) hrest
    rcases accepted_cons md5Hex s t turns with heq |
      ⟨a, d, -, hgen, hlive, haccept, -, heq⟩
    · rw [heq]
      exact hlater
    · rw [heq, forall_mem_cons]
      exact ⟨(h.before hlive haccept).follows hb hgen, hlater⟩

/-- The nonces still to be issued are not in the table, and none comes twice. -/
structure Fresh (s : NonceStore) (turns : List Turn) : Prop where
  distinct : (turns.filterMap Turn.nonce).Nodup
  unused : ∀ n ∈ turns.filterMap Turn.nonce, s.inner.lookup n = none

variable (md5Hex) in
theorem Fresh.step (h : Fresh s (t :: turns)) :
    Fresh (s.step md5Hex t) turns := by
  have hsub : (turns.filterMap Turn.nonce).Sublist ((t :: turns).filterMap Turn.nonce) :=
    (sublist_cons_self t turns).filterMap Turn.nonce
  refine ⟨hsub.nodup h.distinct, fun n hn => ?_⟩
  cases hlookup : (s.step md5Hex t).inner.lookup n with
  | none => rfl
  | some e =>
    exfalso
    rcases lookup_step hlookup with ⟨hissued, -⟩ | ⟨-, e', he', -⟩
    · have hdist := h.distinct
      rw [filterMap_cons_some hissued, nodup_cons] at hdist
      exact hdist.1 hn
    · rw [h.unused n (hsub.subset hn)] at he'
      cases he'

theorem accepted_pairwise (h : Fresh s turns) :
    (s.accepted md5Hex turns).Pairwise Follows := by
  induction turns generalizing s with
  | nil => exact .nil
  | cons t turns ih =>
    have hrest := ih (h.step md5Hex)
    rcases accepted_cons md5Hex s t turns with heq |
      ⟨a, c, hcall, hgen, hlive, haccept, hstep, heq⟩
    · rw [heq]
      exact hrest
    rw [heq]
    refine pairwise_cons.2 ⟨?_, hrest⟩
    apply follows_of_guarded hgen
    · rw [hstep]
      exact guarded_accept haccept
    · intro hmem
      obtain ⟨e, he, -⟩ := isLive_iff.1 hlive
      have hnone := h.unused c.nonce
        (((sublist_cons_self t turns).filterMap Turn.nonce).subset hmem)
      rw [he] at hnone
      cases hnone

/-! ## Admission

An entry of the table is traced back to the challenge that issued it. Two tables that differ only in
counts of zero give the same outcomes from then on. -/

variable {s' : NonceStore} {e : NonceEntry}

/-! ### Where an entry comes from -/

theorem run_concat (s : NonceStore) (turns : List Turn) (t : Turn) :
    s.run md5Hex (turns ++ [t]) = (s.run md5Hex turns).step md5Hex t := by
  simp [run]

/-- A nonce issued at a turn of the run, and outstanding ever since. -/
structure Outstanding (md5Hex : Bytes → Text) (s : NonceStore) (turns : List Turn) (nonce : Text)
    (issuedAt : Nat) (before : List Turn) (t : Turn) (after : List Turn) : Prop where
  run : turns = before ++ t :: after
  issues : t.nonce = some nonce
  now : t.now = issuedAt
  since : ∀ part, part <+: after → ∃ e, e.issuedAt = issuedAt ∧
    (s.run md5Hex (before ++ t :: part)).inner.lookup nonce = some e

theorem outstanding_of_lookup (lifetime : Nat) (turns : List Turn) {n : Text}
    (h : ((new lifetime).run md5Hex turns).inner.lookup n = some e) :
    ∃ before t after, Outstanding md5Hex (.new lifetime) turns n e.issuedAt before t after := by
  induction turns using reverseRecOn generalizing e with
  | nil => cases h
  | append_singleton turns t ih =>
    have hend := h
    rw [run_concat] at h
    rcases lookup_step h with ⟨hissued, hnow⟩ | ⟨-, e', he', hgrown⟩
    · refine ⟨turns, t, [], rfl, hissued, hnow.symm, fun part hpart => ?_⟩
      rw [prefix_nil.1 hpart]
      exact ⟨e, rfl, hend⟩
    obtain ⟨before, t', after, hfrom⟩ := ih he'
    have hturns : turns ++ [t] = before ++ t' :: (after ++ [t]) := by
      rw [hfrom.run]
      simp
    refine ⟨before, t', after ++ [t], hturns, hfrom.issues,
      hfrom.now.trans hgrown.issuedAt.symm, fun part hpart => ?_⟩
    rcases prefix_concat_iff.1 hpart with rfl | hpart
    · rw [← hturns]
      exact ⟨e, rfl, hend⟩
    · obtain ⟨e₀, hissued, hlookup⟩ := hfrom.since part hpart
      exact ⟨e₀, hissued.trans hgrown.issuedAt.symm, hlookup⟩

/-! ### How many there are -/

/-- Of a table that is not empty one entry goes. -/
theorem length_evict (tie : Nat) (h : s.inner.entries ≠ []) :
    (s.evict tie).inner.entries.length + 1 = s.inner.entries.length := by
  have hages : s.ages ≠ [] := by
    intro hnil
    exact h (map_eq_nil_iff.1 hnil)
  have holdest : s.oldest ≠ [] := by
    obtain ⟨x, hx⟩ : ∃ x, s.ages.argmin Prod.snd = some x :=
      Option.ne_none_iff_exists'.1 fun hnone => hages (argmin_eq_none.1 hnone)
    have hmin : ∀ y ∈ s.ages, x.2 ≤ y.2 := fun y hy => le_of_mem_argmin hy hx
    intro hnil
    have hmem : x ∈ s.ages.filter fun x => s.ages.all fun y => x.2 ≤ y.2 :=
      mem_filter.2 ⟨argmin_mem hx, by simpa using hmin⟩
    rw [map_eq_nil_iff.1 hnil] at hmem
    cases hmem
  have hlt : tie % s.oldest.length < s.oldest.length :=
    Nat.mod_lt _ (length_pos_iff.2 holdest)
  unfold evict
  rw [getElem?_eq_getElem hlt]
  obtain ⟨e, he⟩ : ∃ e, s.inner.lookup s.oldest[tie % s.oldest.length] = some e := by
    obtain ⟨x, hx, heq⟩ := mem_map.1 (getElem_mem hlt)
    obtain ⟨e, he, rfl⟩ := mem_map.1 (mem_filter.1 hx).1
    rw [← heq]
    exact ⟨e.2, AList.mem_lookup_iff.2 he⟩
  have hlength := (AList.entries_perm_erase he).length_eq
  exact hlength.symm

theorem length_issue_le {nonce : Text} {tie : Nat}
    (h : s.inner.entries.length ≤ maxOutstandingNonces) :
    (s.issue now nonce tie).inner.entries.length ≤ maxOutstandingNonces := by
  obtain ⟨room, -, hfull, hroom, heq⟩ := issue_eq s now nonce tie
  have hsweep : (s.sweep now).1.inner.entries.length ≤ _ := within_sweep.length
  have hless : room.inner.entries.length < maxOutstandingNonces := by
    rcases Nat.lt_or_ge (s.sweep now).1.inner.entries.length maxOutstandingNonces with hlt | hge
    · rw [hroom hlt]
      exact hlt
    have hne : (s.sweep now).1.inner.entries ≠ [] := by
      intro hnil
      rw [hnil] at hge
      cases hge
    have hevict := length_evict tie hne
    rw [hfull hge]
    omega
  rw [heq]
  exact Nat.lt_of_le_of_lt (AList.length_erase_le room.inner nonce) hless

theorem length_run_le (h : s.inner.entries.length ≤ maxOutstandingNonces) :
    (s.run md5Hex turns).inner.entries.length ≤ maxOutstandingNonces := by
  induction turns generalizing s with
  | nil => exact h
  | cons t turns ih =>
    apply ih
    obtain ⟨now, call⟩ := t
    cases call with
    | issue nonce tie => exact length_issue_le h
    | sweep => exact Nat.le_trans within_sweep.length h
    | verify a => exact Nat.le_trans within_verify.length h

/-! ### A refusal leaves no trace -/

/-- Entries that no call can tell apart. -/
structure NonceEntry.Same (e e' : NonceEntry) : Prop where
  issuedAt : e.issuedAt = e'.issuedAt
  seen : ∀ u, e.seen u = e'.seen u

theorem NonceEntry.Same.rfl : e.Same e := ⟨Eq.refl _, fun _ => Eq.refl _⟩

structure NonceStore.Same (s s' : NonceStore) : Prop where
  lifetime : s.lifetime = s'.lifetime
  inner : AList.Related NonceEntry.Same s.inner s'.inner

theorem NonceStore.Same.rfl : s.Same s := ⟨Eq.refl _, .rfl fun _ => .rfl⟩

section

variable (h : s.Same s')

include h

theorem NonceStore.Same.unexpired (he : e.Same e') : s.unexpired now e = s'.unexpired now e' := by
  simp [NonceStore.unexpired, h.lifetime, he.issuedAt]

theorem NonceStore.Same.sweep (now : Nat) : (s.sweep now).1.Same (s'.sweep now).1 :=
  ⟨h.lifetime, h.inner.retain fun _ _ _ he => h.unexpired he⟩

theorem NonceStore.Same.ages : s.ages = s'.ages := by
  have hall : ∀ l l' : List (Σ _ : Text, NonceEntry),
      Forall₂ (fun e f => e.1 = f.1 ∧ e.2.Same f.2) l l' →
        l.map (fun e => (e.1, e.2.issuedAt)) = l'.map fun e => (e.1, e.2.issuedAt) := by
    intro l l' hll
    induction hll with
    | nil => exact Eq.refl _
    | cons hef _ ih => rw [map_cons, map_cons, hef.1, hef.2.issuedAt, ih]
  exact hall _ _ h.inner

theorem NonceStore.Same.evict (tie : Nat) : (s.evict tie).Same (s'.evict tie) := by
  unfold NonceStore.evict NonceStore.oldest
  rw [h.ages]
  split
  · exact ⟨h.lifetime, h.inner.erase _⟩
  · exact h

theorem NonceStore.Same.issue (now : Nat) (nonce : Text) (tie : Nat) :
    (s.issue now nonce tie).Same (s'.issue now nonce tie) := by
  have hkept := h.sweep now
  simp only [NonceStore.issue, hkept.inner.length_eq]
  split
  · have hroom := hkept.evict tie
    exact ⟨hroom.lifetime, hroom.inner.insert nonce .rfl⟩
  · exact ⟨hkept.lifetime, hkept.inner.insert nonce .rfl⟩

theorem NonceStore.Same.isLive (nonce : Text) (now : Nat) :
    s.isLive nonce now = s'.isLive nonce now := by
  have hlookup := h.inner.lookup nonce
  unfold NonceStore.isLive
  generalize s.inner.lookup nonce = e at hlookup ⊢
  generalize s'.inner.lookup nonce = e' at hlookup ⊢
  cases hlookup with
  | none => exact Eq.refl _
  | some he => exact h.unexpired he

end

theorem NonceEntry.Same.record (h : e.Same e') (u : Text) (n : UInt32) :
    NonceEntry.Same { e with lastNc := e.lastNc.insert u n }
      { e' with lastNc := e'.lastNc.insert u n } := by
  refine ⟨h.issuedAt, fun v => ?_⟩
  rw [seen_insert, seen_insert, h.seen]

theorem NonceStore.Same.record (h : s.Same s') (u nonce : Text) (n : UInt32) :
    (s.record u nonce n).Same (s'.record u nonce n) :=
  ⟨h.lifetime, h.inner.modify nonce fun _ _ he => he.record u n⟩

theorem NonceStore.Same.acceptNc (h : s.Same s') (u nonce : Text) (nc : UInt32) :
    (s.acceptNc u nonce nc).1.Same (s'.acceptNc u nonce nc).1 ∧
      (s.acceptNc u nonce nc).2 = (s'.acceptNc u nonce nc).2 := by
  have hlookup := h.inner.lookup nonce
  unfold NonceStore.acceptNc
  generalize s.inner.lookup nonce = e at hlookup ⊢
  generalize s'.inner.lookup nonce = e' at hlookup ⊢
  cases hlookup with
  | none => exact ⟨h, Eq.refl _⟩
  | some he =>
    simp only [he.seen]
    split
    · exact ⟨h.record u nonce nc, Eq.refl _⟩
    · exact ⟨h.record u nonce _, Eq.refl _⟩

theorem NonceStore.Same.accept (h : s.Same s') (c : Credential) :
    (s.accept c).1.Same (s'.accept c).1 ∧ (s.accept c).2 = (s'.accept c).2 := by
  unfold NonceStore.accept
  cases c.nonceCount with
  | none => exact ⟨⟨h.lifetime, h.inner.erase c.nonce⟩, Eq.refl _⟩
  | some nc =>
    obtain ⟨hsame, hresult⟩ := h.acceptNc c.username c.nonce nc
    simp only
    generalize s.acceptNc c.username c.nonce nc = p at hsame hresult ⊢
    generalize s'.acceptNc c.username c.nonce nc = p' at hsame hresult ⊢
    obtain ⟨s₁, ok⟩ := p
    obtain ⟨s₂, ok'⟩ := p'
    cases hresult
    cases ok with
    | true | false => exact ⟨hsame, Eq.refl _⟩

variable (md5Hex) in
theorem NonceStore.Same.verify (h : s.Same s') (a : Attempt) (now : Nat) :
    (verify md5Hex a now s).1.Same (verify md5Hex a now s').1 ∧
      (verify md5Hex a now s).2 = (verify md5Hex a now s').2 := by
  unfold Sip.Server.verify
  simp only [h.isLive]
  split
  · exact ⟨h, Eq.refl _⟩
  · exact h.accept _

variable (md5Hex) in
theorem NonceStore.Same.act (h : s.Same s') (t : Turn) :
    (s.step md5Hex t).Same (s'.step md5Hex t) ∧ (s.act md5Hex t).2 = (s'.act md5Hex t).2 := by
  obtain ⟨now, call⟩ := t
  cases call with
  | issue nonce tie => exact ⟨h.issue now nonce tie, Eq.refl _⟩
  | sweep => exact ⟨h.sweep now, congrArg Outcome.swept (h.sweep now).inner.length_eq⟩
  | verify a =>
    obtain ⟨hsame, hresult⟩ := h.verify md5Hex a now
    exact ⟨hsame, congrArg Outcome.verified hresult⟩

theorem NonceStore.Same.outcomes (h : s.Same s') (turns : List Turn) :
    s.outcomes md5Hex turns = s'.outcomes md5Hex turns := by
  induction turns generalizing s s' with
  | nil => rfl
  | cons t turns ih =>
    obtain ⟨hsame, hresult⟩ := h.act md5Hex t
    rw [outcomes, outcomes, hresult, ih hsame]

/-- At most an account's zero is written down. -/
theorem same_of_refused {a : Attempt} {failure : AuthFailure}
    (h : (verify md5Hex a now s).2 = .error failure) : s.Same (verify md5Hex a now s).1 := by
  unfold verify at h ⊢
  split
  · exact .rfl
  rename_i c hcheck
  simp only [hcheck] at h
  revert h
  refine accept_cases (fun _ => nofun) (fun _ => .rfl) (fun _ _ _ _ _ => nofun) ?refused
  case refused =>
    intro e hlookup _
    refine ⟨Eq.refl _, AList.Related.modify_self (fun _ => .rfl) c.nonce fun e' he' => ?_⟩
    rw [hlookup] at he'
    cases he'
    refine ⟨Eq.refl _, fun u => ?_⟩
    rw [seen_insert]
    split
    case isTrue hu => rw [hu]
    case isFalse => exact Eq.refl _

/-! ### The whole of it -/

theorem lifetime_step (t : Turn) : (s.step md5Hex t).lifetime = s.lifetime := by
  obtain ⟨now, call⟩ := t
  cases call with
  | issue nonce tie =>
    obtain ⟨room, hwithin, -, -, heq⟩ := issue_eq s now nonce tie
    exact (congrArg lifetime heq).trans hwithin.lifetime
  | sweep => rfl
  | verify a => exact within_verify.lifetime

theorem lifetime_run (turns : List Turn) : (s.run md5Hex turns).lifetime = s.lifetime := by
  induction turns generalizing s with
  | nil => rfl
  | cons t turns ih => exact ih.trans (lifetime_step t)

/-- An acceptance: the header is the account's own, under a nonce that was issued less than its
lifetime ago and has been outstanding ever since. -/
def Admitted (md5Hex : Bytes → Text) (lifetime : Nat) (turns : List Turn) (a : Attempt) (now : Nat)
    (u : Text) : Prop :=
  ∃ c, Genuine md5Hex a c ∧ c.username = u ∧ ∃ issuedAt before t after,
    Outstanding md5Hex (.new lifetime) turns c.nonce issuedAt before t after ∧
      issuedAt ≤ now ∧ now < issuedAt + lifetime

theorem admitted_of_ok {lifetime : Nat} {a : Attempt} {u : Text} (hnow : ∀ t ∈ turns, t.now ≤ now)
    (h : (verify md5Hex a now ((new lifetime).run md5Hex turns)).2 = .ok u) :
    Admitted md5Hex lifetime turns a now u := by
  obtain ⟨c, hgen, huser, hlive, -⟩ := verify_ok h
  obtain ⟨e, he, hage⟩ := isLive_iff.1 hlive
  obtain ⟨before, t, after, hfrom⟩ := outstanding_of_lookup lifetime turns he
  refine ⟨c, hgen, huser, e.issuedAt, before, t, after, hfrom, ?_, ?_⟩
  · rw [← hfrom.now]
    apply hnow
    rw [hfrom.run]
    simp
  · rw [lifetime_run] at hage
    have hlifetime : (new lifetime).lifetime = lifetime := rfl
    omega

/-- Digest authentication admits no replay and no poisoning. -/
theorem no_replay_no_poisoning (md5Hex : Bytes → Text) (lifetime : Nat) (turns : List Turn)
    (hfresh : (turns.filterMap Turn.nonce).Nodup) :
    let s := (new lifetime).run md5Hex turns
    (∀ a now u, (∀ t ∈ turns, t.now ≤ now) → (verify md5Hex a now s).2 = .ok u →
      Admitted md5Hex lifetime turns a now u) ∧
    ((new lifetime).accepted md5Hex turns).Pairwise Follows ∧
    (∀ a now failure rest, (verify md5Hex a now s).2 = .error failure →
      (verify md5Hex a now s).1.outcomes md5Hex rest = s.outcomes md5Hex rest) ∧
    s.inner.entries.length ≤ maxOutstandingNonces := by
  refine ⟨fun a now u hnow hok => admitted_of_ok hnow hok, ?_, ?_, ?_⟩
  · exact accepted_pairwise ⟨hfresh, fun _ _ => rfl⟩
  · exact fun a now failure rest hrefused => ((same_of_refused hrefused).outcomes rest).symm
  · exact length_run_le (Nat.zero_le _)

/-- A challenge and two headers that answer it, of one account and counts one after the other. -/
def sampleTurns : List Turn :=
  let attempt (nc : Text) : Attempt :=
    { authorization := "Digest username=\"1001\", nonce=\"n1\", response=\"d\", qop=auth, " ++
        "cnonce=\"c\", nc=" ++ nc
      method := "REGISTER"
      requestUri := "sip:bridge"
      realm := "r"
      lookup := fun u => if u = "1001" then some "pw" else none }
  [⟨0, .issue "n1" 0⟩, ⟨1, .verify (attempt "00000001")⟩,
    ⟨2, .verify (attempt "00000002")⟩]

theorem no_replay_no_poisoning_refreshed :
    ((new 120).accepted (fun _ => "d") sampleTurns).length = 2 ∧
      ((new 120).accepted (fun _ => "d") sampleTurns).Pairwise Follows := by
  refine ⟨by decide, ?_⟩
  exact (no_replay_no_poisoning (fun _ => "d") 120 sampleTurns (by decide)).2.1

end Sip.Server
