-- SUMMARY: HTTP digest, and its use by the registrar (`sip/server/auth.rs`).
import GsmSipBridge.Lib.Assoc
import GsmSipBridge.Lib.Text

/-!
# Authentication

A challenge mints a nonce and keeps it in a table. A header is checked against an account's password
first; only then does the table move, so that what it presents cannot be presented again. Instants
are numbers. A fresh nonce is an input, and so is the choice among the oldest entries when one has to
go, since the order of a hash map is not known.
-/

/-! ## Digests (`ims/digest.rs`; challenges in `ims/sip_client.rs`)

The hash is an arbitrary function from bytes to text. -/

namespace Ims.Digest

open Text

/-! ## Parameters -/

/-- The value behind an equals sign and what follows it: up to the closing quote, or up to the next
comma. -/
def digestValue : Text → Text × Text
  | '"' :: rest => (splitOnce '"' rest).getD (rest, [])
  | rest => (rest.takeWhile (· != ','), rest.dropWhile (· != ','))

/-- The pairs of a header. Every round takes an equals sign, so as many rounds as there are
characters are enough. -/
def digestPairs : (rounds : Nat) → Text → List (Text × Text)
  | 0, _ => []
  | rounds + 1, chars =>
    match splitOnce '=' (chars.dropWhile fun c => c == ',' || c == ' ') with
    | none => []
    | some (key, rest) => (trim key, (digestValue rest).1) :: digestPairs rounds (digestValue rest).2

def parseDigestChallenge (header : Text) : Except Text (List (Text × Text)) :=
  match (trim header).dropPrefix? "Digest" with
  | none => .error ("not a Digest challenge: " ++ header)
  | some rest => .ok (digestPairs (trimStart rest).length (trimStart rest))

/-- The first parameter of a name. -/
def param (params : List (Text × Text)) (key : Text) : Option Text :=
  (params.find? fun kv => eqIgnoreAsciiCase kv.1 key).map Prod.snd

theorem digestValue_length (rest : Text) : (digestValue rest).2.length ≤ rest.length := by
  unfold digestValue
  split
  case h_1 rest =>
    cases hsplit : splitOnce '"' rest with
    | none => simp
    | some p =>
      have heq := (eq_of_splitOnce hsplit).1
      simp only [Option.getD_some, List.length_cons]
      rw [heq]
      simp only [List.length_append, List.length_cons]
      omega
  case h_2 => exact (List.dropWhile_sublist _).length_le

/-- A round leaves less to read. -/
theorem digestPairs_shorter {chars key rest : Text}
    (h : splitOnce '=' (chars.dropWhile fun c => c == ',' || c == ' ') = some (key, rest)) :
    (digestValue rest).2.length < chars.length := by
  have hvalue := digestValue_length rest
  have hskip := (List.dropWhile_sublist (l := chars) fun c => c == ',' || c == ' ').length_le
  rw [(eq_of_splitOnce h).1, List.length_append, List.length_cons] at hskip
  omega

/-- More rounds find nothing more. -/
theorem digestPairs_rounds {n m : Nat} {chars : Text} (hn : chars.length ≤ n)
    (hm : chars.length ≤ m) : digestPairs n chars = digestPairs m chars := by
  induction n generalizing m chars with
  | zero =>
    obtain rfl : chars = [] := List.length_eq_zero_iff.1 (Nat.le_zero.1 hn)
    cases m <;> rfl
  | succ n ih =>
    cases m with
    | zero =>
      obtain rfl : chars = [] := List.length_eq_zero_iff.1 (Nat.le_zero.1 hm)
      rfl
    | succ m =>
      unfold digestPairs
      cases hsplit : splitOnce '=' (chars.dropWhile fun c => c == ',' || c == ' ') with
      | none => rfl
      | some p =>
        have hshort := digestPairs_shorter hsplit
        simp only [List.cons.injEq, true_and]
        exact ih (by omega) (by omega)

/-! ## Responses -/

section Responses

variable (md5Hex : Bytes → Text)

def ha1 (username realm : Text) (res : Bytes) : Text :=
  md5Hex (Utf8.encode username ++ 58 :: Utf8.encode realm ++ 58 :: res)

def ha2 (method uri : Text) : Text :=
  md5Hex (Utf8.encode (method ++ ':' :: uri))

/-- The response without `qop`. -/
def responseSimple (ha1 nonce ha2 : Text) : Text :=
  md5Hex (Utf8.encode (ha1 ++ ':' :: nonce ++ ':' :: ha2))

def responseQop (ha1 nonce nc cnonce qop ha2 : Text) : Text :=
  md5Hex (Utf8.encode
    (ha1 ++ ':' :: nonce ++ ':' :: nc ++ ':' :: cnonce ++ ':' :: qop ++ ':' :: ha2))

end Responses

end Ims.Digest

namespace Sip.Server

open Text Ims.Digest

/-! ## Challenges -/

def maxOutstandingNonces : Nat := 256

inductive AuthFailure where
  | badPassword
  | unknownUser
  | staleNonce
  | rejected
  deriving DecidableEq

def AuthFailure.isStale (failure : AuthFailure) : Bool := failure = .staleNonce

structure NonceEntry where
  issuedAt : Nat
  /-- The highest nonce count of each account. -/
  lastNc : AList fun _ : Text => UInt32

/-- The count an account has come to, from zero. -/
def NonceEntry.seen (e : NonceEntry) (username : Text) : UInt32 :=
  (e.lastNc.lookup username).getD 0

structure NonceStore where
  inner : AList fun _ : Text => NonceEntry
  lifetime : Nat

namespace NonceStore

def new (lifetime : Nat) : NonceStore := ⟨∅, lifetime⟩

variable (s : NonceStore)

def unexpired (now : Nat) (e : NonceEntry) : Bool := now - e.issuedAt < s.lifetime

def sweep (now : Nat) : NonceStore × Nat :=
  let inner := s.inner.retain fun _ e => s.unexpired now e
  ({ s with inner }, inner.entries.length)

/-- The nonces with the time they were issued. -/
def ages : List (Text × Nat) := s.inner.entries.map fun e => (e.1, e.2.issuedAt)

/-- The nonces issued first. -/
def oldest : List Text := (s.ages.filter fun x => s.ages.all fun y => x.2 ≤ y.2).map Prod.fst

/-- One of the oldest goes. -/
def evict (tie : Nat) : NonceStore :=
  match s.oldest[tie % s.oldest.length]? with
  | some nonce => { s with inner := s.inner.erase nonce }
  | none => s

def issue (now : Nat) (nonce : Text) (tie : Nat) : NonceStore :=
  let kept := (s.sweep now).1
  let room := if maxOutstandingNonces ≤ kept.inner.entries.length then kept.evict tie else kept
  { room with inner := room.inner.insert nonce ⟨now, ∅⟩ }

def consume (nonce : Text) : NonceStore := { s with inner := s.inner.erase nonce }

def isLive (nonce : Text) (now : Nat) : Bool := (s.inner.lookup nonce).any (s.unexpired now)

/-- The account's count under a nonce that is in the table. -/
def record (username nonce : Text) (nc : UInt32) : NonceStore :=
  { s with inner := s.inner.modify nonce fun e => { e with lastNc := e.lastNc.insert username nc } }

/-- A count that does not advance for the account is refused; an account that had none has zero from
then on. -/
def acceptNc (username nonce : Text) (nc : UInt32) : NonceStore × Bool :=
  match s.inner.lookup nonce with
  | none => (s, false)
  | some entry =>
    if entry.seen username < nc then (s.record username nonce nc, true)
    else (s.record username nonce (entry.seen username), false)

end NonceStore

def challengeHeader (realm nonce : Text) (stale : Bool) : Text :=
  "Digest realm=\"" ++ realm ++ "\", nonce=\"" ++ nonce ++
    "\", qop=\"auth\", algorithm=MD5" ++ if stale then ", stale=true".toList else []

/-! ## Verification -/

/-- Without an early exit on the first differing byte. -/
def constantTimeEq (a b : Bytes) : Bool :=
  a.length == b.length && (a.zip b).foldl (fun acc xy => acc ||| (xy.1 ^^^ xy.2)) 0 == 0

/-- The arguments of a verification. -/
structure Attempt where
  authorization : Text
  method : Text
  requestUri : Text
  realm : Text
  lookup : Text → Option Text

def Attempt.get (a : Attempt) (key : Text) : Option Text :=
  match parseDigestChallenge a.authorization with
  | .ok params => param params key
  | .error _ => none

section Verify

variable (md5Hex : Bytes → Text)

/-- The response that a password gives, and the nonce count if there is one. Which form applies is
decided by `qop` alone. -/
def Attempt.expected (a : Attempt) (username nonce : Text) (password : Option Text) :
    Option (Text × Option UInt32) :=
  let ha1 := ha1 md5Hex username a.realm (Utf8.encode (password.getD []))
  let ha2 := ha2 md5Hex a.method ((a.get "uri").getD a.requestUri)
  match a.get "qop" with
  | some qop =>
    match a.get "nc", a.get "cnonce" with
    | some nc, some cnonce =>
      (Numeral.parseHexU32 nc).map fun n => (responseQop md5Hex ha1 nonce nc cnonce qop ha2, some n)
    | _, _ => none
  | none => some (responseSimple md5Hex ha1 nonce ha2, none)

/-- What a header presents once its credential is proven. -/
structure Credential where
  username : Text
  nonce : Text
  nonceCount : Option UInt32
  deriving DecidableEq

/-- The checks before any nonce state moves. -/
def Attempt.check (a : Attempt) (isLive : Text → Bool) : Except AuthFailure Credential :=
  match a.get "username", a.get "nonce", a.get "response" with
  | some username, some nonce, some response =>
    if (a.get "algorithm").any fun v => !eqIgnoreAsciiCase v "MD5" then
      .error .rejected
    else if (a.get "qop").any fun v => eqIgnoreAsciiCase v "auth-int" then
      .error .rejected
    else if !isLive nonce then .error .staleNonce
    else
      -- An unknown account goes through the same computation, with an empty password.
      match a.expected md5Hex username nonce (a.lookup username) with
      | none => .error .rejected
      | some (expected, nonceCount) =>
        if !constantTimeEq (Utf8.encode expected) (Utf8.encode response) then
          .error (if (a.lookup username).isNone then .unknownUser else .badPassword)
        else if (a.lookup username).isNone then .error .unknownUser
        else .ok ⟨username, nonce, nonceCount⟩
  | _, _, _ => .error .rejected

/-- The replay guard of the form that was used. -/
def NonceStore.accept (s : NonceStore) (c : Credential) : NonceStore × Except AuthFailure Text :=
  match c.nonceCount with
  | some nc =>
    match s.acceptNc c.username c.nonce nc with
    | (s, true) => (s, .ok c.username)
    | (s, false) => (s, .error .rejected)
  | none => (s.consume c.nonce, .ok c.username)

def verify (a : Attempt) (now : Nat) (s : NonceStore) : NonceStore × Except AuthFailure Text :=
  match a.check md5Hex (s.isLive · now) with
  | .error failure => (s, .error failure)
  | .ok c => s.accept c

end Verify

end Sip.Server
