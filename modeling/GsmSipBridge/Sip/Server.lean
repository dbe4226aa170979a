-- SUMMARY: The registrar (`sip/server/mod.rs`): what one datagram does.
import GsmSipBridge.Ims.SipClient
import GsmSipBridge.Sip.Server.Auth
import GsmSipBridge.Sip.Server.Relay

/-!
# The registrar

A datagram that is not a request is dropped; one that is gets a definite answer, except an ACK and
what the relay passes on. Metrics, gauges and log lines are left out, and with them the host of a
contact. A parser that panics ends the loop, with nothing changed.
-/

/-! ## Bindings (`sip/server/bindings.rs`)

A search over all bindings takes any that fits, since the order of a hash map is not known; which
one is an input. -/

namespace Sip.Server

structure Binding where
  aor : Text
  contactUri : Text
  source : SocketAddr
  callId : Text
  cseq : UInt32
  expiresAt : Nat
  userAgent : Option Text
  deriving DecidableEq

def Binding.isLive (b : Binding) (now : Nat) : Bool := decide (now < b.expiresAt)

structure BindingStore where
  inner : AList fun _ : Text => Binding
  /-- The addresses the relay has sent from. -/
  relaySources : List SocketAddr

namespace BindingStore

variable (s : BindingStore)

def upsert (b : Binding) : BindingStore := { s with inner := s.inner.insert b.aor b }

def remove (aor : Text) : BindingStore := { s with inner := s.inner.erase aor }

/-- One of the bindings that fit. -/
def find (p : Binding → Bool) (pick : Nat) : Option Binding :=
  let found := (s.inner.entries.map Sigma.snd).filter p
  found[pick % found.length]?

def findByCallId (callId : Text) (pick : Nat) : Option Binding :=
  s.find (fun b => b.callId == callId) pick

def findBySource (addr : SocketAddr) (now : Nat) (pick : Nat) : Option Binding :=
  s.find (fun b => b.source == addr && b.isLive now) pick

def addRelaySource (addr : SocketAddr) : BindingStore :=
  { s with relaySources := s.relaySources.insert ⟨addr.ip.toCanonical, addr.port⟩ }

end BindingStore

open Text Ims.SipClient

structure SipServerConfig where
  listenAddr : Text
  realm : Text
  minExpires : UInt32
  maxExpires : UInt32
  /-- User names with their passwords. -/
  accounts : List (Text × Text)

def SipServerConfig.passwordFor (c : SipServerConfig) (username : Text) : Option Text :=
  (c.accounts.find? fun a => a.1 == username).map Prod.snd

structure ServerState where
  config : SipServerConfig
  nonces : NonceStore
  bindings : BindingStore
  /-- The dial-out account's port, if calling out is enabled. -/
  outbound : Option UInt16
  relay : Option Relay

/-- What comes from outside with a datagram: random texts, choices of a hash map's order, the local
address that routes to the peer, and whether the relay's socket sends. -/
structure Env where
  nonce : Text
  tie : Nat
  pickCallId : Nat
  pickSource : Nat
  route : Option IpAddr
  sent : Bool

structure Response where
  status : UInt16
  reason : Text
  contact : Option Text := none
  extra : List Header := []

def Response.render (r : Response) (request : SipRequest) (toTag : Text) : Text :=
  buildUasResponseWithHeaders r.status r.reason request (some toTag) r.contact none r.extra

def badRequest : Response := { status := 400, reason := "Bad Request" }

def allow : Text := "INVITE, ACK, BYE, CANCEL, OPTIONS, REGISTER"

/-! ## Values of headers -/

/-- The lifetime asked for; none leaves the choice to the registrar. -/
def requestedExpires (request : SipRequest) (contactHeader : Text) : Option UInt32 :=
  match header request.headers "Expires" with
  | some value => Numeral.parseU32 (trim value)
  | none =>
    ((contactHeader.splitOn ';').tail.findSome? fun p =>
      (trim p).dropPrefix? "expires=").bind fun v => Numeral.parseU32 (trim v)

/-- The URI of a contact without its display name and parameters. -/
def parseContactUri (contact : Text) : Option Text :=
  let trimmed := trim contact
  let uri :=
    match splitOnce '<' trimmed with
    | some (_, rest) => (splitOnce '>' rest).map Prod.fst
    | none => some ((trimmed.splitOn ';').headD [])
  uri.bind fun uri =>
    let uri := trim uri
    if uri.isEmpty || !"sip".toList.isPrefixOf (toAsciiLowercase uri) then none else some uri

def uriUser (uri : Text) : Option Text :=
  (splitOnce ':' uri).bind fun afterScheme =>
    (splitOnce '@' afterScheme.2).bind fun user => if user.1.isEmpty then none else some user.1

/-- A wildcard is no host, so the realm stands in. -/
def dialOutHost (c : SipServerConfig) : Text :=
  match IpAddr.parse c.listenAddr with
  | some ip => if ip.isUnspecified then c.realm else c.listenAddr
  | none => c.listenAddr

/-! ## REGISTER -/

/-- The binding that a request repeats: same `Call-ID`, no higher `CSeq`, same contact. -/
def matchingRetransmission (request : SipRequest) (callId : Text) (cseq : UInt32)
    (bindings : BindingStore) (pick : Nat) : Option Binding :=
  (bindings.findByCallId callId pick).bind fun existing =>
    if existing.cseq < cseq then none
    else
      ((header request.headers "Contact").bind parseContactUri).bind fun contact =>
        if contact = existing.contactUri then some existing else none

def challenge (st : ServerState) (env : Env) (now : Nat) (stale : Bool) : ServerState × Response :=
  ({ st with nonces := st.nonces.issue now env.nonce env.tie },
    { status := 401, reason := "Unauthorized"
      extra := [("WWW-Authenticate",
        challengeHeader st.config.realm env.nonce stale)] })

section Handlers

variable (md5Hex : Bytes → Text) (hash : Text → Text → UInt64) (profile : Profile) (env : Env)

/-- The arguments a REGISTER is verified with. -/
def registerAttempt (st : ServerState) (request : SipRequest) (authorization : Text) : Attempt where
  authorization := authorization
  method := "REGISTER"
  requestUri := request.requestUri
  realm := st.config.realm
  lookup := st.config.passwordFor

def contactValue (uri : Text) (expires : Nat) : Text :=
  '<' :: uri ++ ">;expires=" ++ Numeral.display expires

/-- A REGISTER of an account that is proven. -/
def register (username : Text) (request : SipRequest) (callId : Text) (cseq : UInt32)
    (peer : SocketAddr) (st : ServerState) (now : Nat) : ServerState × Response :=
  match header request.headers "Contact" with
  | none => (st, badRequest)
  | some contactHeader =>
    let requested := requestedExpires request contactHeader
    if requested = some 0 then
      ({ st with bindings := st.bindings.remove username }, { status := 200, reason := "OK" })
    else if trim contactHeader = ['*'] then (st, badRequest)
    else
      match parseContactUri contactHeader with
      | none => (st, badRequest)
      | some contactUri =>
        if requested.any (· < st.config.minExpires) then
          (st, { status := 423, reason := "Interval Too Brief"
                 extra := [("Min-Expires", Numeral.display st.config.minExpires.toNat)] })
        else
          let granted := (requested.map (min · st.config.maxExpires)).getD st.config.maxExpires
          let binding : Binding :=
            { aor := username, contactUri, source := peer, callId, cseq
              expiresAt := now + seconds granted.toNat
              userAgent := header request.headers "User-Agent" }
          ({ st with bindings := st.bindings.upsert binding },
            { status := 200, reason := "OK"
              contact := some (contactValue contactUri granted.toNat) })

def handleRegister (request : SipRequest) (peer : SocketAddr) (st : ServerState) (now : Nat) :
    ServerState × Response :=
  match header request.headers "Call-ID",
      (header request.headers "CSeq").bind fun v =>
        (splitWhitespace v).head?.bind Numeral.parseU32 with
  | some callId, some cseq =>
    -- A retransmission comes before authentication, and changes nothing.
    match matchingRetransmission request callId cseq st.bindings env.pickCallId with
    | some existing =>
      let remaining := max ((existing.expiresAt - now) / seconds 1) 1
      (st, { status := 200, reason := "OK"
             contact := some (contactValue existing.contactUri remaining) })
    | none =>
      match header request.headers "Authorization" with
      | none => challenge st env now false
      | some authorization =>
        match verify md5Hex (registerAttempt st request authorization) now st.nonces with
        | (nonces, .error failure) => challenge { st with nonces } env now failure.isStale
        | (nonces, .ok username) =>
          register username request callId cseq peer { st with nonces } now
  | _, _ => (st, badRequest)

/-! ## Other requests -/

/-- What a datagram leads to: the state, the answer and what the relay sends. -/
structure Handled where
  state : ServerState
  response : Option Response
  send : Option Send := none

def refusal : RelayError → Response
  | .tooManyHops => { status := 483, reason := "Too Many Hops" }
  | .malformed => badRequest
  | .unreachable => { status := 503, reason := "Service Unavailable" }

def forbidden : Response := { status := 403, reason := "Forbidden" }

/-- A call from a phone that is registered goes to the relay, or is redirected. -/
def handleInvite (text : Text) (request : SipRequest) (peer : SocketAddr) (st : ServerState)
    (now : Nat) : Handled :=
  match st.outbound with
  | none => ⟨st, some forbidden, none⟩
  | some localPort =>
    match st.bindings.findBySource peer now env.pickSource, uriUser request.requestUri with
    | none, _ => ⟨st, some forbidden, none⟩
    | some _, none => ⟨st, some badRequest, none⟩
    | some _, some destination =>
      match st.relay with
      | some relay =>
        let (relay, passed, result) := relay.forwardInvite hash text peer env.route env.sent now
        let bindings :=
          match passed with
          | some (source, _) => st.bindings.addRelaySource source
          | none => st.bindings
        ⟨{ st with relay := some relay, bindings },
          match result with
          | .ok () => none
          | .error e => some (refusal e),
          passed.map Prod.snd⟩
      | none =>
        ⟨st, some { status := 302, reason := "Moved Temporarily"
                    contact := some ("sip:" ++ destination ++ '@' :: dialOutHost st.config ++
                      ':' :: Numeral.display localPort.toNat) }, none⟩

def handleCancel (text : Text) (peer : SocketAddr) (st : ServerState) (relay : Relay) (now : Nat) :
    Handled :=
  let (send, result) := relay.forwardInTransaction hash text peer env.sent now
  let response : Option Response :=
    match result with
    | .ok true => none
    | .ok false => some { status := 481, reason := "Call/Transaction Does Not Exist" }
    | .error .unreachable => some (refusal .unreachable)
    | .error _ => some badRequest
  ⟨st, response, send⟩

/-- An ACK is never answered. -/
def handleAck (text : Text) (peer : SocketAddr) (st : ServerState) (now : Nat) : Handled :=
  ⟨st, none, st.relay.bind fun relay =>
    (relay.forwardInTransaction hash text peer env.sent now).1⟩

def notAllowed : Response :=
  { status := 405, reason := "Method Not Allowed", extra := [("Allow", allow)] }

def handleRequest (text : Text) (request : SipRequest) (peer : SocketAddr) (st : ServerState)
    (now : Nat) : Handled :=
  let method := toAsciiUppercase request.method
  if method = "REGISTER" then
    let (st, response) := handleRegister md5Hex env request peer st now
    ⟨st, some response, none⟩
  else if method = "OPTIONS" then
    ⟨st, some { status := 200, reason := "OK", extra := [("Allow", allow)] }, none⟩
  else if method = "INVITE" then handleInvite hash env text request peer st now
  else if method = "SUBSCRIBE" then
    ⟨st, some { status := 489, reason := "Bad Event" }, none⟩
  else if method = "CANCEL" then
    match st.relay with
    | some relay => handleCancel hash env text peer st relay now
    | none => ⟨st, some notAllowed, none⟩
  else if method = "ACK" then handleAck hash env text peer st now
  else ⟨st, some notAllowed, none⟩

/-- The request of a datagram. -/
def readRequest (text : Text) : Option SipRequest :=
  match SipRequest.tryParse profile (Utf8.encode text) with
  | .ok (some (request, _)) => some request
  | _ => none

def handleDatagram (text : Text) (peer : SocketAddr) (st : ServerState) (now : Nat) : Handled :=
  match readRequest profile text with
  | none => ⟨st, none, none⟩
  | some request => handleRequest md5Hex hash env text request peer st now

end Handlers

/-! ## Owners of bindings

One lemma for each handler says what it does to the table of bindings. Only a REGISTER whose
`Authorization` verifies writes to it, under the account it verified as. -/

variable {md5Hex : Bytes → Text} {hash : Text → Text → UInt64} {profile : Profile} {env : Env}
  {st : ServerState} {peer : SocketAddr} {now : Nat}

/-- The datagram is a REGISTER whose `Authorization` verifies as an account. -/
def RegistersAs (md5Hex : Bytes → Text) (profile : Profile) (text : Text) (st : ServerState)
    (now : Nat) (u : Text) : Prop :=
  ∃ request authorization, readRequest profile text = some request ∧
    toAsciiUppercase request.method = "REGISTER" ∧
    header request.headers "Authorization" = some authorization ∧
    (verify md5Hex (registerAttempt st request authorization) now st.nonces).2 = .ok u

theorem RegistersAs.unique {text u v : Text} (hu : RegistersAs md5Hex profile text st now u)
    (hv : RegistersAs md5Hex profile text st now v) : u = v := by
  obtain ⟨request, authorization, hread, -, hauth, hverify⟩ := hu
  obtain ⟨request', authorization', hread', -, hauth', hverify'⟩ := hv
  rw [hread] at hread'
  cases hread'
  rw [hauth] at hauth'
  cases hauth'
  rw [hverify] at hverify'
  exact Except.ok.inj hverify'

/-- The account's binding is removed, or replaced by one for the peer. -/
def Writes (u : Text) (peer : SocketAddr) (s s' : BindingStore) : Prop :=
  s' = s.remove u ∨ ∃ b : Binding, b.aor = u ∧ b.source = peer ∧ s' = s.upsert b

theorem Writes.other {u v : Text} {s s' : BindingStore} (h : Writes u peer s s') (hv : v ≠ u) :
    s'.inner.lookup v = s.inner.lookup v := by
  rcases h with rfl | ⟨b, rfl, -, rfl⟩
  · exact AList.lookup_erase_ne hv
  · exact AList.lookup_insert_ne hv

/-! ### The handlers -/

theorem register_bindings (username : Text) (request : SipRequest) (callId : Text) (cseq : UInt32)
    (peer : SocketAddr) (st : ServerState) (now : Nat) :
    let result := register username request callId cseq peer st now
    result.1.bindings = st.bindings ∨
      result.2.status = 200 ∧ Writes username peer st.bindings result.1.bindings := by
  unfold register
  cases header request.headers "Contact" with
  | none => exact .inl rfl
  | some contactHeader =>
    simp only
    split
    · exact .inr ⟨rfl, .inl rfl⟩
    split
    · exact .inl rfl
    cases parseContactUri contactHeader with
    | none => exact .inl rfl
    | some contactUri =>
      simp only
      split
      · exact .inl rfl
      · exact .inr ⟨rfl, .inr ⟨_, rfl, rfl, rfl⟩⟩

variable (md5Hex env) in
theorem handleRegister_bindings (request : SipRequest) (peer : SocketAddr) (st : ServerState)
    (now : Nat) :
    let result := handleRegister md5Hex env request peer st now
    result.1.bindings = st.bindings ∨
      ∃ authorization u, header request.headers "Authorization" = some authorization ∧
        (verify md5Hex (registerAttempt st request authorization) now st.nonces).2 = .ok u ∧
        result.2.status = 200 ∧ Writes u peer st.bindings result.1.bindings := by
  unfold handleRegister
  split
  case h_2 => exact .inl rfl
  case h_1 callId cseq _ _ =>
    split
    · exact .inl rfl
    split
    · exact .inl rfl
    rename_i authorization hauth
    split
    · exact .inl rfl
    rename_i nonces username hverify
    rcases register_bindings username request callId cseq peer { st with nonces } now with
      hsame | ⟨hstatus, hwrites⟩
    · exact .inl hsame
    · refine .inr ⟨authorization, username, hauth, ?_, hstatus, hwrites⟩
      rw [hverify]

variable (text : Text) (request : SipRequest) (peer : SocketAddr) (st : ServerState) (now : Nat)

theorem handleInvite_bindings :
    (handleInvite hash env text request peer st now).state.bindings.inner = st.bindings.inner := by
  unfold handleInvite
  cases st.outbound with
  | none => rfl
  | some localPort =>
    simp only
    split
    · rfl
    · rfl
    split
    case h_2 => rfl
    case h_1 relay _ =>
      split <;> rfl

variable (md5Hex hash env) in
/-- What a request does: nothing to the bindings, or what its account may do, with an OK. -/
theorem handleRequest_bindings :
    let h := handleRequest md5Hex hash env text request peer st now
    h.state.bindings.inner = st.bindings.inner ∨
      ∃ authorization u response, toAsciiUppercase request.method = "REGISTER" ∧
        header request.headers "Authorization" = some authorization ∧
        (verify md5Hex (registerAttempt st request authorization) now st.nonces).2 = .ok u ∧
        h.response = some response ∧ response.status = 200 ∧
        Writes u peer st.bindings h.state.bindings := by
  unfold handleRequest
  simp only
  split
  case isTrue hmethod =>
    rcases handleRegister_bindings md5Hex env request peer st now with hsame |
      ⟨authorization, u, hauth, hverify, hstatus, hwrites⟩
    · exact .inl (congrArg BindingStore.inner hsame)
    · exact .inr ⟨authorization, u, _, hmethod, hauth, hverify, rfl, hstatus, hwrites⟩
  case isFalse =>
    left
    split
    · rfl
    split
    · exact handleInvite_bindings text request peer st now
    split
    · rfl
    split
    · cases st.relay with
      | none | some => rfl
    split <;> rfl

variable (md5Hex hash profile env) in
theorem handleDatagram_bindings :
    let h := handleDatagram md5Hex hash profile env text peer st now
    h.state.bindings.inner = st.bindings.inner ∨
      ∃ u response, RegistersAs md5Hex profile text st now u ∧ h.response = some response ∧
        response.status = 200 ∧ Writes u peer st.bindings h.state.bindings := by
  unfold handleDatagram
  cases hread : readRequest profile text with
  | none => exact .inl rfl
  | some request =>
    rcases handleRequest_bindings md5Hex hash env text request peer st now with hsame |
      ⟨authorization, u, response, hmethod, hauth, hverify, hrest⟩
    · exact .inl hsame
    · exact .inr ⟨u, response, ⟨request, authorization, hread, hmethod, hauth, hverify⟩, hrest⟩

/-! ### Who changes a binding -/

/-- Whatever the state, the peer and the datagram: only the binding of the account that the datagram
registers as can change, and none does unless it is answered with an OK. -/
theorem binding_changes_by_owner (md5Hex : Bytes → Text) (hash : Text → Text → UInt64)
    (profile : Profile) (env : Env) (text : Text) (peer : SocketAddr) (st : ServerState)
    (now : Nat) :
    let h := handleDatagram md5Hex hash profile env text peer st now
    (∀ u, h.state.bindings.inner.lookup u ≠ st.bindings.inner.lookup u →
      RegistersAs md5Hex profile text st now u) ∧
    (∀ u, RegistersAs md5Hex profile text st now u → ∀ v, v ≠ u →
      h.state.bindings.inner.lookup v = st.bindings.inner.lookup v) ∧
    ((∀ response, h.response = some response → response.status ≠ 200) →
      h.state.bindings.inner = st.bindings.inner) := by
  rcases handleDatagram_bindings md5Hex hash profile env text peer st now with hsame |
    ⟨u, response, hu, hresponse, hstatus, hwrites⟩
  · refine ⟨fun u hne => absurd ?_ hne, fun u _ v _ => ?_, fun _ => hsame⟩
    · exact congrArg (AList.lookup u) hsame
    · exact congrArg (AList.lookup v) hsame
  refine ⟨fun v hne => ?_, fun v hv v' hne => ?_, fun hrefused => ?_⟩
  · by_contra hv
    apply hne
    apply hwrites.other
    rintro rfl
    exact hv hu
  · rw [hv.unique hu] at hne
    exact hwrites.other hne
  · exact absurd hstatus (hrefused response hresponse)

/-! ### Where bindings come from -/

structure Datagram where
  text : Text
  peer : SocketAddr
  now : Nat
  env : Env

section Served

variable (md5Hex : Bytes → Text) (hash : Text → Text → UInt64) (profile : Profile)
  (start : ServerState)

def served : List Datagram → ServerState :=
  History.after (fun st d => (handleDatagram md5Hex hash profile d.env d.text d.peer st d.now).state)
    start

/-- A binding was there at the start, or a datagram from its source that registered as its account
wrote it. -/
def Attributed (past : List Datagram) : Prop :=
  ∀ u b, (served md5Hex hash profile start past).bindings.inner.lookup u = some b →
    start.bindings.inner.lookup u = some b ∨
      ∃ d earlier, d :: earlier <:+ past ∧ b.aor = u ∧ b.source = d.peer ∧
        RegistersAs md5Hex profile d.text (served md5Hex hash profile start earlier) d.now u ∧
        (served md5Hex hash profile start (d :: earlier)).bindings =
          (served md5Hex hash profile start earlier).bindings.upsert b

theorem bindings_attributed (past : List Datagram) :
    Attributed md5Hex hash profile start past := by
  induction past with
  | nil => exact fun _ _ => .inl
  | cons d past ih =>
    intro u b h
    have hnew := handleDatagram_bindings md5Hex hash profile d.env d.text d.peer
      (served md5Hex hash profile start past) d.now
    by_cases hkept : (served md5Hex hash profile start past).bindings.inner.lookup u = some b
    · refine (ih u b hkept).imp_right ?_
      rintro ⟨d', earlier, hsuffix, hrest⟩
      exact ⟨d', earlier, hsuffix.trans (List.suffix_cons d past), hrest⟩
    obtain hsame | ⟨v, _, hv, -, -, hwrites⟩ := hnew
    · exact absurd (hsame ▸ h) hkept
    obtain rfl : v = u := by
      by_contra hother
      exact hkept ((hwrites.other (Ne.symm hother)).symm.trans h)
    obtain heq | ⟨b', rfl, hsource, heq⟩ := hwrites
    · cases (AList.lookup_erase _ _).symm.trans (heq ▸ h)
    · cases (AList.lookup_insert _).symm.trans (heq ▸ h)
      exact .inr ⟨d, past, List.suffix_rfl, rfl, hsource, hv, heq⟩

end Served

end Sip.Server
