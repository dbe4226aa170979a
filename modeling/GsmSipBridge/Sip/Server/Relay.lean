-- SUMMARY: The registrar's dial-out relay (`sip/server/relay.rs`).
import GsmSipBridge.Lib.Assoc
import GsmSipBridge.Lib.Delimited
import GsmSipBridge.Lib.IpText
import GsmSipBridge.Lib.Trace

/-!
# The relay

A relayed INVITE is remembered under a branch computed from the phone's own branch and `Call-ID`, with
the phone it came from and the address it went to. Instants are numbers of nanoseconds. The hash is
an arbitrary function; which local address routes to a phone, and whether the socket sends, are
inputs.
-/

namespace Sip.Server

open Text

def seconds (n : Nat) : Nat := n * 1000000000

def provisionalTtl : Nat := seconds 180
def successTtl : Nat := seconds 64
def failureTtl : Nat := seconds 32

inductive RelayError where
  | tooManyHops
  | malformed
  | unreachable
  deriving DecidableEq

/-! ## Texts -/

def headerIs (line name : Text) : Bool :=
  (splitOnce ':' line).any fun kv => eqIgnoreAsciiCase (trim kv.1) name

def isVia (line : Text) : Bool := headerIs line "via" || headerIs line "v"

/-- The value of a parameter of a header line. -/
def headerParam (line key : Text) : Option Text :=
  (splitOnce ';' line).bind fun head =>
    (head.2.splitOn ';').findSome? fun p =>
      (splitOnce '=' p).bind fun kv =>
        if eqIgnoreAsciiCase (trim kv.1) key then some (trim kv.2) else none

/-- The first branch of a `Via` line and the first `Call-ID`, up to the blank line. -/
def branchAndCallId (viaBranch callId : Option Text) : List Text → Option Text × Option Text
  | [] => (viaBranch, callId)
  | line :: lines =>
    if line.isEmpty then (viaBranch, callId)
    else if viaBranch.isNone && isVia line then
      branchAndCallId (headerParam line "branch") callId lines
    else if callId.isNone && (headerIs line "call-id" || headerIs line "i") then
      branchAndCallId viaBranch ((splitOnce ':' line).map fun kv => trim kv.2) lines
    else branchAndCallId viaBranch callId lines

/-- The branch under which the relay passes a request on. -/
def relayBranch (hash : Text → Text → UInt64) (text : Text) : Option Text :=
  match branchAndCallId none none (Delimited.split '\r' '\n' text).tail with
  | (some viaBranch, some callId) =>
    some ("z9hG4bK-rl" ++
      (Nat.toDigits 16 (hash viaBranch callId).toNat).leftpad 16 '0')
  | _ => none

/-- The header lines with one hop less, or with the default where none is given. -/
def rewriteHeaders (sawMaxForwards : Bool) : List Text → Except RelayError (List Text)
  | [] => .ok []
  | line :: lines =>
    if line.isEmpty then
      .ok ((if sawMaxForwards then [] else ["Max-Forwards: 69".toList]) ++ line :: lines)
    else if headerIs line "max-forwards" then
      match (splitOnce ':' line).bind fun kv => Numeral.parseU32 (trim kv.2) with
      | none => .error .malformed
      | some hops =>
        if hops = 0 then .error .tooManyHops
        else (rewriteHeaders true lines).map
          (("Max-Forwards: " ++ Numeral.display (hops.toNat - 1)) :: ·)
    else (rewriteHeaders sawMaxForwards lines).map (line :: ·)

def viaHost (ip : IpAddr) : Text :=
  match ip.toCanonical with
  | .v4 a b c d => (IpAddr.v4 a b c d).toText
  | .v6 segments => '[' :: (IpAddr.v6 segments).toText ++ [']']

def joinLines (lines : List Text) : Text := ['\r', '\n'].intercalate lines

/-- Our own `Via` on top. -/
def rewriteRequest (text : Text) (viaIp : IpAddr) (viaPort : UInt16) (branch : Text) :
    Except RelayError Text :=
  match Delimited.split '\r' '\n' text with
  | [] => .ok []
  | first :: lines =>
    (rewriteHeaders false lines).map fun lines =>
      joinLines (first :: ("Via: SIP/2.0/UDP " ++ viaHost viaIp ++
        ':' :: Numeral.display viaPort.toNat ++ ";branch=" ++ branch) :: lines)

/-! ## Transactions -/

structure Entry where
  peer : SocketAddr
  /-- The only address the responses are taken from. -/
  target : SocketAddr
  expires : Nat
  deriving DecidableEq

structure Relay where
  accountPort : UInt16
  localPort : UInt16
  fixedIp : Option IpAddr
  transactions : AList fun _ : Text => Entry

/-- A request that is passed on. -/
structure Send where
  target : SocketAddr
  text : Text
  deriving DecidableEq

namespace Relay

variable (hash : Text → Text → UInt64) (r : Relay)

/-- The branch, target and text that an INVITE is passed on with. -/
def routeInvite (text : Text) (route : Option IpAddr) : Except RelayError (Text × SocketAddr × Text) :=
  match relayBranch hash text with
  | none => .error .malformed
  | some branch =>
    match r.fixedIp.or route with
    | none => .error .unreachable
    | some ip =>
      (rewriteRequest text ip r.localPort branch).map fun rewritten =>
        (branch, ⟨ip, r.accountPort⟩, rewritten)

/-- Also what is sent, and from which address; the transaction stays if the sending fails. -/
def forwardInvite (text : Text) (peer : SocketAddr) (route : Option IpAddr) (sent : Bool)
    (now : Nat) : Relay × Option (SocketAddr × Send) × Except RelayError Unit :=
  match r.routeInvite hash text route with
  | .error e => (r, none, .error e)
  | .ok (branch, target, rewritten) =>
    ({ r with transactions := r.transactions.insert branch ⟨peer, target, now + provisionalTtl⟩ },
      some (⟨target.ip, r.localPort⟩, ⟨target, rewritten⟩),
      if sent then .ok () else .error .unreachable)

/-- A CANCEL or an ACK; `false` where the peer has no such transaction. -/
def forwardInTransaction (text : Text) (peer : SocketAddr) (sent : Bool) (now : Nat) :
    Option Send × Except RelayError Bool :=
  match relayBranch hash text with
  | none => (none, .error .malformed)
  | some branch =>
    match (r.transactions.lookup branch).filter fun e => e.peer == peer && decide (now < e.expires) with
    | none => (none, .ok false)
    | some e =>
      match rewriteRequest text e.target.ip r.localPort branch with
      | .error e => (none, .error e)
      | .ok rewritten =>
        (some ⟨e.target, rewritten⟩, if sent then .ok true else .error .unreachable)

/-- The status, the branch of the top `Via`, and the response without it. -/
def readResponse (text : Text) : Option (UInt16 × Text × Text) := do
  let rest ← text.dropPrefix? "SIP/2.0 "
  let status ← if rest.length < 3 then none else Numeral.parseU16 (rest.take 3)
  let lines := Delimited.split '\r' '\n' text
  let viaIdx ← lines.findIdx? isVia
  let branch ← headerParam (lines.getD viaIdx []) "branch"
  return (status, branch, joinLines (lines.eraseIdx viaIdx))

def ttlOf (status : UInt16) : Nat :=
  if 100 ≤ status ∧ status ≤ 199 then provisionalTtl
  else if 200 ≤ status ∧ status ≤ 299 then successTtl
  else failureTtl

/-- The phone a response goes to and the response for it. -/
def responseForPhone (text : Text) (source : SocketAddr) (now : Nat) :
    Relay × Option (SocketAddr × Text) :=
  match readResponse text with
  | none => (r, none)
  | some (status, branch, rest) =>
    match r.transactions.lookup branch with
    | none => (r, none)
    | some e =>
      if e.expires ≤ now ∨ e.target ≠ source then (r, none)
      else
        ({ r with transactions := r.transactions.modify branch fun e =>
            { e with expires := now + ttlOf status } }, some (e.peer, rest))

/-- The idle tick of the relay's loop. -/
def sweep (now : Nat) : Relay :=
  { r with transactions := r.transactions.retain fun _ e => decide (now < e.expires) }

end Relay

/-! ## Takeover

The relay finds a transaction by its branch alone when an INVITE comes in, and writes the new peer
over the old one. A run is watched by who opened the transaction of each branch. -/

inductive RelayCall where
  | invite (text : Text) (peer : SocketAddr) (route : Option IpAddr) (sent : Bool)
  | inTransaction (text : Text) (peer : SocketAddr) (sent : Bool)
  | response (text : Text) (source : SocketAddr)
  | sweep

structure RelayTurn where
  now : Nat
  call : RelayCall

/-- The peer that a request comes from. -/
def RelayTurn.requester (t : RelayTurn) : Option SocketAddr :=
  match t.call with
  | .invite _ peer _ _ => some peer
  | .inTransaction _ peer _ => some peer
  | _ => none

section Runs

variable (hash : Text → Text → UInt64)

def Relay.step (r : Relay) (t : RelayTurn) : Relay :=
  match t.call with
  | .invite text peer route sent => (r.forwardInvite hash text peer route sent t.now).1
  | .inTransaction .. => r
  | .response text source => (r.responseForPhone text source t.now).1
  | .sweep => r.sweep t.now

/-- The transaction of a branch that has not expired. -/
def Relay.live (r : Relay) (now : Nat) (branch : Text) : Option Entry :=
  (r.transactions.lookup branch).filter fun e => decide (now < e.expires)

/-- The branch and peer of an INVITE that is relayed. -/
def Relay.relays (r : Relay) (t : RelayTurn) : Option (Text × SocketAddr) :=
  match t.call with
  | .invite text peer route _ => ((r.routeInvite hash text route).toOption).map fun p => (p.1, peer)
  | _ => none

/-- A relay with, for each branch, the peer that opened its transaction: whose INVITE was relayed when
there was none on. -/
structure Watched where
  relay : Relay
  opener : Text → Option SocketAddr

def Watched.step (w : Watched) (t : RelayTurn) : Watched where
  relay := w.relay.step hash t
  opener :=
    match w.relay.relays hash t with
    | some (branch, peer) =>
      if (w.relay.live t.now branch).isNone then Function.update w.opener branch (some peer)
      else w.opener
    | none => w.opener

/-- No request takes another peer's transaction, and a response goes to the peer that opened the one
it answers. -/
structure Isolated (w : Watched) (t : RelayTurn) : Prop where
  kept : ∀ branch e peer, w.relay.live t.now branch = some e → t.requester = some peer →
    peer ≠ e.peer → ∃ e', (w.relay.step hash t).transactions.lookup branch = some e' ∧
      e'.peer = e.peer ∧ e'.target = e.target
  handed : ∀ text source peer rest, t.call = .response text source →
    (w.relay.responseForPhone text source t.now).2 = some (peer, rest) →
      ∃ status branch, Relay.readResponse text = some (status, branch, rest) ∧
        w.opener branch = some peer

/-- An INVITE that is relayed does not meet a transaction of another peer that is still on. -/
def Unclaimed (w : Watched) (t : RelayTurn) : Prop :=
  ∀ branch peer e, w.relay.relays hash t = some (branch, peer) →
    w.relay.live t.now branch = some e → e.peer = peer

end Runs

open Relay

variable {hash : Text → Text → UInt64} {w : Watched} {r : Relay} {t : RelayTurn} {branch : Text}
  {peer : SocketAddr}

/-! ### What one call does to a transaction -/

theorem live_eq_some {now : Nat} {e : Entry} :
    r.live now branch = some e ↔ r.transactions.lookup branch = some e ∧ now < e.expires := by
  simp [live, Option.filter_eq_some_iff]

/-- An INVITE that is relayed writes its own transaction. -/
theorem step_of_relays (h : r.relays hash t = some (branch, peer)) :
    t.requester = some peer ∧ ∃ target, r.step hash t = { r with
      transactions := r.transactions.insert branch ⟨peer, target, t.now + provisionalTtl⟩ } := by
  obtain ⟨now, call⟩ := t
  cases call with
  | invite text sender route sent =>
    simp only [relays, step, forwardInvite] at h ⊢
    cases hroute : r.routeInvite hash text route with
    | error e =>
      rw [hroute] at h
      cases h
    | ok p =>
      rw [hroute] at h
      cases h
      exact ⟨rfl, p.2.1, rfl⟩
  | inTransaction | response | sweep => cases h

/-- Any other request leaves everything as it is. -/
theorem step_of_request (hrelays : r.relays hash t = none) (h : t.requester = some peer) :
    r.step hash t = r := by
  obtain ⟨now, call⟩ := t
  cases call with
  | invite text sender route sent =>
    simp only [relays, step, forwardInvite] at hrelays ⊢
    cases hroute : r.routeInvite hash text route with
    | error e => rfl
    | ok p =>
      rw [hroute] at hrelays
      cases hrelays
  | inTransaction text sender sent => rfl
  | response | sweep => cases h

theorem responseForPhone_eq (r : Relay) (text : Text) (source : SocketAddr) (now : Nat) :
    r.responseForPhone text source now = (r, none) ∨
    ∃ status branch rest e, readResponse text = some (status, branch, rest) ∧
      r.transactions.lookup branch = some e ∧
      r.responseForPhone text source now =
        ({ r with transactions := r.transactions.modify branch fun e =>
            { e with expires := now + ttlOf status } }, some (e.peer, rest)) := by
  unfold responseForPhone
  cases hread : readResponse text with
  | none => exact .inl rfl
  | some p =>
    obtain ⟨status, branch, rest⟩ := p
    simp only
    cases hlookup : r.transactions.lookup branch with
    | none => exact .inl rfl
    | some e =>
      simp only
      split
      · exact .inl rfl
      · exact .inr ⟨status, branch, rest, e, rfl, hlookup, rfl⟩

/-- Without an INVITE the peer of a transaction is the one it was. -/
theorem peer_of_step {e' : Entry} (hrelays : r.relays hash t = none)
    (h : (r.step hash t).transactions.lookup branch = some e') :
    ∃ e, r.transactions.lookup branch = some e ∧ e'.peer = e.peer := by
  cases hrequester : t.requester with
  | some peer =>
    rw [step_of_request hrelays hrequester] at h
    exact ⟨e', h, rfl⟩
  | none =>
    obtain ⟨now, call⟩ := t
    cases call with
    | invite | inTransaction => cases hrequester
    | response text source =>
      simp only [step] at h
      rcases responseForPhone_eq r text source now with heq | ⟨status, b, rest, e, -, -, heq⟩
      · rw [heq] at h
        exact ⟨e', h, rfl⟩
      simp only [heq, AList.lookup_modify] at h
      split at h
      · obtain ⟨e₀, he₀, rfl⟩ := Option.map_eq_some_iff.1 h
        exact ⟨e₀, he₀, rfl⟩
      · exact ⟨e', h, rfl⟩
    | sweep =>
      simp only [step, sweep, AList.lookup_retain, Option.filter_eq_some_iff] at h
      exact ⟨e', h.1, rfl⟩

/-! ### Runs -/

/-- Every transaction is its opener's. -/
def Watched.Owned (w : Watched) : Prop :=
  ∀ branch e, w.relay.transactions.lookup branch = some e → w.opener branch = some e.peer

theorem Watched.Owned.step (h : w.Owned) (hunclaimed : Unclaimed hash w t) :
    (w.step hash t).Owned := by
  intro branch e' he'
  simp only [Watched.step] at he' ⊢
  cases hrelays : w.relay.relays hash t with
  | none =>
    obtain ⟨e, he, hpeer⟩ := peer_of_step hrelays he'
    rw [hpeer]
    exact h branch e he
  | some p =>
    obtain ⟨b, peer⟩ := p
    obtain ⟨-, target, hstep⟩ := step_of_relays hrelays
    rw [hstep] at he'
    simp only
    by_cases hb : branch = b
    · subst hb
      rw [AList.lookup_insert] at he'
      cases he'
      cases hlive : w.relay.live t.now branch with
      | none => simp
      | some e =>
        -- The transaction is on, so it is the sender's own.
        simp only [Option.isNone_some, Bool.false_eq_true, if_false]
        rw [h branch e (live_eq_some.1 hlive).1, hunclaimed branch peer e hrelays hlive]
    · rw [AList.lookup_insert_ne hb] at he'
      have hold := h branch e' he'
      split
      · rw [Function.update_of_ne hb]
        exact hold
      · exact hold

theorem isolated_iff_unclaimed (h : w.Owned) : Isolated hash w t ↔ Unclaimed hash w t := by
  constructor
  · intro hisolated branch peer e hrelays hlive
    obtain ⟨hrequester, target, hstep⟩ := step_of_relays hrelays
    by_contra hne
    obtain ⟨e', he', hpeer, -⟩ := hisolated.kept branch e peer hlive hrequester fun heq =>
      hne heq.symm
    rw [hstep, AList.lookup_insert] at he'
    cases he'
    exact hne hpeer.symm
  · intro hunclaimed
    refine ⟨fun branch e peer hlive hrequester hne => ?_, fun text source peer rest hcall hgiven => ?_⟩
    · cases hrelays : w.relay.relays hash t with
      | none =>
        rw [step_of_request hrelays hrequester]
        exact ⟨e, (live_eq_some.1 hlive).1, rfl, rfl⟩
      | some p =>
        obtain ⟨b, sender⟩ := p
        obtain ⟨hsender, target, hstep⟩ := step_of_relays hrelays
        rw [hrequester] at hsender
        cases hsender
        have hb : branch ≠ b := by
          rintro rfl
          exact hne (hunclaimed branch peer e hrelays hlive).symm
        rw [hstep, AList.lookup_insert_ne hb]
        exact ⟨e, (live_eq_some.1 hlive).1, rfl, rfl⟩
    · rcases responseForPhone_eq w.relay text source t.now with heq |
        ⟨status, branch, rest', e, hread, hlookup, heq⟩
      · rw [heq] at hgiven
        cases hgiven
      · rw [heq] at hgiven
        cases hgiven
        exact ⟨status, branch, hread, h branch e hlookup⟩

def Watched.start (accountPort localPort : UInt16) (fixedIp : Option IpAddr) : Watched where
  relay := ⟨accountPort, localPort, fixedIp, ∅⟩
  opener _ := none

/-- A run of the relay keeps every phone's call from the others exactly if no INVITE is relayed under
the branch of another peer's transaction that is still on. -/
theorem isolated_run_iff (hash : Text → Text → UInt64) (accountPort localPort : UInt16)
    (fixedIp : Option IpAddr) (turns : List RelayTurn) :
    Trace.Each (Watched.step hash) (Isolated hash) (.start accountPort localPort fixedIp) turns ↔
      Trace.Each (Watched.step hash) (Unclaimed hash) (.start accountPort localPort fixedIp) turns := by
  apply Trace.each_iff_each (I := Watched.Owned)
  · exact fun w t h hunclaimed => h.step hunclaimed
  · exact fun w t h => isolated_iff_unclaimed h
  · exact nofun

/-- An INVITE with the branch and `Call-ID` of a call that is on. -/
def sampleInvite : Text :=
  ("INVITE sip:1@b SIP/2.0\r\nVia: SIP/2.0/UDP h;branch=z9hG4bKa\r\nCall-ID: c\r\n" ++
    "Max-Forwards: 70\r\n\r\n").toList

/-- A second phone that copies the first one's identifiers takes over its call. -/
theorem copied_identifiers_take_over :
    ¬ Trace.Each (Watched.step fun _ _ => 0) (Isolated fun _ _ => 0)
      (.start 5070 6000 (some (.v4 10 0 0 1)))
      [⟨0, .invite sampleInvite ⟨.v4 10 0 0 2, 5060⟩ none true⟩,
        ⟨1, .invite sampleInvite ⟨.v4 10 0 0 3, 5060⟩ none true⟩] := by
  rintro ⟨-, hsecond, -⟩
  obtain ⟨e, he, hpeer, -⟩ := hsecond.kept _ _ ⟨.v4 10 0 0 3, 5060⟩
    (live_eq_some.2 ⟨AList.lookup_insert _, by decide⟩) rfl (by decide)
  have hlookup := he.symm.trans (AList.lookup_insert _)
  cases hlookup
  revert hpeer
  decide

end Sip.Server
