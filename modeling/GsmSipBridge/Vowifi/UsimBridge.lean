-- SUMMARY: The virtual card over the modem's SIM (`vowifi/usim_bridge.rs`).
import GsmSipBridge.Lib.Bytes
import GsmSipBridge.Lib.Trace

/-!
# The virtual card

A session answers the APDUs of a PC/SC client from the SIM behind `AT+CSIM`. How the serial
line behaves comes with the turn: whether the port opens, what the search for the AID finds,
and how each exchange with the card ends. Of an error only its kind is kept.
-/

namespace Vowifi.UsimBridge

/-! ## Commands and responses -/

/-- The two bytes of the status word. -/
def trailingSw (resp : Bytes) : Option (UInt8 × UInt8) :=
  match resp.reverse with
  | sw2 :: sw1 :: _ => some (sw1, sw2)
  | _ => none

def isSelectWithP2 (apdu : Bytes) (p2 : UInt8) : Bool :=
  apdu[1]? == some 0xa4 && apdu[3]? == some p2

def rewriteSelectP2 (apdu : Bytes) (newP2 : UInt8) : Bytes := apdu.set 3 newP2

def isGetResponse (apdu : Bytes) : Bool := apdu[0]? == some 0x00 && apdu[1]? == some 0xc0

def usimRid : Bytes := [0xa0, 0x00, 0x00, 0x00, 0x87, 0x10, 0x02]

def isSelectByAid (apdu : Bytes) : Bool :=
  decide (5 ≤ apdu.length) && apdu[1]? == some 0xa4 && apdu[2]? == some 0x04

/-- A USIM application other than the card's own is replaced by it. -/
def redirectSelectAid (apdu discoveredAid : Bytes) : Bytes :=
  if !isSelectByAid apdu then apdu
  else
    let lc := (apdu.byteAt 4).toNat
    let candidate := apdu.slice 5 (5 + lc)
    if apdu.length < 5 + lc || !usimRid.isPrefixOf candidate || candidate == discoveredAid then apdu
    else
      apdu.take 4 ++ UInt8.ofNat discoveredAid.length :: (discoveredAid ++ apdu.drop (5 + lc))

inductive Failure where
  | csimFailed
  | other
  deriving DecidableEq

/-- One turn of the modem; `card` says how the exchanges of the turn end, by their number. -/
structure Modem where
  opens : Bool
  discoverUsimAid : Except Failure Bytes
  card : Nat → Bytes → Except Failure Bytes

/-- A `SELECT` that is refused for its `P2` is sent once more, and further data are fetched. -/
def forwardApdu (modem : Modem) (apdu : Bytes) : Except Failure Bytes := do
  let resp ← modem.card 0 apdu
  let resp ←
    if isSelectWithP2 apdu 0x00 && trailingSw resp == some (0x6b, 0x00) then
      modem.card 1 (rewriteSelectP2 apdu 0x0c)
    else pure resp
  match trailingSw resp with
  | some (0x61, le) => modem.card 2 [0x00, 0xc0, 0x00, 0x00, le]
  | _ => pure resp

/-- `SELECT` and `AUTHENTICATE`. -/
def expectsClassicChaining (apdu : Bytes) : Bool :=
  apdu[1]? == some 0xa4 || apdu[1]? == some 0x88

def synthesize61xxIfNeeded (apdu resp : Bytes) : Bytes :=
  if !expectsClassicChaining apdu || resp.length ≤ 2 || resp.byteAt (resp.length - 2) != 0x90 then
    resp
  else [0x61, UInt8.ofNat (min (resp.length - 2) 0xff)]

/-! ## Incidents (`supervise/sim_recovery.rs`) -/

def csimFailThreshold : Nat := 3
def maxSimResets : Nat := 5

structure IncidentCounters where
  csimFails : Nat := 0
  simResets : Nat := 0

inductive Action where
  | none
  | resetSim
  | giveUpForThisIncident
  deriving DecidableEq

def IncidentCounters.observe (c : IncidentCounters) (csimFailure : Bool) :
    IncidentCounters × Action :=
  if csimFailure then
    if c.csimFails + 1 ≥ csimFailThreshold then
      if c.simResets ≥ maxSimResets then ({ c with csimFails := 0 }, .giveUpForThisIncident)
      else (⟨0, c.simResets + 1⟩, .resetSim)
    else ({ c with csimFails := c.csimFails + 1 }, .none)
  else ({}, .none)

/-! ## The session -/

structure Powered where
  aid : Option Bytes := none
  lastResponse : Option Bytes := none

/-- Without a state the session is unpowered. -/
structure Session where
  state : Option Powered := none
  csimFails : IncidentCounters := {}

/-- The AID is looked for when a `SELECT` first needs it. -/
def Powered.discover (p : Powered) (modem : Modem) (apdu : Bytes) : Powered :=
  if p.aid.isNone && isSelectByAid apdu then { p with aid := modem.discoverUsimAid.toOption } else p

/-- The command as it goes to the card. -/
def Powered.redirected (p : Powered) (modem : Modem) (apdu : Bytes) : Bytes :=
  match (p.discover modem apdu).aid with
  | some knownAid => redirectSelectAid apdu knownAid
  | none => apdu

/-- The response from the cache, if the command is one that is answered so. -/
def Powered.served (p : Powered) (apdu : Bytes) : Option Bytes :=
  if isGetResponse apdu then p.lastResponse else none

namespace Session

def cache (s : Session) : Option Bytes := s.state.bind Powered.lastResponse

def powerOn (s : Session) (modem : Modem) : Session :=
  match s.state with
  | some _ => s
  | none => { s with state := if modem.opens then some {} else none }

def powerOff (s : Session) : Session := { s with state := none }

def reset (s : Session) (modem : Modem) : Session :=
  match s.state with
  | some p => { s with state := some { p with lastResponse := none } }
  | none => s.powerOn modem

def handleApdu (s : Session) (modem : Modem) (apdu : Bytes) : Session × Bytes :=
  match s.state with
  | none => (s, [0x6f, 0x00])
  | some p =>
    match p.served apdu with
    | some cached => (s, cached)
    | none =>
      let redirected := p.redirected modem apdu
      let p := p.discover modem apdu
      match forwardApdu modem redirected with
      | .ok resp =>
        ({ state := some { p with lastResponse := some resp }
           csimFails := (s.csimFails.observe false).1 }, synthesize61xxIfNeeded redirected resp)
      | .error e =>
        let observed := s.csimFails.observe (e == .csimFailed)
        let p := match observed.2 with
          | .resetSim => { p with aid := none, lastResponse := none }
          | .giveUpForThisIncident | .none => p
        ({ state := some p, csimFails := observed.1 }, [0x6f, 0x00])

end Session

/-! ## Runs -/

inductive VpcdMessage where
  | powerOff
  | powerOn
  | reset
  | apdu (apdu : Bytes)

/-- The session, with what the card answered to the last command that was no `GET RESPONSE`. -/
structure Watched where
  session : Session := {}
  preceding : Option Bytes := none
  /-- The last exchange with the card has failed, or was a `GET RESPONSE`. -/
  stale : Bool := false

def Watched.cardResponse (w : Watched) (modem : Modem) (apdu : Bytes) : Option Bytes :=
  w.session.state.bind fun p => (forwardApdu modem (p.redirected modem apdu)).toOption

def Watched.stales (w : Watched) (modem : Modem) (apdu : Bytes) : Bool :=
  match w.session.state with
  | none => w.stale
  | some p =>
    match p.served apdu, forwardApdu modem (p.redirected modem apdu) with
    | some _, _ => w.stale
    | none, .ok _ => isGetResponse apdu
    | none, .error _ => true

def step (w : Watched) : Modem × VpcdMessage → Watched
  | (_, .powerOff) => { w with session := w.session.powerOff }
  | (modem, .powerOn) => { w with session := w.session.powerOn modem }
  | (modem, .reset) => { w with session := w.session.reset modem }
  | (modem, .apdu apdu) =>
    { session := (w.session.handleApdu modem apdu).1
      preceding := if isGetResponse apdu then w.preceding else w.cardResponse modem apdu
      stale := w.stales modem apdu }

/-- A response from the cache is that of the preceding command, and a response of which only the
length is announced is returned, in that length, to a `GET RESPONSE` that follows. -/
structure Faithful (w : Watched) (turn : Modem × VpcdMessage) : Prop where
  cached : ∀ apdu resp, turn.2 = .apdu apdu → isGetResponse apdu = true →
    w.session.cache = some resp → w.preceding = some resp
  announced : ∀ apdu resp, turn.2 = .apdu apdu → isGetResponse apdu = false →
    w.cardResponse turn.1 apdu = some resp → (w.session.handleApdu turn.1 apdu).2 = resp ∨
      ∃ n : UInt8, (w.session.handleApdu turn.1 apdu).2 = [0x61, n] ∧
        ∀ modem get, isGetResponse get = true →
          ((step w turn).session.handleApdu modem get).2.length = n.toNat + 2

/-- What keeps a session faithful: a `GET RESPONSE` is answered from the cache only when the last
exchange was a command that did not fail, and a length that is announced fits one byte. -/
def Clean (w : Watched) (turn : Modem × VpcdMessage) : Bool :=
  match turn.2, w.session.state with
  | .apdu apdu, some p =>
    match p.served apdu, forwardApdu turn.1 (p.redirected turn.1 apdu) with
    | some _, _ => !w.stale
    | none, .ok resp =>
      isGetResponse apdu || synthesize61xxIfNeeded (p.redirected turn.1 apdu) resp == resp ||
        decide (resp.length ≤ 257)
    | none, .error _ => true
  | _, _ => true

/-- The cache holds nothing but the response to the preceding command, unless it is stale. -/
def Fresh (w : Watched) : Prop :=
  w.stale = false → ∀ resp, w.session.cache = some resp → w.preceding = some resp

variable {w : Watched} {turn : Modem × VpcdMessage} {s : Session} {p : Powered} {m : Modem}
  {apdu resp : Bytes}

open Session

namespace Sample

/-- A modem whose card answers every exchange of the turn in the same way. -/
def answers (reply : Except Failure Bytes) : Modem where
  opens := true
  discoverUsimAid := .error .other
  card _ _ := reply

/-- The card is powered on and answers a `SELECT` with one byte of data. -/
def selected : List (Modem × VpcdMessage) :=
  [(answers (.ok []), .powerOn),
    (answers (.ok [0x62, 0x90, 0x00]), .apdu [0x00, 0xa4, 0x00, 0x04])]

end Sample

/-- How many outcomes in a row failed, up to the latest. -/
def failures (past : List Bool) : Nat := (past.takeWhile id).length

theorem failures_true (past : List Bool) : failures (true :: past) = failures past + 1 := rfl

def counters (past : List Bool) : IncidentCounters :=
  History.after (fun c failed => (c.observe failed).1) {} past

theorem counters_eq (past : List Bool) : counters past =
    ⟨failures past % csimFailThreshold, min (failures past / csimFailThreshold) maxSimResets⟩ := by
  induction past with
  | nil => rfl
  | cons failed past ih =>
    rw [counters, History.after, ← counters, ih]
    cases failed with
    | false => simp [IncidentCounters.observe, failures]
    | true =>
      simp only [IncidentCounters.observe, failures_true, csimFailThreshold, maxSimResets]
      grind

/-- Every third failure in a row is answered, the first five times by a reset of the SIM. -/
theorem resets_rationed (past : List Bool) (failed : Bool) :
    ((counters past).observe failed).2 =
      if failed = false ∨ failures (failed :: past) % csimFailThreshold ≠ 0 then .none
      else if failures (failed :: past) / csimFailThreshold ≤ maxSimResets then .resetSim
      else .giveUpForThisIncident := by
  rw [counters_eq]
  cases failed with
  | false => rfl
  | true =>
    simp only [IncidentCounters.observe, failures_true, csimFailThreshold, maxSimResets]
    grind

end Vowifi.UsimBridge
