import Pinout.Errors
import Pinout.Foundation.InsertionMap
import Pinout.Foundation.Utf8

/-! # The awareness registry

Every device ever seen, with its presence (`packages/awareness/src/types.ts`, `stateMachine.ts`, `store.ts`). A
candidate of a scan is observed: the state it should have is told from the candidate alone, and reached through
allowed transitions. -/

namespace Pinout.Awareness

open Foundation

/-! ## The state machine -/

inductive AwarenessState
  | seen | identified | pendingEnroll | online | stale | offline
  deriving DecidableEq, Repr

namespace AwarenessState

def text : AwarenessState → JsString
  | seen => js "SEEN"
  | identified => js "IDENTIFIED"
  | pendingEnroll => js "PENDING_ENROLL"
  | online => js "ONLINE"
  | stale => js "STALE"
  | offline => js "OFFLINE"

end AwarenessState

def awarenessTransitions : AwarenessState → List AwarenessState
  | .seen => [.identified, .pendingEnroll, .stale, .offline]
  | .identified => [.pendingEnroll, .online, .stale, .offline, .seen]
  | .pendingEnroll => [.online, .identified, .stale, .offline]
  | .online => [.stale, .offline, .pendingEnroll]
  | .stale => [.online, .pendingEnroll, .identified, .seen, .offline]
  | .offline => [.seen, .identified, .pendingEnroll, .online, .stale]

def canTransition (source target : AwarenessState) : Bool :=
  source = target || (awarenessTransitions source).contains target

def transitionPath (source target : AwarenessState) : Except Thrown (List AwarenessState) :=
  if source = target then .ok []
  else if canTransition source target then .ok [target]
  else match source, target with
    | .seen, .pendingEnroll => .ok [.identified, .pendingEnroll]
    | .seen, .online => .ok [.identified, .pendingEnroll, .online]
    | .identified, .online => .ok [.pendingEnroll, .online]
    | .stale, .pendingEnroll | .offline, .pendingEnroll => .ok [.identified, .pendingEnroll]
    | .stale, .online | .offline, .online => .ok [.online]
    | .stale, .identified | .offline, .identified => .ok [.identified]
    | .stale, .seen | .offline, .seen => .ok [.seen]
    | .pendingEnroll, .seen => .ok [.identified, .seen]
    | source, target => .error (.error (js "Error") none
        (js "No transition path from " ++ source.text ++ js " to " ++ target.text))

/-- **A path makes allowed transitions**, and ends where it should. -/
theorem isChain_of_transitionPath {source target : AwarenessState} {path : List AwarenessState}
    (h : transitionPath source target = .ok path) :
    List.IsChain (fun a b => canTransition a b = true) (source :: path) ∧
      (source :: path).getLast (List.cons_ne_nil _ _) = target := by
  cases source <;> cases target <;>
    first
    | (obtain rfl := Except.ok.inj h; decide)
    | exact absurd h nofun

def isKnownModule : Option JsString → Bool
  | none => false
  | some moduleId =>
    moduleId ≠ [] && !(js "unknown/").isPrefixOf moduleId && moduleId ≠ js "unknown"

def presenceStateForObservation (enrolled : Bool) (guessedModuleId : Option JsString) (hasIdentitySignal : Bool) :
    AwarenessState :=
  if enrolled then .online
  else if isKnownModule guessedModuleId then .pendingEnroll
  else if hasIdentitySignal then .identified
  else .seen

theorem presenceStateForObservation_eq_online {enrolled : Bool} {guessedModuleId : Option JsString}
    {hasIdentitySignal : Bool} :
    presenceStateForObservation enrolled guessedModuleId hasIdentitySignal = .online ↔ enrolled = true := by
  unfold presenceStateForObservation
  split
  · next h => simp [h]
  · next h => split <;> (try split) <;> simp [h]

/-- **There is a path to a presence**, unless what is online is neither enrolled nor of a known module. -/
theorem transitionPath_presence (source : AwarenessState) (enrolled : Bool) (guessedModuleId : Option JsString)
    (hasIdentitySignal : Bool) :
    (∃ path, transitionPath source (presenceStateForObservation enrolled guessedModuleId hasIdentitySignal) =
      .ok path) ↔ (source = .online → enrolled = true ∨ isKnownModule guessedModuleId = true) := by
  unfold presenceStateForObservation
  cases enrolled <;> cases isKnownModule guessedModuleId <;> cases hasIdentitySignal <;> cases source <;>
    simp [transitionPath, canTransition, awarenessTransitions]

/-! ## Records -/

inductive AwarenessTransport
  | serial | usb | ble | mdns | mqtt
  deriving DecidableEq, Repr

inductive SupportLevel
  | unknown | simulated | compileTested | hardwareVerified
  deriving DecidableEq, Repr

structure AwarenessIdentity where
  vid : Option JsString := none
  pid : Option JsString := none
  firmware : Option JsString := none
  version : Option JsString := none
  advertisedName : Option JsString := none
  uuids : Option (List JsString) := none
  macHash : Option JsString := none
  vendor : Option JsString := none
  model : Option JsString := none
  endpoint : Option JsString := none
  guessedModuleId : Option JsString := none
  deviceClass : Option JsString := none
  deriving DecidableEq

def AwarenessIdentity.merge (a b : AwarenessIdentity) : AwarenessIdentity where
  vid := b.vid <|> a.vid
  pid := b.pid <|> a.pid
  firmware := b.firmware <|> a.firmware
  version := b.version <|> a.version
  advertisedName := b.advertisedName <|> a.advertisedName
  uuids := b.uuids <|> a.uuids
  macHash := b.macHash <|> a.macHash
  vendor := b.vendor <|> a.vendor
  model := b.model <|> a.model
  endpoint := b.endpoint <|> a.endpoint
  guessedModuleId := b.guessedModuleId <|> a.guessedModuleId
  deviceClass := b.deviceClass <|> a.deviceClass

inductive ConnectorStatus
  | none | available | pending | installed | failed
  deriving DecidableEq, Repr

structure AwarenessConnector where
  status : ConnectorStatus
  moduleId : Option JsString := none
  note : Option JsString := none
  deriving DecidableEq

structure AwarenessHealth where
  status : JsString
  lifecycle : JsString
  message : Option JsString := none
  lastUpdated : Int
  deriving DecidableEq

def defaultHealth (time : Int) (connected : Bool) : AwarenessHealth where
  status := if connected then js "CONNECTED" else js "DISCONNECTED"
  lifecycle := if connected then js "ready" else js "disconnected"
  lastUpdated := time

structure AwarenessRecord where
  id : JsString
  transport : AwarenessTransport
  identity : AwarenessIdentity
  state : AwarenessState
  firstSeen : Int
  lastSeen : Int
  health : AwarenessHealth
  capabilities : Option (List JsString) := none
  moduleId : Option JsString := none
  evidenceLevel : SupportLevel
  connector : Option AwarenessConnector := none
  confidence : Option ℚ := none
  mock : Bool := false
  deriving DecidableEq

/-- What a transition changes besides the state (`Partial<AwarenessRecord>`). -/
structure RecordPatch where
  lastSeen : Option Int := none
  identity : Option AwarenessIdentity := none
  health : Option AwarenessHealth := none
  confidence : Option ℚ := none
  moduleId : Option JsString := none
  connector : Option AwarenessConnector := none

def invalidAwarenessTransitionError (source target : AwarenessState) (id : JsString) : Thrown :=
  .error (js "InvalidAwarenessTransitionError") none (js "Invalid awareness transition for '" ++ id ++ js "': " ++
    source.text ++ js " → " ++ target.text)

def transition (record : AwarenessRecord) (target : AwarenessState) (patch : RecordPatch) :
    Except Thrown AwarenessRecord :=
  if canTransition record.state target then .ok
    { record with
      state := target
      lastSeen := patch.lastSeen.getD record.lastSeen
      identity := patch.identity.elim record.identity record.identity.merge
      health := patch.health.getD record.health
      confidence := patch.confidence <|> record.confidence
      moduleId := patch.moduleId <|> record.moduleId
      connector := patch.connector <|> record.connector }
  else .error (invalidAwarenessTransitionError record.state target record.id)

theorem exists_transition {record : AwarenessRecord} {target : AwarenessState} (patch : RecordPatch)
    (h : canTransition record.state target = true) :
    ∃ next, transition record target patch = .ok next ∧ next.id = record.id ∧ next.state = target := by
  rw [transition, if_pos h]
  exact ⟨_, rfl, rfl, rfl⟩

theorem of_transition {record next : AwarenessRecord} {target : AwarenessState} {patch : RecordPatch}
    (h : transition record target patch = .ok next) :
    canTransition record.state target = true ∧ next.id = record.id ∧ next.state = target := by
  rw [transition] at h
  split at h
  · next hcan =>
    obtain rfl := Except.ok.inj h
    exact ⟨hcan, rfl, rfl⟩
  · cases h

structure AwarenessStalenessConfig where
  staleAfterMs : Int := 30000
  offlineAfterMs : Int := 120000

def evaluateStaleness (record : AwarenessRecord) (now : Int) (config : AwarenessStalenessConfig) :
    Option AwarenessState :=
  if record.state = .offline then none
  else
    let age := now - record.lastSeen
    if age ≥ config.offlineAfterMs ∧ canTransition record.state .offline then some .offline
    else if age ≥ config.staleAfterMs ∧ record.state ≠ .stale ∧ canTransition record.state .stale then some .stale
    else none

theorem canTransition_of_evaluateStaleness {record : AwarenessRecord} {now : Int}
    {config : AwarenessStalenessConfig} {target : AwarenessState}
    (h : evaluateStaleness record now config = some target) : canTransition record.state target = true := by
  rw [evaluateStaleness] at h
  split at h
  · cases h
  · dsimp only at h
    split at h
    · next hoff =>
      obtain rfl := Option.some.inj h
      exact hoff.2
    · split at h
      · next hstale =>
        obtain rfl := Option.some.inj h
        exact hstale.2.2
      · cases h

/-! ## Candidates -/

inductive EndpointKind
  | serial | usb | network | ble | mdns | simulated
  deriving DecidableEq, Repr

structure DiscoveredEndpoint where
  kind : EndpointKind
  address : JsString
  details : JsonObject := []

structure IdentityGuess where
  moduleId : JsString
  vendor : Option JsString := none
  deviceClass : Option JsString := none

structure DiscoveredCandidate where
  id : JsString
  endpoint : DiscoveredEndpoint
  possibleIdentity : List IdentityGuess := []
  confidence : ℚ
  interfaces : List JsString := []

/-- What the registry uses of its platform and of its options. -/
structure AwarenessHost where
  sha256 : List UInt8 → JsString
  toLowerCase : JsString → JsString
  resolveEvidenceLevel : AwarenessRecord → SupportLevel := fun _ => .simulated
  staleness : AwarenessStalenessConfig := {}

def foldCase (u : UInt16) : UInt16 := if 65 ≤ u ∧ u ≤ 90 then u + 32 else u

/-- `/mqtt/i.test`. -/
def saysMqtt (address : JsString) : Bool :=
  (address.map foldCase).tails.any fun rest => (js "mqtt").isPrefixOf rest

def transportFromCandidate (candidate : DiscoveredCandidate) : AwarenessTransport :=
  match candidate.endpoint.kind with
  | .serial => .serial
  | .usb => .usb
  | .ble => .ble
  | .mdns => .mdns
  | .network =>
    if saysMqtt candidate.endpoint.address || candidate.interfaces.contains (js "mqtt") then .mqtt else .mdns
  | .simulated => .serial

def stringsOf (items : List Json) : List JsString := items.filterMap fun item => Json.string? (some item)

def items? : Option Json → Option (List Json)
  | some (.arr items) => some items
  | _ => none

namespace AwarenessHost

variable (host : AwarenessHost)

def hashMac (address : JsString) : JsString := (host.sha256 (encodeUtf8 (host.toLowerCase address))).take 16

def identityFromCandidate (candidate : DiscoveredCandidate) : AwarenessIdentity :=
  let details := candidate.endpoint.details
  let text (name : JsString) : Option JsString := Json.string? (details.get? name)
  let guess := candidate.possibleIdentity.head?
  let vendor := guess.bind (·.vendor)
  { endpoint := some candidate.endpoint.address
    guessedModuleId := guess.map (·.moduleId)
    deviceClass := guess.bind (·.deviceClass)
    vid := text (js "vid") <|> text (js "vendorId")
    pid := text (js "pid") <|> text (js "productId")
    -- a vendor that is empty gives way to the manufacturer
    vendor := if vendor.getD [] = [] then text (js "manufacturer") <|> vendor else vendor
    advertisedName := text (js "advertisedName") <|> text (js "localName")
    uuids := (items? (details.get? (js "serviceUuids"))).map stringsOf
    macHash := if candidate.endpoint.kind = .ble then some (host.hashMac candidate.endpoint.address) else none
    firmware := text (js "firmware")
    version := text (js "version") }

end AwarenessHost

def hasIdentitySignal (identity : AwarenessIdentity) : Bool :=
  [identity.vid, identity.pid, identity.firmware, identity.advertisedName, identity.guessedModuleId].any
    (fun text => text.getD [] ≠ []) || identity.uuids.getD [] ≠ []

/-! ## The store -/

inductive AwarenessEventType
  | seen | identified | stateChanged | online | offline
  deriving DecidableEq, Repr

structure AwarenessEvent where
  type : AwarenessEventType
  record : AwarenessRecord
  time : Int
  previousState : Option AwarenessState := none
  deriving DecidableEq

structure AwarenessRegistry where
  records : InsertionMap JsString AwarenessRecord := .empty
  stored : List AwarenessRecord := []
  events : List AwarenessEvent := []
  changes : List (AwarenessState × AwarenessState) := []

namespace AwarenessRegistry

variable (host : AwarenessHost) (r : AwarenessRegistry)

/-- `records.set`. -/
def setRecord (record : AwarenessRecord) : AwarenessRegistry :=
  { r with
    records := r.records.insert record.id record
    changes := r.changes ++ ((r.records.get? record.id).map fun old => (old.state, record.state)).toList }

def emit (type : AwarenessEventType) (record : AwarenessRecord) (now : Int)
    (previousState : Option AwarenessState := none) : AwarenessRegistry :=
  { r with events := r.events ++ [{ type, record, time := now, previousState }] }

/-- `load`, of the devices of the file. -/
def load (devices : List AwarenessRecord) : InsertionMap JsString AwarenessRecord :=
  devices.foldl (fun records device => records.insert device.id device) .empty

/-- `persist`; writing may fail. -/
def persist (failure : Option Thrown) : AwarenessRegistry × Except Thrown Unit :=
  match failure with
  | none => ({ r with stored := r.records.entries.map (·.2) }, .ok ())
  | some e => (r, .error e)

def persisting (failure : Option Thrown) (record : AwarenessRecord) : AwarenessRegistry × Except Thrown AwarenessRecord :=
  ((r.persist failure).1, (r.persist failure).2.map fun _ => record)

def followPath (patch : RecordPatch) (now : Int) : AwarenessRegistry → AwarenessRecord → List AwarenessState →
    AwarenessRegistry × Except Thrown AwarenessRecord
  | r, current, [] => (r, .ok current)
  | r, current, step :: path => match transition current step patch with
    | .error e => (r, .error e)
    | .ok next =>
      let r := r.setRecord next
      let arriving := (step = .identified ∨ step = .pendingEnroll) ∧
        (current.state = .seen ∨ current.state = .offline ∨ current.state = .stale)
      let r := if arriving then r.emit .identified next now (some current.state) else r
      let r := r.emit .stateChanged next now (some current.state)
      let r := if step = .online then r.emit .online next now (some current.state) else r
      followPath patch now r next path

def applyObservationState (record : AwarenessRecord) (nextState : AwarenessState) (now : Int)
    (identity : AwarenessIdentity) (confidence : ℚ) : AwarenessRegistry × Except Thrown AwarenessRecord :=
  let current := { record with lastSeen := now, identity }
  if current.state = nextState then (r.setRecord current, .ok current)
  else match transitionPath current.state nextState with
    | .error e => (r, .error e)
    | .ok path =>
      followPath
        { lastSeen := some now
          identity := some identity
          health := some (defaultHealth now true)
          confidence := some confidence
          moduleId := if isKnownModule identity.guessedModuleId then identity.guessedModuleId else none } now r current path

/-- How `observeCandidate` ends, once the state is applied. -/
def concludeObservation (applied : AwarenessRegistry × Except Thrown AwarenessRecord) (failure : Option Thrown) :
    AwarenessRegistry × Except Thrown AwarenessRecord :=
  match applied.2 with
  | .error e => (applied.1, .error e)
  | .ok after => applied.1.persisting failure after

/-- `ObservationExtras`. -/
structure Extras where
  mock : Bool := false
  capabilities : Option (List JsString) := none

def presenceOf (enrolledIds : List JsString) (candidate : DiscoveredCandidate) : AwarenessState :=
  let identity := host.identityFromCandidate candidate
  presenceStateForObservation (enrolledIds.contains candidate.id) identity.guessedModuleId (hasIdentitySignal identity)

/-- The record of a device that is seen for the first time. -/
def freshRecord (candidate : DiscoveredCandidate) (extras : Extras) (now : Int) : AwarenessRecord :=
  let identity := host.identityFromCandidate candidate
  { id := candidate.id
    transport := transportFromCandidate candidate
    identity
    state := .seen
    firstSeen := now
    lastSeen := now
    health := defaultHealth now true
    evidenceLevel := .simulated
    confidence := some candidate.confidence
    connector := some { status := .none }
    mock := extras.mock
    capabilities := extras.capabilities
    moduleId := if isKnownModule identity.guessedModuleId then identity.guessedModuleId else none }

def patchedRecord (existing : AwarenessRecord) (candidate : DiscoveredCandidate) (extras : Extras) (now : Int) :
    AwarenessRecord :=
  let identity := existing.identity.merge (host.identityFromCandidate candidate)
  { existing with
    transport := transportFromCandidate candidate
    identity
    lastSeen := now
    health := defaultHealth now true
    confidence := some candidate.confidence
    evidenceLevel := host.resolveEvidenceLevel { existing with mock := extras.mock || existing.mock }
    mock := extras.mock || existing.mock
    capabilities := extras.capabilities <|> existing.capabilities
    moduleId := if isKnownModule identity.guessedModuleId then identity.guessedModuleId else existing.moduleId }

/-- `observeCandidate`, with the ids that are enrolled, and what writing the store throws. -/
def observeCandidate (enrolledIds : List JsString) (candidate : DiscoveredCandidate) (extras : Extras) (now : Int)
    (failure : Option Thrown) : AwarenessRegistry × Except Thrown AwarenessRecord :=
  let identity := host.identityFromCandidate candidate
  let nextState := presenceOf host enrolledIds candidate
  match r.records.get? candidate.id with
  | none =>
    let record := freshRecord host candidate extras now
    concludeObservation (((r.setRecord record).emit .seen record now).applyObservationState record nextState now
      identity candidate.confidence) failure
  | some existing =>
    let patched := patchedRecord host existing candidate extras now
    concludeObservation ((r.setRecord patched).applyObservationState patched nextState now patched.identity
      candidate.confidence) failure

/-- How a record that waits to be enrolled becomes online. -/
def goOnline (current : AwarenessRecord) (moduleId : Option JsString) (now : Int) (failure : Option Thrown) :
    AwarenessRegistry × Except Thrown AwarenessRecord :=
  let named := moduleId.filter (· ≠ [])
  match transition current .online
      { lastSeen := some now
        health := some (defaultHealth now true)
        moduleId := named
        identity := named.map fun id => { current.identity with guessedModuleId := some id }
        connector := some (current.connector.getD { status := .none }) } with
  | .error e => (r, .error e)
  | .ok enrolled =>
    let r := r.setRecord enrolled
    let r := r.emit .stateChanged enrolled now (some current.state)
    let r := r.emit .online enrolled now (some current.state)
    r.persisting failure enrolled

def markEnrolled (id : JsString) (moduleId : Option JsString) (now : Int) (failure : Option Thrown) :
    AwarenessRegistry × Except Thrown AwarenessRecord :=
  match r.records.get? id with
  | none => (r, .error (.error (js "Error") none (js "Awareness device '" ++ id ++ js "' not found.")))
  | some existing =>
    if existing.state ≠ .pendingEnroll ∧ existing.state ≠ .identified then
      (r, .error (.error (js "Error") none (js "Cannot enroll '" ++ id ++ js "' from state " ++
        existing.state.text ++ js "; expected PENDING_ENROLL.")))
    else if existing.state = .identified then
      match transition existing .pendingEnroll
          { lastSeen := some now, health := some (defaultHealth now true) } with
      | .error e => (r, .error e)
      | .ok current =>
        ((r.setRecord current).emit .stateChanged current now (some existing.state)).goOnline current moduleId now
          failure
    else r.goOnline existing moduleId now failure

/-- What `tick` does with a record: `none` if it does not age, or else the registry and the updated record. -/
def age (record : AwarenessRecord) (now : Int) : AwarenessRegistry × Except Thrown (Option AwarenessRecord) :=
  match evaluateStaleness record now host.staleness with
  | none => (r, .ok none)
  | some next =>
    if next = record.state then (r, .ok none)
    else match transition record next { health := some (defaultHealth now false) } with
      | .error e => (r, .error e)
      | .ok updated =>
        let r := r.setRecord updated
        let r := r.emit .stateChanged updated now (some record.state)
        let r := if next = .offline then r.emit .offline updated now (some record.state) else r
        (r, .ok (some updated))

/-- The loop of `tick`. -/
def ageAll (now : Int) : AwarenessRegistry → List AwarenessRecord →
    AwarenessRegistry × Except Thrown (List AwarenessRecord)
  | r, [] => (r, .ok [])
  | r, record :: rest => match r.age host record now with
    | (r, .error e) => (r, .error e)
    | (r, .ok changed) =>
      let (r, result) := ageAll now r rest
      (r, result.map (changed.toList ++ ·))

def tick (now : Int) (failure : Option Thrown) : AwarenessRegistry × Except Thrown (List AwarenessRecord) :=
  match ageAll host now r (r.records.entries.map (·.2)) with
  | (r, .error e) => (r, .error e)
  | (r, .ok changed) =>
    if changed = [] then (r, .ok []) else ((r.persist failure).1, (r.persist failure).2.map fun _ => changed)

end AwarenessRegistry

end Pinout.Awareness
