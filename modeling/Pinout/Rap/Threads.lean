import Pinout.Daemon.Gating
import Pinout.Rap.PendingStore

/-! # Threads of the RAP adapter

What the adapter keeps for a thread (`packages/rap/src/pendingStore.ts`), what its calls ask of the daemon
(`packages/rap/src/adapter.ts`), and `closeThread` with `abortThreadSafety` (`packages/rap/src/safety.ts`). A request to
the daemon is sent, handled and answered at three different times, so that calls and closings interleave. -/

namespace Pinout.Rap

open Foundation Leasing Daemon Pinout.Runtime

/-! ## The record of a thread -/

structure ThreadState where
  deviceIds : List JsString := []
  leaseIds : List JsString := []
  closed : Bool := false

/-- The threads of a `PendingStore`. -/
structure ThreadStore where
  threads : InsertionMap JsString ThreadState := .empty

namespace ThreadStore

/-- `getThread`, or the record that `ensureThread` makes. -/
def getThread (s : ThreadStore) (groupId : JsString) : ThreadState := (s.threads.get? groupId).getD {}

def upsertThread (s : ThreadStore) (groupId : JsString) (thread : ThreadState) : ThreadStore :=
  ⟨s.threads.insert groupId thread⟩

def noteDevice (s : ThreadStore) (groupId deviceId : JsString) : ThreadStore :=
  let thread := s.getThread groupId
  if deviceId ∈ thread.deviceIds then s
  else s.upsertThread groupId { thread with deviceIds := thread.deviceIds ++ [deviceId] }

def noteLease (s : ThreadStore) (groupId leaseId : JsString) : ThreadStore :=
  let thread := s.getThread groupId
  if leaseId ∈ thread.leaseIds then s
  else s.upsertThread groupId { thread with leaseIds := thread.leaseIds ++ [leaseId] }

def removeLease (s : ThreadStore) (groupId leaseId : JsString) : ThreadStore :=
  let thread := s.getThread groupId
  s.upsertThread groupId { thread with leaseIds := thread.leaseIds.filter (· ≠ leaseId) }

def markThreadClosed (s : ThreadStore) (groupId : JsString) : ThreadStore :=
  s.upsertThread groupId { s.getThread groupId with closed := true }

end ThreadStore

/-! ## The daemon -/

inductive DaemonRequest
  | acquireLease (deviceId owner : JsString) (mode : Option JsString) (ttlMs : Option ℚ)
  | renewLease (leaseId owner : JsString) (ttlMs : Option ℚ)
  | releaseLease (leaseId owner : JsString)
  | listLeases
  /-- `invokeAccepted`, or an invocation of `disarmOrSafeState`. -/
  | invoke (deviceId capability owner : JsString)
  /-- A request that neither changes leases nor invokes a capability. -/
  | other
  deriving DecidableEq

inductive DaemonAnswer
  | lease (lease : Lease)
  | leases (leases : List Lease)
  /-- With anything else that is not an error. -/
  | done
  | refused
  deriving DecidableEq

/-- What the answer to a request depends on besides the leases. -/
structure Circumstances where
  random : JsString := []
  /-- The daemon holds an operation under the idempotency key of the invocation. -/
  held : Bool := false
  /-- The halt gate, the arguments, a prerequisite or a rule other than a lease rule forbids the invocation. -/
  forbidden : Bool := false

/-- An invocation for which the daemon began an operation. -/
structure AcceptedInvocation where
  groupId : Option JsString
  deviceId : JsString
  capability : JsString
  physicalOutput : Bool
  deriving DecidableEq

/-- The daemon, as far as the adapter's threads go. -/
structure ThreadDaemon where
  leases : LeaseManager
  /-- The leases that were granted to an invocation of a group, with the group. -/
  granted : List (JsString × JsString) := []
  /-- The invocations for which an operation was begun, oldest first. -/
  accepted : List AcceptedInvocation := []

section Daemon

variable (runtime : PinoutRuntime) (config : DaemonConfig)

/-- Whether the safety engine of the daemon has a lease rule; every lease rule applies to every invocation. -/
def leaseGated : Bool :=
  (leaseRules runtime config ++ config.safetyRules).any fun
    | .lease _ => true
    | _ => false

/-- The capability of a device, where it supports it. -/
def descriptor? (deviceId capability : JsString) : Option CapabilityDescriptor :=
  (runtime.deviceMap.get? deviceId).bind (·.resolveCapability capability)

namespace ThreadDaemon

/-- What the lease rules have to say to an invocation. -/
def checkLeases (d : ThreadDaemon) (deviceId capability owner : JsString) : ThreadDaemon × Bool :=
  if leaseGated runtime config ∧ owner ≠ [] then
    let (leases, verdict) := d.leases.permits owner deviceId capability .exclusive
    ({ d with leases }, verdict.permitted)
  else (d, !leaseGated runtime config)

/-- Whether the daemon begins an operation for an invocation. -/
def begins (d : ThreadDaemon) (c : Circumstances) (deviceId capability owner : JsString) : Bool :=
  (descriptor? runtime deviceId capability).isSome && !c.held && !c.forbidden &&
    (d.checkLeases runtime config deviceId capability owner).2

/-- `POST /v1/devices/:id/invoke` with `waitFor` `'accepted'`. -/
def invoke (d : ThreadDaemon) (groupId : Option JsString) (c : Circumstances)
    (deviceId capability owner : JsString) : ThreadDaemon × DaemonAnswer :=
  let checked := (d.checkLeases runtime config deviceId capability owner).1
  if d.begins runtime config c deviceId capability owner then
    ({ checked with
      accepted := checked.accepted ++ [{
        groupId, deviceId, capability
        physicalOutput := (descriptor? runtime deviceId capability).any (·.physicalOutput) }] }, .done)
  else if (descriptor? runtime deviceId capability).isSome && c.held then (d, .done)
  else if (descriptor? runtime deviceId capability).isSome && !c.forbidden then (checked, .refused)
  else (d, .refused)

/-- `POST /v1/leases`. -/
def acquireLease (d : ThreadDaemon) (groupId : Option JsString) (c : Circumstances) (deviceId owner : JsString)
    (mode : Option JsString) (ttlMs : Option ℚ) : ThreadDaemon × DaemonAnswer :=
  if owner = [] then (d, .refused)
  else
    let options : AcquireLeaseOptions :=
      { scope := .device deviceId, owner, ttlMs := ttlMs.map .finite
        mode := some (if mode = some (js "shared-read") then .sharedRead else .exclusive) }
    match d.leases.acquire options c.random with
    | (leases, .ok lease) =>
      ({ d with leases, granted := d.granted ++ (groupId.map fun g => (g, lease.id)).toList }, .lease lease)
    | (leases, .error _) => ({ d with leases }, .refused)

/-- `DELETE /v1/leases/:id`. -/
def releaseLease (d : ThreadDaemon) (leaseId owner : JsString) : ThreadDaemon × DaemonAnswer :=
  match (d.leases.get leaseId).1.release leaseId owner with
  | (leases, .ok ()) => ({ d with leases }, .done)
  | (leases, .error _) => ({ d with leases }, .refused)

/-- The daemon handles a request that is made for an invocation of a group, or for none. -/
def handle (d : ThreadDaemon) (groupId : Option JsString) (c : Circumstances) :
    DaemonRequest → ThreadDaemon × DaemonAnswer
  | .acquireLease deviceId owner mode ttlMs => d.acquireLease groupId c deviceId owner mode ttlMs
  | .renewLease leaseId owner ttlMs =>
    match d.leases.renew leaseId owner (ttlMs.map .finite) with
    | (leases, .ok lease) => ({ d with leases }, .lease lease)
    | (leases, .error _) => ({ d with leases }, .refused)
  | .releaseLease leaseId owner => d.releaseLease leaseId owner
  | .listLeases => ({ d with leases := (d.leases.list [] []).1 }, .leases (d.leases.list [] []).2)
  | .invoke deviceId capability owner => d.invoke runtime config groupId c deviceId capability owner
  | .other => (d, if c.forbidden then .refused else .done)

end ThreadDaemon

end Daemon

/-! ## Calls -/

/-- The other operations of the toolset, with the arguments they require. -/
def plainOperations : List (JsString × List JsString) :=
  [(js "pinout__list_devices", []), (js "pinout__describe_device", [js "deviceId"]),
    (js "pinout__read_state", [js "deviceId"]), (js "pinout__snapshot", []), (js "pinout__safety_status", []),
    (js "pinout__dry_run", [js "deviceId", js "capability"]), (js "pinout__operation_status", [js "operationId"]),
    (js "pinout__cancel_operation", [js "operationId"])]

/-- `executeOperation` up to where it waits for the daemon, or throws. -/
def executeOperation (s : ThreadStore) (owner operation : JsString) (args : JsonObject) :
    ThreadStore × Option DaemonRequest :=
  let required := Platform.filledString args
  let ttlMs := Json.number? (args.get? (js "ttlMs"))
  if operation = js "pinout__acquire_lease" then
    match required (js "deviceId") with
    | some deviceId =>
      (s.noteDevice owner deviceId,
        some (.acquireLease deviceId owner (Json.string? (args.get? (js "mode"))) ttlMs))
    | none => (s, none)
  else if operation = js "pinout__renew_lease" then
    (s, (required (js "leaseId")).map fun leaseId => .renewLease leaseId owner ttlMs)
  else if operation = js "pinout__heartbeat" then
    match required (js "deviceId") with
    | some deviceId => (s.noteDevice owner deviceId, some .other)
    | none => (s, none)
  else if operation = js "pinout__release_lease" then
    (s, (required (js "leaseId")).map fun leaseId => .releaseLease leaseId owner)
  else if operation = js "pinout__invoke" then
    match required (js "deviceId"), required (js "capability") with
    | some deviceId, some capability => (s.noteDevice owner deviceId, some (.invoke deviceId capability owner))
    | _, _ => (s, none)
  else (s, if (plainOperations.lookup operation).any fun names => names.all fun name => (required name).isSome
    then some .other else none)

inductive RapCallPhase
  | requested (request : DaemonRequest)
  | answered (request : DaemonRequest) (answer : DaemonAnswer)
  /-- `executeOperation` has its answer; the operation is watched and the result delivered. -/
  | finishing
  | settled
  deriving DecidableEq

/-- A call that `runCall` runs. -/
structure RapCall where
  callId : CallId
  owner : JsString
  phase : RapCallPhase
  deriving DecidableEq

/-- What a call notes when its request is answered. -/
def noteAnswer (s : ThreadStore) (owner : JsString) : DaemonRequest → DaemonAnswer → ThreadStore
  | .acquireLease _ _ _ _, .lease lease => if lease.id = [] then s else s.noteLease owner lease.id
  | .releaseLease leaseId _, .done => s.removeLease owner leaseId
  | _, _ => s

/-! ## Closings -/

/-- The capabilities of `disarmOrSafeState`, in its order. -/
def safeCapabilities : List JsString :=
  [js "sys.disarm", js "gpio.safeState", js "sys.safeState", js "lamp.disarm"]

/-- Where `abortThreadSafety` is. -/
inductive ClosePhase
  | cancelling
  | releasing (leaseId : JsString) (rest : List JsString) (answer : Option DaemonAnswer)
  | listing (answer : Option DaemonAnswer)
  | releasingListed (lease : Lease) (rest : List Lease) (answer : Option DaemonAnswer)
  | disarming (deviceId : JsString) (rest : List JsString) (capability : JsString) (others : List JsString)
      (answer : Option DaemonAnswer)
  | resolved
  deriving DecidableEq

/-- An `abortThreadSafety`. -/
structure RapClosing where
  groupId : JsString
  /-- It is that of a `closeThread`, and not of a result that cannot be delivered. -/
  closesThread : Bool := true
  phase : ClosePhase := .cancelling
  releasedLeases : List JsString := []
  disarmedDevices : List JsString := []
  deriving DecidableEq

namespace RapClosing

variable (s : ThreadStore)

def request? (c : RapClosing) : Option DaemonRequest :=
  match c.phase with
  | .releasing leaseId _ none => some (.releaseLease leaseId c.groupId)
  | .listing none => some .listLeases
  | .releasingListed lease _ none => some (.releaseLease lease.id c.groupId)
  | .disarming deviceId _ capability _ none => some (.invoke deviceId capability c.groupId)
  | _ => none

def answered (c : RapClosing) (answer : DaemonAnswer) : RapClosing :=
  match c.phase with
  | .releasing leaseId rest _ => { c with phase := .releasing leaseId rest (some answer) }
  | .listing _ => { c with phase := .listing (some answer) }
  | .releasingListed lease rest _ => { c with phase := .releasingListed lease rest (some answer) }
  | .disarming deviceId rest capability others _ =>
    { c with phase := .disarming deviceId rest capability others (some answer) }
  | _ => c

def releaseFrom (c : RapClosing) : List JsString → RapClosing
  | [] => { c with phase := .listing none }
  | leaseId :: rest => { c with phase := .releasing leaseId rest none }

def disarmFrom (c : RapClosing) : List JsString → RapClosing
  | [] => { c with phase := .resolved }
  | deviceId :: rest =>
    { c with phase := .disarming deviceId rest (js "sys.disarm")
              [js "gpio.safeState", js "sys.safeState", js "lamp.disarm"] none }

/-- The loop over the leases of the list, and what follows it. -/
def releaseListedFrom (c : RapClosing) : List Lease → RapClosing
  | [] => c.disarmFrom (s.getThread c.groupId).deviceIds
  | lease :: rest =>
    if lease.owner ≠ c.groupId ∨ lease.id ∈ c.releasedLeases then c.releaseListedFrom rest
    else { c with phase := .releasingListed lease rest none }

def release (c : RapClosing) (leaseId : JsString) : RapClosing :=
  { c with releasedLeases := c.releasedLeases ++ [leaseId] }

/-- `disarmOrSafeState` returned. -/
def disarm (c : RapClosing) (deviceId : JsString) : RapClosing :=
  { c with disarmedDevices := c.disarmedDevices ++ [deviceId] }

def hear (c : RapClosing) : Option (ThreadStore × RapClosing) :=
  match c.phase with
  | .cancelling => some (s, c.releaseFrom (s.getThread c.groupId).leaseIds)
  | .releasing leaseId rest (some .done) =>
    some (s.removeLease c.groupId leaseId, (c.release leaseId).releaseFrom rest)
  | .releasing _ rest (some _) => some (s, c.releaseFrom rest)
  | .listing (some (.leases leases)) => some (s, c.releaseListedFrom s leases)
  | .listing (some _) => some (s, c.releaseListedFrom s [])
  | .releasingListed lease rest (some .done) =>
    let s := s.removeLease c.groupId lease.id
    some (s, (c.release lease.id).releaseListedFrom s rest)
  | .releasingListed _ rest (some _) => some (s, c.releaseListedFrom s rest)
  | .disarming deviceId rest _ _ (some .done) => some (s, (c.disarm deviceId).disarmFrom rest)
  | .disarming deviceId rest _ [] (some _) => some (s, (c.disarm deviceId).disarmFrom rest)
  | .disarming deviceId rest _ (capability :: others) (some _) =>
    some (s, { c with phase := .disarming deviceId rest capability others none })
  | _ => none

end RapClosing

/-! ## The machine -/

structure RapSite where
  threads : ThreadStore := {}
  calls : List RapCall := []
  closings : List RapClosing := []
  daemon : ThreadDaemon

inductive SiteEvent
  | runCall (callId : CallId) (operation : JsString) (args : JsonObject)
  | handleCall (call : Nat) (c : Circumstances)
  | hearCall (call : Nat)
  | settleCall (call : Nat)
  | closeThread (groupId : JsString)
  /-- `abortThreadSafety` after a result could not be delivered. -/
  | abortThread (groupId : JsString)
  | handleClosing (closing : Nat) (c : Circumstances)
  | hearClosing (closing : Nat)
  /-- Another client changes the leases of the daemon, or time passes. -/
  | elsewhere (action : LeaseManager.Action)
  /-- Another client, or `cancelToolCall`, invokes a capability. -/
  | invokeElsewhere (c : Circumstances) (deviceId capability owner : JsString)

namespace RapSite

variable (runtime : PinoutRuntime) (config : DaemonConfig)

/-- An adapter without threads at a daemon without leases. -/
def new (maxTtlMs now : ℚ) : RapSite where
  daemon := { leases := .new maxTtlMs now }

/-- `inFlight.has(call.key)`: a run of a call of the same key has not returned. -/
def inFlight (s : RapSite) (callId : CallId) : Bool :=
  s.calls.any fun call =>
    rapCallIdempotencyKey call.callId = rapCallIdempotencyKey callId && call.phase ≠ .settled

/-- `runCall` up to where it waits. -/
def runCall (s : RapSite) (callId : CallId) (operation : JsString) (args : JsonObject) : RapSite :=
  if s.inFlight callId then s
  else
    let owner := Platform.ownerForRapThread callId.groupId args
    let (threads, request) := executeOperation s.threads owner operation args
    { s with
      threads
      calls := s.calls ++ [⟨callId, owner, (request.map .requested).getD .finishing⟩] }

def step (s : RapSite) : SiteEvent → Option RapSite
  | .runCall callId operation args => some (s.runCall callId operation args)
  | .handleCall n c => match s.calls[n]? with
    | some ⟨callId, owner, .requested request⟩ =>
      let (daemon, answer) := s.daemon.handle runtime config (some callId.groupId) c request
      some { s with daemon, calls := s.calls.set n ⟨callId, owner, .answered request answer⟩ }
    | _ => none
  | .hearCall n => match s.calls[n]? with
    | some ⟨callId, owner, .answered request answer⟩ =>
      some { s with
        threads := noteAnswer s.threads owner request answer
        calls := s.calls.set n ⟨callId, owner, .finishing⟩ }
    | _ => none
  | .settleCall n => match s.calls[n]? with
    | some ⟨callId, owner, .finishing⟩ => some { s with calls := s.calls.set n ⟨callId, owner, .settled⟩ }
    | _ => none
  | .closeThread groupId =>
    some { s with
      threads := s.threads.markThreadClosed groupId
      closings := s.closings ++ [{ groupId }] }
  | .abortThread groupId => some { s with closings := s.closings ++ [{ groupId, closesThread := false }] }
  | .handleClosing n c => (s.closings[n]?).bind fun closing => closing.request?.map fun request =>
    let (daemon, answer) := s.daemon.handle runtime config none c request
    { s with daemon, closings := s.closings.set n (closing.answered answer) }
  | .hearClosing n => (s.closings[n]?).bind fun closing => (closing.hear s.threads).map fun (threads, closing) =>
    { s with threads, closings := s.closings.set n closing }
  | .elsewhere action => (LeaseManager.machine.step s.daemon.leases action).map fun leases =>
    { s with daemon := { s.daemon with leases } }
  | .invokeElsewhere c deviceId capability owner =>
    some { s with daemon := (s.daemon.invoke runtime config none c deviceId capability owner).1 }

def machine : Machine RapSite SiteEvent := ⟨step runtime config⟩

end RapSite

end Pinout.Rap
