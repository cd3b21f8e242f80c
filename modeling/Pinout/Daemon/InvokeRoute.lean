import Mathlib.Data.List.Sort
import Pinout.Operation.Dedupe
import Pinout.Runtime.Runtime

/-! # The invoke route

`POST /v1/devices/:id/invoke` of the daemon (`packages/daemon/src/httpServer.ts`) with `waitFor`
`'result'`: the idempotency key it makes for a physical output, the search for an operation that is
held under the key, the dry run, and the operation whose run invokes the backend. A request is handled
from its arrival to its response in one step, as when the next one is sent only after the answer. -/

namespace Pinout.Daemon

open Foundation Operation Pinout.Runtime

/-! ## Idempotency keys -/

section Key

variable (numText : ℚ → JsString)

/-- A field of an object, in the text of the object. -/
def fieldText (field : JsString × JsString) : JsString := quote field.1 ++ 58 :: field.2

/-- The text of an object whose fields have the texts given, in the order of `Object.keys(…).sort()`:
by code units. -/
def sortedText (fields : List (JsString × JsString)) : JsString :=
  123 :: List.intercalate [44]
    ((fields.insertionSort fun f g => f.1 ≤ g.1).map fieldText) ++ [125]

mutual

def stableStringify : Json → JsString
  | .null => js "null"
  | .bool true => js "true"
  | .bool false => js "false"
  | .num q => numText q
  | .str s => quote s
  | .arr items => 91 :: List.intercalate [44] (stableItems items) ++ [93]
  | .obj fields => sortedText (stableFields fields)

def stableItems : List Json → List JsString
  | [] => []
  | v :: items => stableStringify v :: stableItems items

/-- The names of the fields of an object, with the texts of their values. -/
def stableFields : List (JsString × Json) → List (JsString × JsString)
  | [] => []
  | (name, v) :: fields => (name, stableStringify v) :: stableFields fields

end

def keyText (deviceId capability : JsString) (args : Json) (owner : Option JsString) :
    JsString :=
  stableStringify numText
    (.obj [(js "deviceId", .str deviceId), (js "capability", .str capability),
      (js "args", args), (js "owner", owner.elim .null .str)])

/-- `deterministicIdempotencyKey`; `digest` is the first half of the SHA-256 digest of a text, in
hexadecimal. -/
def deterministicIdempotencyKey (digest : JsString → JsString) (deviceId capability : JsString)
    (args : Json) (owner : Option JsString) : JsString :=
  js "auto-" ++ digest (keyText numText deviceId capability args owner)

end Key

/-! ## Requests and responses -/

/-- The request: the device of its path, and its body, with `waitFor` `'result'`. -/
structure InvokeRequest where
  deviceId : JsString
  capability : JsString
  args : JsonObject := []
  owner : Option JsString := none
  idempotencyKey : Option JsString := none
  dryRun : Bool := false
  timeoutMs : Option ℚ := none

/-- What handling a request meets outside the daemon. -/
structure Handling where
  randomId : JsString
  token : Nat
  planning : Reading
  running : Reading
  elapsed : Nat := 0
  backend : Except Thrown JsonObject

inductive Response
  | planned (resolvedArgs : JsonObject)
  | result (result : Json) (operation : OperationSnapshot) (deduped : Bool)
  | requiresReconciliation (operation : OperationSnapshot)
  | error (thrown : Thrown)
  | waiting (operation : OperationSnapshot)

/-- Whether a request is answered with a result, as `waitForResult` has it when the operation is
completed. -/
def Response.isResult : Response → Bool
  | .result _ _ _ => true
  | _ => false

/-- An action the backend was called to execute. -/
structure Execution where
  deviceId : JsString
  capability : JsString
  args : JsonObject

def InvokeRequest.execution (request : InvokeRequest) : Execution :=
  ⟨request.deviceId, request.capability, request.args⟩

/-- The daemon, as far as the route uses it, with what the backends were called to execute. -/
structure Serving where
  runtime : PinoutRuntime
  operations : OperationManager := {}
  executed : List Execution := []

/-- Take labels of the manager one after another, leaving out those that are not enabled. -/
def takeAll (m : OperationManager) (labels : List OperationManager.Action) : OperationManager :=
  labels.foldl (fun m label => (m.step label).getD m) m

/-- What a caller of `waitForResult` gets of an operation. -/
def respond (operation : OperationSnapshot) (deduped : Bool) : Response :=
  if operation.status.isTerminal then
    match deliver operation with
    | .result result => .result result operation deduped
    | .rejected thrown => .error thrown
    | .snapshot _ => .waiting operation
  else .waiting operation

/-- The statuses after which a generated key may be used again. -/
def failedTerminal (status : OperationStatus) : Bool :=
  status = .failed || status = .cancelled || status = .rejected || status = .timedOut

/-- What `begin` returned: whether it deduped, and its operation, with the address. -/
def handle? (m : OperationManager) : Option (Bool × Nat × LiveOperation) :=
  match m.trace.getLast? with
  | some (.began deduped operationId) => (m.find? operationId).map (deduped, ·)
  | _ => none

/-- Reading a field of an operation that is not in the map. -/
def operationLost : Thrown :=
  .error (js "TypeError") none (js "Cannot read properties of undefined (reading 'status')")

/-- What `requiredString` throws. -/
def fieldRequired (field : JsString) : Thrown :=
  .pinoutError (js "ValidationError") (js "VALIDATION_ERROR")
    (js "Body field '" ++ field ++ js "' is required and must be a non-empty string.")

/-! ## The route -/

variable (numText : ℚ → JsString) (digest : JsString → JsString)

/-- `idempotencyKey` and `idempotencyKeyGenerated`. -/
def idempotencyKeyOf (request : InvokeRequest) (physicalOutput : Bool) : Option JsString × Bool :=
  if !request.dryRun && physicalOutput && (request.idempotencyKey.getD []).isEmpty then
    (some (deterministicIdempotencyKey numText digest request.deviceId request.capability
      (.obj request.args) request.owner), true)
  else (request.idempotencyKey, false)

/-- The search for an operation that is held under the key of a request. An operation that failed is
dropped when its key was generated. -/
def findExisting (m : OperationManager) (request : InvokeRequest) (key : Option JsString)
    (generated : Bool) : OperationManager × Option OperationSnapshot :=
  match key.filter fun key => key ≠ [] with
  | none => (m, none)
  | some key =>
    if request.dryRun then (m, none)
    else
      let scopedKey :=
        IdempotencyStore.keyFor request.deviceId request.capability request.owner key
      let (idempotencyStore, hit) := m.idempotencyStore.lookup scopedKey m.now
      match hit.bind fun tombstone => m.get? tombstone.operationId with
      | none => ({ m with idempotencyStore }, none)
      | some snapshot =>
        if failedTerminal snapshot.status && generated then
          ({ m with idempotencyStore := idempotencyStore.remove scopedKey }, none)
        else ({ m with idempotencyStore }, some snapshot)

namespace Serving

/-- The governance in force: `c.halt` is its halt gate. -/
def inForce (s : Serving) : Option Governance := s.runtime.governances[s.runtime.governance]?

/-- The options a request begins an operation with. -/
def beginOptions (request : InvokeRequest) (key : Option JsString) : BeginOperationOptions :=
  { deviceId := request.deviceId, capability := request.capability, owner := request.owner
    idempotencyKey := key, timeoutMs := request.timeoutMs }

/-- The labels of a run that the backend has been called in: it reports progress and returns, or it
throws. A deadline that is due comes first. -/
def outcomeLabels (address : Nat) :
    Except Thrown JsonObject → List OperationManager.Action
  | .ok result =>
    [.deadline address, .report address (some 1) (some (js "completed")),
      .runResolved address result, .acknowledged address]
  | .error thrown => [.deadline address, .runRejected address thrown]

/-- `run`: the halt gate, and the invocation. -/
def runBody (s : Serving) (request : InvokeRequest) (handling : Handling) :
    Serving × Except Thrown JsonObject :=
  match DeviceInstance.enforceGate s.inForce {} with
  | .error thrown => (s, .error thrown)
  | .ok () =>
    match s.runtime.invoke numText request.deviceId request.capability request.args
        { owner := request.owner } handling.running with
    | (runtime, .error thrown) => ({ s with runtime }, .error thrown)
    | (runtime, .ok (.dryRun resolvedArgs)) => ({ s with runtime }, .ok resolvedArgs)
    | (runtime, .ok (.dispatched payload)) =>
      ({ s with
          runtime
          executed := s.executed ++ [⟨request.deviceId, request.capability, payload⟩] },
        handling.backend)

/-- The new operation at an address is started, run and waited for. -/
def perform (s : Serving) (request : InvokeRequest) (handling : Handling) (operationId : JsString)
    (address : Nat) : Serving :=
  let started := takeAll s.operations
    [.wait .waitForResult operationId handling.token, .microtask address, .dispatched address]
  let (s, outcome) := { s with operations := started }.runBody numText request handling
  let ended := takeAll s.operations [.tick handling.elapsed]
  { s with operations := takeAll ended (outcomeLabels address outcome) }

/-- The route past the search: the halt gate, the dry run, and `begin`. -/
def execute (s : Serving) (request : InvokeRequest) (handling : Handling)
    (descriptor : CapabilityDescriptor) (key : Option JsString) : Serving × Response :=
  match DeviceInstance.enforceGate s.inForce { dryRun := request.dryRun } with
  | .error thrown => (s, .error thrown)
  | .ok () =>
    match descriptor.validateInput request.args with
    | some thrown => (s, .error thrown)
    | none =>
      match s.runtime.invoke numText request.deviceId request.capability request.args
          { owner := request.owner, dryRun := true } handling.planning with
      | (runtime, .error thrown) => ({ s with runtime }, .error thrown)
      | (runtime, .ok _) =>
        if request.dryRun then ({ s with runtime }, .planned request.args)
        else
          let operations := s.operations.begin_ (beginOptions request key) handling.randomId
          let s := { s with runtime, operations }
          match handle? operations with
          | none => (s, .error operationLost)
          | some (true, _, operation) =>
            ({ s with
                operations := takeAll operations
                  [.wait .waitForResult operation.id handling.token] },
              respond operation.toOperationSnapshot false)
          | some (false, address, operation) =>
            let t := s.perform numText request handling operation.id address
            (t, respond (t.operations.heap[address]?.getD operation).toOperationSnapshot false)

/-- The route past the search: an operation that is found is observed. -/
def proceed (s : Serving) (request : InvokeRequest) (handling : Handling)
    (descriptor : CapabilityDescriptor) (key : Option JsString) :
    OperationManager × Option OperationSnapshot → Serving × Response
  | (operations, none) => execute numText { s with operations } request handling descriptor key
  | (operations, some snapshot) =>
    if snapshot.status = .requiresReconciliation ∨ snapshot.status = .uncertain then
      ({ s with operations }, .requiresReconciliation snapshot)
    else
      ({ s with
          operations := takeAll operations [.wait .waitForResult snapshot.id handling.token] },
        respond snapshot true)

def invoke (s : Serving) (request : InvokeRequest) (handling : Handling) : Serving × Response :=
  match s.runtime.deviceMap.get? request.deviceId with
  | none => (s, .error (PinoutRuntime.deviceNotFound request.deviceId))
  | some device =>
    if request.capability = [] then (s, .error (fieldRequired (js "capability")))
    else match device.resolveCapability request.capability with
    | none => (s, .error (DeviceInstance.unsupportedCapability request.capability))
    | some descriptor =>
      let (key, generated) := idempotencyKeyOf numText digest request descriptor.physicalOutput
      s.proceed numText request handling descriptor key
        (findExisting s.operations request key generated)

/-! ## Histories -/

inductive Action
  | runtime (action : PinoutRuntime.Action)
  | tick (ms : Nat)
  | invoke (request : InvokeRequest) (handling : Handling)

def step (s : Serving) : Action → Option Serving
  | .runtime action =>
    (s.runtime.step numText action).map fun runtime => { s with runtime }
  | .tick ms => some { s with operations := takeAll s.operations [.tick ms] }
  | .invoke request handling => some (s.invoke numText digest request handling).1

def machine : Machine Serving Action := ⟨step numText digest⟩

end Serving

end Pinout.Daemon
