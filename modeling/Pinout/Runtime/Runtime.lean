import Pinout.Foundation.Machine
import Pinout.Halt.Coordinator
import Pinout.Leasing.Exclusion
import Pinout.Policy.Safety

/-! # The runtime

`DeviceInstance.invoke` (`packages/core/src/runtime/deviceInstance.ts`) up to the call of the backend,
and the devices of a `PinoutRuntime` (`packages/core/src/runtime/runtime.ts`), which come and go while
the governance objects of the runtime are attached to them. Governance objects are shared: a device and
the runtime refer to them by their place in the list of those there have been. -/

namespace Pinout.Runtime

open Foundation Halt Leasing Policy

/-! ## Devices -/

structure CapabilityDescriptor where
  name : JsString
  physicalOutput : Bool
  /-- What `validateInputSchema(inputSchema, _)` throws; it returns what it is given. -/
  validateInput : JsonObject → Option Thrown := fun _ => none

structure DeviceInstance where
  id : JsString
  capabilities : List CapabilityDescriptor
  policies : List PolicyRule := []
  closing : Bool := false
  governance : Option Nat := none

/-- What a runtime attaches to its devices: the halt gate, and the safety engine with the lease manager
it was made with. -/
structure Governance where
  halt : HaltCoordinator := {}
  safetyEngine : SafetyEngine
  leaseManager : Option LeaseManager := none

structure InvokeOptions where
  owner : Option JsString := none
  dryRun : Bool := false

/-- What an invocation reads of its surroundings. -/
structure Reading where
  now : ℚ
  operationalState : JsonObject := []
  prerequisites : Option Thrown := none

/-- What an invocation that is not rejected comes to. -/
inductive InvokeOutcome
  | dryRun (resolvedArgs : JsonObject)
  | dispatched (payload : JsonObject)

/-- The conflict of a verdict, as the detail of an error. -/
def conflictJson (conflict : LeaseConflictDetails) : Json :=
  .obj [(js "leaseId", .str conflict.leaseId), (js "owner", .str conflict.owner),
    (js "expiresAt", .num conflict.expiresAt),
    (js "scope", .obj (match conflict.scope with
      | .device deviceId => [(js "kind", .str (js "device")), (js "deviceId", .str deviceId)]
      | .capability deviceId capabilities =>
        [(js "kind", .str (js "capability")), (js "deviceId", .str deviceId),
          (js "capabilities", .arr (capabilities.map .str))]))]

/-- What `leaseManager.permits` says for the safety engine. -/
def verdictOf (leases : LeaseManager) (owner deviceId capability : JsString) : LeaseVerdict :=
  let verdict := (leases.permits owner deviceId capability .exclusive).2
  { permitted := verdict.permitted, conflict := verdict.conflict.map conflictJson }

/-- The surroundings in which the safety engine decides. -/
def Governance.surroundings (g : Governance) (reading : Reading) : Surroundings :=
  { now := reading.now, permits := g.leaseManager.map verdictOf }

namespace DeviceInstance

/-- `resolveCapability`; `supports` says whether there is one. -/
def resolveCapability (device : DeviceInstance) (capability : JsString) :
    Option CapabilityDescriptor :=
  device.capabilities.find? fun descriptor => descriptor.name = capability

def attachGovernance (device : DeviceInstance) (governance : Nat) : DeviceInstance :=
  { device with governance := some governance }

/-- `new DisconnectedError(…)`. -/
def disconnected (device : DeviceInstance) : Thrown :=
  .pinoutError (js "DisconnectedError") (js "DISCONNECTED")
    (js "Device '" ++ device.id ++ js "' is closing or disconnected.")

/-- `new UnsupportedCapabilityError(capability)`. -/
def unsupportedCapability (capability : JsString) : Thrown :=
  .pinoutError (js "UnsupportedCapabilityError") (js "UNSUPPORTED_CAPABILITY")
    (js "This device does not support '" ++ capability ++ js "'.")

def context (device : DeviceInstance) (capability : JsString) (payload : JsonObject)
    (reading : Reading) (owner : Option JsString := none) : PolicyContext :=
  { deviceId := device.id, capability, payload, operationalState := reading.operationalState, owner }

/-- `halt?.enforceGate()`, which a dry run skips. -/
def enforceGate (governance : Option Governance) (options : InvokeOptions) : Except Thrown Unit :=
  if options.dryRun then .ok ()
  else match governance with
    | none => .ok ()
    | some g => match g.halt.enforceGate with
      | .ok () => .ok ()
      | .error error => .error (.structuredError error)

variable (numText : ℚ → JsString)

/-- `invoke` up to the safety engine. -/
def prepare (device : DeviceInstance) (governance : Option Governance) (capability : JsString)
    (input : JsonObject) (options : InvokeOptions) (reading : Reading) : Except Thrown Unit :=
  if device.closing then .error device.disconnected
  else match device.resolveCapability capability with
    | none => .error (unsupportedCapability capability)
    | some descriptor => do
      (descriptor.validateInput input).elim (.ok ()) .error
      reading.prerequisites.elim (.ok ()) .error
      enforceGate governance options
      evaluatePolicies numText device.policies (device.context capability input reading) reading.now

/-- The error of a dry run that the safety engine rejects. -/
def rejectedBy (decision : PolicyDecision) : Thrown :=
  .pinoutError (js "PinoutError") (decision.code.getD (js "POLICY_ACTION_DENIED"))
    (decision.message.getD (js "Rejected by policy."))

/-- `invoke` up to the call of the backend, with the safety engine after it. -/
def invoke (device : DeviceInstance) (governance : Option Governance) (capability : JsString)
    (input : JsonObject) (options : InvokeOptions) (reading : Reading) :
    Option SafetyEngine × Except Thrown InvokeOutcome :=
  match device.prepare numText governance capability input options reading with
  | .error thrown => (governance.map Governance.safetyEngine, .error thrown)
  | .ok () =>
    match governance with
    | none => (none, .ok (if options.dryRun then .dryRun input else .dispatched input))
    | some g =>
      let context := device.context capability input reading options.owner
      if options.dryRun then
        match g.safetyEngine.preview numText (g.surroundings reading) context with
        | (engine, .error thrown) => (some engine, .error thrown)
        | (engine, .ok decision) =>
          (some engine, if decision.allowed then .ok (.dryRun input) else .error (rejectedBy decision))
      else
        match g.safetyEngine.reserve numText (g.surroundings reading) context with
        | (engine, .error thrown) => (some engine, .error thrown)
        | (engine, .ok _) => (some engine, .ok (.dispatched input))

end DeviceInstance

/-! ## The runtime -/

/-- `PinoutRuntime`, with the governance objects there have been. -/
structure PinoutRuntime where
  governances : List Governance
  governance : Nat := 0
  deviceMap : InsertionMap JsString DeviceInstance := .empty
  /-- The ids whose `unregister` waits for the device to close. -/
  unregistering : List JsString := []

namespace PinoutRuntime

/-- `new PinoutRuntime(…)` with its governance objects. -/
def new (g : Governance) : PinoutRuntime := { governances := [g] }

/-- `register`, which throws when the id is taken. -/
def register (r : PinoutRuntime) (device : DeviceInstance) : PinoutRuntime :=
  if r.deviceMap.contains device.id then r
  else { r with
    deviceMap := r.deviceMap.insert device.id (device.attachGovernance r.governance) }

/-- `unregister`, up to where it waits: the device is closing. -/
def unregister (r : PinoutRuntime) (id : JsString) : PinoutRuntime :=
  match r.deviceMap.get? id with
  | none => r
  | some device => { r with
      deviceMap := r.deviceMap.insert id { device with closing := true }
      unregistering := id :: r.unregistering }

/-- The rest of `unregister`. -/
def unregistered (r : PinoutRuntime) (id : JsString) : Option PinoutRuntime :=
  if id ∈ r.unregistering then
    some { r with
      deviceMap := r.deviceMap.erase id
      unregistering := r.unregistering.erase id }
  else none

/-- `configureGovernance`, with new objects, and every device reattached. -/
def configureGovernance (r : PinoutRuntime) (g : Governance) : PinoutRuntime :=
  { r with
    governances := r.governances ++ [g]
    governance := r.governances.length
    deviceMap := r.deviceMap.mapValues fun device => device.attachGovernance r.governances.length }

/-- The governance objects attached to a device. -/
def governanceOf (r : PinoutRuntime) (device : DeviceInstance) : Option Governance :=
  device.governance.bind fun index => r.governances[index]?

def modify (r : PinoutRuntime) (index : Nat) (f : Governance → Governance) : PinoutRuntime :=
  { r with governances := r.governances.modify index f }

/-- `new DeviceNotFoundError(id)`. -/
def deviceNotFound (id : JsString) : Thrown :=
  .pinoutError (js "DeviceNotFoundError") (js "DEVICE_NOT_FOUND")
    (js "No device registered with id '" ++ id ++ js "'.")

variable (numText : ℚ → JsString)

/-- `invoke` up to the call of the backend. -/
def invoke (r : PinoutRuntime) (deviceId capability : JsString) (input : JsonObject)
    (options : InvokeOptions) (reading : Reading) : PinoutRuntime × Except Thrown InvokeOutcome :=
  match r.deviceMap.get? deviceId with
  | none => (r, .error (deviceNotFound deviceId))
  | some device =>
    match device.invoke numText (r.governanceOf device) capability input options reading with
    | (none, outcome) => (r, outcome)
    | (some engine, outcome) =>
      (r.modify (device.governance.getD 0) fun g => { g with safetyEngine := engine }, outcome)

variable {numText} in
/-- What an invocation comes to is decided by the device and the governance attached to it. -/
theorem invoke_snd {r : PinoutRuntime} {deviceId capability : JsString} {input : JsonObject}
    {options : InvokeOptions} {reading : Reading} {device : DeviceInstance}
    (h : r.deviceMap.get? deviceId = some device) :
    (r.invoke numText deviceId capability input options reading).2 =
      (device.invoke numText (r.governanceOf device) capability input options reading).2 := by
  unfold invoke
  rw [h]
  dsimp only
  split
  · next heq => rw [heq]
  · next heq => rw [heq]

/-! ## Actions -/

/-- What happens to a runtime. What feeds a safety engine (heartbeats, interlocks, approvals, budgets)
and what the end of a reservation gives back is left open: `feed` sets that state to anything. -/
inductive Action
  | register (device : DeviceInstance)
  | unregister (id : JsString)
  | unregistered (id : JsString)
  | invoke (deviceId capability : JsString) (input : JsonObject) (options : InvokeOptions)
      (reading : Reading)
  | halt (index : Nat) (call : Call)
  /-- The state of a safety engine that its decisions read and consume changes. -/
  | feed (index : Nat) (feeds : Feeds) (consumables : Consumables)
  /-- A lease is acquired, renewed or released, expired ones are removed, or time passes. -/
  | lease (index : Nat) (action : LeaseManager.Action)

/-- A lease action on the lease manager of a safety engine. -/
def leaseStep (r : PinoutRuntime) (index : Nat) (action : LeaseManager.Action) :
    Option PinoutRuntime :=
  (r.governances[index]?.bind Governance.leaseManager).bind fun leases =>
    (leases.step action).map fun leases =>
      r.modify index fun g => { g with leaseManager := some leases }

def step (r : PinoutRuntime) : Action → Option PinoutRuntime
  | .register device => some (r.register device)
  | .unregister id => some (r.unregister id)
  | .unregistered id => r.unregistered id
  | .invoke deviceId capability input options reading =>
    some (r.invoke numText deviceId capability input options reading).1
  | .halt index call => some (r.modify index fun g => { g with halt := g.halt.apply call })
  | .feed index feeds consumables => some (r.modify index fun g =>
      { g with safetyEngine := { g.safetyEngine with feeds, consumables } })
  | .lease index action => r.leaseStep index action

def machine : Machine PinoutRuntime Action := ⟨step numText⟩

end PinoutRuntime

end Pinout.Runtime
