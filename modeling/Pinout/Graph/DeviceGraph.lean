import Pinout.Errors
import Pinout.Foundation.Forest
import Pinout.Foundation.InsertionMap
import Pinout.Foundation.Machine

/-! # The device graph

`DeviceGraph` (`packages/core/src/graph/deviceGraph.ts`): the registered devices and which of them is
a component of which. The composition is stored twice, as the `children` of a device and as the
`parent` of its components, and `link` writes both. A call that fails leaves the graph as it is.
Loops of the source take fuel here, and `none` is a loop that has run out of it. -/

namespace Pinout.Graph

open Foundation

/-! ## Descriptors -/

structure DeviceIdentity where
  id : JsString
  moduleId : JsString
  deviceClass : JsString
  vendor : Option JsString := none
  model : Option JsString := none
  label : Option JsString := none
  firmwareVersion : Option JsString := none

inductive DeviceLifecycleStatus
  | connecting | ready | busy | faulted | stopped | disconnected
  deriving DecidableEq, Repr

inductive DeviceHealthStatus
  | connected | degraded | faulted | disconnected | unknown
  deriving DecidableEq, Repr

structure DeviceHealth where
  status : DeviceHealthStatus
  lifecycle : DeviceLifecycleStatus
  message : Option JsString := none
  lastUpdated : Int

/-- `Partial<DeviceHealth>`. -/
structure HealthUpdate where
  status : Option DeviceHealthStatus := none
  lifecycle : Option DeviceLifecycleStatus := none
  message : Option JsString := none
  lastUpdated : Option Int := none

structure TransportDescriptor where
  kind : JsString
  endpoint : Option JsString := none
  options : Option JsonObject := none

inductive SupportStatus
  | implemented | hardwareVerified | simulated | compileTested | planned | experimental
  deriving DecidableEq, Repr

structure DeviceDescriptor where
  identity : DeviceIdentity
  capabilities : List JsString
  health : DeviceHealth
  simulated : Bool
  children : List JsString
  parent : Option JsString := none
  tags : List JsString
  transport : TransportDescriptor
  support : SupportStatus

structure DeviceGraphNodeInput where
  id : JsString
  deviceClass : JsString
  moduleId : JsString
  capabilities : List JsString
  simulated : Option Bool := none
  label : Option JsString := none
  vendor : Option JsString := none
  model : Option JsString := none
  tags : Option (List JsString) := none
  support : Option SupportStatus := none
  transport : Option TransportDescriptor := none

/-- The descriptor `register` makes. -/
def DeviceGraphNodeInput.descriptor (input : DeviceGraphNodeInput) : DeviceDescriptor where
  identity := {
    id := input.id
    moduleId := input.moduleId
    deviceClass := input.deviceClass
    vendor := input.vendor
    model := input.model
    label := input.label }
  capabilities := input.capabilities
  health := { status := .unknown, lifecycle := .connecting, lastUpdated := 0 }
  simulated := input.simulated.getD true
  children := []
  tags := input.tags.getD []
  transport := input.transport.getD { kind := js "simulated" }
  support := input.support.getD .implemented

/-- The descriptor `upsert` refreshes an existing one to. -/
def DeviceDescriptor.refreshed (existing : DeviceDescriptor) (input : DeviceGraphNodeInput) :
    DeviceDescriptor :=
  { existing with
    identity := { existing.identity with
      moduleId := input.moduleId
      deviceClass := input.deviceClass
      vendor := input.vendor.or existing.identity.vendor
      model := input.model.or existing.identity.model
      label := input.label.or existing.identity.label }
    capabilities := input.capabilities
    simulated := input.simulated.getD existing.simulated
    tags := input.tags.getD existing.tags
    support := input.support.getD existing.support
    transport := input.transport.getD existing.transport }

/-- The health `updateHealth` leaves, at the time `now`. -/
def DeviceHealth.updated (old : DeviceHealth) (health : HealthUpdate) (now : Int) : DeviceHealth where
  status := health.status.getD old.status
  lifecycle := health.lifecycle.getD old.lifecycle
  message := health.message.or old.message
  lastUpdated := health.lastUpdated.getD now

/-! ## The graph -/

structure DeviceGraph where
  nodes : InsertionMap JsString DeviceDescriptor

/-- The error of a call about a device that is not registered. -/
def unknownDevice (id : JsString) : StructuredError :=
  { pinoutStructuredError (js "DEVICE_NOT_FOUND") .device (js "Unknown device '" ++ id ++ js "'.") with
    device := some id }

def alreadyRegistered (id : JsString) : StructuredError :=
  { pinoutStructuredError (js "DEVICE_ALREADY_REGISTERED") .device
      (js "Device '" ++ id ++ js "' is already registered.") with
    device := some id }

/-- The error of a link between devices of which one is not registered. -/
def unknownLink (parentId childId : JsString) : StructuredError :=
  pinoutStructuredError (js "DEVICE_NOT_FOUND") .device
    (js "Unknown device in link('" ++ parentId ++ js "', '" ++ childId ++ js "').")

def ownChild (parentId : JsString) : StructuredError :=
  pinoutStructuredError (js "GRAPH_CYCLE") .config
    (js "Device '" ++ parentId ++ js "' cannot be its own child.")

def wouldCycle (parentId childId : JsString) : StructuredError :=
  pinoutStructuredError (js "GRAPH_CYCLE") .config
    (js "Linking '" ++ parentId ++ js "' under '" ++ childId ++ js "' would create a cycle.")

namespace DeviceGraph

def empty : DeviceGraph := ⟨.empty⟩

def get (g : DeviceGraph) (id : JsString) : Option DeviceDescriptor := g.nodes.get? id

def require (g : DeviceGraph) (id : JsString) : Except StructuredError DeviceDescriptor :=
  match g.get id with
  | some node => .ok node
  | none => .error (unknownDevice id)

def ids (g : DeviceGraph) : List JsString := g.nodes.entries.map Prod.fst

def put (g : DeviceGraph) (id : JsString) (node : DeviceDescriptor) : DeviceGraph :=
  ⟨g.nodes.insert id node⟩

def parentOf (g : DeviceGraph) (id : JsString) : Option JsString :=
  (g.nodes.get? id).bind DeviceDescriptor.parent

def childrenOf (g : DeviceGraph) (id : JsString) : List JsString :=
  ((g.nodes.get? id).map DeviceDescriptor.children).getD []

def register (g : DeviceGraph) (input : DeviceGraphNodeInput) :
    DeviceGraph × Except StructuredError DeviceDescriptor :=
  if g.nodes.contains input.id then (g, .error (alreadyRegistered input.id))
  else (g.put input.id input.descriptor, .ok input.descriptor)

/-- `descendsFrom`: the candidate is an ancestor. Every iteration goes one device up. -/
def descendsFrom (g : DeviceGraph) (ancestorId candidateId : JsString) : Option Bool :=
  ascend g.parentOf candidateId g.nodes.size (g.parentOf ancestorId)

/-- The two writes of `link`, one after the other. -/
def attach (g : DeviceGraph) (parentId childId : JsString) (parent child : DeviceDescriptor) :
    DeviceGraph :=
  (g.put parentId { parent with children :=
      if childId ∈ parent.children then parent.children else parent.children ++ [childId] }).put
    childId { child with parent := some parentId }

def link (g : DeviceGraph) (parentId childId : JsString) :
    Option (DeviceGraph × Except StructuredError Unit) :=
  match g.nodes.get? parentId, g.nodes.get? childId with
  | some parent, some child =>
    if childId = parentId then some (g, .error (ownChild parentId))
    else match g.descendsFrom parentId childId with
      | none => none
      | some true => some (g, .error (wouldCycle parentId childId))
      | some false => some (g.attach parentId childId parent child, .ok ())
  | _, _ => some (g, .error (unknownLink parentId childId))

def children (g : DeviceGraph) (id : JsString) : Except StructuredError (List DeviceDescriptor) := do
  let node ← g.require id
  node.children.mapM g.require

def childIds (g : DeviceGraph) (id : JsString) : Except StructuredError (List JsString) :=
  (g.require id).map DeviceDescriptor.children

/-- `subtree`, with fuel for as many devices as it is to list. -/
def subtree (g : DeviceGraph) (fuel : Nat) (id : JsString) :
    Option (Except StructuredError (List JsString)) :=
  match g.childIds id with
  | .ok queue => sweep g.childIds fuel [] queue
  | .error e => some (.error e)

def upsert (g : DeviceGraph) (input : DeviceGraphNodeInput) :
    DeviceGraph × Except StructuredError DeviceDescriptor :=
  match g.nodes.get? input.id with
  | none => g.register input
  | some existing =>
    (g.put input.id (existing.refreshed input), .ok (existing.refreshed input))

/-- What `updateHealth`, `updateSupport` and `updateTransport` share: change a registered device. -/
def modify (g : DeviceGraph) (id : JsString) (f : DeviceDescriptor → DeviceDescriptor) :
    DeviceGraph × Except StructuredError DeviceDescriptor :=
  match g.nodes.get? id with
  | none => (g, .error (unknownDevice id))
  | some node => (g.put id (f node), .ok (f node))

/-- `updateHealth`, at the time `now`. -/
def updateHealth (g : DeviceGraph) (id : JsString) (health : HealthUpdate) (now : Int) :
    DeviceGraph × Except StructuredError DeviceDescriptor :=
  g.modify id fun node => { node with health := node.health.updated health now }

def updateSupport (g : DeviceGraph) (id : JsString) (support : SupportStatus) :
    DeviceGraph × Except StructuredError DeviceDescriptor :=
  g.modify id fun node => { node with support := support }

def updateTransport (g : DeviceGraph) (id : JsString) (transport : TransportDescriptor) :
    DeviceGraph × Except StructuredError DeviceDescriptor :=
  g.modify id fun node => { node with transport := transport }

/-! ## Calls -/

inductive Call
  | register (input : DeviceGraphNodeInput)
  | link (parentId childId : JsString)
  | upsert (input : DeviceGraphNodeInput)
  | updateHealth (id : JsString) (health : HealthUpdate) (now : Int)
  | updateSupport (id : JsString) (support : SupportStatus)
  | updateTransport (id : JsString) (transport : TransportDescriptor)

/-- The graph after a call, accepted or rejected; `none` when the call does not return. -/
def step (g : DeviceGraph) : Call → Option DeviceGraph
  | .register input => some (g.register input).1
  | .link parentId childId => (g.link parentId childId).map Prod.fst
  | .upsert input => some (g.upsert input).1
  | .updateHealth id health now => some (g.updateHealth id health now).1
  | .updateSupport id support => some (g.updateSupport id support).1
  | .updateTransport id transport => some (g.updateTransport id transport).1

def machine : Machine DeviceGraph Call := ⟨step⟩

end DeviceGraph

end Pinout.Graph
