import Pinout.Errors
import Pinout.Foundation.InsertionMap
import Pinout.Foundation.Machine
import Pinout.Protocol.LineReader

/-! # The connector pipeline

`ConnectorPipeline` (`packages/daemon/src/connectors/pipeline.ts`) over the records of `store.ts`, with the
stages of `installConnectorModule` (`install.ts`). `approve` and `reject` read a record and write it back
without a pause. An install reads the record, waits for the copy and for the module to load, registers the
module, and writes back what it read; a `generate` writes its record at its end. What happens between two
points where something waits is one *event*. The number of an install is its place in the order in which
installs began. -/

namespace Pinout.Connectors

open Foundation Protocol

/-! ## Records -/

inductive ConnectorStatus
  | candidate | quarantined | approved | installed | rejected
  deriving DecidableEq, Repr

def ConnectorStatus.text : ConnectorStatus → JsString
  | .candidate => js "CANDIDATE"
  | .quarantined => js "QUARANTINED"
  | .approved => js "APPROVED"
  | .installed => js "INSTALLED"
  | .rejected => js "REJECTED"

structure ConnectorCapabilitySummary where
  name : JsString
  physicalOutput : Bool
  enabled : Bool

structure ConnectorApproval where
  approvedAt : JsString
  approvedBy : JsString
  capabilities : List JsString
  ranges : JsonObject

/-- `ConnectorRecord.rejection`. -/
structure ConnectorRejection where
  rejectedAt : JsString
  rejectedBy : JsString
  reason : Option JsString

structure ConnectorRecord where
  id : JsString
  moduleId : JsString
  status : ConnectorStatus
  capabilities : List ConnectorCapabilitySummary
  physicalOutputsDisabled : Bool := true
  passed : Bool
  approval : Option ConnectorApproval := none
  contentHash : Option JsString := none
  installPath : Option JsString := none
  rejection : Option ConnectorRejection := none
  updatedAt : JsString

/-- `ApproveConnectorBody`, as the route passes it on. -/
structure ApproveConnectorBody where
  capabilities : List JsString
  ranges : JsonObject
  approvedBy : Option JsString := none

/-- `RejectConnectorBody`, as the route passes it on. -/
structure RejectConnectorBody where
  reason : Option JsString := none
  rejectedBy : Option JsString := none

/-- `new ValidationError(message)`. -/
def validationError (message : JsString) : Thrown :=
  .pinoutError (js "ValidationError") (js "VALIDATION_ERROR") message

/-- `new Error(message)`. -/
def plainError (message : JsString) : Thrown := .error (js "Error") none message

/-- `name?.trim() || 'operator'`. -/
def operatorOr (name : Option JsString) : JsString :=
  match trim (name.getD []) with
  | [] => js "operator"
  | name => name

/-! ## Ranges -/

/-- `Object.entries`, of a value that is truthy and an object. -/
def entriesOf : Json → List (JsString × Json)
  | .obj fields => fields
  | .arr items => items.zipIdx.map fun (item, n) => (decimal n, item)
  | _ => []

/-- `Object.keys(value).length`. -/
def countKeys : Json → Nat
  | .str text => text.length
  | value => (entriesOf value).length

/-- Whether bounds are finite, in order, and there. -/
def validBounds (bounds : Json) : Bool :=
  match Json.fields? (some bounds) with
  | some fields => match Json.number? (fields.get? (js "min")), Json.number? (fields.get? (js "max")) with
    | some min, some max => min ≤ max
    | _, _ => false
  | none => false

def validateRanges (ranges : JsonObject) : List JsString → Except Thrown Unit
  | [] => .ok ()
  | capability :: capabilities => match Json.object? (ranges.get? capability) with
    | none => validateRanges ranges capabilities
    | some params => match (entriesOf params).find? fun entry => !validBounds entry.2 with
      | some (param, _) => .error (validationError (js "Invalid range for " ++ capability ++ js "." ++ param ++
          js ": expected finite {min,max} with min <= max."))
      | none => validateRanges ranges capabilities

namespace ConnectorRecord

def withCapabilityEnablement (record : ConnectorRecord) : ConnectorRecord :=
  match record.status with
  | .approved | .installed =>
    let allowed := match record.approval with
      | some approval => approval.capabilities
      | none => []
    { record with
      physicalOutputsDisabled := allowed = []
      capabilities := record.capabilities.map fun capability =>
        { capability with enabled := !capability.physicalOutput || allowed.contains capability.name } }
  | _ =>
    { record with
      physicalOutputsDisabled := true
      capabilities := record.capabilities.map fun capability =>
        { capability with enabled := record.status ≠ .candidate && !capability.physicalOutput } }

/-- The loop of `approve` over the physical capabilities that are approved. -/
def checkPhysical (record : ConnectorRecord) (ranges : JsonObject) : List JsString → Except Thrown Unit
  | [] => .ok ()
  | name :: names =>
    let physical := match record.capabilities.find? (·.name = name) with
      | some capability => capability.physicalOutput
      | none => false
    let bounded := match ranges.get? name with
      | some params => params.truthy && countKeys params ≠ 0
      | none => false
    if physical && !bounded then
      .error (validationError (js "Physical capability '" ++ name ++
        js "' requires policy ranges at approval time."))
    else checkPhysical record ranges names

/-- What `approve` throws, if it throws. -/
def checkApproval (record : ConnectorRecord) (body : ApproveConnectorBody) : Except Thrown Unit :=
  if record.status = .rejected then
    .error (validationError (js "Connector '" ++ record.id ++ js "' was rejected and cannot be approved."))
  else if record.status = .candidate then
    .error (validationError (js "Connector '" ++ record.id ++
      js "' failed the conformance gate and cannot be approved."))
  else if record.status ≠ .quarantined ∧ record.status ≠ .approved then
    .error (validationError (js "Connector '" ++ record.id ++
      js "' must be QUARANTINED before approval (status=" ++ record.status.text ++ js ")."))
  else if body.capabilities = [] then
    .error (validationError (js "Body field 'capabilities' must be a non-empty array of names."))
  else match body.capabilities.find? fun name => record.capabilities.all (·.name ≠ name) with
    | some name =>
      .error (validationError (js "Unknown capability '" ++ name ++ js "' for connector '" ++ record.id ++
        js "'."))
    | none => match validateRanges body.ranges body.capabilities with
      | .error e => .error e
      | .ok () => record.checkPhysical body.ranges body.capabilities

/-- The record that `approve` writes. -/
def approve (record : ConnectorRecord) (body : ApproveConnectorBody) (now : JsString) : ConnectorRecord :=
  { record with
    status := .approved
    approval := some
      { approvedAt := now, approvedBy := operatorOr body.approvedBy, capabilities := body.capabilities
        ranges := body.ranges }
    physicalOutputsDisabled := false
    capabilities := record.capabilities.map fun capability =>
      { capability with
        enabled := !capability.physicalOutput || body.capabilities.contains capability.name }
    updatedAt := now }

/-- The record that `reject` writes. -/
def reject (record : ConnectorRecord) (body : RejectConnectorBody) (now : JsString) : ConnectorRecord :=
  { record with
    status := .rejected
    installPath := none
    rejection := some
      { rejectedAt := now, rejectedBy := operatorOr body.rejectedBy
        reason := body.reason.filter (· ≠ []) }
    physicalOutputsDisabled := true
    capabilities := record.capabilities.map fun capability =>
      { capability with enabled := !capability.physicalOutput }
    updatedAt := now }

/-- What `install` and `installConnectorModule` throw before they wait, if they throw, when the files of
the module have the hash `actual`. -/
def checkInstall (record : ConnectorRecord) (actual : JsString) : Except Thrown Unit :=
  if record.status ≠ .approved ∧ record.status ≠ .installed then
    .error (validationError (js "Connector '" ++ record.id ++
      js "' must be APPROVED before install (status=" ++ record.status.text ++ js ")."))
  else if record.approval.isNone then
    .error (plainError (js "Connector '" ++ record.id ++ js "' is missing an approval record."))
  else match record.contentHash with
    | none | some [] => .error (plainError (js "Connector '" ++ record.id ++
        js "' is missing a content hash from the conformance gate."))
    | some expected =>
      if actual = expected then .ok ()
      else .error (plainError (js "Connector '" ++ record.id ++
        js "' failed integrity check before install (expected " ++ expected ++ js ", got " ++ actual ++
        js ")."))

def install (record : ConnectorRecord) (installPath contentHash now : JsString) : ConnectorRecord :=
  { record with
    status := .installed, installPath := some installPath, contentHash := some contentHash
    updatedAt := now }

end ConnectorRecord

/-! ## The pipeline -/

/-- What an install waits for: the copy of the files, the module, or to go on with the record it returns. -/
inductive InstallStage
  | copying
  | loading
  | registered (result : ConnectorRecord)
  | stored
  | failed

structure Install where
  connector : ConnectorRecord
  stage : InstallStage := .copying
  /-- Whether an approval of the connector had been recorded when it began. -/
  approved : Bool

/-- `ConnectorPipeline`, with the modules it installs. The last four fields tell what has happened. -/
structure ConnectorPipeline where
  records : InsertionMap JsString ConnectorRecord := .empty
  /-- The modules that connectors registered, with the connector. -/
  runtimeModules : InsertionMap JsString JsString := .empty
  /-- The rows of the modules index, with the connector that was installed. -/
  index : InsertionMap JsString JsString := .empty
  installs : List Install := []
  gated : List JsString := []
  approved : List JsString := []
  rejected : List JsString := []
  /-- The connectors whose module was registered, and whether they had been rejected then. -/
  registrations : List (JsString × Bool) := []

/-- How a `generate` ends. -/
inductive GenerateOutcome
  | failed
  | gated (moduleId : JsString) (capabilities : List (JsString × Bool)) (passed : Bool)
    (contentHash : JsString)

inductive PipelineEvent
  | generated (id : JsString) (outcome : GenerateOutcome) (now : JsString)
  | approve (id : JsString) (body : ApproveConnectorBody) (now : JsString)
  | install (id actual : JsString)
  | copied (number : Nat) (moduleId : JsString)
  | loaded (number : Nat) (moduleId installPath contentHash now : JsString)
  | stored (number : Nat)
  | installFailed (number : Nat)
  | reject (id : JsString) (body : RejectConnectorBody) (now : JsString) (uninstall : Option Thrown)

namespace ConnectorPipeline

def get (p : ConnectorPipeline) (id : JsString) : Except Thrown ConnectorRecord :=
  match p.records.get? id with
  | some record => .ok record.withCapabilityEnablement
  | none => .error (.pinoutError (js "PinoutError") (js "DEVICE_NOT_FOUND")
      (js "Connector '" ++ id ++ js "' was not found."))

/-- `writeConnectorRecord`. -/
def write (p : ConnectorPipeline) (record : ConnectorRecord) : ConnectorPipeline :=
  { p with records := p.records.insert record.id record }

/-- The record of a `generate`. -/
def generatedRecord (id : JsString) (outcome : GenerateOutcome) (now : JsString) : ConnectorRecord :=
  match outcome with
  | .failed =>
    { id, moduleId := js "failed/" ++ id.take 8, status := .candidate, capabilities := [], passed := false
      updatedAt := now }
  | .gated moduleId capabilities passed contentHash =>
    { id, moduleId, status := if passed then .quarantined else .candidate
      capabilities := capabilities.map fun (name, physicalOutput) =>
        ⟨name, physicalOutput, passed && !physicalOutput⟩
      passed, contentHash := if passed then some contentHash else none, updatedAt := now }

def approve (p : ConnectorPipeline) (id : JsString) (body : ApproveConnectorBody) (now : JsString) :
    Except Thrown ConnectorPipeline :=
  match p.get id with
  | .error e => .error e
  | .ok record => match record.checkApproval body with
    | .error e => .error e
    | .ok () => .ok { p.write (record.approve body now) with approved := p.approved ++ [record.id] }

/-- `install`, up to where it waits. -/
def install (p : ConnectorPipeline) (id actual : JsString) : Except Thrown ConnectorPipeline :=
  match p.get id with
  | .error e => .error e
  | .ok record => match record.checkInstall actual with
    | .error e => .error e
    | .ok () => .ok { p with
        installs := p.installs ++ [{ connector := record, approved := p.approved.contains record.id }] }

def setStage (p : ConnectorPipeline) (number : Nat) (stage : InstallStage) : ConnectorPipeline :=
  { p with installs := p.installs.modify number fun install => { install with stage := stage } }

/-- `uninstallConnectorModule`, as far as it gets when it throws. -/
def uninstall (p : ConnectorPipeline) (record : ConnectorRecord) (thrown : Option Thrown) :
    ConnectorPipeline :=
  { p with
    runtimeModules := p.runtimeModules.erase record.moduleId
    index := if thrown.isSome then p.index else p.index.erase record.moduleId }

/-- `reject`: the pipeline after it, and what it throws, if it throws. -/
def reject (p : ConnectorPipeline) (id : JsString) (body : RejectConnectorBody) (now : JsString)
    (uninstall : Option Thrown) : ConnectorPipeline × Option Thrown :=
  match p.get id with
  | .error e => (p, some e)
  | .ok record =>
    let finish (p : ConnectorPipeline) : ConnectorPipeline :=
      { p.write (record.reject body now) with rejected := p.rejected ++ [record.id] }
    match record.status, uninstall with
    | .rejected, _ => ({ p with rejected := p.rejected ++ [record.id] }, none)
    | .installed, some e => (p.uninstall record (some e), some e)
    | .installed, none => (finish (p.uninstall record none), none)
    | _, _ => (finish p, none)

/-- One event. A call that throws leaves the pipeline as it was, but for what an uninstall has done. -/
def step (p : ConnectorPipeline) : PipelineEvent → Option ConnectorPipeline
  | .generated id outcome now =>
    -- the identifier is new
    if (p.records.get? id).isSome then none
    else
      let record := generatedRecord id outcome now
      some { p.write record with gated := if record.passed then p.gated ++ [id] else p.gated }
  | .approve id body now => match p.approve id body now with
    | .ok p => some p
    | .error _ => some p
  | .install id actual => match p.install id actual with
    | .ok p => some p
    | .error _ => some p
  | .copied number moduleId => match p.installs[number]? with
    | some ⟨connector, .copying, _⟩ =>
      some ({ p with index := p.index.insert moduleId connector.id }.setStage number .loading)
    | _ => none
  | .loaded number moduleId installPath contentHash now => match p.installs[number]? with
    | some ⟨connector, .loading, _⟩ =>
      some ({ p with
        runtimeModules := p.runtimeModules.insert moduleId connector.id
        registrations := p.registrations ++ [(connector.id, p.rejected.contains connector.id)] }.setStage
          number (.registered (connector.install installPath contentHash now)))
    | _ => none
  | .stored number => match p.installs[number]? with
    | some ⟨_, .registered result, _⟩ => some ((p.write result).setStage number .stored)
    | _ => none
  | .installFailed number => match p.installs[number]? with
    | some ⟨_, .copying, _⟩ | some ⟨_, .loading, _⟩ => some (p.setStage number .failed)
    | _ => none
  | .reject id body now uninstall => some (p.reject id body now uninstall).1

def machine : Machine ConnectorPipeline PipelineEvent := ⟨step⟩

end ConnectorPipeline

end Pinout.Connectors
