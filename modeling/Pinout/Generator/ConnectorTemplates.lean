import Pinout.Generator.CapabilitySafety
import Pinout.Runtime.Runtime

/-! # What a generated connector emits

The capabilities that `buildCapabilities` emits (`packages/generator/src/emit/connectorTemplates.ts`), as `action`
and `sensorRead` (`packages/core/src/module/action.ts`) make descriptors of them; the report of `generateConnector`
(`packages/generator/src/pipeline/generateConnector.ts`) and what the daemon makes of it
(`packages/daemon/src/connectors/generateAdapter.ts`). What is reported to need approval is emitted as a physical
output exactly when every capability is classified (`gated_iff_classified`). -/

namespace Pinout.Generator

open Foundation Policy

/-! ## Descriptors -/

structure PropertySchema where
  type : ArgumentType
  description : Option JsString := none
  minimum : Option ℚ := none
  maximum : Option ℚ := none
  enumValues : List Scalar := []

/-- The schema of an object without additional properties. -/
structure ObjectSchema where
  properties : List (JsString × PropertySchema) := []
  required : List JsString := []

structure CapabilitySafety where
  physicalOutput : Bool
  reversible : Bool
  notes : Option JsString := none
  deriving DecidableEq

/-- `CapabilityDescriptor`, of a module. -/
structure ModuleCapability where
  name : JsString
  description : JsString
  inputSchema : ObjectSchema
  outputSchema : ObjectSchema
  safety : CapabilitySafety

/-- The descriptor that the runtime and its gates go by. -/
def ModuleCapability.descriptor (capability : ModuleCapability) : Runtime.CapabilityDescriptor where
  name := capability.name
  physicalOutput := capability.safety.physicalOutput

inductive EmittedCapability
  | sensorRead (id description : JsString) (output : ObjectSchema)
  | action (id description : JsString) (input output : ObjectSchema) (safety : CapabilitySafety)

/-- `action` and `sensorRead`. -/
def EmittedCapability.evaluate : EmittedCapability → ModuleCapability
  | sensorRead id description output =>
    { name := id, description, inputSchema := {}, outputSchema := output
      safety := { physicalOutput := false, reversible := true } }
  | action id description input output safety =>
    { name := id, description, inputSchema := input, outputSchema := output, safety }

/-- A capability that is emitted as a plain read. -/
def EmittedCapability.isSensorRead : EmittedCapability → Bool
  | sensorRead .. => true
  | action .. => false

/-! ## The templates -/

/-- The bounds of an argument are those of a documented range, where it has any. -/
def propertySchema (range : Option SafetyConstraint) (arg : CandidateArgument) : PropertySchema where
  type := arg.type
  description := arg.description.filter (· ≠ [])
  minimum := range.bind fun range => range.minimum <|> arg.minimum
  maximum := range.bind fun range => range.maximum <|> arg.maximum
  enumValues := arg.enumValues

/-- `schemaPropsFromArgs`, of the constraints of a capability, if there are any. -/
def schemaPropsFromArgs (args : Arguments) (safety : List SafetyConstraint) (capability : Option JsString) :
    List (JsString × PropertySchema) :=
  args.map fun (key, arg) =>
    let range := safety.find? fun s => capability = some s.capability && s.argument = some key && s.documented &&
      !s.requiresHumanReview && s.type = .range
    (key, propertySchema range arg)

def safetyBlock (cap : CandidateCapability) : CapabilitySafety where
  physicalOutput := cap.safetyClass = some .physicalOutput
  reversible := cap.reversible.getD (cap.safetyClass ≠ some .physicalOutput)
  notes := cap.reversibilityNotes <|>
    if cap.requiresApproval then
      some (js "requiresApproval: human-supplied ranges / review required before hardware use.")
    else none

def isRead (cap : CandidateCapability) : Bool :=
  cap.safetyClass = some .readOnly ||
    ((js ".read").isSuffixOf cap.id && cap.safetyClass ≠ some .physicalOutput)

def capabilityDescriptor (cap : CandidateCapability) (safety : List SafetyConstraint) : EmittedCapability :=
  let description := cap.description.getD cap.id
  let args := cap.arguments.getD []
  if isRead cap ∧ args = [] then
    let output := cap.output.getD [(js "value", { name := js "value", type := .number })]
    .sensorRead cap.id description { properties := schemaPropsFromArgs output [] none }
  else
    .action cap.id description
      { properties := schemaPropsFromArgs args safety (some cap.id)
        required := (args.filter fun entry => entry.2.required).map (·.1) }
      { properties := [(js "ok", { type := .boolean })] } (safetyBlock cap)

/-! ## The pipeline -/

/-- The placeholder of a source without capabilities. -/
def unresolved : CandidateCapability where
  id := js "generator.unresolved"
  description := some
    (js "Explicit placeholder: source yielded zero device capabilities. Not a hardware action.")
  safetyClass := some .readOnly
  reversible := some true

def ensureModuleCapabilityFloor (ir : HardwareInterfaceIR) : HardwareInterfaceIR :=
  if ir.capabilities = [] then
    { ir with
      capabilities := [unresolved]
      uncertainties := ir.uncertainties ++
        [{ id := js "no-capabilities-discovered"
           message := js ("No device capabilities were discovered; emitted generator.unresolved " ++
             "placeholder only.")
           severity := .critical }] }
  else ir

/-- `GenerateConnectorResult`, as far as it is about capabilities. -/
structure GenerateConnectorResult where
  capabilities : List CandidateCapability
  safety : List SafetyConstraint
  emitted : List EmittedCapability
  pendingApprovals : List JsString
  uncertainties : List Uncertainty

def isPending (cap : CandidateCapability) : Bool := cap.requiresApproval || cap.safetyClass = some .physicalOutput

/-- `generateConnector`, of an IR; naming an unknown device changes the device only. -/
def generateConnector (ir : HardwareInterfaceIR) : GenerateConnectorResult :=
  let named := applyCapabilitySafetyInference (ensureModuleCapabilityFloor ir)
  { capabilities := named.capabilities
    safety := named.safety
    emitted := named.capabilities.map fun cap => capabilityDescriptor cap named.safety
    pendingApprovals := (named.capabilities.filter isPending).map (·.id)
    uncertainties := named.uncertainties }

structure GenerateConnectorCapability where
  name : JsString
  description : Option JsString
  physicalOutput : Bool
  reversible : Bool := true

/-- A capability of `adaptGeneratorResult`. -/
def adaptCapability (cap : CandidateCapability) : GenerateConnectorCapability where
  name := cap.id
  description := cap.description
  physicalOutput := cap.safetyClass = some .physicalOutput || cap.requiresApproval

/-- The capabilities of `adaptGeneratorResult`. -/
def adaptGeneratorResult (generated : GenerateConnectorResult) : List GenerateConnectorCapability :=
  generated.capabilities.map adaptCapability

/-! ## What needs approval is gated -/

/-- A capability, the text that is emitted for it and what the daemon records of it: if it is pending or recorded as
a physical output, the runtime takes it for one, and if it is not classified, it is no plain read. -/
structure Gated (cap : CandidateCapability) (emitted : EmittedCapability) (recorded : GenerateConnectorCapability) :
    Prop where
  pending : isPending cap = true → emitted.evaluate.descriptor.physicalOutput = true
  recorded : recorded.physicalOutput = true → emitted.evaluate.descriptor.physicalOutput = true
  unknown : cap.safetyClass = some .unknown → emitted.isSensorRead = false

/-- Every capability of a generated connector is gated. -/
def AllGated (generated : GenerateConnectorResult) : Prop :=
  ∀ (n : Nat) (cap : CandidateCapability) (emitted : EmittedCapability) (recorded : GenerateConnectorCapability),
    generated.capabilities[n]? = some cap → generated.emitted[n]? = some emitted →
      (adaptGeneratorResult generated)[n]? = some recorded → Gated cap emitted recorded

/-- A capability is emitted as a physical output exactly when it is one. -/
theorem physicalOutput_capabilityDescriptor (cap : CandidateCapability) (safety : List SafetyConstraint) :
    (capabilityDescriptor cap safety).evaluate.descriptor.physicalOutput =
      decide (cap.safetyClass = some .physicalOutput) := by
  rw [capabilityDescriptor]
  split
  · next h =>
    have hclass : cap.safetyClass ≠ some .physicalOutput := by
      have hread := h.1
      rw [isRead, Bool.or_eq_true, Bool.and_eq_true, decide_eq_true_eq, decide_eq_true_eq] at hread
      rcases hread with hclass | ⟨-, hclass⟩
      · rw [hclass]
        exact nofun
      · exact hclass
    exact (decide_eq_false hclass).symm
  · rfl

/-- A classified capability is gated exactly when its class is known. -/
theorem gated_iff {cap : CandidateCapability} {safety safety' : List SafetyConstraint}
    {uncertainties : List Uncertainty} :
    Gated (classifyAndStrictify cap safety uncertainties).1
        (capabilityDescriptor (classifyAndStrictify cap safety uncertainties).1 safety')
        (adaptCapability (classifyAndStrictify cap safety uncertainties).1) ↔
      safetyClassOf cap ≠ .unknown := by
  obtain ⟨-, hclass, hread, hunknown⟩ := @classifyAndStrictify_spec cap safety uncertainties
  generalize (classifyAndStrictify cap safety uncertainties).1 = next at *
  constructor
  · intro h heq
    have hphysical := h.pending (by rw [isPending, hunknown heq, Bool.true_or])
    rw [physicalOutput_capabilityDescriptor, decide_eq_true_eq, hclass, heq] at hphysical
    cases hphysical
  · intro hne
    have hphysical : next.requiresApproval = true ∨ next.safetyClass = some .physicalOutput →
        next.safetyClass = some .physicalOutput := by
      rintro (happroval | hphysical)
      · cases h : safetyClassOf cap with
        | readOnly =>
          rw [hread h] at happroval
          cases happroval
        | unknown => exact absurd h hne
        | physicalOutput => rw [hclass, h]
      · exact hphysical
    refine ⟨fun h => ?_, fun h => ?_, fun h => ?_⟩
    · rw [physicalOutput_capabilityDescriptor, decide_eq_true_eq]
      exact hphysical (by simpa [isPending] using h)
    · rw [physicalOutput_capabilityDescriptor, decide_eq_true_eq]
      exact hphysical (by simpa [adaptCapability, or_comm] using h)
    · rw [hclass] at h
      exact absurd (Option.some.inj h) hne

theorem allGated_iff (ir : HardwareInterfaceIR) :
    AllGated (generateConnector ir) ↔ ∀ next ∈ (generateConnector ir).capabilities,
      Gated next (capabilityDescriptor next (generateConnector ir).safety) (adaptCapability next) := by
  constructor
  · intro h next hnext
    obtain ⟨n, hn⟩ := List.mem_iff_getElem?.mp hnext
    refine h n next _ _ hn ?_ ?_
    · rw [generateConnector] at hn ⊢
      dsimp only at hn ⊢
      rw [List.getElem?_map, hn, Option.map_some]
    · rw [adaptGeneratorResult, List.getElem?_map, hn, Option.map_some]
  · intro h n next emitted recorded hnext hemitted hrecorded
    have hgated := h next (List.mem_of_getElem? hnext)
    rw [adaptGeneratorResult, List.getElem?_map, hnext, Option.map_some] at hrecorded
    have hemit : (generateConnector ir).emitted =
        (generateConnector ir).capabilities.map fun cap => capabilityDescriptor cap (generateConnector ir).safety := rfl
    rw [hemit, List.getElem?_map, hnext, Option.map_some] at hemitted
    rwa [← Option.some.inj hemitted, ← Option.some.inj hrecorded]

/-- What holds of one list exactly when something holds of a list it is related to. -/
theorem forall_mem_iff_of_forall₂ {α β : Type} {R : α → β → Prop} {P : α → Prop} {Q : β → Prop} {l : List α}
    {l' : List β} (h : List.Forall₂ R l l') (hiff : ∀ a b, R a b → (Q b ↔ P a)) :
    (∀ b ∈ l', Q b) ↔ ∀ a ∈ l, P a := by
  induction h with
  | nil => simp
  | cons hab _ ih => rw [List.forall_mem_cons, List.forall_mem_cons, hiff _ _ hab, ih]

/-- **What needs approval is gated exactly when every capability is classified.** -/
theorem gated_iff_classified (ir : HardwareInterfaceIR) :
    AllGated (generateConnector ir) ↔ ∀ cap ∈ ir.capabilities, safetyClassOf cap ≠ .unknown := by
  have hfloor : (∀ cap ∈ (ensureModuleCapabilityFloor ir).capabilities, safetyClassOf cap ≠ .unknown) ↔
      ∀ cap ∈ ir.capabilities, safetyClassOf cap ≠ .unknown := by
    rw [ensureModuleCapabilityFloor]
    by_cases hnil : ir.capabilities = []
    · rw [if_pos hnil, hnil]
      have hplaceholder : safetyClassOf unresolved ≠ .unknown := by decide
      simpa using hplaceholder
    · rw [if_neg hnil]
  rw [allGated_iff, ← hfloor]
  refine forall_mem_iff_of_forall₂ (forall₂_classifyAll (ensureModuleCapabilityFloor ir).capabilities
    (ensureModuleCapabilityFloor ir).safety (ensureModuleCapabilityFloor ir).uncertainties) ?_
  rintro cap next ⟨safety, uncertainties, rfl⟩
  exact gated_iff

/-- Capabilities that are not classified: one by its name, one by its source. -/
def unclassifiedIr : HardwareInterfaceIR where
  capabilities := [{ id := js "valve.adjust" }, { id := js "probe.read", safetyClass := some .unknown }]
  safety := []
  uncertainties := []

/-- A capability that is pending is no physical output, and one that is not classified is a plain read. -/
theorem not_allGated :
    ¬ AllGated (generateConnector unclassifiedIr) ∧
      (generateConnector unclassifiedIr).pendingApprovals = [js "valve.adjust", js "probe.read"] ∧
      (adaptGeneratorResult (generateConnector unclassifiedIr)).map (·.physicalOutput) = [true, true] ∧
      (generateConnector unclassifiedIr).emitted.map (·.evaluate.descriptor.physicalOutput) = [false, false] ∧
      (generateConnector unclassifiedIr).emitted.map (·.isSensorRead) = [false, true] := by
  have hread : (generateConnector unclassifiedIr).emitted.map (·.isSensorRead) = [false, true] := by decide +kernel
  refine ⟨fun h => ?_, ?_, ?_, ?_, hread⟩
  · have hgated := (allGated_iff unclassifiedIr).mp h
    have hall : ((generateConnector unclassifiedIr).capabilities.all fun next =>
        !(capabilityDescriptor next []).isSensorRead || next.safetyClass ≠ some .unknown) = false := by decide +kernel
    rw [List.all_eq_false] at hall
    obtain ⟨next, hnext, hfalse⟩ := hall
    have hunknown := (hgated next hnext).unknown
    have hsafety : (generateConnector unclassifiedIr).safety = [] := rfl
    rw [hsafety] at hunknown
    by_cases hclass : next.safetyClass = some .unknown
    · simp [hclass, hunknown hclass] at hfalse
    · simp [hclass] at hfalse
  all_goals decide +kernel

end Pinout.Generator
