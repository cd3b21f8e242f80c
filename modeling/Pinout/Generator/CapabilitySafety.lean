import Pinout.Policy.Engine

/-! # Safety classes of generated capabilities

The capabilities and constraints of a `HardwareInterfaceIR` (`packages/generator/src/types/ir.ts`) and how they are
classified and made strict (`packages/generator/src/safety/capabilitySafety.ts`). Classifying keeps the constraints
it is given, and only adds stubs that need review (`exists_safety_eq_append`). -/

namespace Pinout.Generator

open Foundation Policy

/-! ## The intermediate representation -/

/-- The type of a `CandidateArgument`. -/
inductive ArgumentType
  | number | integer | string | boolean | object
  deriving DecidableEq, Repr

structure CandidateArgument where
  name : JsString
  type : ArgumentType
  description : Option JsString := none
  required : Bool := false
  minimum : Option ℚ := none
  maximum : Option ℚ := none
  enumValues : List Scalar := []

abbrev Arguments : Type := List (JsString × CandidateArgument)

/-- `CapabilitySafetyClass`. -/
inductive SafetyClass
  | readOnly | physicalOutput | unknown
  deriving DecidableEq, Repr

/-- `CandidateArgumentSchema`. -/
structure ArgumentSchema where
  properties : Arguments
  required : List JsString

structure CandidateCapability where
  id : JsString
  description : Option JsString := none
  arguments : Option Arguments := none
  output : Option Arguments := none
  inputSchema : Option ArgumentSchema := none
  outputSchema : Option ArgumentSchema := none
  safetyClass : Option SafetyClass := none
  reversible : Option Bool := none
  reversibilityNotes : Option JsString := none
  requiresApproval : Bool := false

/-- The type of a `CandidateSafetyConstraint`. -/
inductive ConstraintType
  | range | precondition | candidate
  deriving DecidableEq, Repr

/-- `CandidateSafetyConstraint`. -/
structure SafetyConstraint where
  type : ConstraintType
  capability : JsString
  argument : Option JsString := none
  field : Option JsString := none
  minimum : Option ℚ := none
  maximum : Option ℚ := none
  equals : Option Scalar := none
  message : Option JsString := none
  requiresHumanReview : Bool
  documented : Bool
  requiresApproval : Bool := false

/-- The severity of an `Uncertainty`. -/
inductive Severity
  | info | warning | critical
  deriving DecidableEq, Repr

structure Uncertainty where
  id : JsString
  message : JsString
  severity : Severity

/-- `HardwareInterfaceIR`, as far as it is classified and emitted. -/
structure HardwareInterfaceIR where
  capabilities : List CandidateCapability
  safety : List SafetyConstraint
  uncertainties : List Uncertainty

def filled (text : Option JsString) : Bool := text.any (· ≠ [])

/-! ## Hints -/

/-- What `.*` runs over: everything up to the end of the line. -/
def lineOf (text : JsString) : JsString := text.takeWhile fun u => u ≠ 10 ∧ u ≠ 13 ∧ u ≠ 0x2028 ∧ u ≠ 0x2029

/-- What `READ_ONLY_HINTS` looks for in the first line. -/
def readOnlySuffixes : List JsString :=
  [js ".read", js ".get", js ".status", js ".info", js ".hello", js ".ping", js ".scan", js ".list"]

/-- What `READ_ONLY_HINTS` looks for at the start. -/
def readOnlyPrefixes : List JsString :=
  [js "sensor.", js "temperature.read", js "humidity.read", js "pressure.read", js "mqtt.subscribe.", js "http.get."]

/-- `READ_ONLY_HINTS.test`. -/
def readOnlyHints (id : JsString) : Bool :=
  mentions readOnlySuffixes (lineOf id) || readOnlyPrefixes.any (startsWith id) ||
    (startsWith id (js "ble.gatt.") && mentions [js ".read"] (lineOf (id.drop 9)))

/-- What `PHYSICAL_OUTPUT_HINTS` looks for. -/
def physicalOutputLiterals : List JsString :=
  [js ".write", js ".set", js ".on", js ".off", js ".move", js ".home", js ".start", js ".stop", js ".arm",
    js ".disarm", js ".toggle", js ".pulse", js ".pwm", js ".servo", js ".motor", js ".batch", js ".publish",
    js ".cmd", js ".command", js "gpio.write", js "gpio.mode", js "gpio.pwm", js "gpio.servo", js "gpio.motor",
    js "gpio.pulse", js "gpio.toggle", js "gpio.batchwrite", js "gpio.stopall", js "gpio.configsafestate",
    js "sys.arm", js "sys.disarm", js "watchdog.", js "mqtt.publish.", js "http.put.", js "http.post.",
    js "http.patch.", js "http.delete."]

/-- `PHYSICAL_OUTPUT_HINTS.test`. -/
def physicalOutputHints (id : JsString) : Bool :=
  mentions physicalOutputLiterals id ||
    id.tails.any fun rest => startsWith rest (js "ble.gatt.") &&
      mentions [js ".write", js ".notify"] (lineOf (rest.drop 9))

/-- The class a capability is given, if it does not have one. -/
def safetyClassOf (cap : CandidateCapability) : SafetyClass :=
  cap.safetyClass.getD
    (if readOnlyHints cap.id then .readOnly else if physicalOutputHints cap.id then .physicalOutput else .unknown)

/-! ## Strict arguments -/

/-- `[a-zA-Z0-9]`. -/
def isWordUnit (u : UInt16) : Bool := isDigit u || (65 ≤ u && u ≤ 90) || (97 ≤ u && u ≤ 122)

/-- Runs of units that are no letters and no digits, as dashes. -/
def dashed : JsString → JsString
  | [] => []
  | [u] => if isWordUnit u then [u] else [45]
  | u :: v :: rest =>
    if isWordUnit u then u :: dashed (v :: rest)
    else if isWordUnit v then 45 :: dashed (v :: rest)
    else dashed (v :: rest)

def slug (value : JsString) : JsString :=
  let text := dashed value
  let text := if text.head? = some 45 then text.tail else text
  if text.getLast? = some 45 then text.dropLast else text

/-- What ends the id of a capability that needs no argument. -/
def plainEndings : List JsString :=
  [js ".on", js ".off", js ".arm", js ".disarm", js ".toggle", js ".stop", js ".home", js ".start"]

def buildStrictPhysicalArgs (cap : CandidateCapability) : Arguments :=
  match cap.arguments with
  | some (arg :: args) => arg :: args
  | _ =>
    if plainEndings.any fun ending => ending.isSuffixOf (cap.id.map foldUnit) then []
    else
      let description := js "Actuation value — bounds require human approval (no documented range)."
      [(js "value", { name := js "value", type := .number, required := true, description := some description })]

def toStrictSchema (args : Arguments) (requireListed : Bool) : ArgumentSchema where
  properties := args
  required := (args.filter fun entry => entry.2.required || requireListed).map (·.1)

def isDocumentedRange (capability : JsString) (s : SafetyConstraint) : Bool :=
  s.capability = capability && s.type = .range && s.documented && !s.requiresHumanReview && filled s.argument

def stub (capability argument : JsString) : SafetyConstraint where
  type := .candidate
  capability := capability
  argument := some argument
  message := some (js "NO SAFE RANGE FOUND for " ++ capability ++ 46 :: argument ++
    js " — human-supplied bounds required (requiresApproval).")
  requiresHumanReview := true
  documented := false
  requiresApproval := true

/-- What is said of a range that was only observed. -/
def observedRange (capability argument : JsString) : Uncertainty where
  id := js "observed-range-" ++ slug capability ++ 45 :: argument
  message := js "Observed sample range for " ++ capability ++ 46 :: argument ++
    js " is data, not a hard safety limit; policy remains default-deny."
  severity := .info

/-- The constraints with the stub of an argument, unless there is one already. -/
def withStub (capability argument : JsString) (safety : List SafetyConstraint) : List SafetyConstraint :=
  if safety.any fun s => s.capability = capability && s.argument = some argument && s.requiresApproval then safety
  else safety ++ [stub capability argument]

/-- The uncertainties with that of a range that was only observed. -/
def withObserved (capability name : JsString) (arg : CandidateArgument) (uncertainties : List Uncertainty) :
    List Uncertainty :=
  if arg.minimum.isSome || arg.maximum.isSome then uncertainties ++ [observedRange capability name]
  else uncertainties

/-- The default-deny stubs of arguments: the arguments, and what is added to the constraints and uncertainties. -/
def denyArguments (capability : JsString) :
    Arguments → List SafetyConstraint → List Uncertainty → Arguments × List SafetyConstraint × List Uncertainty
  | [], safety, uncertainties => ([], safety, uncertainties)
  | (name, arg) :: args, safety, uncertainties =>
    if arg.type = .number ∨ arg.type = .integer then
      let rest := denyArguments capability args (withStub capability name safety)
        (withObserved capability name arg uncertainties)
      ((name, { arg with minimum := none, maximum := none }) :: rest.1, rest.2)
    else
      let rest := denyArguments capability args safety uncertainties
      ((name, arg) :: rest.1, rest.2)

def promote (args : Arguments) (range : SafetyConstraint) : Arguments :=
  args.map fun entry =>
    if range.argument = some entry.1 then
      (entry.1, { entry.2 with minimum := range.minimum <|> entry.2.minimum
                               maximum := range.maximum <|> entry.2.maximum })
    else entry

/-- What is said of a capability that is not classified. -/
def unclassified (capability : JsString) : Uncertainty where
  id := js "safety-class-unknown-" ++ slug capability
  message := js "Capability '" ++ capability ++
    js "' could not be classified as read-only or physicalOutput; left explicit unknown."
  severity := .warning

/-- What a capability without notes is said to need. -/
def reversibilityNotes : JsString :=
  js "Physical actuation candidate — confirm reversible safe-state before hardware use."

def physicalOutput (cap : CandidateCapability) (args : Arguments) (requiresApproval : Bool) : CandidateCapability :=
  { cap with
    safetyClass := some .physicalOutput
    reversible := some (cap.reversible.getD true)
    reversibilityNotes := some (cap.reversibilityNotes.getD reversibilityNotes)
    arguments := some args
    inputSchema := some (toStrictSchema args true)
    requiresApproval }

def readOnly (cap : CandidateCapability) : CandidateCapability :=
  { cap with
    safetyClass := some .readOnly
    reversible := some true
    requiresApproval := false
    outputSchema := cap.outputSchema <|> cap.output.map fun output => toStrictSchema output false }

/-- `classifyAndStrictify`, with the constraints and uncertainties it is given and adds to. -/
def classifyAndStrictify (cap : CandidateCapability) (safety : List SafetyConstraint)
    (uncertainties : List Uncertainty) : CandidateCapability × List SafetyConstraint × List Uncertainty :=
  match safetyClassOf cap with
  | .readOnly => (readOnly cap, safety, uncertainties)
  | .unknown =>
    ({ cap with safetyClass := some .unknown, requiresApproval := true }, safety,
      uncertainties ++ [unclassified cap.id])
  | .physicalOutput =>
    let strictArgs := buildStrictPhysicalArgs cap
    let documentedRanges := safety.filter (isDocumentedRange cap.id)
    if documentedRanges = [] then
      let denied := denyArguments cap.id strictArgs safety uncertainties
      (physicalOutput cap denied.1 true, denied.2)
    else
      (physicalOutput cap (documentedRanges.foldl promote strictArgs) (documentedRanges.any (·.requiresHumanReview)),
        safety, uncertainties)

/-- The capabilities of `applyCapabilitySafetyInference`, one after the other. -/
def classifyAll : List CandidateCapability → List SafetyConstraint → List Uncertainty →
    List CandidateCapability × List SafetyConstraint × List Uncertainty
  | [], safety, uncertainties => ([], safety, uncertainties)
  | cap :: caps, safety, uncertainties =>
    let next := classifyAndStrictify cap safety uncertainties
    let rest := classifyAll caps next.2.1 next.2.2
    (next.1 :: rest.1, rest.2)

def applyCapabilitySafetyInference (ir : HardwareInterfaceIR) : HardwareInterfaceIR :=
  let classified := classifyAll ir.capabilities ir.safety ir.uncertainties
  { capabilities := classified.1, safety := classified.2.1, uncertainties := classified.2.2 }

/-! ## What classifying does -/

section Classified

variable {cap : CandidateCapability} {safety : List SafetyConstraint} {uncertainties : List Uncertainty}

theorem classifyAndStrictify_spec :
    (classifyAndStrictify cap safety uncertainties).1.id = cap.id ∧
      (classifyAndStrictify cap safety uncertainties).1.safetyClass = some (safetyClassOf cap) ∧
      (safetyClassOf cap = .readOnly → (classifyAndStrictify cap safety uncertainties).1.requiresApproval = false) ∧
      (safetyClassOf cap = .unknown → (classifyAndStrictify cap safety uncertainties).1.requiresApproval = true) := by
  unfold classifyAndStrictify
  cases hclass : safetyClassOf cap with
  | readOnly => exact ⟨rfl, rfl, fun _ => rfl, nofun⟩
  | unknown => exact ⟨rfl, rfl, nofun, fun _ => rfl⟩
  | physicalOutput =>
    dsimp only
    split
    · exact ⟨rfl, rfl, nofun, nofun⟩
    · exact ⟨rfl, rfl, nofun, nofun⟩

theorem forall₂_classifyAll (caps : List CandidateCapability) (safety : List SafetyConstraint)
    (uncertainties : List Uncertainty) :
    List.Forall₂ (fun cap next => ∃ safety uncertainties, next = (classifyAndStrictify cap safety uncertainties).1) caps
      (classifyAll caps safety uncertainties).1 := by
  induction caps generalizing safety uncertainties with
  | nil => exact .nil
  | cons cap caps ih =>
    rw [classifyAll]
    exact .cons ⟨safety, uncertainties, rfl⟩ (ih _ _)

theorem exists_denyArguments (capability : JsString) (args : Arguments) (safety : List SafetyConstraint)
    (uncertainties : List Uncertainty) :
    ∃ stubs, (denyArguments capability args safety uncertainties).2.1 = safety ++ stubs ∧
      ∀ s ∈ stubs, s.requiresHumanReview = true := by
  induction args generalizing safety uncertainties with
  | nil => exact ⟨[], (List.append_nil _).symm, fun _ hs => absurd hs List.not_mem_nil⟩
  | cons entry args ih =>
    obtain ⟨name, arg⟩ := entry
    rw [denyArguments]
    by_cases hnumber : arg.type = .number ∨ arg.type = .integer
    · rw [if_pos hnumber]
      obtain ⟨stubs, heq, hreview⟩ := ih (withStub capability name safety)
        (withObserved capability name arg uncertainties)
      obtain ⟨first, hfirst, hstub⟩ : ∃ first, withStub capability name safety = safety ++ first ∧
          ∀ s ∈ first, s.requiresHumanReview = true := by
        rw [withStub]
        by_cases halready : (safety.any fun s =>
            s.capability = capability && s.argument = some name && s.requiresApproval) = true
        · rw [if_pos halready]
          exact ⟨[], (List.append_nil _).symm, fun _ hs => absurd hs List.not_mem_nil⟩
        · rw [if_neg halready]
          exact ⟨[stub capability name], rfl, by simp [stub]⟩
      refine ⟨first ++ stubs, by rw [heq, hfirst, List.append_assoc], fun s hs => ?_⟩
      rcases List.mem_append.mp hs with hs | hs
      · exact hstub s hs
      · exact hreview s hs
    · rw [if_neg hnumber]
      exact ih safety uncertainties

theorem exists_classifyAndStrictify (cap : CandidateCapability) (safety : List SafetyConstraint)
    (uncertainties : List Uncertainty) :
    ∃ stubs, (classifyAndStrictify cap safety uncertainties).2.1 = safety ++ stubs ∧
      ∀ s ∈ stubs, s.requiresHumanReview = true := by
  have hnone : ∃ stubs, safety = safety ++ stubs ∧ ∀ s ∈ stubs, s.requiresHumanReview = true :=
    ⟨[], (List.append_nil _).symm, fun _ hs => absurd hs List.not_mem_nil⟩
  rw [classifyAndStrictify]
  cases safetyClassOf cap with
  | readOnly | unknown => exact hnone
  | physicalOutput =>
    by_cases hranges : safety.filter (isDocumentedRange cap.id) = []
    · rw [if_pos hranges]
      exact exists_denyArguments cap.id (buildStrictPhysicalArgs cap) safety uncertainties
    · rw [if_neg hranges]
      exact hnone

/-- **Classifying keeps the constraints** and adds only some that need review. -/
theorem exists_safety_eq_append (caps : List CandidateCapability) (safety : List SafetyConstraint)
    (uncertainties : List Uncertainty) :
    ∃ stubs, (classifyAll caps safety uncertainties).2.1 = safety ++ stubs ∧
      ∀ s ∈ stubs, s.requiresHumanReview = true := by
  induction caps generalizing safety uncertainties with
  | nil => exact ⟨[], (List.append_nil _).symm, fun _ hs => absurd hs List.not_mem_nil⟩
  | cons cap caps ih =>
    obtain ⟨stubs, heq, hreview⟩ := exists_classifyAndStrictify cap safety uncertainties
    obtain ⟨rest, hrest, hreview'⟩ := ih (classifyAndStrictify cap safety uncertainties).2.1
      (classifyAndStrictify cap safety uncertainties).2.2
    rw [classifyAll]
    refine ⟨stubs ++ rest, ?_, fun s hs => ?_⟩
    · rw [← List.append_assoc, ← heq, hrest]
    · rcases List.mem_append.mp hs with hs | hs
      · exact hreview s hs
      · exact hreview' s hs

end Classified

end Pinout.Generator
