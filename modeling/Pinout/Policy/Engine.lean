import Pinout.Errors
import Mathlib.Algebra.Order.Field.Rat

/-! # The baseline policy engine

`evaluatePolicies` (`packages/core/src/policy/engine.ts`): the rules a capability's payload and the
device's operational state are checked against, in order, the first violation being thrown. Numbers
are the finite JSON numbers, as rationals; `numText` is how a number is printed. -/

namespace Pinout.Policy

open Foundation

/-- `string | number | boolean`, compared with `===`. -/
inductive Scalar
  | str (s : JsString)
  | num (q : ℚ)
  | bool (b : Bool)
  deriving DecidableEq

namespace Scalar

def toJson : Scalar → Json
  | str s => .str s
  | num q => .num q
  | bool b => .bool b

def ofJson? : Option Json → Option Scalar
  | some (.str s) => some (.str s)
  | some (.num q) => some (.num q)
  | some (.bool b) => some (.bool b)
  | _ => none

@[simp] theorem ofJson?_toJson (v : Scalar) : ofJson? (some v.toJson) = some v := by
  cases v <;> rfl

end Scalar

/-- `PolicyContext`, with the optional lease owner the safety engine adds. -/
structure PolicyContext where
  deviceId : JsString
  capability : JsString
  payload : JsonObject
  operationalState : JsonObject
  owner : Option JsString := none

/-- A bound: any number, also one that is not finite. -/
inductive Bound
  | negInfinity
  | num (q : ℚ)
  | posInfinity
  | nan
  deriving DecidableEq

/-- `a < b` on numbers; nothing is less or greater than `NaN`. -/
def Bound.lt : Bound → Bound → Bool
  | num p, num q => p < q
  | negInfinity, num _ => true
  | negInfinity, posInfinity => true
  | num _, posInfinity => true
  | _, _ => false

structure NumericRangePolicy where
  capability : JsString
  field : JsString
  min : Bound
  max : Bound
  message : Option JsString := none

structure StateEqualsPolicy where
  capability : JsString
  field : JsString
  equals : Scalar
  maxStateAgeMs : Option ℚ := none
  message : Option JsString := none

inductive Axis
  | x | y | z
  deriving DecidableEq

def Axis.name : Axis → JsString
  | .x => js "x"
  | .y => js "y"
  | .z => js "z"

structure WorkspaceBoundsPolicy where
  capability : JsString
  fields : Axis → Bound × Bound
  message : Option JsString := none

/-- `CustomPolicy`: a check of the deployment's own, which throws or returns. -/
structure CustomPolicy where
  capability : JsString
  evaluate : PolicyContext → Option Thrown

inductive PolicyRule
  | numericRange (rule : NumericRangePolicy)
  | stateEquals (rule : StateEqualsPolicy)
  | workspaceBounds (rule : WorkspaceBoundsPolicy)
  | custom (rule : CustomPolicy)

def PolicyRule.capability : PolicyRule → JsString
  | numericRange rule => rule.capability
  | stateEquals rule => rule.capability
  | workspaceBounds rule => rule.capability
  | custom rule => rule.capability

/-- `new PolicyConstraintViolation(message, metadata)`. -/
def policyConstraintViolation (message : JsString) (metadata : JsonObject) : Thrown :=
  .pinoutError (js "PolicyConstraintViolation") (js "POLICY_CONSTRAINT_VIOLATION") message metadata

/-- `new PolicyPreconditionFailed(message, metadata)`. -/
def policyPreconditionFailed (message : JsString) (metadata : JsonObject) : Thrown :=
  .pinoutError (js "PolicyPreconditionFailed") (js "POLICY_PRECONDITION_FAILED") message metadata

variable (numText : ℚ → JsString)

def contextMetadata (context : PolicyContext) : JsonObject :=
  [(js "deviceId", .str context.deviceId), (js "capability", .str context.capability)]

/-- A bound as a JSON value; what is not finite is printed as `null`. -/
def boundJson : Bound → Json
  | .num bound => .num bound
  | _ => .null

/-- `String(bound)`. -/
def Bound.text : Bound → JsString
  | negInfinity => js "-Infinity"
  | num q => numText q
  | posInfinity => js "Infinity"
  | nan => js "NaN"

/-- The bounds check of `evaluateNumericRange` and of one axis of `evaluateWorkspaceBounds`: `name`
is the metadata field that names the argument, and `notANumber` the text for an argument that is not
a number. -/
def checkBounds (context : PolicyContext) (name argument : JsString) (min max : Bound)
    (message : Option JsString) (notANumber : JsString) : Except Thrown Unit :=
  match Json.number? (context.payload.get? argument) with
  | none =>
    .error (policyConstraintViolation notANumber
      (contextMetadata context ++ [(name, .str argument)]))
  | some value =>
    if (Bound.num value).lt min ∨ max.lt (.num value) then
      .error (policyConstraintViolation
        (message.getD (argument ++ js " must be between " ++ min.text numText ++ js " and " ++
          max.text numText ++ js ", received " ++ numText value ++ js "."))
        (contextMetadata context ++ [(name, .str argument), (js "min", boundJson min),
          (js "max", boundJson max), (js "received", .num value)]))
    else .ok ()

def evaluateNumericRange (rule : NumericRangePolicy) (context : PolicyContext) :
    Except Thrown Unit :=
  checkBounds numText context (js "field") rule.field rule.min rule.max rule.message
    (rule.message.getD (rule.field ++ js " must be a finite number."))

/-- `evaluateWorkspaceBounds`. The text for an argument that is not a number ignores the rule's own
`message`, unlike `evaluateNumericRange`. -/
def evaluateWorkspaceBounds (rule : WorkspaceBoundsPolicy) (context : PolicyContext) :
    Except Thrown Unit :=
  [Axis.x, Axis.y, Axis.z].forM fun axis =>
    checkBounds numText context (js "axis") axis.name (rule.fields axis).1 (rule.fields axis).2 rule.message
      (axis.name ++ js " must be a finite number.")

/-- A detail that is left out when there is no value. -/
def detail? (name : JsString) : Option Json → JsonObject
  | some v => [(name, v)]
  | none => []

/-- `assertFreshState`: the state carries the time it was observed at, and that is neither in the
future nor more than `maxAgeMs` ago. -/
def assertFreshState (state : JsonObject) (maxAgeMs : ℚ) (context : PolicyContext) (now : ℚ) :
    Except Thrown Unit :=
  let observedAt := Json.number? (state.get? (js "observedAt"))
  let age := observedAt.map fun t => now - t
  if age.any fun a => 0 ≤ a ∧ a ≤ maxAgeMs then .ok ()
  else .error (.structuredError
    { pinoutStructuredError (js "SAFETY_STATE_STALE") .safety
        (js "State for '" ++ context.deviceId ++ js "' is missing or older than " ++
          numText maxAgeMs ++ js "ms.") with
      device := some context.deviceId
      capability := some context.capability
      details := detail? (js "observedAt") (observedAt.map .num) ++
        [(js "maxStateAgeMs", .num maxAgeMs)] ++ detail? (js "ageMs") (age.map .num) })

/-- The text of a value that may be `undefined`. -/
def textOrUndefined : Option Json → JsString
  | some v => v.text numText
  | none => js "undefined"

/-- `evaluateStateEquals`. Freshness is measured by the wall clock `dateNow`. -/
def evaluateStateEquals (rule : StateEqualsPolicy) (context : PolicyContext) (dateNow : ℚ) :
    Except Thrown Unit := do
  if let some maxStateAgeMs := rule.maxStateAgeMs then
    assertFreshState numText context.operationalState maxStateAgeMs context dateNow
  let actual := context.operationalState.get? rule.field
  if Scalar.ofJson? actual = some rule.equals then .ok ()
  else .error (policyPreconditionFailed
    (rule.message.getD (js "'" ++ context.capability ++ js "' requires " ++ rule.field ++
      js " == " ++ rule.equals.toJson.text numText ++ js ", current " ++
      textOrUndefined numText actual ++ js "."))
    (contextMetadata context ++ [(js "field", .str rule.field),
      (js "expected", rule.equals.toJson)] ++ detail? (js "actual") actual))

/-- One rule of `evaluatePolicies`. -/
def evaluatePolicy (rule : PolicyRule) (context : PolicyContext) (dateNow : ℚ) :
    Except Thrown Unit :=
  match rule with
  | .numericRange rule => evaluateNumericRange numText rule context
  | .stateEquals rule => evaluateStateEquals numText rule context dateNow
  | .workspaceBounds rule => evaluateWorkspaceBounds numText rule context
  | .custom rule => match rule.evaluate context with
    | some thrown => .error thrown
    | none => .ok ()

/-- `evaluatePolicies`: the rules of the capability, in order; the first violation is thrown. -/
def evaluatePolicies : List PolicyRule → PolicyContext → ℚ → Except Thrown Unit
  | [], _, _ => .ok ()
  | rule :: rules, context, dateNow =>
    if rule.capability ≠ context.capability then evaluatePolicies rules context dateNow
    else match evaluatePolicy numText rule context dateNow with
      | .ok () => evaluatePolicies rules context dateNow
      | .error thrown => .error thrown

/-- An invocation passes the policies exactly when it passes every rule of its capability. -/
theorem evaluatePolicies_eq_ok_iff {rules : List PolicyRule} {context : PolicyContext}
    {dateNow : ℚ} :
    evaluatePolicies numText rules context dateNow = .ok () ↔
      ∀ rule ∈ rules, rule.capability = context.capability →
        evaluatePolicy numText rule context dateNow = .ok () := by
  induction rules with
  | nil => simp [evaluatePolicies]
  | cons rule rules ih =>
    rw [evaluatePolicies, List.forall_mem_cons]
    by_cases hcap : rule.capability = context.capability
    · rw [if_neg (by simpa using hcap)]
      cases hrule : evaluatePolicy numText rule context dateNow with
      | ok _ => simpa [hcap, hrule] using ih
      | error thrown => simp [hcap]
    · rw [if_pos hcap, ih]
      simp [hcap]

end Pinout.Policy
