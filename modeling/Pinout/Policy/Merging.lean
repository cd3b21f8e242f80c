import Mathlib.Data.List.Induction
import Pinout.Policy.Safety
import Pinout.Foundation.Fallible

/-! # Deployment rules on top of module rules

`mergeModuleAndDeploymentRules` (`packages/core/src/policy/safety.ts`): the rules of a module, and those of a deployment
that do not contradict them. Ranges and required states are compared with those of the module; workspace bounds are not.
`tightensLoudly_iff` says for which lists every widening is reported. -/

namespace Pinout.Policy

open Foundation

inductive ConstraintProvenance
  | documented | configured | inferred | unknown | conflicted
  deriving DecidableEq

structure ProvenRule where
  rule : SafetyRule
  provenance : Option ConstraintProvenance := none

/-- `{ ...deployment, provenance: deployment.provenance ?? 'CONFIGURED' }`. -/
def ProvenRule.configured (deployment : ProvenRule) : ProvenRule :=
  { deployment with provenance := some (deployment.provenance.getD .configured) }

/-- What a rule asks for, as a conflict shows it. -/
inductive ConflictSide
  | range (min max : Bound)
  | state (equals : Scalar)

inductive ConflictKind
  | rangeWidening | stateMismatch
  deriving DecidableEq

structure ConstraintConflict where
  kind : ConflictKind
  capability : JsString
  field : JsString
  module : ConflictSide
  deployment : ConflictSide
  message : JsString

section Merging

variable (numText : ℚ → JsString)

def rangeText (min max : Bound) : JsString :=
  js "[" ++ min.text numText ++ js ", " ++ max.text numText ++ js "]"

/-- The conflict of a deployment range with a rule of the module. -/
def rangeConflict? (deployment : NumericRangePolicy) : SafetyRule → Option ConstraintConflict
  | .legacy (.numericRange rule) =>
    if rule.capability = deployment.capability ∧ rule.field = deployment.field ∧
        (deployment.min.lt rule.min ∨ rule.max.lt deployment.max) then
      some
        { kind := .rangeWidening, capability := deployment.capability, field := deployment.field
          module := .range rule.min rule.max
          deployment := .range deployment.min deployment.max
          message := js "Deployment range " ++ rangeText numText deployment.min deployment.max ++
            js " would widen module range " ++ rangeText numText rule.min rule.max ++ js " for " ++
            deployment.capability ++ js "." ++ deployment.field ++ js "." }
    else none
  | _ => none

/-- The conflict of a deployment precondition with a rule of the module. -/
def stateConflict? (deployment : StateEqualsPolicy) : SafetyRule → Option ConstraintConflict
  | .legacy (.stateEquals rule) =>
    if rule.capability = deployment.capability ∧ rule.field = deployment.field ∧ rule.equals ≠ deployment.equals then
      some
        { kind := .stateMismatch, capability := deployment.capability, field := deployment.field
          module := .state rule.equals
          deployment := .state deployment.equals
          message := js "Deployment precondition " ++ deployment.field ++ js " == " ++
            deployment.equals.toJson.text numText ++ js " contradicts module requirement " ++
            rule.equals.toJson.text numText ++ js " for " ++ deployment.capability ++ js "." }
    else none
  | _ => none

/-- What `mergeModuleAndDeploymentRules` returns. -/
structure Merged where
  rules : List ProvenRule
  conflicts : List ConstraintConflict := []

/-- One turn of the loop over the deployment rules. -/
def mergeDeploymentRule (moduleRules : List ProvenRule) (merged : Merged) (deployment : ProvenRule) : Merged :=
  match deployment.rule with
  | .legacy (.numericRange range) =>
    let found := moduleRules.filterMap fun m => rangeConflict? numText range m.rule
    if found = [] then { merged with rules := merged.rules ++ [deployment.configured] }
    else { merged with conflicts := merged.conflicts ++ found }
  | .legacy (.stateEquals state) =>
    let conflicts := merged.conflicts ++ moduleRules.filterMap fun m => stateConflict? numText state m.rule
    -- The precondition is dropped for a conflict on its field, also one that an earlier precondition raised.
    if conflicts.any fun c => c.kind = .stateMismatch ∧ c.capability = state.capability ∧ c.field = state.field then
      { merged with conflicts }
    else { rules := merged.rules ++ [deployment.configured], conflicts }
  | _ => { merged with rules := merged.rules ++ [deployment.configured] }

def mergeModuleAndDeploymentRules (moduleRules deploymentRules : List ProvenRule) : Merged :=
  deploymentRules.foldl (mergeDeploymentRule numText moduleRules) { rules := moduleRules }

/-- Whether the baseline policies among the rules accept a call. -/
def Accepts (rules : List ProvenRule) (context : PolicyContext) (dateNow : ℚ) : Prop :=
  evaluatePolicies numText (rules.filterMap fun r => r.rule.legacy?) context dateNow = .ok ()

end Merging

/-! ## What a rule admits -/

def Bound.Admits (min max : Bound) (q : ℚ) : Prop :=
  ¬ (Bound.num q).lt min ∧ ¬ max.lt (.num q)

def SafetyRule.range? : SafetyRule → Option NumericRangePolicy
  | legacy (.numericRange rule) => some rule
  | _ => none

def SafetyRule.state? : SafetyRule → Option StateEqualsPolicy
  | legacy (.stateEquals rule) => some rule
  | _ => none

def SafetyRule.workspace? : SafetyRule → Option WorkspaceBoundsPolicy
  | legacy (.workspaceBounds rule) => some rule
  | _ => none

/-- A deployment range admits a number that a module range on the same argument forbids. -/
def RangeWidens (deployment module : NumericRangePolicy) : Prop :=
  module.capability = deployment.capability ∧ module.field = deployment.field ∧
    ∃ q, Bound.Admits deployment.min deployment.max q ∧ ¬ Bound.Admits module.min module.max q

/-- A deployment precondition admits a state that a module precondition on the same field forbids. -/
def StateWidens (deployment module : StateEqualsPolicy) : Prop :=
  module.capability = deployment.capability ∧ module.field = deployment.field ∧
    ∃ value, value = deployment.equals ∧ value ≠ module.equals

def WorkspaceBoundsPolicy.Admits (rule : WorkspaceBoundsPolicy) (point : Axis → ℚ) : Prop :=
  ∀ axis, Bound.Admits (rule.fields axis).1 (rule.fields axis).2 (point axis)

/-- A deployment workspace admits a point that a module workspace of the same capability forbids. -/
def WorkspaceWidens (deployment module : WorkspaceBoundsPolicy) : Prop :=
  module.capability = deployment.capability ∧ ∃ point, deployment.Admits point ∧ ¬ module.Admits point

/-- A deployment rule admits a value that a module rule of the same kind, on the same thing, forbids. -/
def Widens (deployment module : SafetyRule) : Prop :=
  (∃ d ∈ deployment.range?, ∃ m ∈ module.range?, RangeWidens d m) ∨
    (∃ d ∈ deployment.state?, ∃ m ∈ module.state?, StateWidens d m) ∨
    ∃ d ∈ deployment.workspace?, ∃ m ∈ module.workspace?, WorkspaceWidens d m

variable {numText : ℚ → JsString}

/-- The bounds check passes exactly on a number that the bounds admit. -/
theorem checkBounds_eq_ok_iff {context : PolicyContext} {name argument : JsString} {min max : Bound}
    {message : Option JsString} {notANumber : JsString} :
    checkBounds numText context name argument min max message notANumber = .ok () ↔
      ∃ q, Json.number? (context.payload.get? argument) = some q ∧ Bound.Admits min max q := by
  rw [checkBounds]
  cases Json.number? (context.payload.get? argument) with
  | none => simp
  | some q =>
    simp only [Option.some.injEq, exists_eq_left', Bound.Admits, ← not_or]
    by_cases hout : (Bound.num q).lt min = true ∨ max.lt (.num q) = true
    · simp [hout]
    · simp [hout]

theorem evaluateNumericRange_eq_ok_iff {rule : NumericRangePolicy} {context : PolicyContext} :
    evaluateNumericRange numText rule context = .ok () ↔
      ∃ q, Json.number? (context.payload.get? rule.field) = some q ∧ Bound.Admits rule.min rule.max q :=
  checkBounds_eq_ok_iff

/-! ## What is compared -/

/-- A deployment range reaches below or above a module range on the same argument. -/
def RangeContradicts (deployment module : NumericRangePolicy) : Prop :=
  module.capability = deployment.capability ∧ module.field = deployment.field ∧
    (deployment.min.lt module.min ∨ module.max.lt deployment.max)

/-- A deployment precondition asks for another value than a module precondition on the same field. -/
def StateContradicts (deployment module : StateEqualsPolicy) : Prop :=
  module.capability = deployment.capability ∧ module.field = deployment.field ∧ module.equals ≠ deployment.equals

instance (deployment module : NumericRangePolicy) : Decidable (RangeContradicts deployment module) :=
  inferInstanceAs (Decidable (_ ∧ _ ∧ _))

instance (deployment module : StateEqualsPolicy) : Decidable (StateContradicts deployment module) :=
  inferInstanceAs (Decidable (_ ∧ _ ∧ _))

/-- A deployment rule that the merge finds in conflict with a module rule. -/
def Contradicts (deployment module : SafetyRule) : Prop :=
  (∃ d ∈ deployment.range?, ∃ m ∈ module.range?, RangeContradicts d m) ∨
    ∃ d ∈ deployment.state?, ∃ m ∈ module.state?, StateContradicts d m

/-- A deployment range with a `NaN` bound admits a number beyond the module's bound on that side. -/
def RangeWidensUnseen (deployment module : NumericRangePolicy) : Prop :=
  module.capability = deployment.capability ∧ module.field = deployment.field ∧
    ∃ q, Bound.Admits deployment.min deployment.max q ∧
      (deployment.min = .nan ∧ (Bound.num q).lt module.min ∨ deployment.max = .nan ∧ module.max.lt (.num q))

/-- A widening that the merge does not look for: of a workspace, or by a range with a `NaN` bound. -/
def WidensUnseen (deployment module : SafetyRule) : Prop :=
  (∃ d ∈ deployment.range?, ∃ m ∈ module.range?, RangeWidensUnseen d m) ∨
    ∃ d ∈ deployment.workspace?, ∃ m ∈ module.workspace?, WorkspaceWidens d m

/-- A least value that admits a number is less than any bound above that number, unless it is `NaN`. -/
theorem Bound.lt_of_admits_min {min bound : Bound} {q : ℚ} (hmin : ¬ (num q).lt min) (hbound : (num q).lt bound)
    (hnan : min ≠ nan) : min.lt bound := by
  cases min <;> cases bound <;> simp_all [Bound.lt]
  exact lt_of_le_of_lt hmin hbound

/-- A greatest value that admits a number is greater than any bound below that number, unless it is `NaN`. -/
theorem Bound.lt_of_admits_max {max bound : Bound} {q : ℚ} (hmax : ¬ max.lt (num q)) (hbound : bound.lt (num q))
    (hnan : max ≠ nan) : bound.lt max := by
  cases max <;> cases bound <;> simp_all [Bound.lt]
  exact lt_of_lt_of_le hbound hmax

/-- A range that widens is found in conflict, unless the bound that matters is `NaN`. -/
theorem RangeWidens.contradicts_or_unseen {deployment module : NumericRangePolicy} (h : RangeWidens deployment module) :
    RangeContradicts deployment module ∨ RangeWidensUnseen deployment module := by
  obtain ⟨hcapability, hfield, q, hin, hout⟩ := h
  rw [Bound.Admits, not_and_or, not_not, not_not] at hout
  rcases hout with hbelow | habove
  · by_cases hnan : deployment.min = .nan
    · exact .inr ⟨hcapability, hfield, q, hin, .inl ⟨hnan, hbelow⟩⟩
    · exact .inl ⟨hcapability, hfield, .inl (Bound.lt_of_admits_min hin.1 hbelow hnan)⟩
  · by_cases hnan : deployment.max = .nan
    · exact .inr ⟨hcapability, hfield, q, hin, .inr ⟨hnan, habove⟩⟩
    · exact .inl ⟨hcapability, hfield, .inr (Bound.lt_of_admits_max hin.2 habove hnan)⟩

/-- A widening is found in conflict, unless it is one that is not looked for. -/
theorem Widens.contradicts_or_unseen {deployment module : SafetyRule} (h : Widens deployment module) :
    Contradicts deployment module ∨ WidensUnseen deployment module := by
  rcases h with ⟨d, hd, m, hm, hwidens⟩ | ⟨d, hd, m, hm, hcapability, hfield, value, rfl, hne⟩ | hworkspace
  · rcases hwidens.contradicts_or_unseen with hcontradicts | hunseen
    · exact .inl (.inl ⟨d, hd, m, hm, hcontradicts⟩)
    · exact .inr (.inl ⟨d, hd, m, hm, hunseen⟩)
  · exact .inl (.inr ⟨d, hd, m, hm, hcapability, hfield, hne.symm⟩)
  · exact .inr (.inr hworkspace)

theorem WidensUnseen.widens {deployment module : SafetyRule} (h : WidensUnseen deployment module) :
    Widens deployment module := by
  rcases h with ⟨d, hd, m, hm, hcapability, hfield, q, hin, hout⟩ | hworkspace
  · refine .inl ⟨d, hd, m, hm, hcapability, hfield, q, hin, fun hadmits => ?_⟩
    rcases hout with ⟨-, hbelow⟩ | ⟨-, habove⟩
    · exact hadmits.1 hbelow
    · exact hadmits.2 habove
  · exact .inr (.inr hworkspace)

/-! ## The merged list -/

/-- The conflict of a deployment rule with a rule of the module. -/
def conflict? (numText : ℚ → JsString) : SafetyRule → SafetyRule → Option ConstraintConflict
  | .legacy (.numericRange range) => rangeConflict? numText range
  | .legacy (.stateEquals state) => stateConflict? numText state
  | _ => fun _ => none

theorem rangeConflict?_eq_none_iff {deployment : NumericRangePolicy} {module : SafetyRule} :
    rangeConflict? numText deployment module = none ↔ ∀ m ∈ module.range?, ¬ RangeContradicts deployment m := by
  unfold rangeConflict?
  split
  · simp [SafetyRule.range?, RangeContradicts]
  · next hnot =>
    have hrange : module.range? = none := by
      unfold SafetyRule.range?
      split
      · exact absurd rfl (hnot _)
      · rfl
    simp [hrange]

/-- A precondition is in conflict with the preconditions it contradicts. -/
theorem stateConflict?_eq_none_iff {deployment : StateEqualsPolicy} {module : SafetyRule} :
    stateConflict? numText deployment module = none ↔ ∀ m ∈ module.state?, ¬ StateContradicts deployment m := by
  unfold stateConflict?
  split
  · simp [SafetyRule.state?, StateContradicts]
  · next hnot =>
    have hstate : module.state? = none := by
      unfold SafetyRule.state?
      split
      · exact absurd rfl (hnot _)
      · rfl
    simp [hstate]

/-- There is a conflict exactly when the rules contradict each other. -/
theorem conflict?_eq_none_iff {deployment module : SafetyRule} :
    conflict? numText deployment module = none ↔ ¬ Contradicts deployment module := by
  unfold conflict?
  split
  · rw [rangeConflict?_eq_none_iff]
    simp [Contradicts, SafetyRule.range?, SafetyRule.state?]
  · rw [stateConflict?_eq_none_iff]
    simp [Contradicts, SafetyRule.range?, SafetyRule.state?]
  · next hnot hnot' =>
    refine iff_of_true rfl ?_
    rintro (⟨d, hd, -⟩ | ⟨d, hd, -⟩)
    · unfold SafetyRule.range? at hd
      split at hd
      · exact absurd rfl (hnot _)
      · cases hd
    · unfold SafetyRule.state? at hd
      split at hd
      · exact absurd rfl (hnot' _)
      · cases hd

/-- One deployment rule adds its conflicts, and itself unless there is a conflict. -/
theorem mergeDeploymentRule_spec (numText : ℚ → JsString) (moduleRules : List ProvenRule) (merged : Merged)
    (deployment : ProvenRule) :
    (mergeDeploymentRule numText moduleRules merged deployment).conflicts =
        merged.conflicts ++ moduleRules.filterMap (fun m => conflict? numText deployment.rule m.rule) ∧
      ∃ added, (mergeDeploymentRule numText moduleRules merged deployment).rules = merged.rules ++ added ∧
        ((mergeDeploymentRule numText moduleRules merged deployment).conflicts = [] → added = [deployment.configured]) := by
  unfold mergeDeploymentRule
  split
  · next range hrange =>
    rw [hrange]
    dsimp only
    split
    · next hfound => exact ⟨by rw [conflict?, hfound, List.append_nil], _, rfl, fun _ => rfl⟩
    · next hfound => exact ⟨rfl, [], by rw [List.append_nil], fun hnil => absurd (List.append_eq_nil_iff.mp hnil).2 hfound⟩
  · next state hstate =>
    rw [hstate]
    dsimp only
    split
    · next hany =>
      refine ⟨rfl, [], by rw [List.append_nil], fun hnil => ?_⟩
      dsimp only at hnil
      rw [hnil] at hany
      cases hany
    · exact ⟨rfl, _, rfl, fun _ => rfl⟩
  · next hnot hnot' =>
    have hnone : conflict? numText deployment.rule = fun _ => none := by
      unfold conflict?
      split
      · next h => exact absurd h (hnot _)
      · next h => exact absurd h (hnot' _)
      · rfl
    refine ⟨?_, _, rfl, fun _ => rfl⟩
    simp [hnone]

/-- What the merge gives: the module's rules first, and no conflict exactly when no rules contradict each other; then
the deployment's rules all follow. -/
theorem mergeModuleAndDeploymentRules_spec (numText : ℚ → JsString) (moduleRules deploymentRules : List ProvenRule) :
    ((mergeModuleAndDeploymentRules numText moduleRules deploymentRules).conflicts = [] ↔
        ∀ d ∈ deploymentRules, ∀ m ∈ moduleRules, ¬ Contradicts d.rule m.rule) ∧
      ∃ added, (mergeModuleAndDeploymentRules numText moduleRules deploymentRules).rules = moduleRules ++ added ∧
        ((mergeModuleAndDeploymentRules numText moduleRules deploymentRules).conflicts = [] →
          added = deploymentRules.map ProvenRule.configured) := by
  unfold mergeModuleAndDeploymentRules
  induction deploymentRules using List.reverseRecOn with
  | nil => exact ⟨by simp, [], by simp, by simp⟩
  | append_singleton rules deployment ih =>
    obtain ⟨hconflicts, added, hrules, hadded⟩ := ih
    obtain ⟨hfound, own, hown, hkept⟩ := mergeDeploymentRule_spec numText moduleRules
      (rules.foldl (mergeDeploymentRule numText moduleRules) { rules := moduleRules }) deployment
    rw [List.foldl_append, List.foldl_cons, List.foldl_nil]
    refine ⟨?_, added ++ own, by rw [hown, hrules, List.append_assoc], fun hnil => ?_⟩
    · rw [hfound, List.append_eq_nil_iff, hconflicts, List.filterMap_eq_nil_iff]
      simp only [conflict?_eq_none_iff, List.mem_append, List.mem_singleton, or_imp, forall_and, forall_eq]
    · rw [hkept hnil, hadded (List.append_eq_nil_iff.mp (hfound ▸ hnil)).1]
      simp

/-- A list of rules accepts a call exactly when each of its baseline rules for the capability does. -/
theorem accepts_iff {rules : List ProvenRule} {context : PolicyContext} {dateNow : ℚ} :
    Accepts numText rules context dateNow ↔ ∀ r ∈ rules, ∀ rule ∈ r.rule.legacy?, rule.capability = context.capability →
      evaluatePolicy numText rule context dateNow = .ok () := by
  rw [Accepts, evaluatePolicies_eq_ok_iff]
  simp only [List.mem_filterMap]
  constructor
  · exact fun h r hr rule hrule => h rule ⟨r, hr, hrule⟩
  · rintro h rule ⟨r, hr, hrule⟩
    exact h r hr rule hrule

/-- Two lists of rules, one after the other, accept what both accept. -/
theorem accepts_append {rules rules' : List ProvenRule} {context : PolicyContext} {dateNow : ℚ} :
    Accepts numText (rules ++ rules') context dateNow ↔
      Accepts numText rules context dateNow ∧ Accepts numText rules' context dateNow := by
  rw [accepts_iff, accepts_iff, accepts_iff, List.forall_mem_append]

theorem accepts_map_configured {rules : List ProvenRule} {context : PolicyContext} {dateNow : ℚ} :
    Accepts numText (rules.map ProvenRule.configured) context dateNow ↔ Accepts numText rules context dateNow := by
  rw [accepts_iff, accepts_iff, List.forall_mem_map]
  rfl

/-! ## Deployment policies only tighten, loudly -/

/-- Deployment rules tighten those of a module, and every widening is reported. -/
structure TightensLoudly (numText : ℚ → JsString) (moduleRules deploymentRules : List ProvenRule) : Prop where
  tightens : ∀ context dateNow,
    Accepts numText (mergeModuleAndDeploymentRules numText moduleRules deploymentRules).rules context dateNow →
      Accepts numText moduleRules context dateNow
  /-- Without a conflict, the merged rules accept what both lists accept. -/
  both : (mergeModuleAndDeploymentRules numText moduleRules deploymentRules).conflicts = [] → ∀ context dateNow,
    Accepts numText (mergeModuleAndDeploymentRules numText moduleRules deploymentRules).rules context dateNow ↔
      Accepts numText moduleRules context dateNow ∧ Accepts numText deploymentRules context dateNow
  loud : ∀ d ∈ deploymentRules, ∀ m ∈ moduleRules, Widens d.rule m.rule →
    (mergeModuleAndDeploymentRules numText moduleRules deploymentRules).conflicts ≠ []

/-- **When every widening is reported.** The merge tightens in any case; every widening is reported exactly when some
rules contradict each other, or none widens a workspace or, by a `NaN` bound, a range. -/
theorem tightensLoudly_iff (numText : ℚ → JsString) (moduleRules deploymentRules : List ProvenRule) :
    TightensLoudly numText moduleRules deploymentRules ↔
      (∃ d ∈ deploymentRules, ∃ m ∈ moduleRules, Contradicts d.rule m.rule) ∨
        ∀ d ∈ deploymentRules, ∀ m ∈ moduleRules, ¬ WidensUnseen d.rule m.rule := by
  obtain ⟨hconflicts, added, hrules, hadded⟩ :=
    mergeModuleAndDeploymentRules_spec numText moduleRules deploymentRules
  constructor
  · intro h
    by_cases hcontradicts : ∃ d ∈ deploymentRules, ∃ m ∈ moduleRules, Contradicts d.rule m.rule
    · exact .inl hcontradicts
    · refine .inr fun d hd m hm hunseen => h.loud d hd m hm hunseen.widens (hconflicts.mpr fun d hd m hm hno => ?_)
      exact hcontradicts ⟨d, hd, m, hm, hno⟩
  · intro h
    refine ⟨fun context dateNow haccepts => ?_, fun hnil context dateNow => ?_, fun d hd m hm hwidens hnil => ?_⟩
    · rw [hrules, accepts_append] at haccepts
      exact haccepts.1
    · rw [hrules, hadded hnil, accepts_append, accepts_map_configured]
    · have hnone := hconflicts.mp hnil
      rcases h with ⟨d', hd', m', hm', hcontradicts⟩ | hseen
      · exact hnone d' hd' m' hm' hcontradicts
      · rcases hwidens.contradicts_or_unseen with hcontradicts | hunseen
        · exact hnone d hd m hm hcontradicts
        · exact hseen d hd m hm hunseen

/-- A workspace of `size` on each axis, for moving. -/
def moveWithin (size : ℚ) : ProvenRule :=
  { rule := .legacy (.workspaceBounds { capability := js "move", fields := fun _ => (.num 0, .num size) }) }

/-- A deployment that doubles the workspace of a module is not reported. -/
theorem not_tightensLoudly : ¬ ∀ (numText : ℚ → JsString) (moduleRules deploymentRules : List ProvenRule),
    TightensLoudly numText moduleRules deploymentRules := by
  intro h
  refine (h (fun _ => []) [moveWithin 1] [moveWithin 2]).loud (moveWithin 2) (by simp) (moveWithin 1) (by simp) ?_ rfl
  refine .inr (.inr ⟨_, rfl, _, rfl, rfl, fun _ => 2, fun axis => ?_, fun hadmits => ?_⟩)
  · simp [Bound.Admits, Bound.lt]
  · exact (hadmits .x).2 (by simp [Bound.lt])

end Pinout.Policy
