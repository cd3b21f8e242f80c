import Mathlib.Data.List.Induction
import Mathlib.Tactic.Linarith
import Pinout.Foundation.InsertionMap
import Pinout.Generator.ConnectorTemplates

/-! # What emitted policies mean

The declarative policies that are emitted for the constraints of an IR (`buildDeclarativePolicies` of
`packages/generator/src/emit/connectorTemplates.ts` and of `moduleEmitter.ts`) and the rules the runtime makes of them
(`policiesFromDeclarative`, `packages/core/src/module/policies.ts`). Constraints are folded into a map, where the last
on a name stays; the rules accept what the constraints admit exactly when the last says what all of them say
(`meant_iff_kept`). -/

namespace Pinout.Generator

open Foundation Policy

/-! ## Declarative policies -/

/-- `DeclarativeNumericConstraint`. -/
structure NumericConstraint where
  min : Option ℚ
  max : Option ℚ

/-- `DeclarativeCapabilityPolicy`. -/
structure CapabilityPolicy where
  constraints : Option (InsertionMap JsString NumericConstraint) := none
  requires : Option (InsertionMap JsString Scalar) := none

/-- `DeclarativePolicyMap`. -/
abbrev PolicyMap : Type := InsertionMap JsString CapabilityPolicy

/-- The rule of a bounded field, if it has a bound. -/
def rangeRule (capability : JsString) (entry : JsString × NumericConstraint) : Option PolicyRule :=
  match entry.2.min, entry.2.max with
  | none, none => none
  | min, max => some (.numericRange
      { capability, field := entry.1, min := min.elim .negInfinity .num, max := max.elim .posInfinity .num })

def stateRule (capability : JsString) (entry : JsString × Scalar) : PolicyRule :=
  .stateEquals { capability, field := entry.1, equals := entry.2 }

def rulesOf (capability : JsString) (policy : CapabilityPolicy) : List PolicyRule :=
  (policy.constraints.elim [] fun constraints => constraints.entries.filterMap (rangeRule capability)) ++
    policy.requires.elim [] fun required => required.entries.map (stateRule capability)

def policiesFromDeclarative (map : PolicyMap) : List PolicyRule :=
  map.entries.flatMap fun (capability, policy) => rulesOf capability policy

/-! ## What is emitted -/

def inheritedNames : List JsString :=
  [js "constructor", js "__defineGetter__", js "__defineSetter__", js "hasOwnProperty", js "__lookupGetter__",
    js "__lookupSetter__", js "isPrototypeOf", js "propertyIsEnumerable", js "toString", js "valueOf",
    js "__proto__", js "toLocaleString"]

/-- The name that is no name of a property of one's own. -/
def proto : JsString := js "__proto__"

/-- `String(equals)`. -/
def equalsText (numText : ℚ → JsString) : Option Scalar → JsString
  | some value => value.toJson.text numText
  | none => js "undefined"

section Emission

variable (numText : ℚ → JsString) (skips : SafetyConstraint → Bool)

def boundedArgument (c : SafetyConstraint) : Option JsString :=
  if c.type = .range then c.argument.filter (· ≠ []) else none

def requiredField (c : SafetyConstraint) : Option JsString :=
  if c.type = .precondition then c.field.filter (· ≠ []) else none

def boundsOf (c : SafetyConstraint) : NumericConstraint := { min := c.minimum, max := c.maximum }

/-- The policy of a capability, with one more constraint; assigning `__proto__` adds no property. -/
def addConstraint (policy : CapabilityPolicy) (c : SafetyConstraint) : CapabilityPolicy where
  constraints := match boundedArgument c with
    | some argument =>
      let constraints := policy.constraints.getD .empty
      some (if argument = proto then constraints else constraints.insert argument (boundsOf c))
    | none => policy.constraints
  requires := match requiredField c with
    | some field =>
      let required := policy.requires.getD .empty
      some (if field = proto then required else required.insert field (.str (equalsText numText c.equals)))
    | none => policy.requires

/-- One constraint of `buildDeclarativePolicies`. What is found under an inherited name is a function, or the
prototype itself, and not emitted. -/
def addPolicy (policies : PolicyMap) (c : SafetyConstraint) : PolicyMap :=
  if skips c ∨ c.capability ∈ inheritedNames then policies
  else policies.insert c.capability (addConstraint numText ((policies.get? c.capability).getD {}) c)

def buildDeclarativePolicies (safety : List SafetyConstraint) : PolicyMap :=
  safety.foldl (addPolicy numText skips) .empty

end Emission

/-- What `buildDeclarativePolicies` of `connectorTemplates.ts` skips. -/
def connectorSkips (c : SafetyConstraint) : Bool := c.requiresApproval || c.requiresHumanReview || !c.documented

/-- What `buildDeclarativePolicies` of `moduleEmitter.ts` skips. -/
def moduleSkips (c : SafetyConstraint) : Bool := c.requiresHumanReview || !c.documented

/-! ## What the rules accept -/

section Rules

variable {numText : ℚ → JsString} {capability : JsString} {policies : PolicyMap}

def NumericConstraint.Contains (bounds : NumericConstraint) (q : ℚ) : Prop :=
  (∀ lo ∈ bounds.min, lo ≤ q) ∧ ∀ hi ∈ bounds.max, q ≤ hi

/-- An argument within bounds; without bounds there is nothing to check. -/
def NumericConstraint.Admits (bounds : NumericConstraint) (argument : Option Json) : Prop :=
  (bounds.min = none ∧ bounds.max = none) ∨ ∃ q, argument = some (.num q) ∧ bounds.Contains q

/-- What a part of the policies of a capability says of a name. -/
def PolicyMap.look {ν : Type} (policies : PolicyMap) (part : CapabilityPolicy → Option (InsertionMap JsString ν))
    (capability name : JsString) : Option ν :=
  ((policies.get? capability).bind part).bind (·.get? name)

def PolicyMap.bounds? (policies : PolicyMap) (capability argument : JsString) : Option NumericConstraint :=
  policies.look CapabilityPolicy.constraints capability argument

/-- The value that a field must have for a capability. -/
def PolicyMap.required? (policies : PolicyMap) (capability field : JsString) : Option Scalar :=
  policies.look CapabilityPolicy.requires capability field

theorem number?_eq_some {value : Option Json} {q : ℚ} : Json.number? value = some q ↔ value = some (.num q) := by
  rcases value with - | ⟨- | - | - | - | - | -⟩ <;> simp [Json.number?]

theorem evaluate_rangeRule {entry : JsString × NumericConstraint} {rule : PolicyRule} {context : PolicyContext}
    {now : ℚ} (h : rangeRule capability entry = some rule) :
    evaluatePolicy numText rule context now = .ok () ↔
      ∃ q, context.payload.get? entry.1 = some (.num q) ∧ entry.2.Contains q := by
  have hrule : rule = .numericRange
      { capability, field := entry.1
        min := entry.2.min.elim .negInfinity .num, max := entry.2.max.elim .posInfinity .num } := by
    unfold rangeRule at h
    split at h
    · cases h
    · exact (Option.some.inj h).symm
  subst hrule
  rw [evaluatePolicy, evaluateNumericRange, checkBounds]
  dsimp only
  cases hvalue : Json.number? (context.payload.get? entry.1) with
  | none =>
    refine iff_of_false (by rintro ⟨⟩) ?_
    rintro ⟨q, hq, -⟩
    rw [number?_eq_some.mpr hq] at hvalue
    cases hvalue
  | some q =>
    have hpayload := number?_eq_some.mp hvalue
    have hiff : ((Bound.num q).lt (entry.2.min.elim .negInfinity .num) ∨
        (entry.2.max.elim Bound.posInfinity .num).lt (.num q)) ↔ ¬ entry.2.Contains q := by
      rw [NumericConstraint.Contains]
      cases entry.2.min <;> cases entry.2.max <;> simp [Bound.lt, imp_iff_not_or, not_le]
    dsimp only
    by_cases hcontains : entry.2.Contains q
    · rw [if_neg (by rw [hiff]; exact fun h => h hcontains)]
      exact iff_of_true rfl ⟨q, hpayload, hcontains⟩
    · rw [if_pos (by rw [hiff]; exact hcontains)]
      refine iff_of_false (by rintro ⟨⟩) ?_
      rintro ⟨r, hr, hcontains'⟩
      obtain rfl := Json.num.inj (Option.some.inj (hpayload.symm.trans hr))
      exact hcontains hcontains'

theorem evaluate_stateRule {entry : JsString × Scalar} {context : PolicyContext} {now : ℚ} :
    evaluatePolicy numText (stateRule capability entry) context now = .ok () ↔
      Scalar.ofJson? (context.operationalState.get? entry.1) = some entry.2 := by
  rw [stateRule, evaluatePolicy, evaluateStateEquals]
  by_cases h : Scalar.ofJson? (context.operationalState.get? entry.1) = some entry.2
  · simp [h]
  · simp [h]

theorem mem_policiesFromDeclarative {rule : PolicyRule} :
    (rule ∈ policiesFromDeclarative policies ∧ rule.capability = capability) ↔
      ∃ policy, policies.get? capability = some policy ∧ rule ∈ rulesOf capability policy := by
  have hcapability : ∀ {name policy}, rule ∈ rulesOf name policy → rule.capability = name := by
    intro name policy hrule
    rw [rulesOf, List.mem_append] at hrule
    rcases hrule with hrule | hrule
    · cases hconstraints : policy.constraints with
      | none => simp [hconstraints] at hrule
      | some constraints =>
        rw [hconstraints, Option.elim_some, List.mem_filterMap] at hrule
        obtain ⟨entry, -, heq⟩ := hrule
        unfold rangeRule at heq
        split at heq
        · cases heq
        · rw [← Option.some.inj heq]
          rfl
    · cases hrequires : policy.requires with
      | none => simp [hrequires] at hrule
      | some required =>
        rw [hrequires, Option.elim_some, List.mem_map] at hrule
        obtain ⟨entry, -, rfl⟩ := hrule
        rfl
  rw [policiesFromDeclarative, List.mem_flatMap]
  constructor
  · rintro ⟨⟨⟨name, policy⟩, hmem, hrule⟩, rfl⟩
    rw [hcapability hrule]
    exact ⟨policy, InsertionMap.get?_eq_some_iff.mpr hmem, hrule⟩
  · rintro ⟨policy, hget, hrule⟩
    exact ⟨⟨(capability, policy), InsertionMap.get?_eq_some_iff.mp hget, hrule⟩, hcapability hrule⟩

/-- **What the rules accept**: every bounded argument within its bounds, every required field at its value. -/
theorem evaluatePolicies_declarative_iff {context : PolicyContext} {now : ℚ} :
    evaluatePolicies numText (policiesFromDeclarative policies) context now = .ok () ↔
      (∀ argument bounds, policies.bounds? context.capability argument = some bounds →
        bounds.Admits (context.payload.get? argument)) ∧
      ∀ field value, policies.required? context.capability field = some value →
        Scalar.ofJson? (context.operationalState.get? field) = some value := by
  rw [evaluatePolicies_eq_ok_iff]
  have hrules : (∀ rule ∈ policiesFromDeclarative policies, rule.capability = context.capability →
      evaluatePolicy numText rule context now = .ok ()) ↔
      ∀ policy, policies.get? context.capability = some policy → ∀ rule ∈ rulesOf context.capability policy,
        evaluatePolicy numText rule context now = .ok () := by
    constructor
    · intro h policy hget rule hrule
      obtain ⟨hmem, hcapability⟩ := mem_policiesFromDeclarative.mpr ⟨policy, hget, hrule⟩
      exact h rule hmem hcapability
    · intro h rule hmem hcapability
      obtain ⟨policy, hget, hrule⟩ := mem_policiesFromDeclarative.mp ⟨hmem, hcapability⟩
      exact h policy hget rule hrule
  rw [hrules]
  cases hget : policies.get? context.capability with
  | none => simp [PolicyMap.bounds?, PolicyMap.required?, PolicyMap.look, hget]
  | some policy =>
    simp only [PolicyMap.bounds?, PolicyMap.required?, PolicyMap.look, hget, Option.bind_some, Option.some.injEq, forall_eq',
      rulesOf, List.forall_mem_append]
    refine and_congr ?_ ?_
    · cases policy.constraints with
      | none => simp
      | some constraints =>
        rw [Option.elim_some]
        constructor
        · intro h argument bounds hbounds
          rw [Option.bind_some, InsertionMap.get?_eq_some_iff] at hbounds
          by_cases hnone : bounds.min = none ∧ bounds.max = none
          · exact .inl hnone
          · cases hrule : rangeRule context.capability (argument, bounds) with
            | none =>
              unfold rangeRule at hrule
              split at hrule
              · next hmin hmax => exact absurd ⟨hmin, hmax⟩ hnone
              · cases hrule
            | some rule =>
              exact .inr ((evaluate_rangeRule hrule).mp
                (h rule (List.mem_filterMap.mpr ⟨_, hbounds, hrule⟩)))
        · intro h rule hrule
          obtain ⟨⟨argument, bounds⟩, hmem, hrule⟩ := List.mem_filterMap.mp hrule
          rw [evaluate_rangeRule hrule]
          rcases h argument bounds (InsertionMap.get?_eq_some_iff.mpr hmem) with ⟨hmin, hmax⟩ | hcontains
          · simp [rangeRule, hmin, hmax] at hrule
          · exact hcontains
    · cases policy.requires with
      | none => simp
      | some required =>
        simp only [Option.elim_some, List.forall_mem_map, evaluate_stateRule, Option.bind_some,
          InsertionMap.get?_eq_some_iff, Prod.forall]

end Rules

/-! ## What the map keeps -/

section Kept

variable {numText : ℚ → JsString} {skips : SafetyConstraint → Bool} {safety : List SafetyConstraint}
  {capability name : JsString}

/-- The constraints that are taken for a capability. -/
def taken (skips : SafetyConstraint → Bool) (capability : JsString) (c : SafetyConstraint) : Bool :=
  !skips c && c.capability = capability

/-- Whether a name can be a property of the emitted map. -/
def emittable (capability name : JsString) : Bool := capability ∉ inheritedNames && name ≠ proto

/-- The last constraint that bounds an argument of a capability. -/
def lastRange (skips : SafetyConstraint → Bool) (safety : List SafetyConstraint) (capability argument : JsString) :
    Option SafetyConstraint :=
  safety.reverse.find? fun c => taken skips capability c && boundedArgument c = some argument

/-- The last constraint that asks for a field for a capability. -/
def lastPrecondition (skips : SafetyConstraint → Bool) (safety : List SafetyConstraint)
    (capability field : JsString) : Option SafetyConstraint :=
  safety.reverse.find? fun c => taken skips capability c && requiredField c = some field

section Part

variable {ν : Type} {part : CapabilityPolicy → Option (InsertionMap JsString ν)}
  {key : SafetyConstraint → Option JsString} {value : SafetyConstraint → ν}

variable (hnone : part {} = none)
  (hadd : ∀ policy c, part (addConstraint numText policy c) = match key c with
    | some name => some (if name = proto then (part policy).getD .empty
        else ((part policy).getD .empty).insert name (value c))
    | none => part policy)

include hnone hadd

theorem look_addPolicy (policies : PolicyMap) (c : SafetyConstraint) (h : emittable capability name = true) :
    (addPolicy numText skips policies c).look part capability name =
      if taken skips capability c && key c = some name then some (value c)
      else policies.look part capability name := by
  rw [emittable, Bool.and_eq_true, decide_eq_true_eq, decide_eq_true_eq] at h
  rw [addPolicy, taken]
  by_cases hcapability : c.capability = capability
  · subst hcapability
    by_cases hskips : skips c = true
    · rw [if_pos (.inl hskips), hskips]
      rfl
    · rw [if_neg (by simp [hskips, h.1]), PolicyMap.look, InsertionMap.get?_insert_self, Option.bind_some, hadd]
      cases hkey : key c with
      | none => cases hget : policies.get? c.capability <;> simp [PolicyMap.look, hget, hnone]
      | some other =>
        dsimp only
        rw [Option.bind_some]
        by_cases hname : other = name
        · subst hname
          simp [h.2, hskips]
        · have hlook : ∀ entries : InsertionMap JsString ν,
              (if other = proto then entries else entries.insert other (value c)).get? name = entries.get? name := by
            intro entries
            split
            · rfl
            · exact InsertionMap.get?_insert_of_ne _ _ (Ne.symm hname)
          rw [hlook]
          cases hget : policies.get? c.capability with
          | none => simp [PolicyMap.look, hget, hname, hnone]
          | some policy => cases hold : part policy <;> simp [PolicyMap.look, hget, hold, hname]
  · have hget : (if skips c = true ∨ c.capability ∈ inheritedNames then policies else
        policies.insert c.capability (addConstraint numText ((policies.get? c.capability).getD {}) c)).get?
          capability = policies.get? capability := by
      split
      · rfl
      · exact InsertionMap.get?_insert_of_ne _ _ (Ne.symm hcapability)
    rw [PolicyMap.look, hget, if_neg (by simp [hcapability]), PolicyMap.look]

/-- **The last constraint on a name stays.** -/
theorem look_buildDeclarativePolicies (h : emittable capability name = true) :
    (buildDeclarativePolicies numText skips safety).look part capability name =
      (safety.reverse.find? fun c => taken skips capability c && key c = some name).map value := by
  rw [buildDeclarativePolicies]
  induction safety using List.reverseRecOn with
  | nil => simp [PolicyMap.look]
  | append_singleton safety c ih =>
    rw [List.foldl_concat, look_addPolicy hnone hadd _ _ h, ih, List.reverse_concat, List.find?_cons]
    by_cases hc : (taken skips capability c && key c = some name) = true
    · rw [if_pos hc, hc, Option.map_some]
    · rw [if_neg hc, Bool.eq_false_iff.mpr hc]

theorem look_eq_none (h : emittable capability name = false) :
    (buildDeclarativePolicies numText skips safety).look part capability name = none := by
  rw [emittable, Bool.and_eq_false_iff, decide_eq_false_iff_not, decide_eq_false_iff_not, not_not, not_not] at h
  rw [buildDeclarativePolicies]
  induction safety using List.reverseRecOn with
  | nil => simp [PolicyMap.look]
  | append_singleton safety c ih =>
    rw [List.foldl_concat, addPolicy]
    by_cases hskips : skips c = true ∨ c.capability ∈ inheritedNames
    · rw [if_pos hskips, ih]
    · rw [if_neg hskips, PolicyMap.look, InsertionMap.get?_insert]
      by_cases hcapability : capability = c.capability
      · subst hcapability
        obtain rfl : name = proto := h.resolve_left fun hmem => hskips (.inr hmem)
        rw [if_pos rfl, Option.bind_some, hadd]
        have hold : ∀ policies : PolicyMap, policies.look part c.capability proto = none →
            ((part ((policies.get? c.capability).getD {})).getD .empty).get? proto = none ∧
              (part ((policies.get? c.capability).getD {})).bind (·.get? proto) = none := by
          intro policies hnothing
          cases hget : policies.get? c.capability with
          | none => simp [hnone]
          | some policy => cases hpart : part policy <;> simp_all [PolicyMap.look]
        obtain ⟨hempty, hbind⟩ := hold _ ih
        cases hkey : key c with
        | none => exact hbind
        | some other =>
          dsimp only
          rw [Option.bind_some]
          by_cases hproto : other = proto
          · rw [if_pos hproto]
            exact hempty
          · rw [if_neg hproto, InsertionMap.get?_insert_of_ne _ _ (Ne.symm hproto)]
            exact hempty
      · rw [if_neg hcapability]
        exact ih

end Part

theorem bounds?_buildDeclarativePolicies (h : emittable capability name = true) :
    (buildDeclarativePolicies numText skips safety).bounds? capability name =
      (lastRange skips safety capability name).map boundsOf :=
  look_buildDeclarativePolicies rfl (fun _ c => by rw [addConstraint]) h

theorem required?_buildDeclarativePolicies (h : emittable capability name = true) :
    (buildDeclarativePolicies numText skips safety).required? capability name =
      (lastPrecondition skips safety capability name).map fun c => .str (equalsText numText c.equals) :=
  look_buildDeclarativePolicies rfl (fun _ c => by rw [addConstraint]) h

theorem evaluatePolicies_build_iff {context : PolicyContext} {now : ℚ} :
    evaluatePolicies numText (policiesFromDeclarative (buildDeclarativePolicies numText skips safety)) context now =
        .ok () ↔
      (∀ argument last, emittable context.capability argument = true →
        lastRange skips safety context.capability argument = some last →
          (boundsOf last).Admits (context.payload.get? argument)) ∧
      ∀ field last, emittable context.capability field = true →
        lastPrecondition skips safety context.capability field = some last →
          Scalar.ofJson? (context.operationalState.get? field) = some (.str (equalsText numText last.equals)) := by
  rw [evaluatePolicies_declarative_iff]
  refine and_congr (forall_congr' fun argument => ?_) (forall_congr' fun field => ?_)
  · cases h : emittable context.capability argument with
    | true =>
      rw [bounds?_buildDeclarativePolicies h]
      simp
    | false =>
      rw [PolicyMap.bounds?, look_eq_none rfl (fun _ c => by rw [addConstraint]) h]
      simp
  · cases h : emittable context.capability field with
    | true =>
      rw [required?_buildDeclarativePolicies h]
      simp
    | false =>
      rw [PolicyMap.required?, look_eq_none rfl (fun _ c => by rw [addConstraint]) h]
      simp

theorem of_lastRange {argument : JsString} {last : SafetyConstraint}
    (h : lastRange skips safety capability argument = some last) :
    last ∈ safety ∧ taken skips capability last = true ∧ boundedArgument last = some argument := by
  have hp := List.find?_some h
  rw [Bool.and_eq_true, decide_eq_true_eq] at hp
  exact ⟨List.mem_reverse.mp (List.mem_of_find?_eq_some h), hp⟩

theorem of_lastPrecondition {field : JsString} {last : SafetyConstraint}
    (h : lastPrecondition skips safety capability field = some last) :
    last ∈ safety ∧ taken skips capability last = true ∧ requiredField last = some field := by
  have hp := List.find?_some h
  rw [Bool.and_eq_true, decide_eq_true_eq] at hp
  exact ⟨List.mem_reverse.mp (List.mem_of_find?_eq_some h), hp⟩

theorem exists_lastRange {argument : JsString} {c : SafetyConstraint} (hc : c ∈ safety)
    (htaken : taken skips capability c = true) (hargument : boundedArgument c = some argument) :
    ∃ last, lastRange skips safety capability argument = some last := by
  rw [← Option.isSome_iff_exists, lastRange, List.find?_isSome]
  exact ⟨c, List.mem_reverse.mpr hc, by rw [htaken, hargument]; simp⟩

theorem exists_lastPrecondition {field : JsString} {c : SafetyConstraint} (hc : c ∈ safety)
    (htaken : taken skips capability c = true) (hfield : requiredField c = some field) :
    ∃ last, lastPrecondition skips safety capability field = some last := by
  rw [← Option.isSome_iff_exists, lastPrecondition, List.find?_isSome]
  exact ⟨c, List.mem_reverse.mpr hc, by rw [htaken, hfield]; simp⟩

end Kept

/-! ## What constraints mean -/

/-- A constraint admits an invocation: its argument is within its bounds, its field has its value. -/
def SafetyConstraint.Admits (c : SafetyConstraint) (payload state : JsonObject) : Prop :=
  (∀ argument, boundedArgument c = some argument → (boundsOf c).Admits (payload.get? argument)) ∧
    ∀ field, requiredField c = some field → match c.equals with
      | some value => Scalar.ofJson? (state.get? field) = some value
      | none => state.get? field = none

/-- Policies mean the constraints that are taken: they accept exactly what all of those of the capability admit. -/
def Meant (numText : ℚ → JsString) (policies : PolicyMap) (skips : SafetyConstraint → Bool)
    (safety : List SafetyConstraint) : Prop :=
  ∀ (context : PolicyContext) (now : ℚ),
    evaluatePolicies numText (policiesFromDeclarative policies) context now = .ok () ↔
      ∀ c ∈ safety, taken skips context.capability c = true → c.Admits context.payload context.operationalState

def NumericConstraint.Within (bounds other : NumericConstraint) : Prop :=
  (∀ lo ∈ other.min, ∃ lo' ∈ bounds.min, lo ≤ lo') ∧ ∀ hi ∈ other.max, ∃ hi' ∈ bounds.max, hi' ≤ hi

def NumericConstraint.Empty (bounds : NumericConstraint) : Prop :=
  ∃ lo ∈ bounds.min, ∃ hi ∈ bounds.max, hi < lo

/-- A constraint survives: its names can be emitted, no later range on its argument is wider, and its field is only
asked for one string. -/
structure Survives (skips : SafetyConstraint → Bool) (safety : List SafetyConstraint) (c : SafetyConstraint) :
    Prop where
  range : ∀ argument, boundedArgument c = some argument → (c.minimum.isSome ∨ c.maximum.isSome) →
    emittable c.capability argument = true ∧ ∀ last, lastRange skips safety c.capability argument = some last →
      (boundsOf last).Within (boundsOf c)
  precondition : ∀ field, requiredField c = some field → emittable c.capability field = true ∧
    ∃ text, c.equals = some (.str text) ∧
      ∀ last, lastPrecondition skips safety c.capability field = some last → last.equals = some (.str text)

/-- Some last range of a capability allows no number. -/
def Barred (skips : SafetyConstraint → Bool) (safety : List SafetyConstraint) (capability : JsString) : Prop :=
  ∃ argument last, emittable capability argument = true ∧ lastRange skips safety capability argument = some last ∧
    (boundsOf last).Empty

/-- Every capability is barred, or all its constraints survive. -/
def AllKept (skips : SafetyConstraint → Bool) (safety : List SafetyConstraint) : Prop :=
  ∀ capability, Barred skips safety capability ∨
    ∀ c ∈ safety, taken skips capability c = true → Survives skips safety c

section Bounds

variable {bounds other : NumericConstraint} {q : ℚ}

theorem NumericConstraint.Within.contains (h : bounds.Within other) (hq : bounds.Contains q) : other.Contains q := by
  constructor
  · intro lo hlo
    obtain ⟨lo', hlo', hle⟩ := h.1 lo hlo
    exact hle.trans (hq.1 lo' hlo')
  · intro hi hhi
    obtain ⟨hi', hhi', hle⟩ := h.2 hi hhi
    exact (hq.2 hi' hhi').trans hle

theorem NumericConstraint.Empty.not_contains (h : bounds.Empty) : ¬ bounds.Contains q := by
  obtain ⟨lo, hlo, hi, hhi, hlt⟩ := h
  intro hq
  exact absurd ((hq.1 lo hlo).trans (hq.2 hi hhi)) (not_le.mpr hlt)

/-- Bounds that are not within others allow a number that the others do not. -/
theorem exists_of_not_within (hne : ¬ bounds.Empty) (h : ¬ bounds.Within other) :
    ∃ q, bounds.Contains q ∧ ¬ other.Contains q := by
  obtain ⟨min, max⟩ := bounds
  rw [NumericConstraint.Within, not_and_or] at h
  rcases h with h | h
  · push Not at h
    obtain ⟨lo, hlo, hlow⟩ := h
    -- a number below the other bound, and as low as these bounds allow
    have hbelow : ∃ q, (NumericConstraint.mk min max).Contains q ∧ q < lo := by
      cases min with
      | none =>
        cases max with
        | none => exact ⟨lo - 1, ⟨nofun, nofun⟩, by linarith⟩
        | some hi =>
          refine ⟨Min.min hi (lo - 1), ⟨nofun, fun _ h => ?_⟩, lt_of_le_of_lt (min_le_right _ _) (by linarith)⟩
          rw [← Option.some.inj h]
          exact min_le_left _ _
      | some lo' =>
        refine ⟨lo', ⟨fun _ h => le_of_eq (Option.some.inj h).symm, fun hi hhi => ?_⟩, hlow lo' rfl⟩
        by_contra hlt
        exact hne ⟨lo', rfl, hi, hhi, not_le.mp hlt⟩
    obtain ⟨q, hq, hlt⟩ := hbelow
    exact ⟨q, hq, fun hother => absurd (hother.1 lo hlo) (not_le.mpr hlt)⟩
  · push Not at h
    obtain ⟨hi, hhi, hhigh⟩ := h
    have habove : ∃ q, (NumericConstraint.mk min max).Contains q ∧ hi < q := by
      cases max with
      | none =>
        cases min with
        | none => exact ⟨hi + 1, ⟨nofun, nofun⟩, by linarith⟩
        | some lo =>
          refine ⟨Max.max lo (hi + 1), ⟨fun _ h => ?_, nofun⟩, lt_of_lt_of_le (by linarith) (le_max_right _ _)⟩
          rw [← Option.some.inj h]
          exact le_max_left _ _
      | some hi' =>
        refine ⟨hi', ⟨fun lo hlo => ?_, fun _ h => le_of_eq (Option.some.inj h)⟩, hhigh hi' rfl⟩
        by_contra hlt
        exact hne ⟨lo, hlo, hi', rfl, not_le.mp hlt⟩
    obtain ⟨q, hq, hlt⟩ := habove
    exact ⟨q, hq, fun hother => absurd (hother.2 hi hhi) (not_le.mpr hlt)⟩

theorem exists_contains (hne : ¬ bounds.Empty) : ∃ q, bounds.Contains q := by
  obtain ⟨min, max⟩ := bounds
  cases min with
  | none => cases max with
    | none => exact ⟨0, nofun, nofun⟩
    | some hi => exact ⟨hi, nofun, fun _ h => le_of_eq (Option.some.inj h)⟩
  | some lo =>
    refine ⟨lo, fun _ h => le_of_eq (Option.some.inj h).symm, fun hi hhi => ?_⟩
    by_contra hlt
    exact hne ⟨lo, rfl, hi, hhi, not_le.mp hlt⟩

end Bounds

/-! ## Policies mean what is kept -/

def tabulate (keys : List JsString) (v : JsString → Option Json) : JsonObject :=
  keys.filterMap fun key => (v key).map fun value => (key, value)

theorem get?_tabulate {keys : List JsString} (v : JsString → Option Json) {key : JsString} (h : key ∈ keys) :
    (tabulate keys v).get? key = v key := by
  have hnone : ∀ keys, v key = none → (tabulate keys v).get? key = none := by
    intro keys hv
    rw [JsonObject.get?, Option.map_eq_none_iff, List.find?_eq_none]
    intro entry hentry heq
    obtain ⟨other, -, hother⟩ := List.mem_filterMap.mp hentry
    obtain ⟨value, hvalue, rfl⟩ := Option.map_eq_some_iff.mp hother
    obtain rfl : other = key := of_decide_eq_true heq
    rw [hv] at hvalue
    cases hvalue
  induction keys with
  | nil => exact absurd h List.not_mem_nil
  | cons other keys ih =>
    rw [tabulate, List.filterMap_cons]
    by_cases hother : other = key
    · subst hother
      cases hv : v other with
      | none =>
        rw [Option.map_none]
        exact hnone keys hv
      | some value => rw [Option.map_some, JsonObject.get?_cons, if_pos rfl]
    · have hrest := ih ((List.mem_cons.mp h).resolve_left (Ne.symm hother))
      cases hv : v other with
      | none =>
        rw [Option.map_none]
        exact hrest
      | some value =>
        rw [Option.map_some, JsonObject.get?_cons, if_neg hother]
        exact hrest

section Meaning

variable {numText : ℚ → JsString} {skips : SafetyConstraint → Bool} {safety : List SafetyConstraint}

def boundedArguments (safety : List SafetyConstraint) : List JsString := safety.filterMap boundedArgument

def requiredFields (safety : List SafetyConstraint) : List JsString := safety.filterMap requiredField

/-- An invocation of a capability with given arguments, in a given state. -/
def invocation (safety : List SafetyConstraint) (capability : JsString) (v w : JsString → Option Json) :
    PolicyContext where
  deviceId := []
  capability := capability
  payload := tabulate (boundedArguments safety) v
  operationalState := tabulate (requiredFields safety) w

def Allowed (skips : SafetyConstraint → Bool) (safety : List SafetyConstraint) (capability : JsString)
    (v : JsString → Option Json) : Prop :=
  ∀ argument last, emittable capability argument = true → lastRange skips safety capability argument = some last →
    (boundsOf last).Admits (v argument)

/-- Fields that the last preconditions ask for. -/
def Present (numText : ℚ → JsString) (skips : SafetyConstraint → Bool) (safety : List SafetyConstraint)
    (capability : JsString) (w : JsString → Option Json) : Prop :=
  ∀ field last, emittable capability field = true → lastPrecondition skips safety capability field = some last →
    Scalar.ofJson? (w field) = some (.str (equalsText numText last.equals))

theorem evaluatePolicies_invocation {capability : JsString} {v w : JsString → Option Json}
    (hv : Allowed skips safety capability v) (hw : Present numText skips safety capability w) (now : ℚ) :
    evaluatePolicies numText (policiesFromDeclarative (buildDeclarativePolicies numText skips safety))
      (invocation safety capability v w) now = .ok () := by
  rw [evaluatePolicies_build_iff]
  constructor
  · intro argument last hname hlast
    obtain ⟨hmem, -, hargument⟩ := of_lastRange hlast
    have hkey : argument ∈ boundedArguments safety := List.mem_filterMap.mpr ⟨last, hmem, hargument⟩
    show (boundsOf last).Admits ((tabulate (boundedArguments safety) v).get? argument)
    rw [get?_tabulate v hkey]
    exact hv argument last hname hlast
  · intro field last hname hlast
    obtain ⟨hmem, -, hfield⟩ := of_lastPrecondition hlast
    have hkey : field ∈ requiredFields safety := List.mem_filterMap.mpr ⟨last, hmem, hfield⟩
    show Scalar.ofJson? ((tabulate (requiredFields safety) w).get? field) = _
    rw [get?_tabulate w hkey]
    exact hw field last hname hlast

def askedFor (numText : ℚ → JsString) (skips : SafetyConstraint → Bool) (safety : List SafetyConstraint)
    (capability field : JsString) : Option Json :=
  (lastPrecondition skips safety capability field).map fun last => .str (equalsText numText last.equals)

theorem present_askedFor (capability : JsString) :
    Present numText skips safety capability (askedFor numText skips safety capability) := by
  intro field last _ hlast
  rw [askedFor, hlast]
  rfl

/-- A capability that is not barred allows some arguments. -/
theorem exists_allowed {capability : JsString} (h : ¬ Barred skips safety capability) :
    ∃ v, Allowed skips safety capability v := by
  have hone : ∀ argument, ∃ x : Option Json, ∀ last, emittable capability argument = true →
      lastRange skips safety capability argument = some last → (boundsOf last).Admits x := by
    intro argument
    cases hlast : lastRange skips safety capability argument with
    | none => exact ⟨none, fun _ _ h => nomatch h⟩
    | some last =>
      by_cases hname : emittable capability argument = true
      · obtain ⟨q, hq⟩ := exists_contains fun hempty => h ⟨argument, last, hname, hlast, hempty⟩
        exact ⟨some (.num q), fun other _ heq => .inr ⟨q, rfl, Option.some.inj heq ▸ hq⟩⟩
      · exact ⟨none, fun _ htrue => absurd htrue hname⟩
  choose v hv using hone
  exact ⟨v, fun argument last hname hlast => hv argument last hname hlast⟩

open Function in
/-- **What a constraint survives by**, if the policies mean what the constraints of a capability that is not barred
say. -/
theorem survives_of_meant (h : Meant numText (buildDeclarativePolicies numText skips safety) skips safety)
    {capability : JsString} (hbarred : ¬ Barred skips safety capability) {c : SafetyConstraint} (hc : c ∈ safety)
    (htaken : taken skips capability c = true) : Survives skips safety c := by
  obtain ⟨v, hv⟩ := exists_allowed hbarred
  have hw : Present numText skips safety capability (askedFor numText skips safety capability) :=
    present_askedFor capability
  have hcapability : c.capability = capability := by
    rw [taken, Bool.and_eq_true, decide_eq_true_eq] at htaken
    exact htaken.2
  -- what the policies accept, every constraint admits
  have hadmits : ∀ {c v w}, c ∈ safety → taken skips capability c = true → Allowed skips safety capability v →
      Present numText skips safety capability w →
      c.Admits (tabulate (boundedArguments safety) v) (tabulate (requiredFields safety) w) :=
    fun hc htaken hv hw => (h (invocation safety capability _ _) 0).mp (evaluatePolicies_invocation hv hw 0) _ hc htaken
  have hrequired : ∀ {c field}, c ∈ safety → taken skips capability c = true → requiredField c = some field →
      emittable capability field = true ∧ ∀ last, lastPrecondition skips safety capability field = some last →
        c.equals = some (.str (equalsText numText last.equals)) := by
    intro c field hc htaken hfield
    have hmem : field ∈ requiredFields safety := List.mem_filterMap.mpr ⟨c, hc, hfield⟩
    have hname : emittable capability field = true := by
      by_contra hname
      -- nothing is asked for, so the state may have any value there
      have hany : ∀ x,
          Present numText skips safety capability (update (askedFor numText skips safety capability) field x) := by
        intro x other last hother hlast
        have hne : other ≠ field := by
          rintro rfl
          exact hname hother
        rw [update_of_ne hne]
        exact hw other last hother hlast
      cases hequals : c.equals with
      | some value =>
        have hadmit := (hadmits hc htaken hv (hany none)).2 field hfield
        rw [hequals, get?_tabulate _ hmem, update_self] at hadmit
        cases hadmit
      | none =>
        have hadmit := (hadmits hc htaken hv (hany (some .null))).2 field hfield
        rw [hequals, get?_tabulate _ hmem, update_self] at hadmit
        cases hadmit
    refine ⟨hname, fun last hlast => ?_⟩
    have hadmit := (hadmits hc htaken hv hw).2 field hfield
    rw [get?_tabulate _ hmem, askedFor, hlast, Option.map_some] at hadmit
    cases hequals : c.equals with
    | some value =>
      rw [hequals] at hadmit
      exact hadmit.symm
    | none =>
      rw [hequals] at hadmit
      cases hadmit
  constructor
  · intro argument hargument hbound
    have hmem : argument ∈ boundedArguments safety := List.mem_filterMap.mpr ⟨c, hc, hargument⟩
    have hbounded : ¬ ((boundsOf c).min = none ∧ (boundsOf c).max = none) := by
      rintro ⟨hmin, hmax⟩
      rw [boundsOf] at hmin hmax
      dsimp only at hmin hmax
      rw [hmin, hmax] at hbound
      simp at hbound
    rw [hcapability]
    have hname : emittable capability argument = true := by
      by_contra hname
      have hnone : Allowed skips safety capability (update v argument none) := by
        intro other last hother hlast
        have hne : other ≠ argument := by
          rintro rfl
          exact hname hother
        rw [update_of_ne hne]
        exact hv other last hother hlast
      have hadmit := (hadmits hc htaken hnone hw).1 argument hargument
      rw [get?_tabulate _ hmem, update_self] at hadmit
      rcases hadmit with hadmit | ⟨q, hq, -⟩
      · exact hbounded hadmit
      · cases hq
    refine ⟨hname, fun last hlast => ?_⟩
    by_contra hwithin
    obtain ⟨q, hq, hnot⟩ := exists_of_not_within
      (fun hempty => hbarred ⟨argument, last, hname, hlast, hempty⟩) hwithin
    have hallowed : Allowed skips safety capability (update v argument (some (.num q))) := by
      intro other last' hother hlast'
      by_cases hne : other = argument
      · subst hne
        obtain rfl := Option.some.inj (hlast.symm.trans hlast')
        rw [update_self]
        exact .inr ⟨q, rfl, hq⟩
      · rw [update_of_ne hne]
        exact hv other last' hother hlast'
    have hadmit := (hadmits hc htaken hallowed hw).1 argument hargument
    rw [get?_tabulate _ hmem, update_self] at hadmit
    rcases hadmit with hadmit | ⟨r, hr, hcontains⟩
    · exact hbounded hadmit
    · obtain rfl := Json.num.inj (Option.some.inj hr)
      exact hnot hcontains
  · intro field hfield
    rw [hcapability]
    obtain ⟨hname, hequals⟩ := hrequired hc htaken hfield
    obtain ⟨last, hlast⟩ := exists_lastPrecondition hc htaken hfield
    refine ⟨hname, equalsText numText last.equals, hequals last hlast, fun last' hlast' => ?_⟩
    obtain rfl := Option.some.inj (hlast.symm.trans hlast')
    obtain ⟨hmem, htaken', hfield'⟩ := of_lastPrecondition hlast
    exact (hrequired hmem htaken' hfield').2 last hlast

theorem accepts_iff_of_survives {context : PolicyContext} {now : ℚ}
    (h : ∀ c ∈ safety, taken skips context.capability c = true → Survives skips safety c) :
    evaluatePolicies numText (policiesFromDeclarative (buildDeclarativePolicies numText skips safety)) context now =
        .ok () ↔
      ∀ c ∈ safety, taken skips context.capability c = true → c.Admits context.payload context.operationalState := by
  have hcapability : ∀ {c}, taken skips context.capability c = true → c.capability = context.capability := by
    intro c htaken
    rw [taken, Bool.and_eq_true, decide_eq_true_eq] at htaken
    exact htaken.2
  rw [evaluatePolicies_build_iff]
  constructor
  · rintro ⟨hranges, hfields⟩ c hc htaken
    have hsurvives := h c hc htaken
    rw [SafetyConstraint.Admits]
    refine ⟨fun argument hargument => ?_, fun field hfield => ?_⟩
    · by_cases hbound : c.minimum.isSome ∨ c.maximum.isSome
      · obtain ⟨hname, hwithin⟩ := hsurvives.range argument hargument hbound
        rw [hcapability htaken] at hname hwithin
        obtain ⟨last, hlast⟩ := exists_lastRange hc htaken hargument
        have hin := hwithin last hlast
        rcases hranges argument last hname hlast with ⟨hmin, hmax⟩ | ⟨q, hq, hcontains⟩
        · -- a last range without bounds is not within bounds
          exfalso
          rcases hbound with hbound | hbound
          · obtain ⟨lo, hlo⟩ := Option.isSome_iff_exists.mp hbound
            obtain ⟨lo', hlo', -⟩ := hin.1 lo hlo
            rw [hmin] at hlo'
            cases hlo'
          · obtain ⟨hi, hhi⟩ := Option.isSome_iff_exists.mp hbound
            obtain ⟨hi', hhi', -⟩ := hin.2 hi hhi
            rw [hmax] at hhi'
            cases hhi'
        · exact .inr ⟨q, hq, hin.contains hcontains⟩
      · rw [not_or, Bool.not_eq_true, Option.isSome_eq_false_iff, Bool.not_eq_true, Option.isSome_eq_false_iff,
          Option.isNone_iff_eq_none, Option.isNone_iff_eq_none] at hbound
        exact .inl hbound
    · obtain ⟨hname, text, htext, hall⟩ := hsurvives.precondition field hfield
      rw [hcapability htaken] at hname hall
      obtain ⟨last, hlast⟩ := exists_lastPrecondition hc htaken hfield
      have hvalue := hfields field last hname hlast
      rw [hall last hlast] at hvalue
      rw [htext]
      exact hvalue
  · intro hadmits
    refine ⟨fun argument last _ hlast => ?_, fun field last _ hlast => ?_⟩
    · obtain ⟨hmem, htaken, hargument⟩ := of_lastRange hlast
      exact (hadmits last hmem htaken).1 argument hargument
    · obtain ⟨hmem, htaken, hfield⟩ := of_lastPrecondition hlast
      obtain ⟨-, text, htext, -⟩ := (h last hmem htaken).precondition field hfield
      have hvalue := (hadmits last hmem htaken).2 field hfield
      rw [htext] at hvalue ⊢
      exact hvalue

/-- A capability that is barred is refused, and its constraints admit nothing. -/
theorem accepts_iff_of_barred {context : PolicyContext} {now : ℚ}
    (h : Barred skips safety context.capability) :
    evaluatePolicies numText (policiesFromDeclarative (buildDeclarativePolicies numText skips safety)) context now =
        .ok () ↔
      ∀ c ∈ safety, taken skips context.capability c = true → c.Admits context.payload context.operationalState := by
  obtain ⟨argument, last, hname, hlast, hempty⟩ := h
  obtain ⟨hmem, htaken, hargument⟩ := of_lastRange hlast
  have hnever : ∀ x, ¬ (boundsOf last).Admits x := by
    rintro x (⟨hmin, -⟩ | ⟨q, -, hq⟩)
    · obtain ⟨lo, hlo, -⟩ := hempty
      rw [hmin] at hlo
      cases hlo
    · exact hempty.not_contains hq
  refine iff_of_false (fun haccepts => ?_) fun hadmits => ?_
  · exact hnever _ ((evaluatePolicies_build_iff.mp haccepts).1 argument last hname hlast)
  · exact hnever _ ((hadmits last hmem htaken).1 argument hargument)

/-- Policies mean the constraints exactly when all of these are kept. -/
theorem meant_iff_allKept :
    Meant numText (buildDeclarativePolicies numText skips safety) skips safety ↔ AllKept skips safety := by
  constructor
  · intro h capability
    by_cases hbarred : Barred skips safety capability
    · exact .inl hbarred
    · exact .inr fun c hc htaken => survives_of_meant h hbarred hc htaken
  · intro h context now
    rcases h context.capability with hbarred | hsurvives
    · exact accepts_iff_of_barred hbarred
    · exact accepts_iff_of_survives hsurvives

theorem buildDeclarativePolicies_generateConnector (ir : HardwareInterfaceIR) :
    buildDeclarativePolicies numText connectorSkips (generateConnector ir).safety =
      buildDeclarativePolicies numText connectorSkips ir.safety := by
  have hfloor : (ensureModuleCapabilityFloor ir).safety = ir.safety := by
    rw [ensureModuleCapabilityFloor]
    split <;> rfl
  obtain ⟨stubs, heq, hreview⟩ := exists_safety_eq_append (ensureModuleCapabilityFloor ir).capabilities
    (ensureModuleCapabilityFloor ir).safety (ensureModuleCapabilityFloor ir).uncertainties
  have hsafety : (generateConnector ir).safety = ir.safety ++ stubs := heq.trans (by rw [hfloor])
  rw [hsafety, buildDeclarativePolicies, List.foldl_append]
  have hskip : ∀ policies : PolicyMap, stubs.foldl (addPolicy numText connectorSkips) policies = policies := by
    clear heq hsafety
    induction stubs with
    | nil => exact fun _ => rfl
    | cons stub stubs ih =>
      intro policies
      obtain ⟨hstub, hrest⟩ := List.forall_mem_cons.mp hreview
      rw [List.foldl_cons, addPolicy, if_pos (.inl (by simp [connectorSkips, hstub]))]
      exact ih hrest policies
  exact hskip _

end Meaning

/-- **Emitted policies mean the constraints exactly when all of these are kept**, whichever template emits them. -/
theorem meant_iff_kept (numText : ℚ → JsString) (ir : HardwareInterfaceIR) :
    (Meant numText (buildDeclarativePolicies numText connectorSkips (generateConnector ir).safety) connectorSkips
        ir.safety ↔ AllKept connectorSkips ir.safety) ∧
      (Meant numText (buildDeclarativePolicies numText moduleSkips ir.safety) moduleSkips ir.safety ↔
        AllKept moduleSkips ir.safety) := by
  rw [buildDeclarativePolicies_generateConnector]
  exact ⟨meant_iff_allKept, meant_iff_allKept⟩

/-- A limit of two sources, and a precondition that is a number. -/
def twoSources : List SafetyConstraint :=
  [{ type := .range, capability := js "arm.move", argument := some (js "speed"), maximum := some 10
     requiresHumanReview := false, documented := true },
    { type := .range, capability := js "arm.move", argument := some (js "speed"), minimum := some 1
      requiresHumanReview := false, documented := true },
    { type := .precondition, capability := js "pump.start", field := some (js "level"), equals := some (.num 5)
      requiresHumanReview := false, documented := true }]

/-- An invocation of a capability with one argument, in a state with one field. -/
def invocationOf (capability argument : JsString) (value : ℚ) (field : JsString) (found : ℚ) : PolicyContext where
  deviceId := js "arm"
  capability := capability
  payload := [(argument, .num value)]
  operationalState := [(field, .num found)]

/-- The second range replaces the first, and a number is never the text it is turned into. -/
theorem not_meant :
    let rules := policiesFromDeclarative (buildDeclarativePolicies (fun _ => js "5") connectorSkips twoSources)
    let fast := invocationOf (js "arm.move") (js "speed") 50 (js "level") 0
    let full := invocationOf (js "pump.start") (js "speed") 0 (js "level") 5
    (evaluatePolicies (fun _ => js "5") rules fast 0 = .ok () ∧
      ∃ c ∈ twoSources, taken connectorSkips fast.capability c = true ∧
        ¬ c.Admits fast.payload fast.operationalState) ∧
    (evaluatePolicies (fun _ => js "5") rules full 0 ≠ .ok () ∧
      ∀ c ∈ twoSources, taken connectorSkips full.capability c = true →
        c.Admits full.payload full.operationalState) := by
  have hok : ∀ {result : Except Thrown Unit}, result.isOk = true → result = .ok () := by
    intro result h
    cases result with
    | ok => rfl
    | error => cases h
  refine ⟨⟨hok (by decide +kernel), twoSources[0], List.getElem_mem _, by decide +kernel, fun hadmits => ?_⟩, fun h => ?_, ?_⟩
  · -- fifty is more than ten
    rcases hadmits.1 (js "speed") (by decide) with ⟨-, hmax⟩ | ⟨q, hq, -, hle⟩
    · cases hmax
    · obtain rfl := Json.num.inj (Option.some.inj hq)
      exact absurd (hle 10 rfl) (by decide)
  · have hnot : (evaluatePolicies (fun _ => js "5") (policiesFromDeclarative (buildDeclarativePolicies (fun _ => js "5")
        connectorSkips twoSources)) (invocationOf (js "pump.start") (js "speed") 0 (js "level") 5) 0).isOk = false := by
      decide +kernel
    rw [h] at hnot
    cases hnot
  · intro c hc htaken
    rw [twoSources] at hc
    simp only [List.mem_cons, List.not_mem_nil, or_false] at hc
    rcases hc with rfl | rfl | rfl
    · exact absurd htaken (by decide +kernel)
    · exact absurd htaken (by decide +kernel)
    · refine ⟨nofun, fun field hfield => ?_⟩
      obtain rfl : js "level" = field := Option.some.inj hfield
      rfl

end Pinout.Generator
