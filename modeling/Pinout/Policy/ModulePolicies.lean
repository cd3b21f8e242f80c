import Pinout.Policy.Merging

/-! # Module policies under a deployment

`mergeModulePolicies` (`packages/core/src/module/policies.ts`): each rule of the deployment is made one with the first
rule of the same capability, kind and field. Ranges are intersected, but a required state replaces the one it meets,
and a `NaN` bound leaves its side unchecked. `tightens_iff` says when what the merged rules accept is accepted by both
lists. -/

namespace Pinout.Policy

open Foundation

/-! ## The merge -/

inductive PolicyKind
  | numericRange | stateEquals | workspaceBounds | custom
  deriving DecidableEq

/-- `rule.kind`. -/
def PolicyRule.kind : PolicyRule → PolicyKind
  | numericRange _ => .numericRange
  | stateEquals _ => .stateEquals
  | workspaceBounds _ => .workspaceBounds
  | custom _ => .custom

def ruleKindField : PolicyRule → Option JsString
  | .numericRange rule => some rule.field
  | .stateEquals rule => some rule.field
  | .workspaceBounds _ => some (js "workspace")
  | .custom _ => none

/-- What a deployment rule and the rule it meets have in common. -/
def PolicyRule.key (rule : PolicyRule) : JsString × PolicyKind × Option JsString :=
  (rule.capability, rule.kind, ruleKindField rule)

/-- `Math.max(a, b)`. -/
def Bound.max (a b : Bound) : Bound := if a = nan ∨ b = nan then nan else if a.lt b then b else a

/-- `Math.min(a, b)`. -/
def Bound.min (a b : Bound) : Bound := if a = nan ∨ b = nan then nan else if b.lt a then b else a

/-- What an existing rule becomes, where it is made one with a deployment rule. -/
def mergedRule : PolicyRule → PolicyRule → Option PolicyRule
  | .numericRange existing, .numericRange deploy =>
    if existing.field = deploy.field then
      some (.numericRange
        { capability := existing.capability, field := existing.field, min := existing.min.max deploy.min
          max := existing.max.min deploy.max, message := deploy.message <|> existing.message })
    else none
  | .stateEquals existing, .stateEquals deploy =>
    if existing.field = deploy.field then some (.stateEquals deploy) else none
  | _, _ => none

/-- One turn of the loop over the deployment's rules. -/
def mergePolicy (deployRule : PolicyRule) : List PolicyRule → List PolicyRule
  | [] => [deployRule]
  | rule :: merged =>
    -- Only the first rule with the key is looked at, whatever becomes of it.
    if rule.key = deployRule.key then
      match mergedRule rule deployRule with
      | some mergedRule => mergedRule :: merged
      | none => rule :: (merged ++ [deployRule])
    else rule :: mergePolicy deployRule merged

def mergeModulePolicies (modulePolicies deploymentPolicies : List PolicyRule) : List PolicyRule :=
  deploymentPolicies.foldl (fun merged deployRule => mergePolicy deployRule merged) modulePolicies

/-! ## What the merge keeps -/

def ofKey (rules : List PolicyRule) (key : JsString × PolicyKind × Option JsString) : List PolicyRule :=
  rules.filter (·.key = key)

/-- Whether one of the ranges of a group has `NaN` on the side that `side` reads. -/
def lost (side : NumericRangePolicy → Bound) (group : List PolicyRule) : Bool :=
  group.any fun
    | .numericRange rule => side rule = .nan
    | _ => false

def PolicyRule.without (noMin noMax : Bool) : PolicyRule → PolicyRule
  | numericRange rule =>
    .numericRange
      { rule with min := if noMin then .nan else rule.min, max := if noMax then .nan else rule.max }
  | rule => rule

/-- The checks that are left of the rules that meet: of preconditions the last, and of ranges those bounds on whose
side none is `NaN`. -/
def left : PolicyKind → List PolicyRule → List PolicyRule
  | .stateEquals, group => group.getLast?.toList
  | .numericRange, group => group.map (·.without (lost (·.min) group) (lost (·.max) group))
  | _, group => group

/-- The rules that meet and are not left as they are. -/
def replaced : PolicyKind → List PolicyRule → List PolicyRule
  | .stateEquals, group => group.dropLast
  | .numericRange, group => if lost (·.min) group || lost (·.max) group then group else []
  | _, _ => []

section Lists

variable (modulePolicies deploymentPolicies : List PolicyRule) (key : JsString × PolicyKind × Option JsString)

/-- The rules of a key that meet: the module's first, and all of the deployment. -/
def meeting : List PolicyRule := (ofKey modulePolicies key).take 1 ++ ofKey deploymentPolicies key

/-- The checks of a key that the merged rules still make. -/
def keptChecks : List PolicyRule :=
  (ofKey modulePolicies key).drop 1 ++ left key.2.1 (meeting modulePolicies deploymentPolicies key)

/-- The rules of a key that the merge drops: a precondition that another follows, and a range that lost a bound. -/
def droppedRules : List PolicyRule := replaced key.2.1 (meeting modulePolicies deploymentPolicies key)

end Lists

section Evaluation

variable (numText : ℚ → JsString) (context : PolicyContext) (dateNow : ℚ)

def Passes (rules : List PolicyRule) : Prop := evaluatePolicies numText rules context dateNow = .ok ()

/-- A call that the merged rules accept is accepted by the module's and by the deployment's. -/
def Tightens (modulePolicies deploymentPolicies : List PolicyRule) : Prop :=
  Passes numText context dateNow (mergeModulePolicies modulePolicies deploymentPolicies) →
    Passes numText context dateNow modulePolicies ∧ Passes numText context dateNow deploymentPolicies

end Evaluation

variable {numText : ℚ → JsString} {context : PolicyContext} {dateNow : ℚ}

theorem passes_iff {rules : List PolicyRule} : Passes numText context dateNow rules ↔
    ∀ rule ∈ rules, rule.capability = context.capability → evaluatePolicy numText rule context dateNow = .ok () :=
  evaluatePolicies_eq_ok_iff numText

theorem passes_append (rules rules' : List PolicyRule) : Passes numText context dateNow (rules ++ rules') ↔
    Passes numText context dateNow rules ∧ Passes numText context dateNow rules' := by
  rw [passes_iff, passes_iff, passes_iff, List.forall_mem_append]

theorem passes_cons (rule : PolicyRule) (rules : List PolicyRule) : Passes numText context dateNow (rule :: rules) ↔
    Passes numText context dateNow [rule] ∧ Passes numText context dateNow rules :=
  passes_append [rule] rules

theorem passes_iff_ofKey (rules : List PolicyRule) :
    Passes numText context dateNow rules ↔ ∀ key, Passes numText context dateNow (ofKey rules key) := by
  simp only [passes_iff, ofKey, List.mem_filter, decide_eq_true_eq]
  exact ⟨fun h key rule hrule => h rule hrule.1, fun h rule hrule => h rule.key rule ⟨hrule, rfl⟩⟩

/-! ## One key at a time -/

theorem key_of_mergedRule {rule deploy merged : PolicyRule} (hkey : rule.key = deploy.key)
    (h : mergedRule rule deploy = some merged) : merged.key = deploy.key := by
  unfold mergedRule at h
  split at h
  · split at h
    · cases h
      exact hkey
    · cases h
  · split at h
    · cases h
      rfl
    · cases h
  · cases h

theorem ofKey_mergePolicy {deploy : PolicyRule} {key : JsString × PolicyKind × Option JsString} :
    ∀ rules, ofKey (mergePolicy deploy rules) key =
      if deploy.key = key then mergePolicy deploy (ofKey rules key) else ofKey rules key
  | [] => by
    by_cases h : deploy.key = key
    · simp [mergePolicy, ofKey, h]
    · simp [mergePolicy, ofKey, h]
  | rule :: rules => by
    have ih : ofKey (mergePolicy deploy rules) key = _ := ofKey_mergePolicy rules
    unfold ofKey at ih ⊢
    by_cases hrule : rule.key = deploy.key
    · rw [mergePolicy, if_pos hrule]
      cases hmerged : mergedRule rule deploy with
      | none => by_cases h : deploy.key = key <;> simp [hrule, h, mergePolicy, hmerged]
      | some merged =>
        have hkey := key_of_mergedRule hrule hmerged
        by_cases h : deploy.key = key <;> simp [hrule, hkey, h, mergePolicy, hmerged]
    · rw [mergePolicy, if_neg hrule, List.filter_cons, List.filter_cons, ih]
      by_cases h : deploy.key = key
      · have hne : rule.key ≠ key := fun hk => hrule (hk.trans h.symm)
        simp [h, hne]
      · simp [h]

theorem ofKey_mergeModulePolicies {key : JsString × PolicyKind × Option JsString} (deploymentPolicies : List PolicyRule) :
    ∀ modulePolicies, ofKey (mergeModulePolicies modulePolicies deploymentPolicies) key =
      mergeModulePolicies (ofKey modulePolicies key) (ofKey deploymentPolicies key) := by
  induction deploymentPolicies with
  | nil => exact fun modulePolicies => rfl
  | cons deploy rest ih =>
    intro modulePolicies
    rw [mergeModulePolicies, List.foldl_cons, ← mergeModulePolicies, ih, ofKey_mergePolicy]
    by_cases h : deploy.key = key
    · simp [ofKey, h, mergeModulePolicies]
    · simp [ofKey, h]

/-! ## The rules that meet -/

/-- A number is not below the greater of two bounds when it is below neither, or one is `NaN`. -/
theorem Bound.not_lt_max {a b : Bound} {q : ℚ} :
    ¬ (num q).lt (a.max b) ↔ (a = nan ∨ b = nan) ∨ ¬ (num q).lt a ∧ ¬ (num q).lt b := by
  cases a <;> cases b <;> simp [Bound.max, Bound.lt]
  split <;> grind

theorem Bound.not_min_lt {a b : Bound} {q : ℚ} :
    ¬ (a.min b).lt (num q) ↔ (a = nan ∨ b = nan) ∨ ¬ a.lt (num q) ∧ ¬ b.lt (num q) := by
  cases a <;> cases b <;> simp [Bound.min, Bound.lt]
  split <;> grind

theorem Bound.max_eq_nan {a b : Bound} : a.max b = nan ↔ a = nan ∨ b = nan := by
  cases a <;> cases b <;> simp [Bound.max, Bound.lt]
  split <;> simp

theorem Bound.min_eq_nan {a b : Bound} : a.min b = nan ↔ a = nan ∨ b = nan := by
  cases a <;> cases b <;> simp [Bound.min, Bound.lt]
  split <;> simp

/-- A rule without the lost bounds passes where the rule does. -/
theorem Passes.without {rule : PolicyRule} (noMin noMax : Bool) (h : Passes numText context dateNow [rule]) :
    Passes numText context dateNow [rule.without noMin noMax] := by
  cases rule with
  | numericRange rule =>
    rw [passes_iff] at h ⊢
    simp only [List.mem_singleton, forall_eq, PolicyRule.without, PolicyRule.capability, evaluatePolicy,
      evaluateNumericRange_eq_ok_iff] at h ⊢
    intro hcapability
    obtain ⟨q, hq, hmin, hmax⟩ := h hcapability
    refine ⟨q, hq, ?_, ?_⟩
    · cases noMin
      · exact hmin
      · exact Bool.false_ne_true
    · cases noMax
      · exact hmax
      · exact Bool.false_ne_true
  | _ => exact h

/-- Two ranges and what they are made to pass alike, once the bounds on the side of a `NaN` are gone. -/
theorem passes_without_merged {existing deploy : NumericRangePolicy} {message : Option JsString} {noMin noMax : Bool}
    (hcapability : existing.capability = deploy.capability) (hfield : existing.field = deploy.field)
    (hmin : existing.min = .nan ∨ deploy.min = .nan → noMin = true)
    (hmax : existing.max = .nan ∨ deploy.max = .nan → noMax = true) :
    Passes numText context dateNow [(PolicyRule.numericRange
        { capability := existing.capability, field := existing.field, min := existing.min.max deploy.min
          max := existing.max.min deploy.max, message }).without noMin noMax] ↔
      Passes numText context dateNow [(PolicyRule.numericRange existing).without noMin noMax] ∧
        Passes numText context dateNow [(PolicyRule.numericRange deploy).without noMin noMax] := by
  simp only [passes_iff, List.mem_singleton, forall_eq, PolicyRule.without, PolicyRule.capability, evaluatePolicy,
    evaluateNumericRange_eq_ok_iff, Bound.Admits, hcapability, hfield, ← imp_and]
  refine imp_congr_right fun _ => ?_
  cases Json.number? (context.payload.get? deploy.field) with
  | none => simp
  | some q =>
    simp only [Option.some.injEq, exists_eq_left']
    have hlower : ¬ (Bound.num q).lt (if noMin then .nan else existing.min.max deploy.min) ↔
        ¬ (Bound.num q).lt (if noMin then .nan else existing.min) ∧
          ¬ (Bound.num q).lt (if noMin then .nan else deploy.min) := by
      cases noMin with
      | true => exact ⟨fun h => ⟨h, h⟩, And.left⟩
      | false => exact Bound.not_lt_max.trans (or_iff_right fun h => Bool.false_ne_true (hmin h))
    have hupper : ¬ (if noMax then .nan else existing.max.min deploy.max).lt (Bound.num q) ↔
        ¬ (if noMax then .nan else existing.max).lt (Bound.num q) ∧
          ¬ (if noMax then .nan else deploy.max).lt (Bound.num q) := by
      cases noMax with
      | true => exact ⟨fun h => ⟨h, h⟩, And.left⟩
      | false => exact Bound.not_min_lt.trans (or_iff_right fun h => Bool.false_ne_true (hmax h))
    rw [hlower, hupper]
    exact and_and_and_comm

/-- What is left of rules that meet is left of the rules they are made to, one after the other. -/
theorem passes_left_merged {rule deploy merged : PolicyRule} (hkey : rule.key = deploy.key)
    (h : mergedRule rule deploy = some merged) (rest : List PolicyRule) :
    Passes numText context dateNow (left deploy.kind (merged :: rest)) ↔
      Passes numText context dateNow (left deploy.kind (rule :: deploy :: rest)) := by
  unfold mergedRule at h
  split at h
  · next existing deploy =>
    split at h
    · next hfield =>
      cases h
      simp only [left, PolicyRule.kind, List.map_cons, lost, List.any_cons, Bound.max_eq_nan, Bound.min_eq_nan,
        Bool.decide_or, Bool.or_assoc]
      rw [passes_cons, passes_cons _ (_ :: _), passes_cons _ (List.map _ _), ← and_assoc]
      refine and_congr_left' (passes_without_merged (congrArg Prod.fst hkey) hfield ?_ ?_)
      · rintro (hnan | hnan) <;> simp [hnan]
      · rintro (hnan | hnan) <;> simp [hnan]
    · cases h
  · split at h
    · cases h
      simp [left, PolicyRule.kind]
    · cases h
  · cases h

theorem left_eq_of_mergedRule_eq_none {rule deploy : PolicyRule} (hkey : rule.key = deploy.key)
    (h : mergedRule rule deploy = none) (group : List PolicyRule) : left deploy.kind group = group := by
  have hkind : rule.kind = deploy.kind := congrArg (·.2.1) hkey
  have hfield : ruleKindField rule = ruleKindField deploy := congrArg (·.2.2) hkey
  cases rule <;> cases deploy <;> simp_all [PolicyRule.kind, mergedRule, ruleKindField, left]

theorem PolicyRule.without_false (rule : PolicyRule) : rule.without false false = rule := by
  cases rule <;> rfl

theorem left_singleton (kind : PolicyKind) (rule : PolicyRule) : left kind [rule] = [rule] := by
  cases kind with
  | numericRange =>
    cases rule with
    | numericRange rule =>
      have hbound : ∀ b : Bound, (if decide (b = .nan) = true then .nan else b) = b := by
        intro b
        split
        · next hnan => exact (of_decide_eq_true hnan).symm
        · rfl
      simp only [left, lost, List.map_singleton, List.any_cons, List.any_nil, Bool.or_false, PolicyRule.without, hbound]
    | _ => rfl
  | _ => rfl

/-- The merge of rules of one key checks what is left of those that meet, and the module's other rules. -/
theorem passes_mergeModulePolicies_cons {key : JsString × PolicyKind × Option JsString} :
    ∀ (deploys : List PolicyRule) (rule : PolicyRule) (rest : List PolicyRule), rule.key = key →
      (∀ deploy ∈ deploys, deploy.key = key) →
        (Passes numText context dateNow (mergeModulePolicies (rule :: rest) deploys) ↔
          Passes numText context dateNow (rest ++ left key.2.1 (rule :: deploys)))
  | [], rule, rest, _, _ => by
    rw [left_singleton, passes_append, and_comm, ← passes_cons]
    rfl
  | deploy :: deploys, rule, rest, hrule, hdeploys => by
    obtain ⟨hdeploy, hdeploys⟩ := List.forall_mem_cons.mp hdeploys
    have hkey : rule.key = deploy.key := hrule.trans hdeploy.symm
    rw [mergeModulePolicies, List.foldl_cons, mergePolicy, if_pos hkey, ← mergeModulePolicies]
    have hkind : key.2.1 = deploy.kind := by rw [← hdeploy]; rfl
    cases hmerged : mergedRule rule deploy with
    | none =>
      rw [passes_mergeModulePolicies_cons deploys rule (rest ++ [deploy]) hrule hdeploys, hkind,
        left_eq_of_mergedRule_eq_none hkey hmerged, left_eq_of_mergedRule_eq_none hkey hmerged]
      simp only [passes_append, passes_cons _ (_ :: _), passes_cons _ deploys]
      tauto
    | some merged =>
      rw [passes_mergeModulePolicies_cons deploys merged rest ((key_of_mergedRule hkey hmerged).trans hdeploy) hdeploys,
        passes_append, passes_append, hkind, passes_left_merged hkey hmerged]

/-- Rules that meet all pass when the checks that are left and the rules that are replaced do. -/
theorem passes_iff_left_replaced {kind : PolicyKind} {group : List PolicyRule} :
    Passes numText context dateNow group ↔
      Passes numText context dateNow (left kind group) ∧ Passes numText context dateNow (replaced kind group) := by
  cases kind with
  | stateEquals =>
    rw [left, replaced, and_comm, ← passes_append]
    rcases List.eq_nil_or_concat group with rfl | ⟨initial, last, rfl⟩
    · simp
    · simp
  | numericRange =>
    rw [left, replaced]
    by_cases hlost : (lost (·.min) group || lost (·.max) group) = true
    · rw [if_pos hlost]
      refine ⟨fun h => ⟨?_, h⟩, And.right⟩
      rw [passes_iff, List.forall_mem_map]
      intro rule hrule
      exact passes_iff.mp (Passes.without _ _ (passes_iff.mpr (List.forall_mem_singleton.mpr (passes_iff.mp h rule hrule))))
        _ (List.mem_singleton_self _)
    · rw [if_neg hlost]
      obtain ⟨hmin, hmax⟩ := Bool.or_eq_false_iff.mp (Bool.not_eq_true _ ▸ hlost)
      rw [hmin, hmax, List.map_congr_left fun rule _ => rule.without_false, List.map_id']
      exact ⟨fun h => ⟨h, rfl⟩, And.left⟩
  | workspaceBounds => exact ⟨fun h => ⟨h, rfl⟩, And.left⟩
  | custom => exact ⟨fun h => ⟨h, rfl⟩, And.left⟩

/-- The merged rules pass when the checks that are kept do. -/
theorem passes_mergeModulePolicies {modulePolicies deploymentPolicies : List PolicyRule} :
    Passes numText context dateNow (mergeModulePolicies modulePolicies deploymentPolicies) ↔
      ∀ key, Passes numText context dateNow (keptChecks modulePolicies deploymentPolicies key) := by
  rw [passes_iff_ofKey]
  refine forall_congr' fun key => ?_
  rw [ofKey_mergeModulePolicies, keptChecks, meeting]
  have hkey : ∀ rules : List PolicyRule, ∀ rule ∈ ofKey rules key, rule.key = key := fun rules rule hrule =>
    of_decide_eq_true (List.mem_filter.mp hrule).2
  have hdeploys := hkey deploymentPolicies
  generalize ofKey deploymentPolicies key = deploys at hdeploys
  cases hmodule : ofKey modulePolicies key with
  | nil =>
    cases deploys with
    | nil => cases hkind : key.2.1 <;> exact iff_of_true rfl rfl
    | cons deploy deploys =>
      obtain ⟨hdeploy, hdeploys⟩ := List.forall_mem_cons.mp hdeploys
      exact passes_mergeModulePolicies_cons deploys deploy [] hdeploy hdeploys
  | cons rule rest =>
    have hrule := hkey modulePolicies rule (hmodule ▸ List.mem_cons_self)
    exact passes_mergeModulePolicies_cons deploys rule rest hrule hdeploys

/-- **When the merge tightens.** What the merged rules accept is accepted by the module and by the deployment exactly
when no rule that the merge drops refuses a call that every check it keeps lets pass. -/
theorem tightens_iff {modulePolicies deploymentPolicies : List PolicyRule} :
    Tightens numText context dateNow modulePolicies deploymentPolicies ↔
      ((∀ key, Passes numText context dateNow (keptChecks modulePolicies deploymentPolicies key)) →
        ∀ key, Passes numText context dateNow (droppedRules modulePolicies deploymentPolicies key)) := by
  have hboth : Passes numText context dateNow modulePolicies ∧ Passes numText context dateNow deploymentPolicies ↔
      ∀ key, Passes numText context dateNow (keptChecks modulePolicies deploymentPolicies key) ∧
        Passes numText context dateNow (droppedRules modulePolicies deploymentPolicies key) := by
    rw [passes_iff_ofKey, passes_iff_ofKey deploymentPolicies, ← forall_and]
    refine forall_congr' fun key => ?_
    rw [keptChecks, droppedRules, passes_append, and_assoc, ← passes_iff_left_replaced, meeting, passes_append,
      ← and_assoc, and_comm (a := Passes _ _ _ (List.drop _ _)),
      ← passes_append ((ofKey modulePolicies key).take 1), List.take_append_drop]
  rw [Tightens, passes_mergeModulePolicies, hboth, forall_and]
  exact ⟨fun h hkept => (h hkept).2, fun h hkept => ⟨hkept, h hkept⟩⟩

/-- That the enclosure is open, or closed, for firing the laser. -/
def enclosure (isOpen : Bool) : PolicyRule :=
  .stateEquals { capability := js "laser.fire", field := js "enclosureOpen", equals := .bool isOpen }

/-- A deployment that asks for an open enclosure replaces the module's rule that it be closed. -/
theorem not_tightens_enclosure : ¬ ∀ (numText : ℚ → JsString) (context : PolicyContext) (dateNow : ℚ)
    (modulePolicies deploymentPolicies : List PolicyRule),
    Tightens numText context dateNow modulePolicies deploymentPolicies := by
  intro h
  have hopen := h (fun _ => [])
    { deviceId := js "cutter", capability := js "laser.fire", payload := []
      operationalState := [(js "enclosureOpen", .bool true)] } 0 [enclosure false] [enclosure true]
  cases (hopen rfl).1

end Pinout.Policy
