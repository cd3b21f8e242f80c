import Pinout.Policy.Safety
import Pinout.Foundation.Fallible

/-! # Rules and the capability they are written for

What the rules of other capabilities do to a call. `enforceRules` passes over all of them except lease rules: a lease
rule of another capability asks every call for a lease. `reserve_restrictedTo_iff` says when that makes no difference,
namely unless such a rule decides the call (`ForeignLeaseDecides`). -/

namespace Pinout.Policy

open Foundation

def SafetyRule.capability : SafetyRule → JsString
  | legacy rule => rule.capability
  | rate rule => rule.capability
  | interlock rule => rule.capability
  | sequence rule => rule.capability
  | approval rule => rule.capability
  | lease rule => rule.capability
  | deadman rule => rule.capability
  | resource rule => rule.capability

def ownRules (capability : JsString) (rules : List SafetyRule) : List SafetyRule :=
  rules.filter fun rule => rule.capability = capability

/-- The engine without the rules of other capabilities. -/
def SafetyEngine.restrictedTo (engine : SafetyEngine) (capability : JsString) : SafetyEngine :=
  { engine with rules := ownRules capability engine.rules }

/-- Whether a rule is a lease rule of another capability. -/
def SafetyRule.foreignLease (capability : JsString) : SafetyRule → Bool
  | lease rule => rule.capability ≠ capability
  | _ => false

/-- Whether the caller holds the lease that a lease rule asks for. -/
def LeaseHeld (at_ : Surroundings) (context : PolicyContext) : Prop :=
  context.owner.getD [] ≠ [] ∧
    ∃ permits ∈ at_.permits, (permits (context.owner.getD []) context.deviceId context.capability).permitted = true

variable {numText : ℚ → JsString} {f : Feeds} {at_ : Surroundings} {context : PolicyContext}

/-! ## Lease rules -/

/-- A lease rule lets the call pass exactly when the lease is held, whatever capability it is written for. -/
theorem enforceLease_eq_ok_iff {rule : LeaseRule} :
    enforceLease rule context at_ = .ok () ↔ LeaseHeld at_ context := by
  rw [enforceLease, LeaseHeld]
  cases at_.permits with
  | none => simp
  | some permits =>
    by_cases howner : context.owner.getD [] = []
    · simp [howner]
    · by_cases hpermitted : (permits (context.owner.getD []) context.deviceId context.capability).permitted = true
      · simp [howner, hpermitted]
      · simp [howner, hpermitted]

def leaseCodes : List JsString :=
  [js "SAFETY_LEASE_MANAGER_MISSING", js "SAFETY_LEASE_OWNER_REQUIRED", js "SAFETY_LEASE_REQUIRED"]

/-- Without the lease, every lease rule refuses alike, up to its id. -/
theorem exists_enforceLease_eq_error (h : ¬ LeaseHeld at_ context) :
    ∃ message details, ∃ code ∈ leaseCodes, ∀ rule : LeaseRule,
      enforceLease rule context at_ = .error (reject rule.id message context code details) := by
  rw [LeaseHeld] at h
  cases hpermits : at_.permits with
  | none =>
    refine ⟨_, _, _, ?_, fun rule => by rw [enforceLease, hpermits]⟩
    simp [leaseCodes]
  | some permits =>
    rw [hpermits] at h
    by_cases howner : context.owner.getD [] = []
    · refine ⟨_, _, _, ?_, fun rule => by rw [enforceLease, hpermits]; dsimp only; rw [if_pos howner]⟩
      simp [leaseCodes]
    · have hrefused : ¬ (permits (context.owner.getD []) context.deviceId context.capability).permitted = true :=
        fun hpermitted => h ⟨howner, permits, rfl, hpermitted⟩
      refine ⟨_, _, _, ?_, fun rule => by
        rw [enforceLease, hpermits]; dsimp only; rw [if_neg howner, if_neg hrefused]⟩
      simp [leaseCodes]

/-- Two refusals that differ in the id at most are the same exactly when the ids are. -/
theorem reject_inj {id id' : Option JsString} {message code : JsString} {details : JsonObject} :
    reject id message context code details = reject id' message context code details ↔ id = id' := by
  refine ⟨fun h => ?_, fun h => by rw [h]⟩
  have hdetails := congrArg StructuredError.details (Thrown.structuredError.inj h)
  have hid : detail? (js "ruleId") (id.map .str) = detail? (js "ruleId") (id'.map .str) :=
    List.append_cancel_left hdetails
  cases id <;> cases id' <;> simp_all [detail?]

theorem code_of_assertFreshState {state : JsonObject} {maxAgeMs now : ℚ} {thrown : Thrown}
    (h : assertFreshState numText state maxAgeMs context now = .error thrown) :
    thrown.code? = some (js "SAFETY_STATE_STALE") := by
  unfold assertFreshState at h
  dsimp only at h
  split at h
  · cases h
  · cases h
    rfl

def SafetyRule.codes : SafetyRule → List JsString
  | legacy _ => []
  | rate _ => [js "SAFETY_RATE_LIMIT"]
  | interlock _ => [js "SAFETY_STATE_STALE", js "SAFETY_INTERLOCK_NOT_SATISFIED"]
  | sequence _ => [js "SAFETY_SEQUENCE_NOT_SATISFIED"]
  | approval _ => [js "SAFETY_APPROVAL_REQUIRED"]
  | lease _ => leaseCodes
  | deadman _ => [js "SAFETY_DEADMAN_STALE"]
  | resource _ => [js "SAFETY_BUDGET_NOT_CONFIGURED", js "SAFETY_BUDGET_EXHAUSTED"]

theorem error_of_keeping_eq_error {c : Consumables} {check : Except Thrown Unit} {thrown : Thrown}
    (h : keeping c check = .error thrown) : check = .error thrown := by
  unfold keeping at h
  split at h
  · cases h
  · exact congrArg _ (Except.error.inj h)

theorem exists_code_of_enforceRule {c : Consumables} {rule : SafetyRule} {thrown : Thrown}
    (h : enforceRule numText f at_ context c rule = .error thrown) : ∃ code ∈ rule.codes, thrown.code? = some code := by
  cases rule with
  | legacy rule => cases h
  | rate rule =>
    simp only [enforceRule, enforceRate] at h
    split at h <;> cases h
    exact ⟨_, List.mem_singleton_self _, rfl⟩
  | interlock rule =>
    have hcheck := error_of_keeping_eq_error (show keeping c _ = .error thrown from h)
    have hinterlock : ∀ {check : Except Thrown Unit},
        (if f.interlocks.get? rule.interlock = some (rule.mustBe.getD (.bool true)) then .ok () else check) = .error thrown →
          check = .error thrown := by
      intro check h
      split at h
      · cases h
      · exact h
    unfold enforceInterlock at hcheck
    cases hage : rule.maxStateAgeMs with
    | none =>
      rw [hage] at hcheck
      cases hinterlock hcheck
      exact ⟨_, List.mem_cons_of_mem _ (List.mem_singleton_self _), rfl⟩
    | some maxStateAgeMs =>
      rw [hage] at hcheck
      cases hfresh : assertFreshState numText context.operationalState maxStateAgeMs context at_.now with
      | error stale =>
        simp only [hfresh] at hcheck
        cases hcheck
        exact ⟨_, List.mem_cons_self, code_of_assertFreshState hfresh⟩
      | ok _ =>
        simp only [hfresh] at hcheck
        cases hinterlock hcheck
        exact ⟨_, List.mem_cons_of_mem _ (List.mem_singleton_self _), rfl⟩
  | sequence rule =>
    have hcheck := error_of_keeping_eq_error (show keeping c _ = .error thrown from h)
    unfold enforceSequence at hcheck
    dsimp only at hcheck
    split at hcheck <;> cases hcheck
    exact ⟨_, List.mem_singleton_self _, rfl⟩
  | approval rule =>
    simp only [enforceRule, enforceApproval] at h
    split at h <;> cases h
    exact ⟨_, List.mem_singleton_self _, rfl⟩
  | lease rule =>
    have hcheck := error_of_keeping_eq_error (show keeping c _ = .error thrown from h)
    by_cases hheld : LeaseHeld at_ context
    · rw [enforceLease_eq_ok_iff.mpr hheld] at hcheck
      cases hcheck
    · obtain ⟨message, details, code, hcode, hrefusal⟩ := exists_enforceLease_eq_error hheld
      rw [hrefusal] at hcheck
      cases hcheck
      exact ⟨code, hcode, rfl⟩
  | deadman rule =>
    have hcheck := error_of_keeping_eq_error (show keeping c _ = .error thrown from h)
    unfold enforceDeadman at hcheck
    dsimp only at hcheck
    split at hcheck <;> cases hcheck
    exact ⟨_, List.mem_singleton_self _, rfl⟩
  | resource rule =>
    simp only [enforceRule, enforceResource] at h
    split at h
    · cases h
      exact ⟨_, List.mem_cons_self, rfl⟩
    · split at h <;> cases h
      exact ⟨_, List.mem_cons_of_mem _ (List.mem_singleton_self _), rfl⟩

theorem SafetyRule.eq_lease_of_code_mem {rule : SafetyRule} {code : JsString} (h : code ∈ rule.codes)
    (hlease : code ∈ leaseCodes) : ∃ own, rule = .lease own := by
  have hdisjoint : ∀ codes ∈ [[], [js "SAFETY_RATE_LIMIT"], [js "SAFETY_STATE_STALE", js "SAFETY_INTERLOCK_NOT_SATISFIED"],
      [js "SAFETY_SEQUENCE_NOT_SATISFIED"], [js "SAFETY_APPROVAL_REQUIRED"], [js "SAFETY_DEADMAN_STALE"],
      [js "SAFETY_BUDGET_NOT_CONFIGURED", js "SAFETY_BUDGET_EXHAUSTED"]], ∀ other ∈ codes, other ∉ leaseCodes := by
    decide
  cases rule with
  | lease own => exact ⟨own, rfl⟩
  | _ => exact absurd hlease (hdisjoint _ (by simp [SafetyRule.codes]) _ h)

/-! ## The loops -/

/-- The baseline policies pass over the rules of other capabilities. -/
theorem evaluatePolicies_ownRules (rules : List SafetyRule) (dateNow : ℚ) :
    evaluatePolicies numText ((ownRules context.capability rules).filterMap SafetyRule.legacy?) context dateNow =
      evaluatePolicies numText (rules.filterMap SafetyRule.legacy?) context dateNow := by
  have hlegacy : ∀ (rule : PolicyRule) (rules : List SafetyRule),
      (SafetyRule.legacy rule :: rules).filterMap SafetyRule.legacy? = rule :: rules.filterMap SafetyRule.legacy? :=
    fun _ _ => rfl
  induction rules with
  | nil => rfl
  | cons rule rules ih =>
    rw [ownRules] at ih ⊢
    by_cases hown : rule.capability = context.capability
    · rw [List.filter_cons_of_pos (by simpa using hown)]
      cases rule with
      | legacy rule => rw [hlegacy, hlegacy, evaluatePolicies, evaluatePolicies, ih]
      | _ => exact ih
    · rw [List.filter_cons_of_neg (by simpa using hown)]
      cases rule with
      | legacy rule =>
        have hforeign : rule.capability ≠ context.capability := hown
        rw [hlegacy, evaluatePolicies, if_pos hforeign, ih]
      | _ => exact ih

theorem enforceEach_append (pre post : List SafetyRule) (c : Consumables) :
    enforceEach numText f at_ context (pre ++ post) c =
      match enforceEach numText f at_ context pre c with
      | .ok c' => enforceEach numText f at_ context post c'
      | .error thrown => .error thrown := by
  induction pre generalizing c with
  | nil => rfl
  | cons rule pre ih =>
    rw [List.cons_append, enforceEach, enforceEach]
    split
    · cases enforceRule numText f at_ context c rule with
      | ok c' => exact ih c'
      | error thrown => rfl
    · exact ih c

/-- A v2 rule that is no lease rule of another capability applies to the calls of its own capability. -/
theorem SafetyRule.appliesTo_of_own {rule : SafetyRule} {capability : JsString}
    (h : rule.foreignLease capability = false) (happlies : rule.appliesTo capability = true) :
    rule.capability = capability := by
  cases rule with
  | legacy rule => cases happlies
  | lease rule => simpa [foreignLease, SafetyRule.capability] using h
  | _ => simpa [appliesTo, SafetyRule.capability] using happlies

/-- Up to a point the loop passes over the rules of other capabilities, if every lease rule of another capability there
lets the call pass. -/
theorem enforceEach_ownRules {rules : List SafetyRule} {c : Consumables}
    (h : (∃ rule ∈ rules, rule.foreignLease context.capability = true) → LeaseHeld at_ context) :
    enforceEach numText f at_ context (ownRules context.capability rules) c =
      enforceEach numText f at_ context rules c := by
  induction rules generalizing c with
  | nil => rfl
  | cons rule rules ih =>
    have ih' := fun c => @ih c fun ⟨other, hmem, hforeign⟩ => h ⟨other, List.mem_cons_of_mem _ hmem, hforeign⟩
    rw [ownRules] at ih' ⊢
    by_cases hown : rule.capability = context.capability
    · rw [List.filter_cons_of_pos (by simpa using hown), enforceEach, enforceEach]
      split
      · cases enforceRule numText f at_ context c rule with
        | ok c' => exact ih' c'
        | error thrown => rfl
      · exact ih' c
    · rw [List.filter_cons_of_neg (by simpa using hown), ih', enforceEach]
      by_cases happlies : rule.appliesTo context.capability = true
      · -- A rule of another capability that applies is a lease rule, and the lease is held.
        have hforeign : rule.foreignLease context.capability = true := by
          by_contra hno
          exact hown (SafetyRule.appliesTo_of_own (by simpa using hno) happlies)
        have hheld := h ⟨rule, List.mem_cons_self, hforeign⟩
        cases rule with
        | lease own =>
          rw [if_pos happlies, enforceRule, enforceLease_eq_ok_iff.mpr hheld]
          rfl
        | _ => cases hforeign
      · rw [if_neg happlies]

/-- An own lease rule with this id is reached: the own rules before it let the call pass. -/
def ReachesOwnLease (numText : ℚ → JsString) (f : Feeds) (at_ : Surroundings) (context : PolicyContext)
    (id : Option JsString) (rules : List SafetyRule) (c : Consumables) : Prop :=
  ∃ mid own post c', rules = mid ++ .lease own :: post ∧ own.capability = context.capability ∧ own.id = id ∧
    enforceEach numText f at_ context (ownRules context.capability mid) c = .ok c'

/-- The own rules of a list are those of its first rule and those of the rest. -/
theorem ownRules_cons (capability : JsString) (rule : SafetyRule) (rules : List SafetyRule) :
    ownRules capability (rule :: rules) = ownRules capability [rule] ++ ownRules capability rules := by
  rw [ownRules, ownRules, ownRules, ← List.filter_append, List.singleton_append]

theorem enforceEach_ownRules_singleton (rule : SafetyRule) (c : Consumables) :
    enforceEach numText f at_ context (ownRules context.capability [rule]) c =
      if rule.capability = context.capability ∧ rule.appliesTo context.capability = true then
        enforceRule numText f at_ context c rule
      else .ok c := by
  by_cases hown : rule.capability = context.capability
  · rw [ownRules, List.filter_cons_of_pos (by simpa using hown), enforceEach]
    by_cases happlies : rule.appliesTo context.capability = true
    · rw [if_pos happlies, if_pos ⟨hown, happlies⟩]
      cases enforceRule numText f at_ context c rule <;> rfl
    · rw [if_neg happlies, if_neg fun h => happlies h.2]
      rfl
  · rw [ownRules, List.filter_cons_of_neg (by simpa using hown), if_neg fun h => hown h.1]
    rfl

/-- An own lease rule is reached in a list that starts with it, or behind a first rule that lets the call pass. -/
theorem reachesOwnLease_cons {id : Option JsString} {rule : SafetyRule} {rules : List SafetyRule} {c : Consumables} :
    ReachesOwnLease numText f at_ context id (rule :: rules) c ↔
      (∃ own, rule = .lease own ∧ own.capability = context.capability ∧ own.id = id) ∨
        ∃ c', enforceEach numText f at_ context (ownRules context.capability [rule]) c = .ok c' ∧
          ReachesOwnLease numText f at_ context id rules c' := by
  constructor
  · rintro ⟨mid, own, post, c', hrules, hown, hid, hpass⟩
    cases mid with
    | nil => exact .inl ⟨own, (List.cons.inj hrules).1, hown, hid⟩
    | cons first mid =>
      obtain ⟨rfl, hrest⟩ := List.cons.inj hrules
      rw [ownRules_cons, enforceEach_append] at hpass
      split at hpass
      · next c₁ hfirst => exact .inr ⟨c₁, hfirst, mid, own, post, c', hrest, hown, hid, hpass⟩
      · cases hpass
  · rintro (⟨own, rfl, hown, hid⟩ | ⟨c₁, hfirst, mid, own, post, c', rfl, hown, hid, hpass⟩)
    · exact ⟨[], own, rules, c, rfl, hown, hid, rfl⟩
    · refine ⟨rule :: mid, own, post, c', rfl, hown, hid, ?_⟩
      rw [ownRules_cons, enforceEach_append, hfirst]
      exact hpass

/-- Without the lease, the own rules refuse the way a lease rule does exactly when an own lease rule with its id is
reached. -/
theorem enforceEach_eq_leaseRefusal_iff (hheld : ¬ LeaseHeld at_ context) {refusing : LeaseRule} {rules : List SafetyRule}
    {c₀ c : Consumables} :
    enforceEach numText f at_ context (ownRules context.capability rules) c =
        keeping c₀ (enforceLease refusing context at_) ↔
      ReachesOwnLease numText f at_ context refusing.id rules c := by
  obtain ⟨message, details, code, hcode, hrefusal⟩ := exists_enforceLease_eq_error hheld
  have hkept : ∀ (rule : LeaseRule) (c : Consumables),
      keeping c (enforceLease rule context at_) = .error (reject rule.id message context code details) := by
    intro rule c
    rw [hrefusal, keeping]
  rw [hkept]
  induction rules generalizing c with
  | nil =>
    refine iff_of_false nofun ?_
    rintro ⟨mid, own, post, c', hrules, -⟩
    cases mid <;> cases hrules
  | cons rule rules ih =>
    rw [reachesOwnLease_cons, ownRules_cons, enforceEach_append, enforceEach_ownRules_singleton]
    by_cases happlies : rule.capability = context.capability ∧ rule.appliesTo context.capability = true
    · rw [if_pos happlies]
      cases hfirst : enforceRule numText f at_ context c rule with
      | ok c₁ =>
        -- The first rule lets the call pass, so it is no lease rule.
        refine ih.trans ⟨fun hreaches => .inr ⟨c₁, rfl, hreaches⟩, ?_⟩
        rintro (⟨own, rfl, -⟩ | ⟨c₂, hc₂, hreaches⟩)
        · rw [enforceRule, hkept] at hfirst
          cases hfirst
        · rwa [Except.ok.inj hc₂]
      | error thrown =>
        refine ⟨fun hthrown => .inl ?_, ?_⟩
        · obtain rfl := Except.error.inj hthrown
          obtain ⟨other, hother, heq⟩ := exists_code_of_enforceRule hfirst
          obtain ⟨own, rfl⟩ := SafetyRule.eq_lease_of_code_mem hother (Option.some.inj heq ▸ hcode)
          rw [enforceRule, hkept] at hfirst
          exact ⟨own, rfl, happlies.1, reject_inj.mp (Except.error.inj hfirst)⟩
        · rintro (⟨own, rfl, -, hid⟩ | ⟨c₂, hc₂, -⟩)
          · rw [enforceRule, hkept, hid] at hfirst
            exact hfirst.symm
          · cases hc₂
    · rw [if_neg happlies]
      refine ih.trans ⟨fun hreaches => .inr ⟨c, rfl, hreaches⟩, ?_⟩
      rintro (⟨own, rfl, hown, -⟩ | ⟨c₂, hc₂, hreaches⟩)
      · exact absurd ⟨hown, rfl⟩ happlies
      · rwa [Except.ok.inj hc₂]

theorem exists_append_cons_of_any {α : Type} {p : α → Bool} {l : List α} (h : ∃ x ∈ l, p x = true) :
    ∃ pre x post, l = pre ++ x :: post ∧ p x = true ∧ ∀ y ∈ pre, p y = false := by
  obtain ⟨x, hx⟩ := List.find?_isSome.mpr h |> Option.isSome_iff_exists.mp
  obtain ⟨hpx, pre, post, hl, hpre⟩ := List.find?_eq_some_iff_append.mp hx
  exact ⟨pre, x, post, hl, hpx, fun y hy => by simpa using hpre y hy⟩

/-! ## When the rules of other capabilities make no difference -/

namespace SafetyEngine

/-- A lease rule of another capability decides the call: the caller holds no lease for it, everything of its own
before that rule lets it pass, and no own lease rule with the same id is reached after it. -/
def ForeignLeaseDecides (numText : ℚ → JsString) (engine : SafetyEngine) (at_ : Surroundings)
    (context : PolicyContext) : Prop :=
  ¬ LeaseHeld at_ context ∧
    evaluatePolicies numText (engine.rules.filterMap SafetyRule.legacy?) context at_.dateNow = .ok () ∧
    ∃ pre foreign post c, engine.rules = pre ++ .lease foreign :: post ∧ foreign.capability ≠ context.capability ∧
      (∀ rule ∈ pre, rule.foreignLease context.capability = false) ∧
      enforceEach numText engine.feeds at_ context (ownRules context.capability pre) engine.consumables = .ok c ∧
      ¬ ReachesOwnLease numText engine.feeds at_ context foreign.id post c

theorem reserve_snd_eq_iff {engine engine' : SafetyEngine} (h : engine.consumables = engine'.consumables) :
    (engine.reserve numText at_ context).2 = (engine'.reserve numText at_ context).2 ↔
      (enforceRules numText engine at_ context).map (fun _ => ()) =
        (enforceRules numText engine' at_ context).map fun _ => () := by
  unfold reserve
  dsimp only
  cases enforceRules numText engine at_ context <;> cases enforceRules numText engine' at_ context <;> simp [h, Except.map]

/-- The whole loop and the loop over the own rules, up to the first lease rule of another capability. -/
theorem enforceEach_split (hheld : ¬ LeaseHeld at_ context) {pre post : List SafetyRule} {foreign : LeaseRule}
    (hforeign : foreign.capability ≠ context.capability)
    (hpre : ∀ rule ∈ pre, rule.foreignLease context.capability = false) (c : Consumables) :
    (enforceEach numText f at_ context (pre ++ .lease foreign :: post) c =
        match enforceEach numText f at_ context (ownRules context.capability pre) c with
        | .ok c' => keeping c' (enforceLease foreign context at_)
        | .error thrown => .error thrown) ∧
      enforceEach numText f at_ context (ownRules context.capability (pre ++ .lease foreign :: post)) c =
        match enforceEach numText f at_ context (ownRules context.capability pre) c with
        | .ok c' => enforceEach numText f at_ context (ownRules context.capability post) c'
        | .error thrown => .error thrown := by
  have hown : ownRules context.capability (pre ++ .lease foreign :: post) =
      ownRules context.capability pre ++ ownRules context.capability post := by
    rw [ownRules, List.filter_append, List.filter_cons_of_neg (decide_eq_false hforeign ▸ Bool.false_ne_true)]
    rfl
  constructor
  · have hnone : (∃ rule ∈ pre, rule.foreignLease context.capability = true) → LeaseHeld at_ context := by
      rintro ⟨rule, hmem, h⟩
      rw [hpre rule hmem] at h
      cases h
    rw [enforceEach_append, enforceEach_ownRules hnone]
    cases enforceEach numText f at_ context pre c with
    | error thrown => rfl
    | ok c' =>
      obtain ⟨message, details, code, -, hrefusal⟩ := exists_enforceLease_eq_error hheld
      have happlies : (SafetyRule.lease foreign).appliesTo context.capability = true := rfl
      dsimp only
      rw [enforceEach, if_pos happlies, enforceRule, hrefusal]
      rfl
  · rw [hown, enforceEach_append]

/-- **Which calls the rules of other capabilities leave alone.** Without the rules of other capabilities `reserve` gives
the same verdict exactly when no lease rule of another capability decides the call. -/
theorem reserve_restrictedTo_iff (numText : ℚ → JsString) (engine : SafetyEngine) (at_ : Surroundings)
    (context : PolicyContext) :
    (engine.reserve numText at_ context).2 = ((engine.restrictedTo context.capability).reserve numText at_ context).2 ↔
      ¬ engine.ForeignLeaseDecides numText at_ context := by
  have hsame : engine.consumables = (engine.restrictedTo context.capability).consumables := rfl
  rw [reserve_snd_eq_iff hsame, enforceRules, enforceRules, restrictedTo, evaluatePolicies_ownRules]
  cases hpolicies : evaluatePolicies numText (engine.rules.filterMap SafetyRule.legacy?) context at_.dateNow with
  | error thrown =>
    refine iff_of_true rfl ?_
    rintro ⟨-, hok, -⟩
    rw [hpolicies] at hok
    cases hok
  | ok _ =>
    dsimp only
    constructor
    · rintro heq ⟨hheld, -, pre, foreign, post, c, hrules, hforeign, hpre, hpass, hreaches⟩
      obtain ⟨hall, hown⟩ := enforceEach_split hheld hforeign hpre engine.consumables
      rw [hrules, hall, hown, hpass] at heq
      obtain ⟨message, details, code, -, hrefusal⟩ := exists_enforceLease_eq_error hheld
      have hkept : keeping c (enforceLease foreign context at_) =
          .error (reject foreign.id message context code details) := by
        rw [hrefusal, keeping]
      dsimp only at heq
      rw [hkept, map_eq_map_error_iff, ← hkept] at heq
      exact hreaches ((enforceEach_eq_leaseRefusal_iff hheld).mp heq)
    · intro hspared
      by_cases hheld : LeaseHeld at_ context
      · rw [enforceEach_ownRules fun _ => hheld]
      · by_cases hany : ∃ rule ∈ engine.rules, rule.foreignLease context.capability = true
        · -- The first lease rule of another capability refuses, unless a rule before it already has.
          obtain ⟨pre, rule, post, hrules, hrule, hpre⟩ := exists_append_cons_of_any hany
          obtain ⟨foreign, rfl, hforeign⟩ : ∃ foreign, rule = .lease foreign ∧ foreign.capability ≠ context.capability := by
            cases rule with
            | lease foreign => exact ⟨foreign, rfl, by simpa [SafetyRule.foreignLease] using hrule⟩
            | _ => cases hrule
          obtain ⟨hall, hown⟩ := enforceEach_split hheld hforeign hpre engine.consumables
          rw [hrules, hall, hown]
          cases hpass : enforceEach numText engine.feeds at_ context (ownRules context.capability pre) engine.consumables with
          | error thrown => rfl
          | ok c =>
            have hreaches : ReachesOwnLease numText engine.feeds at_ context foreign.id post c := by
              by_contra hno
              exact hspared ⟨hheld, hpolicies, pre, foreign, post, c, hrules, hforeign, hpre, hpass, hno⟩
            dsimp only
            rw [(enforceEach_eq_leaseRefusal_iff hheld).mpr hreaches]
        · rw [enforceEach_ownRules fun h => absurd h hany]

/-- An engine with a lease rule on writing only, and a call that reads, without a lease. -/
def writeLeased : SafetyEngine := { rules := [.lease { capability := js "gpio.write" }] }

def reading : PolicyContext :=
  { deviceId := js "esp-01", capability := js "gpio.read", payload := [], operationalState := [] }

/-- The lease rule on writing makes reading need a lease. -/
theorem not_reserve_restrictedTo :
    ¬ ∀ (numText : ℚ → JsString) (engine : SafetyEngine) (at_ : Surroundings) (context : PolicyContext),
      (engine.reserve numText at_ context).2 = ((engine.restrictedTo context.capability).reserve numText at_ context).2 := by
  intro h
  have hread := congrArg Except.isOk (h (fun _ => []) writeLeased
    { now := 0, permits := some fun _ _ _ => ⟨false, none⟩ } reading)
  exact absurd hread (by decide)

end SafetyEngine

end Pinout.Policy
