import Pinout.Foundation.InsertionMap
import Pinout.Policy.Engine

/-! # The safety engine

`SafetyEngine` (`packages/core/src/policy/safety.ts`): rate limits, interlocks, sequences, approvals,
leases, deadman switches and resource budgets on top of the baseline policies. The state a decision
consumes (rate windows, approvals, budgets) is kept apart from the state it only reads.
`consumptions` says what an accepted action consumes, rule by rule, and `enforceRules_consumes` that
this is all a decision does to the consumable state. -/

namespace Pinout.Policy

open Foundation

/-! ## Rules -/

structure RateRule where
  id : Option JsString := none
  capability : JsString
  maxPerWindow : ℚ
  windowMs : Option ℚ := none
  deriving DecidableEq

/-- `rule.windowMs ?? 1000`. -/
def RateRule.window (rule : RateRule) : ℚ := rule.windowMs.getD 1000

structure InterlockRule where
  id : Option JsString := none
  capability : JsString
  interlock : JsString
  mustBe : Option Scalar := none
  /-- Maximum acceptable age of the operational state, in milliseconds. -/
  maxStateAgeMs : Option ℚ := none
  message : Option JsString := none

structure SequenceRule where
  id : Option JsString := none
  capability : JsString
  sequence : JsString
  atLeastStep : ℚ
  message : Option JsString := none

structure ApprovalRule where
  id : Option JsString := none
  capability : JsString

structure LeaseRule where
  id : Option JsString := none
  capability : JsString

structure DeadmanRule where
  id : Option JsString := none
  capability : JsString
  maxAgeMs : Option ℚ := none
  message : Option JsString := none

structure ResourceRule where
  id : Option JsString := none
  capability : JsString
  resource : JsString
  cost : Option ℚ := none

inductive SafetyRule
  | legacy (rule : PolicyRule)
  | rate (rule : RateRule)
  | interlock (rule : InterlockRule)
  | sequence (rule : SequenceRule)
  | approval (rule : ApprovalRule)
  | lease (rule : LeaseRule)
  | deadman (rule : DeadmanRule)
  | resource (rule : ResourceRule)

/-- The rules `evaluatePolicies` acts on. -/
def SafetyRule.legacy? : SafetyRule → Option PolicyRule
  | legacy rule => some rule
  | _ => none

/-- Whether `enforceRules` comes to a v2 rule for a capability: lease rules are not filtered by
capability. -/
def SafetyRule.appliesTo (capability : JsString) : SafetyRule → Bool
  | legacy _ => false
  | rate rule => rule.capability = capability
  | interlock rule => rule.capability = capability
  | sequence rule => rule.capability = capability
  | approval rule => rule.capability = capability
  | lease _ => true
  | deadman rule => rule.capability = capability
  | resource rule => rule.capability = capability

/-! ## State -/

structure ApprovalRecord where
  id : JsString
  deviceId : JsString
  capability : JsString
  grantedBy : JsString
  grantedAt : ℚ
  expiresAt : Option ℚ := none
  usedAt : Option ℚ := none
  deriving DecidableEq

structure ResourceBudget where
  limit : ℚ
  windowMs : ℚ
  consumed : List (ℚ × ℚ)
  deriving DecidableEq

/-- The state decisions consume: what `snapshotConsumables` copies. -/
structure Consumables where
  rateWindows : InsertionMap JsString (List ℚ) := .empty
  approvals : InsertionMap JsString ApprovalRecord := .empty
  budgets : InsertionMap JsString ResourceBudget := .empty

structure Feeds where
  interlocks : InsertionMap JsString Scalar := .empty
  sequences : InsertionMap JsString ℚ := .empty
  deadman : InsertionMap JsString ℚ := .empty

/-- The state of a `SafetyEngine`. -/
structure SafetyEngine where
  rules : List SafetyRule
  feeds : Feeds := {}
  consumables : Consumables := {}

/-- What `LeaseManager.permits` returns; the conflict as the detail it becomes. -/
structure LeaseVerdict where
  permitted : Bool
  conflict : Option Json := none

/-- The surroundings of a call: the engine's clock, the wall clock, and the lease manager, when one
is configured, as its verdict on an owner, a device and a capability. -/
structure Surroundings where
  now : ℚ
  dateNow : ℚ := now
  permits : Option (JsString → JsString → JsString → LeaseVerdict) := none

/-! ## Rule implementations -/

variable (numText : ℚ → JsString)

/-- `reject`: the error a rule throws. -/
def reject (ruleId : Option JsString) (message : JsString) (context : PolicyContext)
    (code : JsString) (details : JsonObject := []) : Thrown :=
  .structuredError
    { pinoutStructuredError code .safety (message ++ js " (" ++ context.deviceId ++ js "." ++
        context.capability ++ js ")") with
      device := some context.deviceId
      capability := some context.capability
      details := details ++ detail? (js "ruleId") (ruleId.map .str) }

/-- The key of a rate window, `deviceId::capability`. -/
def rateKey (context : PolicyContext) : JsString :=
  context.deviceId ++ js "::" ++ context.capability

/-- The timestamps of a window that are younger than `windowMs`. -/
def liveTimestamps (c : Consumables) (context : PolicyContext) (windowMs now : ℚ) : List ℚ :=
  ((c.rateWindows.get? (rateKey context)).getD []).filter fun t => now - windowMs < t

/-- `enforceRate`. A rejected call also prunes the window in place; `reserve` undoes that together
with everything else a rejected call did. -/
def enforceRate (rule : RateRule) (context : PolicyContext) (now : ℚ) (c : Consumables) :
    Except Thrown Consumables :=
  let timestamps := liveTimestamps c context rule.window now
  if rule.maxPerWindow ≤ timestamps.length then
    .error (reject rule.id
      (js "Rate limit: max " ++ numText rule.maxPerWindow ++ js " '" ++ context.capability ++
        js "' per " ++ numText rule.window ++ js "ms.")
      context (js "SAFETY_RATE_LIMIT")
      [(js "maxPerWindow", .num rule.maxPerWindow), (js "windowMs", .num rule.window)])
  else .ok { c with rateWindows := c.rateWindows.insert (rateKey context) (timestamps ++ [now]) }

def enforceInterlock (rule : InterlockRule) (context : PolicyContext) (now : ℚ) (f : Feeds) :
    Except Thrown Unit := do
  if let some maxStateAgeMs := rule.maxStateAgeMs then
    assertFreshState numText context.operationalState maxStateAgeMs context now
  let expected := rule.mustBe.getD (.bool true)
  let actual := f.interlocks.get? rule.interlock
  if actual = some expected then .ok ()
  else .error (reject rule.id
    (rule.message.getD (js "Interlock '" ++ rule.interlock ++ js "' must be " ++
      expected.toJson.text numText ++ js ", current " ++
      textOrUndefined numText (actual.map Scalar.toJson) ++ js "."))
    context (js "SAFETY_INTERLOCK_NOT_SATISFIED")
    ([(js "interlock", .str rule.interlock), (js "expected", expected.toJson)] ++
      detail? (js "actual") (actual.map Scalar.toJson)))

def enforceSequence (rule : SequenceRule) (context : PolicyContext) (f : Feeds) :
    Except Thrown Unit :=
  let step := f.sequences.get? rule.sequence
  if step.any fun s => rule.atLeastStep ≤ s then .ok ()
  else .error (reject rule.id
    (rule.message.getD (js "Sequence '" ++ rule.sequence ++ js "' must have reached step " ++
      numText rule.atLeastStep ++ js ", current " ++
      textOrUndefined numText (step.map Json.num) ++ js "."))
    context (js "SAFETY_SEQUENCE_NOT_SATISFIED")
    ([(js "sequence", .str rule.sequence), (js "requiredStep", .num rule.atLeastStep)] ++
      detail? (js "currentStep") (step.map Json.num)))

/-- Whether an approval is for the invocation, unused and unexpired. -/
def ApprovalRecord.admits (record : ApprovalRecord) (context : PolicyContext) (now : ℚ) : Bool :=
  record.deviceId = context.deviceId ∧ record.capability = context.capability ∧
    record.usedAt = none ∧ ∀ t, record.expiresAt = some t → now < t

/-- The first approval that matches, with the key it is stored under. -/
def matchedApproval (c : Consumables) (context : PolicyContext) (now : ℚ) :
    Option (JsString × ApprovalRecord) :=
  c.approvals.entries.find? fun e => e.2.admits context now

/-- `enforceApproval`: spend the first approval that matches. -/
def enforceApproval (rule : ApprovalRule) (context : PolicyContext) (now : ℚ) (c : Consumables) :
    Except Thrown Consumables :=
  match matchedApproval c context now with
  | some (key, record) =>
    .ok { c with approvals := c.approvals.insert key { record with usedAt := some now } }
  | none => .error (reject rule.id
      (js " '" ++ context.capability ++
        js "' requires an operator approval that has not been granted (or is already used).")
      context (js "SAFETY_APPROVAL_REQUIRED"))

def enforceLease (rule : LeaseRule) (context : PolicyContext) (at_ : Surroundings) :
    Except Thrown Unit :=
  match at_.permits with
  | none => .error (reject rule.id
      (js "No lease manager is configured; lease-gated capability is unavailable.")
      context (js "SAFETY_LEASE_MANAGER_MISSING"))
  | some permits =>
    let owner := context.owner.getD []
    if owner = [] then
      .error (reject rule.id
        (js "'" ++ context.capability ++
          js "' requires an active lease, but no lease owner was provided.")
        context (js "SAFETY_LEASE_OWNER_REQUIRED"))
    else
      let verdict := permits owner context.deviceId context.capability
      if verdict.permitted then .ok ()
      else .error (reject rule.id
        (js "'" ++ context.capability ++ js "' requires a lease held by the caller on device '" ++
          context.deviceId ++ js "'.")
        context (js "SAFETY_LEASE_REQUIRED") (detail? (js "conflictingLease") verdict.conflict))

def enforceDeadman (rule : DeadmanRule) (context : PolicyContext) (now : ℚ) (f : Feeds) :
    Except Thrown Unit :=
  let lastAlive := f.deadman.get? context.deviceId
  let maxAge := rule.maxAgeMs.getD 1000
  if lastAlive.any fun t => now - t ≤ maxAge then .ok ()
  else .error (reject rule.id
    (rule.message.getD (js "Deadman heartbeat for '" ++ context.deviceId ++ js "' is stale (" ++
      (match lastAlive with
        | none => js "never"
        | some t => numText (now - t) ++ js "ms old") ++ js ")."))
    context (js "SAFETY_DEADMAN_STALE")
    ([(js "maxAgeMs", .num maxAge)] ++ detail? (js "lastAlive") (lastAlive.map .num)))

def ResourceBudget.live (budget : ResourceBudget) (now : ℚ) : List (ℚ × ℚ) :=
  budget.consumed.filter fun e => now - budget.windowMs < e.1

def enforceResource (rule : ResourceRule) (context : PolicyContext) (now : ℚ) (c : Consumables) :
    Except Thrown Consumables :=
  match c.budgets.get? rule.resource with
  | none => .error (reject rule.id
      (js "No budget configured for resource '" ++ rule.resource ++ js "'.")
      context (js "SAFETY_BUDGET_NOT_CONFIGURED"))
  | some budget =>
    let consumed := budget.live now
    let cost := rule.cost.getD 1
    let total := (consumed.map Prod.snd).sum
    if budget.limit < total + cost then
      .error (reject rule.id
        (js "Resource budget '" ++ rule.resource ++ js "' exhausted (" ++ numText total ++ js "/" ++
          numText budget.limit ++ js " in the last " ++ numText budget.windowMs ++ js "ms).")
        context (js "SAFETY_BUDGET_EXHAUSTED")
        [(js "resource", .str rule.resource), (js "consumed", .num total),
          (js "limit", .num budget.limit)])
    else
      let charged := { budget with consumed := consumed ++ [(now, cost)] }
      .ok { c with budgets := c.budgets.insert rule.resource charged }

/-- Keep the consumable state when a check passes. -/
def keeping (c : Consumables) (check : Except Thrown Unit) : Except Thrown Consumables :=
  match check with
  | .ok () => .ok c
  | .error thrown => .error thrown

def enforceRule (f : Feeds) (at_ : Surroundings) (context : PolicyContext) (c : Consumables) :
    SafetyRule → Except Thrown Consumables
  | .legacy _ => .ok c
  | .rate rule => enforceRate numText rule context at_.now c
  | .interlock rule => keeping c (enforceInterlock numText rule context at_.now f)
  | .sequence rule => keeping c (enforceSequence numText rule context f)
  | .approval rule => enforceApproval rule context at_.now c
  | .lease rule => keeping c (enforceLease rule context at_)
  | .deadman rule => keeping c (enforceDeadman numText rule context at_.now f)
  | .resource rule => enforceResource numText rule context at_.now c

/-- The loop of `enforceRules` over the v2 rules. -/
def enforceEach (f : Feeds) (at_ : Surroundings) (context : PolicyContext) :
    List SafetyRule → Consumables → Except Thrown Consumables
  | [], c => .ok c
  | rule :: rules, c =>
    if rule.appliesTo context.capability then
      match enforceRule numText f at_ context c rule with
      | .ok c' => enforceEach f at_ context rules c'
      | .error thrown => .error thrown
    else enforceEach f at_ context rules c

/-- `enforceRules`: the baseline policies first, then the v2 rules in order. -/
def enforceRules (engine : SafetyEngine) (at_ : Surroundings) (context : PolicyContext) :
    Except Thrown Consumables :=
  match evaluatePolicies numText (engine.rules.filterMap SafetyRule.legacy?) context at_.dateNow with
  | .error thrown => .error thrown
  | .ok () => enforceEach numText engine.feeds at_ context engine.rules engine.consumables

/-! ## Operations -/

namespace SafetyEngine

def setInterlock (engine : SafetyEngine) (name : JsString) (value : Scalar) : SafetyEngine :=
  { engine with feeds.interlocks := engine.feeds.interlocks.insert name value }

def setSequenceStep (engine : SafetyEngine) (sequence : JsString) (step : ℚ) : SafetyEngine :=
  { engine with feeds.sequences := engine.feeds.sequences.insert sequence step }

def heartbeatDeadman (engine : SafetyEngine) (deviceId : JsString) (now : ℚ) : SafetyEngine :=
  { engine with feeds.deadman := engine.feeds.deadman.insert deviceId now }

def clearDeadman (engine : SafetyEngine) (deviceId : JsString) : SafetyEngine :=
  { engine with feeds.deadman := engine.feeds.deadman.erase deviceId }

end SafetyEngine

/-- `recordApproval`, on the consumable state. -/
def Consumables.recordApproval (c : Consumables) (record : ApprovalRecord) : Consumables :=
  { c with approvals := c.approvals.insert record.id record }

/-- `configureBudget`, on the consumable state. -/
def Consumables.configureBudget (c : Consumables) (resource : JsString) (limit windowMs : ℚ) :
    Consumables :=
  { c with budgets := c.budgets.insert resource { limit, windowMs, consumed := [] } }

namespace SafetyEngine

def recordApproval (engine : SafetyEngine) (record : ApprovalRecord) : SafetyEngine :=
  { engine with consumables := engine.consumables.recordApproval record }

def configureBudget (engine : SafetyEngine) (resource : JsString) (limit windowMs : ℚ) :
    SafetyEngine :=
  { engine with consumables := engine.consumables.configureBudget resource limit windowMs }

def restoreConsumables (engine : SafetyEngine) (saved : Consumables) : SafetyEngine :=
  { engine with consumables := saved }

/-- `reserve`: a thrown decision restores the snapshot taken on entry; otherwise the snapshot is
what the reservation's `rollback` restores. -/
def reserve (engine : SafetyEngine) (at_ : Surroundings) (context : PolicyContext) :
    SafetyEngine × Except Thrown Consumables :=
  let saved := engine.consumables
  match enforceRules numText engine at_ context with
  | .ok consumables => ({ engine with consumables }, .ok saved)
  | .error thrown => (engine.restoreConsumables saved, .error thrown)

/-- `enforce`: reserve and commit. -/
def enforce (engine : SafetyEngine) (at_ : Surroundings) (context : PolicyContext) :
    SafetyEngine × Except Thrown Unit :=
  match engine.reserve numText at_ context with
  | (engine', .ok _) => (engine', .ok ())
  | (engine', .error thrown) => (engine', .error thrown)

end SafetyEngine

/-- `PolicyDecision`. No error of the policy layer carries a `ruleId` of its own. -/
structure PolicyDecision where
  allowed : Bool
  code : Option JsString := none
  message : Option JsString := none

/-- The errors `check` turns into decisions; any other error is thrown on. -/
def decision? : Thrown → Option PolicyDecision
  | .structuredError e => some { allowed := false, code := e.code, message := e.message }
  | .pinoutError name code message _ =>
    if name ∈ [js "PolicyConstraintViolation", js "PolicyPreconditionFailed",
        js "PolicyActionDenied"]
    then some { allowed := false, code, message } else none
  | _ => none

namespace SafetyEngine

/-- `check`: the decision of `enforce`. -/
def check (engine : SafetyEngine) (at_ : Surroundings) (context : PolicyContext) :
    SafetyEngine × Except Thrown PolicyDecision :=
  match engine.enforce numText at_ context with
  | (engine', .ok ()) => (engine', .ok { allowed := true })
  | (engine', .error thrown) => match decision? thrown with
    | some decision => (engine', .ok decision)
    | none => (engine', .error thrown)

/-- `preview`: the decision of `check`, with the consumable state put back. -/
def preview (engine : SafetyEngine) (at_ : Surroundings) (context : PolicyContext) :
    SafetyEngine × Except Thrown PolicyDecision :=
  let saved := engine.consumables
  match engine.check numText at_ context with
  | (engine', decision) => (engine'.restoreConsumables saved, decision)

end SafetyEngine

/-! ## What a decision consumes -/

inductive Consumption
  | slot (key : JsString) (windowMs at_ : ℚ)
  | approval (id : JsString) (at_ : ℚ)
  | resource (name : JsString) (at_ cost : ℚ)
  deriving DecidableEq

/-- Take one consumption from the consumable state. -/
def Consumables.consume (c : Consumables) : Consumption → Consumables
  | .slot key windowMs at_ =>
    let timestamps := ((c.rateWindows.get? key).getD []).filter fun t => at_ - windowMs < t
    { c with rateWindows := c.rateWindows.insert key (timestamps ++ [at_]) }
  | .approval id at_ => match c.approvals.get? id with
    | some record => { c with approvals := c.approvals.insert id { record with usedAt := some at_ } }
    | none => c
  | .resource name at_ cost => match c.budgets.get? name with
    | some budget =>
      let charged := { budget with consumed := budget.live at_ ++ [(at_, cost)] }
      { c with budgets := c.budgets.insert name charged }
    | none => c

/-- What one v2 rule consumes when it lets the call pass. -/
def ruleConsumption (context : PolicyContext) (now : ℚ) (c : Consumables) :
    SafetyRule → Option Consumption
  | .rate rule => some (.slot (rateKey context) rule.window now)
  | .approval _ => (matchedApproval c context now).map fun e => .approval e.1 now
  | .resource rule => some (.resource rule.resource now (rule.cost.getD 1))
  | _ => none

def consumeRule (context : PolicyContext) (now : ℚ) (c : Consumables) (rule : SafetyRule) :
    Consumables :=
  (ruleConsumption context now c rule).elim c c.consume

/-- What an accepted action consumes: each rule of its capability in turn. -/
def consumptions (context : PolicyContext) (now : ℚ) :
    List SafetyRule → Consumables → List Consumption
  | [], _ => []
  | rule :: rules, c =>
    if rule.appliesTo context.capability then
      (ruleConsumption context now c rule).toList ++
        consumptions context now rules (consumeRule context now c rule)
    else consumptions context now rules c

variable {numText}

theorem foldl_ruleConsumption (context : PolicyContext) (now : ℚ) (c : Consumables)
    (rule : SafetyRule) :
    (ruleConsumption context now c rule).toList.foldl Consumables.consume c =
      consumeRule context now c rule := by
  rw [consumeRule]
  cases ruleConsumption context now c rule <;> rfl

/-- The matched approval is stored under its key, for the invocation, and unused. -/
theorem matchedApproval_eq_some {c : Consumables} {context : PolicyContext} {now : ℚ}
    {id : JsString} {record : ApprovalRecord}
    (h : matchedApproval c context now = some (id, record)) :
    c.approvals.get? id = some record ∧ record.usedAt = none := by
  have hmem : (id, record) ∈ c.approvals.entries := List.mem_of_find?_eq_some h
  have hadmits : record.admits context now = true :=
    List.find?_some (p := fun e : JsString × ApprovalRecord => e.2.admits context now) h
  refine ⟨InsertionMap.get?_eq_some_iff.mpr hmem, ?_⟩
  simp only [ApprovalRecord.admits, decide_eq_true_eq] at hadmits
  exact hadmits.2.2.1

theorem eq_of_keeping_eq_ok {c c' : Consumables} {check : Except Thrown Unit}
    (h : keeping c check = .ok c') : c' = c := by
  unfold keeping at h
  split at h
  · exact (Except.ok.inj h).symm
  · cases h

theorem enforceRate_consumes {rule : RateRule} {context : PolicyContext} {now : ℚ}
    {c c' : Consumables} (h : enforceRate numText rule context now c = .ok c') :
    c' = consumeRule context now c (.rate rule) := by
  unfold enforceRate at h
  dsimp only at h
  split at h
  · cases h
  · exact (Except.ok.inj h).symm

/-- An approval rule that lets the call pass spends the matched approval. -/
theorem enforceApproval_consumes {rule : ApprovalRule} {context : PolicyContext} {now : ℚ}
    {c c' : Consumables} (h : enforceApproval rule context now c = .ok c') :
    c' = consumeRule context now c (.approval rule) := by
  unfold enforceApproval at h
  split at h
  · next id record hm =>
    have hget := (matchedApproval_eq_some hm).1
    simp only [consumeRule, ruleConsumption, hm, Option.map_some, Option.elim_some,
      Consumables.consume, hget]
    exact (Except.ok.inj h).symm
  · cases h

theorem enforceResource_consumes {rule : ResourceRule} {context : PolicyContext} {now : ℚ}
    {c c' : Consumables} (h : enforceResource numText rule context now c = .ok c') :
    c' = consumeRule context now c (.resource rule) := by
  unfold enforceResource at h
  split at h
  · cases h
  · next budget hb =>
    simp only [consumeRule, ruleConsumption, Option.elim_some, Consumables.consume, hb]
    dsimp only at h
    split at h
    · cases h
    · exact (Except.ok.inj h).symm

/-- A rule that lets the call pass consumes what `ruleConsumption` says. -/
theorem enforceRule_consumes {f : Feeds} {at_ : Surroundings} {context : PolicyContext}
    {c c' : Consumables} {rule : SafetyRule}
    (h : enforceRule numText f at_ context c rule = .ok c') :
    c' = consumeRule context at_.now c rule := by
  cases rule with
  | legacy rule => exact (Except.ok.inj h).symm
  | rate rule => exact enforceRate_consumes h
  | approval rule => exact enforceApproval_consumes h
  | resource rule => exact enforceResource_consumes h
  | interlock rule => exact eq_of_keeping_eq_ok (show keeping c _ = .ok c' from h)
  | sequence rule => exact eq_of_keeping_eq_ok (show keeping c _ = .ok c' from h)
  | lease rule => exact eq_of_keeping_eq_ok (show keeping c _ = .ok c' from h)
  | deadman rule => exact eq_of_keeping_eq_ok (show keeping c _ = .ok c' from h)

/-- The loop over the v2 rules takes the consumptions of the call. -/
theorem enforceEach_consumes {f : Feeds} {at_ : Surroundings} {context : PolicyContext}
    {rules : List SafetyRule} {c c' : Consumables}
    (h : enforceEach numText f at_ context rules c = .ok c') :
    c' = (consumptions context at_.now rules c).foldl Consumables.consume c := by
  induction rules generalizing c with
  | nil => exact (Except.ok.inj h).symm
  | cons rule rules ih =>
    unfold enforceEach at h
    unfold consumptions
    by_cases happ : rule.appliesTo context.capability
    · rw [if_pos happ] at h
      rw [if_pos happ, List.foldl_append]
      split at h
      · next c₁ hrule =>
        have hc₁ := enforceRule_consumes hrule
        rw [foldl_ruleConsumption, ← hc₁]
        exact ih h
      · cases h
    · rw [if_neg happ] at h
      rw [if_neg happ]
      exact ih h

/-- **What a decision does to the consumable state.** An accepted call takes its consumptions. -/
theorem enforceRules_consumes {engine : SafetyEngine} {at_ : Surroundings}
    {context : PolicyContext} {c : Consumables}
    (h : enforceRules numText engine at_ context = .ok c) :
    c = (consumptions context at_.now engine.rules engine.consumables).foldl Consumables.consume
      engine.consumables := by
  unfold enforceRules at h
  split at h
  · cases h
  · exact enforceEach_consumes h

/-- The approval stored under `id` has been used. -/
def Consumables.Used (c : Consumables) (id : JsString) : Prop :=
  ∃ record, c.approvals.get? id = some record ∧ record.usedAt ≠ none

theorem Consumables.Used.consume {c : Consumables} {id : JsString} (h : c.Used id)
    (x : Consumption) : (c.consume x).Used id := by
  cases x with
  | slot key windowMs at_ => exact h
  | resource name at_ cost =>
    dsimp only [Consumables.consume]
    split
    · exact h
    · exact h
  | approval id' at_ =>
    dsimp only [Consumables.consume]
    split
    · by_cases hid : id = id'
      · subst hid
        exact ⟨_, InsertionMap.get?_insert_self .., by simp⟩
      · obtain ⟨record, hget, hused⟩ := h
        exact ⟨record, by rw [InsertionMap.get?_insert_of_ne _ _ hid, hget], hused⟩
    · exact h

theorem Consumables.Used.foldl_consume {c : Consumables} {id : JsString} (h : c.Used id)
    (l : List Consumption) : (l.foldl Consumables.consume c).Used id := by
  induction l generalizing c with
  | nil => exact h
  | cons x l ih => exact ih (h.consume x)

theorem Consumables.used_consume_approval {c : Consumables} {id : JsString} {at_ : ℚ}
    {record : ApprovalRecord} (h : c.approvals.get? id = some record) :
    (c.consume (.approval id at_)).Used id := by
  simp only [Consumables.consume, h]
  exact ⟨_, InsertionMap.get?_insert_self .., by simp⟩

/-- An approval an action consumes is unused before the action, and used after it. -/
theorem used_of_mem_consumptions {context : PolicyContext} {now at_ : ℚ} {rules : List SafetyRule}
    {c : Consumables} {id : JsString} (h : .approval id at_ ∈ consumptions context now rules c) :
    ¬ c.Used id ∧ ((consumptions context now rules c).foldl Consumables.consume c).Used id := by
  induction rules generalizing c with
  | nil => cases h
  | cons rule rules ih =>
    unfold consumptions at h ⊢
    by_cases happ : rule.appliesTo context.capability
    · rw [if_pos happ] at h ⊢
      rw [List.foldl_append, foldl_ruleConsumption]
      rcases List.mem_append.mp h with hrule | hrest
      · -- The rule itself spends it: an approval rule, which matched an unused record.
        rw [Option.mem_toList] at hrule
        cases rule with
        | approval rule =>
          obtain ⟨⟨id', record⟩, hm, heq⟩ := Option.map_eq_some_iff.mp hrule
          obtain ⟨rfl, rfl⟩ := Consumption.approval.inj heq
          obtain ⟨hget, hunused⟩ := matchedApproval_eq_some hm
          refine ⟨?_, ?_⟩
          · rintro ⟨record', hget', hused⟩
            rw [hget] at hget'
            obtain rfl := Option.some.inj hget'
            exact hused hunused
          · refine Consumables.Used.foldl_consume ?_ _
            rw [consumeRule, hrule]
            exact Consumables.used_consume_approval hget
        | _ => cases hrule
      · obtain ⟨hunused, hused⟩ := ih hrest
        refine ⟨fun hc => hunused ?_, hused⟩
        rw [← foldl_ruleConsumption]
        exact hc.foldl_consume _
    · rw [if_neg happ] at h ⊢
      exact ih h

namespace SafetyEngine

/-- A reservation: the snapshot is the state before it, and its consumptions are taken. -/
theorem reserve_of_ok {engine engine' : SafetyEngine} {at_ : Surroundings}
    {context : PolicyContext} {saved : Consumables}
    (h : engine.reserve numText at_ context = (engine', .ok saved)) :
    saved = engine.consumables ∧ engine' = { engine with
      consumables := (consumptions context at_.now engine.rules engine.consumables).foldl
        Consumables.consume engine.consumables } := by
  unfold reserve at h
  dsimp only at h
  split at h
  · next c hc =>
    obtain ⟨hengine, hsaved⟩ := Prod.mk.inj h
    rw [← enforceRules_consumes hc]
    exact ⟨(Except.ok.inj hsaved).symm, hengine.symm⟩
  · cases (Prod.mk.inj h).2

theorem reserve_of_error {engine engine' : SafetyEngine} {at_ : Surroundings}
    {context : PolicyContext} {thrown : Thrown}
    (h : engine.reserve numText at_ context = (engine', .error thrown)) : engine' = engine := by
  unfold reserve at h
  dsimp only at h
  split at h
  · cases (Prod.mk.inj h).2
  · exact (Prod.mk.inj h).1.symm

theorem enforce_of_ok {engine engine' : SafetyEngine} {at_ : Surroundings}
    {context : PolicyContext} (h : engine.enforce numText at_ context = (engine', .ok ())) :
    ∃ c, enforceEach numText engine.feeds at_ context engine.rules engine.consumables = .ok c ∧
      engine' = { engine with consumables := c } := by
  unfold enforce reserve enforceRules at h
  dsimp only at h
  cases hlegacy : evaluatePolicies numText (engine.rules.filterMap SafetyRule.legacy?) context
      at_.dateNow with
  | error thrown => rw [hlegacy] at h; cases (Prod.mk.inj h).2
  | ok _ =>
    rw [hlegacy] at h
    dsimp only at h
    cases heach : enforceEach numText engine.feeds at_ context engine.rules engine.consumables with
    | error thrown => rw [heach] at h; cases (Prod.mk.inj h).2
    | ok c =>
      rw [heach] at h
      exact ⟨c, rfl, (Prod.mk.inj h).1.symm⟩

/-- `enforce` either takes the consumptions of the call or leaves the engine as it was. -/
theorem enforce_fst (engine : SafetyEngine) (at_ : Surroundings) (context : PolicyContext) :
    (engine.enforce numText at_ context).1 = match (engine.enforce numText at_ context).2 with
      | .ok () => { engine with
          consumables := (consumptions context at_.now engine.rules engine.consumables).foldl
            Consumables.consume engine.consumables }
      | .error _ => engine := by
  unfold enforce
  rcases hr : engine.reserve numText at_ context with ⟨engine', thrown | saved⟩
  · exact reserve_of_error hr
  · exact (reserve_of_ok hr).2

@[simp] theorem preview_fst (engine : SafetyEngine) (at_ : Surroundings)
    (context : PolicyContext) : (engine.preview numText at_ context).1 = engine := by
  have hcheck : (engine.check numText at_ context).1 = (engine.enforce numText at_ context).1 := by
    unfold check
    rcases engine.enforce numText at_ context with ⟨engine', thrown | _⟩
    · dsimp only
      split <;> rfl
    · rfl
  show (engine.check numText at_ context).1.restoreConsumables engine.consumables = engine
  rw [hcheck, enforce_fst]
  split <;> rfl

end SafetyEngine

end Pinout.Policy
