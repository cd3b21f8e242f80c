import Mathlib.Tactic.Linarith
import Mathlib.Tactic.NormNum
import Pinout.Policy.Reservations

/-! # Rate limits over a run

What a rate rule promises is a sliding-window law over the log of accepted invocations, and no
rejection before the window is full. The code keeps one list of timestamps for each device and
capability, which every rate rule of the capability prunes to its own window and appends to; the law
holds in the runs in which that list has one user. -/

namespace Pinout.Policy

open Foundation

structure Accepted where
  deviceId : JsString
  capability : JsString
  at_ : ℚ
  deriving DecidableEq

/-- An engine with its clock and the log of the invocations it accepted. -/
structure RateLog where
  engine : SafetyEngine
  clock : ℚ
  accepted : List Accepted := []

/-- The calls between two `enforce` calls: feeds and previews. -/
def SafetyEngine.fed (numText : ℚ → JsString) (engine : SafetyEngine) :
    Action → Option SafetyEngine
  | .preview at_ context => some (engine.preview numText at_ context).1
  | .recordApproval record => some (engine.recordApproval record)
  | .configureBudget resource limit windowMs =>
    some (engine.configureBudget resource limit windowMs)
  | .setInterlock name value => some (engine.setInterlock name value)
  | .setSequenceStep sequence step => some (engine.setSequenceStep sequence step)
  | .heartbeatDeadman deviceId now => some (engine.heartbeatDeadman deviceId now)
  | .clearDeadman deviceId => some (engine.clearDeadman deviceId)
  | _ => none

namespace RateLog

variable (numText : ℚ → JsString)

def step (s : RateLog) : Action → Option RateLog
  | .enforce at_ context =>
    if s.clock ≤ at_.now then
      match s.engine.enforce numText at_ context with
      | (engine, .ok ()) => some
          { engine, clock := at_.now
            accepted := s.accepted ++ [⟨context.deviceId, context.capability, at_.now⟩] }
      | (engine, .error _) => some { s with engine, clock := at_.now }
    else none
  | a => (s.engine.fed numText a).map fun engine => { s with engine }

/-- The engine as a machine over `enforce` calls and feeds. -/
def machine : Machine RateLog Action := ⟨step numText⟩

/-- A new engine, at a first reading of the clock. -/
def new (rules : List SafetyRule) (clock : ℚ) : RateLog := { engine := { rules }, clock }

/-- When invocations of a capability on a device were accepted. -/
def times (s : RateLog) (deviceId capability : JsString) : List ℚ :=
  (s.accepted.filter fun a => a.deviceId = deviceId ∧ a.capability = capability).map Accepted.at_

/-- The number of accepted invocations of a capability on a device with timestamps in
`(t - windowMs, t]`. -/
def count (s : RateLog) (deviceId capability : JsString) (windowMs t : ℚ) : Nat :=
  ((s.times deviceId capability).filter fun x => t - windowMs < x ∧ x ≤ t).length

end RateLog

def rateRules (rules : List SafetyRule) (capability : JsString) : List RateRule :=
  rules.filterMap fun
    | .rate rule => if rule.capability = capability then some rule else none
    | _ => none

/-- A call is rejected by the rate rule `rule`: the policies and the rules before it let the call
pass, and it does not. -/
def RejectedByRate (numText : ℚ → JsString) (engine : SafetyEngine) (at_ : Surroundings)
    (context : PolicyContext) (rule : RateRule) : Prop :=
  ∃ before after c thrown, engine.rules = before ++ .rate rule :: after ∧
    rule.capability = context.capability ∧
    evaluatePolicies numText (engine.rules.filterMap SafetyRule.legacy?) context at_.dateNow =
      .ok () ∧
    enforceEach numText engine.feeds at_ context before engine.consumables = .ok c ∧
    enforceRate numText rule context at_.now c = .error thrown

/-- No rate-limited invocation accepted so far shares its window key with `context`, except those of
the same capability on the same device. -/
def RateLog.Alone (s : RateLog) (context : PolicyContext) : Prop :=
  ∀ a ∈ s.accepted, rateRules s.engine.rules a.capability ≠ [] →
    a.deviceId ++ js "::" ++ a.capability = rateKey context →
      a.deviceId = context.deviceId ∧ a.capability = context.capability

/-- A call whose window has one user: its capability has at most one rate rule, and no other device
or rate-limited capability shares the key. -/
def RateLog.Separate (s : RateLog) : Action → Prop
  | .enforce _ context => rateRules s.engine.rules context.capability ≠ [] →
      (rateRules s.engine.rules context.capability).length = 1 ∧ s.Alone context
  | _ => True

/-- Whether a window key has one user can be computed. -/
instance (s : RateLog) (context : PolicyContext) : Decidable (s.Alone context) :=
  inferInstanceAs (Decidable (∀ a ∈ s.accepted, _ → _ → _))

/-- Whether a call is separate can be computed. -/
instance (s : RateLog) (a : Action) : Decidable (s.Separate a) :=
  match a with
  | .enforce _ _ => inferInstanceAs (Decidable (_ → _ ∧ _))
  | .reserve _ _ => isTrue trivial
  | .commit _ => isTrue trivial
  | .rollback _ => isTrue trivial
  | .preview _ _ => isTrue trivial
  | .recordApproval _ => isTrue trivial
  | .configureBudget _ _ _ => isTrue trivial
  | .setInterlock _ _ => isTrue trivial
  | .setSequenceStep _ _ => isTrue trivial
  | .heartbeatDeadman _ _ => isTrue trivial
  | .clearDeadman _ => isTrue trivial

/-! ## What a call does to the rate windows -/

variable {numText : ℚ → JsString}

theorem rateWindows_consumeRule {context : PolicyContext} {now : ℚ} {c : Consumables}
    {rule : SafetyRule} (h : ∀ r, rule ≠ .rate r) :
    (consumeRule context now c rule).rateWindows = c.rateWindows := by
  cases rule with
  | rate r => exact absurd rfl (h r)
  | approval r =>
    simp only [consumeRule, ruleConsumption]
    cases matchedApproval c context now with
    | none => rfl
    | some e =>
      simp only [Option.map_some, Option.elim_some, Consumables.consume]
      split <;> rfl
  | resource r =>
    simp only [consumeRule, ruleConsumption, Option.elim_some, Consumables.consume]
    split <;> rfl
  | _ => rfl

/-- Rules without a rate rule of the capability leave the rate windows as they were. -/
theorem enforceEach_of_rateRules_eq_nil {f : Feeds} {at_ : Surroundings} {context : PolicyContext}
    {rules : List SafetyRule} {c c' : Consumables}
    (h : enforceEach numText f at_ context rules c = .ok c')
    (hnone : rateRules rules context.capability = []) : c'.rateWindows = c.rateWindows := by
  induction rules generalizing c with
  | nil => rw [Except.ok.inj h]
  | cons rule rules ih =>
    have hrest : rateRules rules context.capability = [] := by
      unfold rateRules at hnone ⊢
      rw [List.filterMap_eq_nil_iff] at hnone ⊢
      exact fun x hx => hnone x (List.mem_cons_of_mem _ hx)
    unfold enforceEach at h
    split at h
    · next happ =>
      split at h
      · next c₁ hrule =>
        have hnotrate : ∀ r, rule ≠ .rate r := by
          rintro r rfl
          have hcap : r.capability = context.capability := by simpa [SafetyRule.appliesTo] using happ
          simp [rateRules, hcap] at hnone
        rw [ih h hrest, enforceRule_consumes hrule, rateWindows_consumeRule hnotrate]
      · cases h
    · exact ih h hrest

/-- With one rate rule for the capability, an accepted call found room in the window and entered
itself once. -/
theorem enforceEach_of_rateRules_eq_singleton {f : Feeds} {at_ : Surroundings}
    {context : PolicyContext} {rules : List SafetyRule} {c c' : Consumables} {r : RateRule}
    (h : enforceEach numText f at_ context rules c = .ok c')
    (hone : rateRules rules context.capability = [r]) :
    ((liveTimestamps c context r.window at_.now).length : ℚ) < r.maxPerWindow ∧
      c'.rateWindows = c.rateWindows.insert (rateKey context)
        (liveTimestamps c context r.window at_.now ++ [at_.now]) := by
  induction rules generalizing c with
  | nil => cases hone
  | cons rule rules ih =>
    unfold enforceEach at h
    by_cases hrate : ∃ r', rule = .rate r' ∧ r'.capability = context.capability
    · obtain ⟨r', rfl, hcap⟩ := hrate
      have hlist : rateRules (.rate r' :: rules) context.capability =
          r' :: rateRules rules context.capability := by
        simp [rateRules, hcap]
      rw [hlist] at hone
      obtain ⟨rfl, hrest⟩ := List.cons.inj hone
      rw [if_pos (by simpa [SafetyRule.appliesTo] using hcap)] at h
      split at h
      · next c₁ hrule =>
        have hwindows := enforceEach_of_rateRules_eq_nil h hrest
        have hc₁ := enforceRule_consumes hrule
        refine ⟨?_, ?_⟩
        · by_contra hfull
          simp only [enforceRule, enforceRate, if_pos (not_lt.mp hfull)] at hrule
          cases hrule
        · rw [hwindows, hc₁]
          rfl
      · cases h
    · have hrest : rateRules rules context.capability = [r] := by
        rw [← hone]
        cases rule with
        | rate r' =>
          have hcap : r'.capability ≠ context.capability := fun hcap => hrate ⟨r', rfl, hcap⟩
          simp [rateRules, hcap]
        | _ => rfl
      split at h
      · next happ =>
        split at h
        · next c₁ hrule =>
          have hnotrate : ∀ r', rule ≠ .rate r' := by
            rintro r' rfl
            exact hrate ⟨r', rfl, by simpa [SafetyRule.appliesTo] using happ⟩
          have hsame : c₁.rateWindows = c.rateWindows := by
            rw [enforceRule_consumes hrule, rateWindows_consumeRule hnotrate]
          have hlive : liveTimestamps c₁ context r.window at_.now =
              liveTimestamps c context r.window at_.now := by
            unfold liveTimestamps
            rw [hsame]
          have := ih h hrest
          rwa [hlive, hsame] at this
        · cases h
      · exact ih h hrest

/-- The calls between two `enforce` calls leave the rules and the rate windows as they were. -/
theorem fed_eq_some {engine engine' : SafetyEngine} {a : Action}
    (h : engine.fed numText a = some engine') :
    engine'.rules = engine.rules ∧
      engine'.consumables.rateWindows = engine.consumables.rateWindows := by
  cases a with
  | preview at_ context =>
    obtain rfl := Option.some.inj h
    simp
  | reserve at_ context => cases h
  | enforce at_ context => cases h
  | commit i => cases h
  | rollback i => cases h
  | _ =>
    obtain rfl := Option.some.inj h
    exact ⟨rfl, rfl⟩

/-- The rate rules of a capability are the rate rules of the list with that capability. -/
theorem mem_rateRules {rules : List SafetyRule} {capability : JsString} {r : RateRule} :
    r ∈ rateRules rules capability ↔ .rate r ∈ rules ∧ r.capability = capability := by
  unfold rateRules
  rw [List.mem_filterMap]
  constructor
  · rintro ⟨rule, hrule, hsome⟩
    cases rule with
    | rate r' =>
      dsimp only at hsome
      split at hsome
      · next hcap =>
        obtain rfl := Option.some.inj hsome
        exact ⟨hrule, hcap⟩
      · cases hsome
    | _ => cases hsome
  · rintro ⟨hrule, hcap⟩
    exact ⟨.rate r, hrule, by simp [hcap]⟩

/-! ## The invariant -/

structure RateLog.Kept (rules : List SafetyRule) (s : RateLog) : Prop where
  rules_eq : s.engine.rules = rules
  past : ∀ a ∈ s.accepted, a.at_ ≤ s.clock
  /-- What is live in a window with one user is what was accepted. -/
  windows : ∀ context r, rateRules rules context.capability = [r] → s.Alone context →
    ∀ now, s.clock ≤ now → liveTimestamps s.engine.consumables context r.window now =
      (s.times context.deviceId context.capability).filter fun x => now - r.window < x
  law : ∀ r, SafetyRule.rate r ∈ rules → ∀ n : ℕ, r.maxPerWindow = (n : ℚ) → ∀ deviceId t,
    s.count deviceId r.capability r.window t ≤ n

namespace RateLog.Kept

variable {rules : List SafetyRule} {s : RateLog}

theorem new (rules : List SafetyRule) (clock : ℚ) : (RateLog.new rules clock).Kept rules where
  rules_eq := rfl
  past := by simp [RateLog.new]
  windows := by
    intro context r _ _ now _
    rfl
  law := by
    intro r _ n _ deviceId t
    exact Nat.zero_le n

/-- Nothing about the log depends on anything but the rules and the rate windows. -/
theorem congr {engine : SafetyEngine} {clock : ℚ} (h : s.Kept rules)
    (hrules : engine.rules = s.engine.rules)
    (hwindows : engine.consumables.rateWindows = s.engine.consumables.rateWindows)
    (hclock : s.clock ≤ clock) : ({ s with engine, clock } : RateLog).Kept rules where
  rules_eq := hrules.trans h.rules_eq
  past := fun a ha => (h.past a ha).trans hclock
  windows := by
    intro context r hone halone now hnow
    have halone' : s.Alone context := by
      intro a ha
      rw [← hrules]
      exact halone a ha
    have hlive := h.windows context r hone halone' now (hclock.trans hnow)
    unfold liveTimestamps at hlive ⊢
    rw [hwindows]
    exact hlive
  law := h.law

/-- Acceptance extends the times of its own device and capability, and no others. -/
theorem times_accept (s : RateLog) (engine : SafetyEngine) (clock : ℚ) (a : Accepted)
    (deviceId capability : JsString) :
    ({ engine, clock, accepted := s.accepted ++ [a] } : RateLog).times deviceId capability =
      s.times deviceId capability ++
        if a.deviceId = deviceId ∧ a.capability = capability then [a.at_] else [] := by
  unfold RateLog.times
  rw [List.filter_append, List.map_append]
  by_cases h : a.deviceId = deviceId ∧ a.capability = capability
  · rw [if_pos h, List.filter_cons_of_pos (by simpa using h)]
    rfl
  · rw [if_neg h, List.filter_cons_of_neg (by simpa using h)]
    rfl

/-- Counting in a window that ends at or after `now` counts at most what is younger than the window
that ends at `now`. -/
theorem length_filter_le {l : List ℚ} {windowMs now t : ℚ} (h : now ≤ t) :
    (l.filter fun x => t - windowMs < x ∧ x ≤ t).length ≤
      (l.filter fun x => now - windowMs < x).length := by
  refine List.Sublist.length_le ?_
  refine List.monotone_filter_right l fun x hx => ?_
  have hx' : t - windowMs < x ∧ x ≤ t := by simpa using hx
  have : now - windowMs < x := by linarith [hx'.1]
  simpa using this

/-- What an accepted call does to the live timestamps of a window: in the window of the call's own
rate rule the old ones and the call remain. -/
theorem windows_accept {at_ : Surroundings} {context context' : PolicyContext} {r : RateRule}
    {c : Consumables} (h : s.Kept rules) (hclock : s.clock ≤ at_.now)
    (hsep : s.Separate (.enforce at_ context))
    (heach : enforceEach numText s.engine.feeds at_ context s.engine.rules s.engine.consumables =
      .ok c)
    (hone : rateRules rules context'.capability = [r]) (halone : s.Alone context')
    (hkey : rateRules rules context.capability ≠ [] → rateKey context = rateKey context' →
      context.deviceId = context'.deviceId ∧ context.capability = context'.capability)
    {now : ℚ} (hnow : at_.now ≤ now) :
    liveTimestamps c context' r.window now =
      (s.times context'.deviceId context'.capability ++
        if context.deviceId = context'.deviceId ∧ context.capability = context'.capability
        then [at_.now] else []).filter fun x => now - r.window < x := by
  have hold := h.windows context' r hone halone
  have hrules := h.rules_eq
  rw [hrules] at heach
  cases hrate : rateRules rules context.capability with
  | nil =>
    -- No rate rule for the call: the windows are untouched, and the call is of another capability.
    have hsame := enforceEach_of_rateRules_eq_nil heach hrate
    have hne : context.capability ≠ context'.capability := by
      intro heq
      rw [heq, hone] at hrate
      cases hrate
    rw [if_neg (fun hboth => hne hboth.2), List.append_nil, ← hold now (hclock.trans hnow)]
    unfold liveTimestamps
    rw [hsame]
  | cons r₀ rest =>
    have hlimited : rateRules rules context.capability ≠ [] := by simp [hrate]
    have hlength := (hsep (by rw [hrules]; exact hlimited)).1
    rw [hrules, hrate] at hlength
    obtain rfl : rest = [] := by simpa using hlength
    have hinsert := (enforceEach_of_rateRules_eq_singleton heach hrate).2
    by_cases hk : rateKey context = rateKey context'
    · obtain ⟨hdevice, hcap⟩ := hkey hlimited hk
      obtain rfl : r₀ = r := by
        rw [hcap, hone] at hrate
        exact (List.cons.inj hrate).1.symm
      have hlive : liveTimestamps s.engine.consumables context r₀.window at_.now =
          liveTimestamps s.engine.consumables context' r₀.window at_.now := by
        unfold liveTimestamps
        rw [hk]
      rw [if_pos ⟨hdevice, hcap⟩]
      unfold liveTimestamps at hlive ⊢
      rw [hinsert, hk, InsertionMap.get?_insert_self, Option.getD_some, List.filter_append,
        List.filter_append]
      congr 1
      -- Pruning to the window at the call and then to the later one is pruning to the later one.
      have hprune : ∀ l : List ℚ,
          (l.filter fun x => at_.now - r₀.window < x).filter (fun x => now - r₀.window < x) =
            l.filter fun x => now - r₀.window < x := by
        intro l
        rw [List.filter_filter]
        refine List.filter_congr fun x _ => ?_
        have himp : now - r₀.window < x → at_.now - r₀.window < x := fun hx => by linarith
        by_cases hx : now - r₀.window < x
        · simp [hx, himp hx]
        · simp [hx]
      have hcall := hold at_.now hclock
      unfold liveTimestamps at hcall
      unfold liveTimestamps
      rw [hk, hcall, hprune]
    · have hne : ¬ (context.deviceId = context'.deviceId ∧
          context.capability = context'.capability) := by
        rintro ⟨hdevice, hcap⟩
        exact hk (by unfold rateKey; rw [hdevice, hcap])
      rw [if_neg hne, List.append_nil, ← hold now (hclock.trans hnow)]
      unfold liveTimestamps
      rw [hinsert, InsertionMap.get?_insert_of_ne _ _ (Ne.symm hk)]

theorem accept {at_ : Surroundings} {context : PolicyContext} (h : s.Kept rules)
    (hclock : s.clock ≤ at_.now) (hsep : s.Separate (.enforce at_ context))
    {engine : SafetyEngine} (hok : s.engine.enforce numText at_ context = (engine, .ok ())) :
    ({ engine, clock := at_.now
       accepted := s.accepted ++ [⟨context.deviceId, context.capability, at_.now⟩] } :
      RateLog).Kept rules := by
  obtain ⟨c, heach, rfl⟩ := SafetyEngine.enforce_of_ok hok
  constructor
  · exact h.rules_eq
  · intro a ha
    rcases List.mem_append.mp ha with ha | ha
    · exact (h.past a ha).trans hclock
    · rw [List.mem_singleton.mp ha]
  · intro context' r hone halone now hnow
    rw [times_accept]
    refine h.windows_accept hclock hsep heach hone (fun a ha => ?_) (fun hlimited hk => ?_) hnow
    · exact halone a (List.mem_append_left _ ha)
    · exact halone _ (List.mem_append_right _ (List.mem_singleton_self _))
        (by rw [← h.rules_eq] at hlimited; exact hlimited) hk
  · intro r hr n hn deviceId t
    show List.length (List.filter _ (RateLog.times _ deviceId r.capability)) ≤ n
    rw [times_accept, List.filter_append, List.length_append]
    have hbefore : ((s.times deviceId r.capability).filter fun x =>
        t - r.window < x ∧ x ≤ t).length ≤ n := h.law r hr n hn deviceId t
    by_cases hboth : context.deviceId = deviceId ∧ context.capability = r.capability
    · rw [if_pos hboth]
      by_cases ht : t - r.window < at_.now ∧ at_.now ≤ t
      · -- The call is counted: the rule found room among what is younger than its window.
        obtain ⟨rfl, hcap⟩ := hboth
        have hmem : r ∈ rateRules rules context.capability := mem_rateRules.mpr ⟨hr, hcap.symm⟩
        have hsep' := hsep (by rw [h.rules_eq]; exact List.ne_nil_of_mem hmem)
        have hone : rateRules rules context.capability = [r] := by
          rw [h.rules_eq] at hsep'
          obtain ⟨r', hr'⟩ := List.length_eq_one_iff.mp hsep'.1
          rw [hr'] at hmem ⊢
          rw [List.mem_singleton.mp hmem]
        rw [h.rules_eq] at heach
        have hroom := (enforceEach_of_rateRules_eq_singleton heach hone).1
        rw [h.windows context r hone hsep'.2 at_.now hclock, hn, hcap] at hroom
        have hroom' : ((s.times context.deviceId r.capability).filter fun x =>
            at_.now - r.window < x).length < n := by exact_mod_cast hroom
        have hle : ((s.times context.deviceId r.capability).filter fun x =>
            t - r.window < x ∧ x ≤ t).length ≤
            ((s.times context.deviceId r.capability).filter fun x => at_.now - r.window < x).length :=
          length_filter_le ht.2
        refine (Nat.add_le_add hle (List.length_filter_le ..)).trans ?_
        exact hroom'
      · rw [List.filter_cons_of_neg (by simpa using ht), List.filter_nil, List.length_nil]
        exact hbefore
    · rw [if_neg hboth, List.filter_nil, List.length_nil]
      exact hbefore

/-- **Step lemma.** A separate call keeps the invariant. -/
theorem step {s' : RateLog} {a : Action} (h : s.Kept rules) (hsep : s.Separate a)
    (hs : s.step numText a = some s') : s'.Kept rules := by
  cases a with
  | enforce at_ context =>
    simp only [RateLog.step] at hs
    split at hs
    · next hclock =>
      have hfst : (s.engine.enforce numText at_ context).1 = _ := s.engine.enforce_fst at_ context
      split at hs
      · next engine hok =>
        obtain rfl := Option.some.inj hs
        exact h.accept hclock hsep hok
      · next engine thrown herr =>
        rw [herr] at hfst
        obtain rfl := Option.some.inj hs
        exact h.congr (congrArg SafetyEngine.rules hfst)
          (congrArg (fun e => e.consumables.rateWindows) hfst) hclock
    · cases hs
  | _ =>
    simp only [RateLog.step] at hs
    obtain ⟨engine, hfed, rfl⟩ := Option.map_eq_some_iff.mp hs
    obtain ⟨hrules, hwindows⟩ := fed_eq_some hfed
    exact h.congr hrules hwindows le_rfl

/-- In a window with one user a rate rule rejects only when it is full. -/
theorem full_of_rejected {at_ : Surroundings} {context : PolicyContext} {r : RateRule}
    (h : s.Kept rules) (hclock : s.clock ≤ at_.now) (hsep : s.Separate (.enforce at_ context))
    (hrej : RejectedByRate numText s.engine at_ context r) :
    r.maxPerWindow ≤ s.count context.deviceId r.capability r.window at_.now := by
  obtain ⟨before, after, c, thrown, hrules, hcap, -, heach, hthrown⟩ := hrej
  have hmem : r ∈ rateRules rules context.capability :=
    mem_rateRules.mpr ⟨by rw [← h.rules_eq, hrules]; simp, hcap⟩
  have hsep' := hsep (by rw [h.rules_eq]; exact List.ne_nil_of_mem hmem)
  rw [h.rules_eq] at hsep' hrules
  -- `r` is the only rate rule of the capability, so the rules before it left the windows alone.
  have hsplit : rateRules rules context.capability = rateRules before context.capability ++
      r :: rateRules after context.capability := by
    rw [hrules]
    simp [rateRules, hcap]
  have hlength := hsep'.1
  rw [hsplit, List.length_append, List.length_cons] at hlength
  have hbefore : rateRules before context.capability = [] := List.eq_nil_of_length_eq_zero (by omega)
  have hafter : rateRules after context.capability = [] := List.eq_nil_of_length_eq_zero (by omega)
  have hone : rateRules rules context.capability = [r] := by rw [hsplit, hbefore, hafter]; rfl
  have hsame := enforceEach_of_rateRules_eq_nil heach hbefore
  have hfull : r.maxPerWindow ≤ (liveTimestamps c context r.window at_.now).length := by
    by_contra hroom
    simp only [enforceRate, if_neg hroom] at hthrown
    cases hthrown
  have hlive : liveTimestamps c context r.window at_.now =
      (s.times context.deviceId r.capability).filter fun x => at_.now - r.window < x := by
    rw [hcap, ← h.windows context r hone hsep'.2 at_.now hclock]
    unfold liveTimestamps
    rw [hsame]
  rw [hlive] at hfull
  refine hfull.trans (le_of_eq ?_)
  unfold RateLog.count
  congr 2
  refine List.filter_congr fun x hx => ?_
  -- Everything accepted lies in the past of the call.
  obtain ⟨a, ha, rfl⟩ := List.mem_map.mp hx
  have hpast : a.at_ ≤ at_.now := (h.past a (List.mem_filter.mp ha).1).trans hclock
  simp [hpast]

end RateLog.Kept

/-- **Separate windows keep the rate limits.** When every limit is a number of invocations and every
call's window has one user, no window of any rate rule ever holds more accepted invocations than its
limit, and a rate rule rejects a call only when its window is full. -/
theorem rate_limits_of_separate (numText : ℚ → JsString) (rules : List SafetyRule) (clock : ℚ)
    (calls : List Action) (s : RateLog)
    (hmax : ∀ r, .rate r ∈ rules → ∃ n : ℕ, r.maxPerWindow = (n : ℚ))
    (hrun : (RateLog.machine numText).run (RateLog.new rules clock) calls = some s)
    (hsep : (RateLog.machine numText).Guarded RateLog.Separate (RateLog.new rules clock) calls) :
    (∀ r, .rate r ∈ rules → ∀ deviceId t,
      (s.count deviceId r.capability r.window t : ℚ) ≤ r.maxPerWindow) ∧
    ∀ at_ context r, s.clock ≤ at_.now → s.Separate (.enforce at_ context) →
      RejectedByRate numText s.engine at_ context r →
        r.maxPerWindow ≤ s.count context.deviceId r.capability r.window at_.now := by
  have hkept : s.Kept rules := Machine.run_guarded_invariant (I := RateLog.Kept rules)
    (fun _ _ _ h hg hs => RateLog.Kept.step h hg hs) (RateLog.Kept.new rules clock) hsep hrun
  constructor
  · intro r hr deviceId t
    obtain ⟨n, hn⟩ := hmax r hr
    rw [hn]
    exact_mod_cast hkept.law r hr n hn deviceId t
  · intro at_ context r hclock hsep' hrej
    exact hkept.full_of_rejected hclock hsep' hrej

/-! ## Runs of an engine with one and with two rate rules -/

/-- An invocation of the rate-limited capability. -/
def write : PolicyContext :=
  { deviceId := js "esp-01", capability := js "gpio.write", payload := [], operationalState := [] }

/-- At most `maxPerWindow` writes in `windowMs`. -/
def writeLimit (maxPerWindow windowMs : ℚ) : SafetyRule :=
  .rate { capability := js "gpio.write", maxPerWindow, windowMs := some windowMs }

def writes : List Action :=
  [.enforce { now := 0 } write, .enforce { now := 50 } write, .enforce { now := 150 } write]

/-- One limit of one write in 100 ms: the second of the three writes is rejected, and no window holds
more than one. -/
theorem rate_limits_single :
    ∃ s, (RateLog.machine fun _ => []).run (RateLog.new [writeLimit 1 100] 0) writes = some s ∧
      s.times (js "esp-01") (js "gpio.write") = [0, 150] ∧
      ∀ t, (s.count (js "esp-01") (js "gpio.write") 100 t : ℚ) ≤ 1 := by
  have htimes : ((RateLog.machine fun _ => []).run (RateLog.new [writeLimit 1 100] 0) writes).map
      (fun s => s.times (js "esp-01") (js "gpio.write")) = some [0, 150] := by
    decide +kernel
  obtain ⟨s, hrun, htimes⟩ := Option.map_eq_some_iff.mp htimes
  refine ⟨s, hrun, htimes, ?_⟩
  refine (rate_limits_of_separate (fun _ => []) [writeLimit 1 100] 0 writes s ?_ hrun ?_).1
    { capability := js "gpio.write", maxPerWindow := 1, windowMs := some 100 } List.mem_cons_self
    (js "esp-01")
  · intro r hr
    obtain rfl : r = { capability := js "gpio.write", maxPerWindow := 1, windowMs := some 100 } := by
      simpa [writeLimit] using hr
    exact ⟨1, by norm_num⟩
  · decide +kernel

/-- Two limits on one capability, three writes in ten seconds and a hundred in a tenth of a second:
the second one forgets what the first one counts, and four writes pass within a second. -/
theorem not_rate_limits_two :
    ¬ ∀ (numText : ℚ → JsString) rules clock calls s,
      (RateLog.machine numText).run (RateLog.new rules clock) calls = some s →
        ∀ r, .rate r ∈ rules → ∀ deviceId t,
          (s.count deviceId r.capability r.window t : ℚ) ≤ r.maxPerWindow := by
  intro h
  have hcount : ((RateLog.machine fun _ => []).run
      (RateLog.new [writeLimit 3 10000, writeLimit 100 100] 0)
      [.enforce { now := 0 } write, .enforce { now := 200 } write, .enforce { now := 400 } write,
        .enforce { now := 600 } write]).map
      (fun s => s.count (js "esp-01") (js "gpio.write") 10000 600) = some 4 := by
    decide +kernel
  obtain ⟨s, hrun, hfour⟩ := Option.map_eq_some_iff.mp hcount
  have hlaw := h _ _ _ _ s hrun
    { capability := js "gpio.write", maxPerWindow := 3, windowMs := some 10000 } List.mem_cons_self
    (js "esp-01") 600
  have hfour' : s.count (js "esp-01") (js "gpio.write") (RateRule.window
      { capability := js "gpio.write", maxPerWindow := 3, windowMs := some 10000 }) 600 = 4 := hfour
  rw [hfour'] at hlaw
  norm_num at hlaw

end Pinout.Policy
