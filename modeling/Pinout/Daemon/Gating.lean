import Mathlib.Data.Fintype.EquivFin
import Pinout.Runtime.Runtime

/-! # Lease gating

`DaemonContext` (`packages/daemon/src/httpServer.ts`) makes its lease rules from the devices that are
registered when it is constructed. The safety engine does not compare the capability of a lease rule
with that of an invocation, so one lease rule is enough to gate every invocation on every device, and
without one nothing is gated, whatever is registered later (`gated_iff_leaseRule`). -/

namespace Pinout.Daemon

open Foundation Leasing Policy Pinout.Runtime

/-! ## The daemon's governance -/

/-- `DaemonConfig`, as far as governance goes. -/
structure DaemonConfig where
  requireLeases : Bool := true
  safetyRules : List SafetyRule := []
  maxLeaseTtlMs : ℚ := 300000

/-- The default lease rule for a capability of a device. -/
def defaultLeaseRule (deviceId capability : JsString) : SafetyRule :=
  .lease
    { id := some (js "daemon.default-lease." ++ deviceId ++ js "." ++ capability)
      capability := capability }

def deviceLeaseRules (device : DeviceInstance) : List SafetyRule :=
  ((device.capabilities.filter CapabilityDescriptor.physicalOutput).map fun descriptor =>
    defaultLeaseRule device.id descriptor.name) ++
    if (device.resolveCapability (js "sys.arm")).isSome
    then [defaultLeaseRule device.id (js "sys.arm")] else []

def leaseRules (r : PinoutRuntime) (config : DaemonConfig) : List SafetyRule :=
  if config.requireLeases then r.deviceMap.entries.flatMap fun e => deviceLeaseRules e.2 else []

def daemonGovernance (r : PinoutRuntime) (config : DaemonConfig) (now : ℚ) : Governance :=
  { safetyEngine := { rules := leaseRules r config ++ config.safetyRules }
    leaseManager := some (LeaseManager.new config.maxLeaseTtlMs now) }

/-- What `new DaemonContext(runtime, config)` does to the runtime. -/
def daemonContext (r : PinoutRuntime) (config : DaemonConfig) (now : ℚ) : PinoutRuntime :=
  r.configureGovernance (daemonGovernance r config now)

/-- The lease manager of the runtime's safety engine. -/
def leases? (r : PinoutRuntime) : Option LeaseManager :=
  r.governances[r.governance]?.bind Governance.leaseManager

/-- A capability that takes a lease: one with a physical output, or `sys.arm`. -/
def TakesLease (descriptor : CapabilityDescriptor) : Prop :=
  descriptor.physicalOutput = true ∨ descriptor.name = js "sys.arm"

/-- An invocation of a capability that takes a lease reaches the backend only if the owner holds an
exclusive lease on it that has not expired. -/
def Gated (numText : ℚ → JsString) (r : PinoutRuntime) : Prop :=
  ∀ deviceId device capability descriptor input options reading payload,
    r.deviceMap.get? deviceId = some device →
    device.resolveCapability capability = some descriptor → TakesLease descriptor →
    (r.invoke numText deviceId capability input options reading).2 = .ok (.dispatched payload) →
    ∃ owner leases, options.owner = some owner ∧ leases? r = some leases ∧
      leases.Holds owner deviceId capability .exclusive

variable {numText : ℚ → JsString} {r s t : PinoutRuntime}

/-! ## One decision -/

/-- A decision in favour of an invocation has gone through every lease rule. -/
theorem enforceLease_of_enforceEach {f : Feeds} {at_ : Surroundings} {context : PolicyContext}
    {rules : List SafetyRule} {c c' : Consumables} {rule : LeaseRule}
    (h : enforceEach numText f at_ context rules c = .ok c') (hmem : .lease rule ∈ rules) :
    enforceLease rule context at_ = .ok () := by
  induction rules generalizing c with
  | nil => cases hmem
  | cons first rules ih =>
    rw [enforceEach] at h
    rcases List.mem_cons.mp hmem with rfl | hrest
    · have happlies : (SafetyRule.lease rule).appliesTo context.capability = true := rfl
      rw [if_pos happlies] at h
      cases hlease : enforceLease rule context at_ with
      | ok value => rfl
      | error thrown =>
        rw [enforceRule, hlease] at h
        cases h
    · split at h
      · split at h
        · exact ih h hrest
        · cases h
      · exact ih h hrest

/-- A lease rule lets an invocation pass only if it has an owner, whom the lease manager permits. -/
theorem permitted_of_enforceLease {rule : LeaseRule} {context : PolicyContext} {at_ : Surroundings}
    (h : enforceLease rule context at_ = .ok ()) :
    ∃ permits owner, at_.permits = some permits ∧ context.owner = some owner ∧
      (permits owner context.deviceId context.capability).permitted = true := by
  unfold enforceLease at h
  split at h
  · cases h
  · next permits hpermits =>
    dsimp only at h
    split at h
    · cases h
    · next howner =>
      split at h
      · next hpermitted =>
        cases hsome : context.owner with
        | none =>
          rw [hsome] at howner
          exact absurd rfl howner
        | some owner =>
          rw [hsome] at hpermitted
          exact ⟨permits, owner, hpermits, rfl, hpermitted⟩
      · cases h

/-- **One decision.** A safety engine with a lease rule lets an invocation pass only if its owner holds
an exclusive lease that has not expired. -/
theorem holds_of_reserve {g : Governance} {reading : Reading} {context : PolicyContext}
    {engine : SafetyEngine} {saved : Consumables} {rule : LeaseRule}
    (h : g.safetyEngine.reserve numText (g.surroundings reading) context = (engine, .ok saved))
    (hrule : .lease rule ∈ g.safetyEngine.rules) :
    ∃ owner leases, context.owner = some owner ∧ g.leaseManager = some leases ∧
      leases.Holds owner context.deviceId context.capability .exclusive := by
  have henforce : g.safetyEngine.enforce numText (g.surroundings reading) context =
      (engine, .ok ()) := by
    rw [SafetyEngine.enforce, h]
  obtain ⟨c, heach, -⟩ := SafetyEngine.enforce_of_ok henforce
  obtain ⟨permits, owner, hpermits, howner, hpermitted⟩ :=
    permitted_of_enforceLease (enforceLease_of_enforceEach heach hrule)
  obtain ⟨leases, hleases, rfl⟩ := Option.map_eq_some_iff.mp hpermits
  exact ⟨owner, leases, howner, hleases, (LeaseManager.permits_permitted.mp hpermitted).2⟩

/-- An invocation that reaches the backend is not a dry run, and its device is open, supports it and
has a reservation of the safety engine for it. -/
theorem dispatched_cases {device : DeviceInstance} {g : Governance} {capability : JsString}
    {input : JsonObject} {options : InvokeOptions} {reading : Reading} {payload : JsonObject}
    (h : (device.invoke numText (some g) capability input options reading).2 =
      .ok (.dispatched payload)) :
    ∃ engine saved, g.safetyEngine.reserve numText (g.surroundings reading)
      (device.context capability input reading options.owner) = (engine, .ok saved) := by
  unfold DeviceInstance.invoke at h
  split at h
  · cases h
  · dsimp only at h
    split at h
    · split at h
      · cases h
      · dsimp only at h
        split at h
        · cases h
        · cases h
    · split at h
      · cases h
      · next engine saved hreserve => exact ⟨engine, saved, hreserve⟩

/-! ## Runs of the runtime -/

/-- What an action keeps: which governance objects are in force, the rules of each safety engine and
whether it has a lease manager, and the ids and the attachment of the devices that were there. -/
structure Keeps (s t : PinoutRuntime) : Prop where
  governance : t.governance = s.governance
  governances : ∀ (index : Nat) g, s.governances[index]? = some g →
    ∃ g', t.governances[index]? = some g' ∧ g'.safetyEngine.rules = g.safetyEngine.rules ∧
      g'.leaseManager.isSome = g.leaseManager.isSome
  devices : ∀ id device', t.deviceMap.get? id = some device' →
    (∃ device, s.deviceMap.get? id = some device ∧ device'.id = device.id ∧
      device'.governance = device.governance) ∨
    (device'.id = id ∧ device'.governance = some s.governance)

theorem keeps_of_devices (hgovernance : t.governance = s.governance)
    (hgovernances : t.governances = s.governances)
    (hdevices : ∀ id device', t.deviceMap.get? id = some device' →
      (∃ device, s.deviceMap.get? id = some device ∧ device'.id = device.id ∧
        device'.governance = device.governance) ∨
      (device'.id = id ∧ device'.governance = some s.governance)) : Keeps s t where
  governance := hgovernance
  governances index g hg := ⟨g, by rw [hgovernances, hg], rfl, rfl⟩
  devices := hdevices

/-- A change of one governance object that leaves its rules and its lease manager there. -/
theorem keeps_modify (s : PinoutRuntime) {index : Nat} {f : Governance → Governance}
    (hf : ∀ g, s.governances[index]? = some g → (f g).safetyEngine.rules = g.safetyEngine.rules ∧
      (f g).leaseManager.isSome = g.leaseManager.isSome) : Keeps s (s.modify index f) where
  governance := rfl
  governances i g hg := by
    show ∃ g', (s.governances.modify index f)[i]? = some g' ∧ _
    rw [List.getElem?_modify, hg]
    by_cases hi : index = i
    · subst hi
      exact ⟨f g, by simp, hf g hg⟩
    · exact ⟨g, by simp [hi], rfl, rfl⟩
  devices id device hdevice := Or.inl ⟨device, hdevice, rfl, rfl⟩

theorem reserve_rules (engine : SafetyEngine) (at_ : Surroundings) (context : PolicyContext) :
    (engine.reserve numText at_ context).1.rules = engine.rules := by
  unfold SafetyEngine.reserve
  dsimp only
  split
  · rfl
  · rfl

theorem invoke_rules {device : DeviceInstance} {governance : Option Governance}
    {capability : JsString} {input : JsonObject} {options : InvokeOptions} {reading : Reading}
    {engine : SafetyEngine} {outcome : Except Thrown InvokeOutcome}
    (h : device.invoke numText governance capability input options reading =
      (some engine, outcome)) :
    ∃ g, governance = some g ∧ engine.rules = g.safetyEngine.rules := by
  unfold DeviceInstance.invoke at h
  cases governance with
  | none =>
    split at h
    · cases (Prod.mk.inj h).1
    · cases (Prod.mk.inj h).1
  | some g =>
    refine ⟨g, rfl, ?_⟩
    split at h
    · obtain rfl := Option.some.inj (Prod.mk.inj h).1
      rfl
    · have hpreview : ∀ at_ context, (g.safetyEngine.preview numText at_ context).1.rules =
          g.safetyEngine.rules := fun at_ context => by rw [SafetyEngine.preview_fst]
      have hreserve : ∀ at_ context, (g.safetyEngine.reserve numText at_ context).1.rules =
          g.safetyEngine.rules := reserve_rules g.safetyEngine
      dsimp only at h
      split at h
      · split at h
        · next engine' thrown heq =>
          obtain rfl := Option.some.inj (Prod.mk.inj h).1
          rw [← hpreview (g.surroundings reading), heq]
        · next engine' decision heq =>
          obtain rfl := Option.some.inj (Prod.mk.inj h).1
          rw [← hpreview (g.surroundings reading), heq]
      · split at h
        · next engine' thrown heq =>
          obtain rfl := Option.some.inj (Prod.mk.inj h).1
          rw [← hreserve (g.surroundings reading), heq]
        · next engine' saved heq =>
          obtain rfl := Option.some.inj (Prod.mk.inj h).1
          rw [← hreserve (g.surroundings reading), heq]

/-- **One action.** Every action keeps the governance. -/
theorem keeps_step {a : PinoutRuntime.Action}
    (hstep : (PinoutRuntime.machine numText).step s a = some t) : Keeps s t := by
  cases a with
  | register device =>
    obtain rfl := Option.some.inj hstep
    show Keeps s (s.register device)
    unfold PinoutRuntime.register
    split
    · exact keeps_of_devices rfl rfl fun id device' h => Or.inl ⟨device', h, rfl, rfl⟩
    · refine keeps_of_devices rfl rfl fun id device' h => ?_
      replace h : (s.deviceMap.insert device.id (device.attachGovernance s.governance)).get? id =
        some device' := h
      rw [InsertionMap.get?_insert] at h
      split at h
      · next hid =>
        obtain rfl := Option.some.inj h
        exact Or.inr ⟨hid.symm, rfl⟩
      · exact Or.inl ⟨device', h, rfl, rfl⟩
  | unregister id =>
    obtain rfl := Option.some.inj hstep
    show Keeps s (s.unregister id)
    unfold PinoutRuntime.unregister
    split
    · exact keeps_of_devices rfl rfl fun id device' h => Or.inl ⟨device', h, rfl, rfl⟩
    · next device hdevice =>
      refine keeps_of_devices rfl rfl fun id' device' h => ?_
      replace h : (s.deviceMap.insert id { device with closing := true }).get? id' =
        some device' := h
      rw [InsertionMap.get?_insert] at h
      split at h
      · next hid =>
        obtain rfl := Option.some.inj h
        rw [hid]
        exact Or.inl ⟨device, hdevice, rfl, rfl⟩
      · exact Or.inl ⟨device', h, rfl, rfl⟩
  | unregistered id =>
    replace hstep : s.unregistered id = some t := hstep
    unfold PinoutRuntime.unregistered at hstep
    split at hstep
    · obtain rfl := Option.some.inj hstep
      refine keeps_of_devices rfl rfl fun id' device' h => ?_
      replace h : (s.deviceMap.erase id).get? id' = some device' := h
      rw [InsertionMap.get?_erase] at h
      split at h
      · cases h
      · exact Or.inl ⟨device', h, rfl, rfl⟩
    · cases hstep
  | invoke deviceId capability input options reading =>
    obtain rfl := Option.some.inj hstep
    show Keeps s (s.invoke numText deviceId capability input options reading).1
    unfold PinoutRuntime.invoke
    split
    · exact keeps_of_devices rfl rfl fun id device' h => Or.inl ⟨device', h, rfl, rfl⟩
    · next device hdevice =>
      split
      · exact keeps_of_devices rfl rfl fun id device' h => Or.inl ⟨device', h, rfl, rfl⟩
      · next engine outcome hinvoke =>
        obtain ⟨g, hg, hrules⟩ := invoke_rules hinvoke
        obtain ⟨index, hindex, hget⟩ := Option.bind_eq_some_iff.mp hg
        refine keeps_modify s fun g' hg' => ?_
        rw [hindex, Option.getD_some, hget] at hg'
        obtain rfl := Option.some.inj hg'
        exact ⟨hrules, rfl⟩
  | halt index call =>
    obtain rfl := Option.some.inj hstep
    exact keeps_modify s fun g _ => ⟨rfl, rfl⟩
  | feed index feeds consumables =>
    obtain rfl := Option.some.inj hstep
    exact keeps_modify s fun g _ => ⟨rfl, rfl⟩
  | lease index action =>
    replace hstep : s.leaseStep index action = some t := hstep
    obtain ⟨leases, hleases, hmap⟩ := Option.bind_eq_some_iff.mp hstep
    obtain ⟨leases', -, rfl⟩ := Option.map_eq_some_iff.mp hmap
    obtain ⟨g, hg, hmanager⟩ := Option.bind_eq_some_iff.mp hleases
    refine keeps_modify s fun g' hg' => ?_
    rw [hg] at hg'
    obtain rfl := Option.some.inj hg'
    rw [hmanager]
    exact ⟨rfl, rfl⟩

/-- Devices are registered under their own ids. -/
def Keyed (r : PinoutRuntime) : Prop :=
  ∀ id device, r.deviceMap.get? id = some device → device.id = id

theorem Keyed.step (h : Keyed s) {a : PinoutRuntime.Action}
    (hstep : (PinoutRuntime.machine numText).step s a = some t) : Keyed t := by
  intro id device' hdevice'
  rcases (keeps_step hstep).devices id device' hdevice' with ⟨device, hdevice, hid, -⟩ | ⟨hid, -⟩
  · exact hid.trans (h id device hdevice)
  · exact hid

/-- In every reachable state of a runtime, devices are registered under their own ids. -/
theorem Keyed.run {g : Governance} {actions : List PinoutRuntime.Action}
    (hrun : (PinoutRuntime.machine numText).run (PinoutRuntime.new g) actions = some s) : Keyed s :=
  Machine.run_invariant (fun _ _ _ h hstep => h.step hstep) (fun _ _ h => by cases h) hrun

/-- The governance in force has these rules and a lease manager, and is attached to every device. -/
structure Attached (rules : List SafetyRule) (r : PinoutRuntime) : Prop where
  governed : ∃ g, r.governances[r.governance]? = some g ∧ g.safetyEngine.rules = rules ∧
    g.leaseManager.isSome = true
  attached : ∀ id device, r.deviceMap.get? id = some device →
    device.id = id ∧ device.governance = some r.governance

theorem attached_daemonContext (h : Keyed r) (config : DaemonConfig) (now : ℚ) :
    Attached (leaseRules r config ++ config.safetyRules) (daemonContext r config now) where
  governed := by
    refine ⟨daemonGovernance r config now, ?_, rfl, rfl⟩
    show (r.governances ++ [_])[r.governances.length]? = _
    rw [List.getElem?_concat_length]
  attached id device hdevice := by
    replace hdevice : (r.deviceMap.mapValues _).get? id = some device := hdevice
    rw [InsertionMap.get?_mapValues] at hdevice
    obtain ⟨old, hold, rfl⟩ := Option.map_eq_some_iff.mp hdevice
    exact ⟨h id old hold, rfl⟩

theorem Attached.step {rules : List SafetyRule} (h : Attached rules s) {a : PinoutRuntime.Action}
    (hstep : (PinoutRuntime.machine numText).step s a = some t) : Attached rules t := by
  have hkeeps := keeps_step hstep
  obtain ⟨g, hg, hrules, hmanager⟩ := h.governed
  obtain ⟨g', hg', hrules', hmanager'⟩ := hkeeps.governances _ g hg
  refine ⟨⟨g', ?_, hrules'.trans hrules, hmanager'.trans hmanager⟩, fun id device' hdevice' => ?_⟩
  · rw [hkeeps.governance]
    exact hg'
  · rw [hkeeps.governance]
    rcases hkeeps.devices id device' hdevice' with ⟨device, hdevice, hid, hsame⟩ | hnew
    · rw [hid, hsame]
      exact h.attached id device hdevice
    · exact hnew

/-- **Gating.** Where the governance is attached to every device and has a lease rule, every invocation
takes a lease. -/
theorem Attached.gated {rules : List SafetyRule} {rule : LeaseRule} (h : Attached rules r)
    (hrule : .lease rule ∈ rules) : Gated numText r := by
  intro deviceId device capability descriptor input options reading payload hdevice _ _ hdispatched
  obtain ⟨g, hg, hrules, -⟩ := h.governed
  obtain ⟨hid, hgovernance⟩ := h.attached deviceId device hdevice
  have hgovernanceOf : r.governanceOf device = some g := by
    rw [PinoutRuntime.governanceOf, hgovernance]
    exact hg
  rw [PinoutRuntime.invoke_snd hdevice, hgovernanceOf] at hdispatched
  obtain ⟨engine, saved, hreserve⟩ := dispatched_cases hdispatched
  rw [← hrules] at hrule
  obtain ⟨owner, leases, howner, hleases, hholds⟩ := holds_of_reserve hreserve hrule
  refine ⟨owner, leases, howner, ?_, ?_⟩
  · rw [leases?, hg]
    exact hleases
  · rw [← hid]
    exact hholds

/-! ## Lease rules -/

/-- A device has a lease rule when it has a capability that takes a lease. -/
theorem exists_mem_deviceLeaseRules {device : DeviceInstance} :
    (∃ rule, .lease rule ∈ deviceLeaseRules device) ↔
      ∃ descriptor ∈ device.capabilities, TakesLease descriptor := by
  unfold deviceLeaseRules
  constructor
  · rintro ⟨rule, hrule⟩
    rcases List.mem_append.mp hrule with hphysical | harm
    · obtain ⟨descriptor, hmem, -⟩ := List.mem_map.mp hphysical
      obtain ⟨hmem, hphysical⟩ := List.mem_filter.mp hmem
      exact ⟨descriptor, hmem, Or.inl hphysical⟩
    · split at harm
      · next hsome =>
        obtain ⟨descriptor, hfind⟩ := Option.isSome_iff_exists.mp hsome
        have hname : descriptor.name = js "sys.arm" := by simpa using List.find?_some hfind
        exact ⟨descriptor, List.mem_of_find?_eq_some hfind, Or.inr hname⟩
      · cases harm
  · rintro ⟨descriptor, hmem, hphysical | hname⟩
    · have hrule : defaultLeaseRule device.id descriptor.name ∈
          (device.capabilities.filter CapabilityDescriptor.physicalOutput).map
            fun descriptor => defaultLeaseRule device.id descriptor.name :=
        List.mem_map.mpr ⟨descriptor, List.mem_filter.mpr ⟨hmem, hphysical⟩, rfl⟩
      exact ⟨_, List.mem_append_left _ hrule⟩
    · have hsome : (device.resolveCapability (js "sys.arm")).isSome = true := by
        rw [DeviceInstance.resolveCapability, List.find?_isSome]
        exact ⟨descriptor, hmem, by simp [hname]⟩
      have hrule : defaultLeaseRule device.id (js "sys.arm") ∈
          if (device.resolveCapability (js "sys.arm")).isSome
          then [defaultLeaseRule device.id (js "sys.arm")] else [] := by
        rw [if_pos hsome]
        exact List.mem_singleton_self _
      exact ⟨_, List.mem_append_right _ hrule⟩

/-- The daemon has a lease rule when a device that is registered has a capability that takes a lease,
or its configuration has one. -/
theorem exists_leaseRule_iff {config : DaemonConfig} (hrequire : config.requireLeases = true) :
    (∃ rule, .lease rule ∈ leaseRules r config ++ config.safetyRules) ↔
      (∃ id device, r.deviceMap.get? id = some device ∧
        ∃ descriptor ∈ device.capabilities, TakesLease descriptor) ∨
      ∃ rule, .lease rule ∈ config.safetyRules := by
  rw [leaseRules, if_pos hrequire]
  constructor
  · rintro ⟨rule, hrule⟩
    rcases List.mem_append.mp hrule with hdevice | hconfig
    · obtain ⟨⟨id, device⟩, hmem, hrule⟩ := List.mem_flatMap.mp hdevice
      exact Or.inl ⟨id, device, InsertionMap.get?_eq_some_iff.mpr hmem,
        exists_mem_deviceLeaseRules.mp ⟨rule, hrule⟩⟩
    · exact Or.inr ⟨rule, hconfig⟩
  · rintro (⟨id, device, hdevice, hdescriptor⟩ | ⟨rule, hconfig⟩)
    · obtain ⟨rule, hrule⟩ := exists_mem_deviceLeaseRules.mpr hdescriptor
      refine ⟨rule, List.mem_append_left _ (List.mem_flatMap.mpr ⟨(id, device), ?_, hrule⟩)⟩
      exact InsertionMap.get?_eq_some_iff.mp hdevice
    · exact ⟨rule, List.mem_append_right _ hconfig⟩

/-! ## Without a lease rule -/

def ruleCapability : SafetyRule → JsString
  | .legacy rule => rule.capability
  | .rate rule => rule.capability
  | .interlock rule => rule.capability
  | .sequence rule => rule.capability
  | .approval rule => rule.capability
  | .lease rule => rule.capability
  | .deadman rule => rule.capability
  | .resource rule => rule.capability

/-- A rule that is not a lease rule applies to its own capability only. -/
theorem ruleCapability_of_appliesTo {rule : SafetyRule} {capability : JsString}
    (h : rule.appliesTo capability = true) (hlease : ∀ leaseRule, rule ≠ .lease leaseRule) :
    ruleCapability rule = capability := by
  cases rule with
  | legacy rule => cases h
  | lease rule => exact absurd rfl (hlease rule)
  | _ => exact of_decide_eq_true h

/-- Without a lease rule, a capability that no rule is written for passes. -/
theorem enforceRules_of_fresh {engine : SafetyEngine} {at_ : Surroundings} {context : PolicyContext}
    (hlease : ∀ rule, .lease rule ∉ engine.rules)
    (hfresh : ∀ rule ∈ engine.rules, ruleCapability rule ≠ context.capability) :
    enforceRules numText engine at_ context = .ok engine.consumables := by
  have hlegacy : evaluatePolicies numText (engine.rules.filterMap SafetyRule.legacy?) context
      at_.dateNow = .ok () := by
    rw [evaluatePolicies_eq_ok_iff]
    intro rule hmem hcapability
    obtain ⟨safetyRule, hsafety, hsome⟩ := List.mem_filterMap.mp hmem
    cases safetyRule with
    | legacy legacyRule =>
      obtain rfl := Option.some.inj hsome
      exact absurd hcapability (hfresh (.legacy legacyRule) hsafety)
    | _ => cases hsome
  have heach : ∀ rules : List SafetyRule, (∀ rule, .lease rule ∉ rules) →
      (∀ rule ∈ rules, ruleCapability rule ≠ context.capability) → ∀ c,
      enforceEach numText engine.feeds at_ context rules c = .ok c := by
    intro rules
    induction rules with
    | nil => exact fun _ _ _ => rfl
    | cons rule rules ih =>
      intro hlease hfresh c
      rw [enforceEach, if_neg]
      · exact ih (fun r hr => hlease r (List.mem_cons_of_mem _ hr))
          (fun r hr => hfresh r (List.mem_cons_of_mem _ hr)) c
      · intro happlies
        refine hfresh rule List.mem_cons_self (ruleCapability_of_appliesTo happlies ?_)
        rintro leaseRule rfl
        exact hlease leaseRule List.mem_cons_self
  rw [enforceRules, hlegacy]
  exact heach engine.rules hlease hfresh engine.consumables

/-- A device with one capability, which has a physical output and takes anything. -/
def physicalDevice (id capability : JsString) : DeviceInstance :=
  { id, capabilities := [{ name := capability, physicalOutput := true }] }

/-- Without a lease rule, an invocation without an owner reaches the backend of such a device, when no
rule is written for the capability and the halt gate is open. -/
theorem dispatched_of_fresh {g : Governance} {id capability : JsString} {index : Nat}
    (hhalt : g.halt = {}) (hlease : ∀ rule, .lease rule ∉ g.safetyEngine.rules)
    (hfresh : ∀ rule ∈ g.safetyEngine.rules, ruleCapability rule ≠ capability) :
    (((physicalDevice id capability).attachGovernance index).invoke numText (some g) capability []
      {} { now := 0 }).2 = .ok (.dispatched []) := by
  have hprepare : ((physicalDevice id capability).attachGovernance index).prepare numText (some g)
      capability [] {} { now := 0 } = .ok () := by
    have hresolve : ((physicalDevice id capability).attachGovernance index).resolveCapability
        capability = some { name := capability, physicalOutput := true } := by
      simp [DeviceInstance.resolveCapability, DeviceInstance.attachGovernance, physicalDevice]
    have hgate : DeviceInstance.enforceGate (some g) {} = .ok () := by
      rw [DeviceInstance.enforceGate, hhalt]
      rfl
    unfold DeviceInstance.prepare
    rw [hresolve]
    dsimp only
    rw [hgate]
    rfl
  unfold DeviceInstance.invoke
  rw [hprepare]
  have hreserve : ∀ context : PolicyContext, context.capability = capability →
      (g.safetyEngine.reserve numText (g.surroundings { now := 0 }) context) =
        (g.safetyEngine, .ok g.safetyEngine.consumables) := by
    rintro context rfl
    rw [SafetyEngine.reserve, enforceRules_of_fresh hlease hfresh]
  dsimp only
  rw [hreserve _ rfl]
  rfl

/-- **No lease rule.** A daemon without a lease rule does not gate a device that is registered later. -/
theorem exists_not_gated (numText : ℚ → JsString) (r : PinoutRuntime) (config : DaemonConfig)
    (now : ℚ) (hlease : ∀ rule, .lease rule ∉ leaseRules r config ++ config.safetyRules) :
    ∃ device m, (PinoutRuntime.machine numText).step (daemonContext r config now)
      (.register device) = some m ∧ ¬ Gated numText m := by
  obtain ⟨id, hid⟩ := Infinite.exists_notMem_finset (r.deviceMap.entries.map Prod.fst).toFinset
  obtain ⟨capability, hcapability⟩ := Infinite.exists_notMem_finset
    ((leaseRules r config ++ config.safetyRules).map ruleCapability).toFinset
  rw [List.mem_toFinset] at hid hcapability
  have hnew : (daemonContext r config now).deviceMap.contains id = false := by
    show (r.deviceMap.mapValues _).contains id = false
    rw [InsertionMap.contains_eq_false_iff, InsertionMap.get?_mapValues, Option.map_eq_none_iff,
      InsertionMap.get?_eq_none_iff]
    exact fun device hdevice => hid (List.mem_map_of_mem hdevice)
  have hregister : (daemonContext r config now).register (physicalDevice id capability) =
      { daemonContext r config now with
        deviceMap := (daemonContext r config now).deviceMap.insert id
          ((physicalDevice id capability).attachGovernance r.governances.length) } := by
    rw [PinoutRuntime.register, if_neg]
    · rfl
    · show ¬ (daemonContext r config now).deviceMap.contains id = true
      rw [hnew]
      exact Bool.false_ne_true
  refine ⟨physicalDevice id capability, _, rfl, fun hgated => ?_⟩
  rw [hregister] at hgated
  have hgovernanceOf : ({ daemonContext r config now with
      deviceMap := (daemonContext r config now).deviceMap.insert id
        ((physicalDevice id capability).attachGovernance r.governances.length) } :
      PinoutRuntime).governanceOf
        ((physicalDevice id capability).attachGovernance r.governances.length) =
          some (daemonGovernance r config now) := List.getElem?_concat_length
  have hdispatched : (((physicalDevice id capability).attachGovernance
      r.governances.length).invoke numText (some (daemonGovernance r config now)) capability [] {}
        { now := 0 }).2 = .ok (.dispatched []) :=
    dispatched_of_fresh rfl hlease
      fun rule hrule heq => hcapability (List.mem_map.mpr ⟨rule, hrule, heq⟩)
  have hdevice : ((daemonContext r config now).deviceMap.insert id
      ((physicalDevice id capability).attachGovernance r.governances.length)).get? id =
        some ((physicalDevice id capability).attachGovernance r.governances.length) :=
    InsertionMap.get?_insert_self _ _ _
  obtain ⟨owner, leases, howner, -⟩ := hgated id _ capability
    { name := capability, physicalOutput := true } [] {} { now := 0 } [] hdevice
    (by simp [DeviceInstance.resolveCapability, DeviceInstance.attachGovernance, physicalDevice])
    (Or.inl rfl) (by
      rw [PinoutRuntime.invoke_snd hdevice, hgovernanceOf]
      exact hdispatched)
  cases howner

/-- **Lease gating.** However devices come and go before a daemon is constructed with `requireLeases`,
and afterwards: in all states it can reach, an invocation of a capability that takes a lease reaches the
backend only with that lease, if and only if, when the daemon is constructed, a device with such a
capability is registered, or its configuration has a lease rule of its own. -/
theorem gated_iff_leaseRule {g : Governance} {before : List PinoutRuntime.Action}
    (hrun : (PinoutRuntime.machine numText).run (PinoutRuntime.new g) before = some r)
    {config : DaemonConfig} (hrequire : config.requireLeases = true) (now : ℚ) :
    (∀ after m, (PinoutRuntime.machine numText).run (daemonContext r config now) after = some m →
        Gated numText m) ↔
      (∃ id device, r.deviceMap.get? id = some device ∧
        ∃ descriptor ∈ device.capabilities, TakesLease descriptor) ∨
      ∃ rule, .lease rule ∈ config.safetyRules := by
  rw [← exists_leaseRule_iff hrequire]
  constructor
  · intro hgated
    by_contra hnone
    push Not at hnone
    obtain ⟨device, m, hstep, hnot⟩ := exists_not_gated numText r config now hnone
    exact hnot (hgated [.register device] m (by rw [Machine.run_singleton, hstep]))
  · rintro ⟨rule, hrule⟩ after m hafter
    have hattached : Attached (leaseRules r config ++ config.safetyRules) m :=
      Machine.run_invariant (fun _ _ _ h hstep => h.step hstep)
        (attached_daemonContext (Keyed.run hrun) config now) hafter
    exact hattached.gated hrule

def relay : DeviceInstance := physicalDevice (js "relay") (js "relay.set")

/-- A relay that is registered before the daemon is constructed is gated from then on. -/
theorem gated_iff_leaseRule_relay :
    ∃ r, (PinoutRuntime.machine fun _ => []).run
        (PinoutRuntime.new { safetyEngine := { rules := [] } }) [.register relay] = some r ∧
      ∀ after m, (PinoutRuntime.machine fun _ => []).run (daemonContext r {} 0) after = some m →
        Gated (fun _ => []) m := by
  obtain ⟨r, hrun, hrelay⟩ : ∃ r, (PinoutRuntime.machine fun _ => []).run
      (PinoutRuntime.new { safetyEngine := { rules := [] } }) [.register relay] = some r ∧
      r.deviceMap.get? (js "relay") = some (relay.attachGovernance 0) := ⟨_, rfl, rfl⟩
  refine ⟨r, hrun, (gated_iff_leaseRule hrun rfl 0).mpr (Or.inl ⟨_, _, hrelay, ?_⟩)⟩
  exact ⟨_, List.mem_singleton_self _, Or.inl rfl⟩

/-- **A relay that is registered later.** A daemon that is constructed on an empty runtime lets an
invocation without an owner, and without any lease, reach the backend of a relay. -/
theorem not_gated_lateRelay :
    ¬ ∀ (numText : ℚ → JsString) g before r (config : DaemonConfig) now after m,
      (PinoutRuntime.machine numText).run (PinoutRuntime.new g) before = some r →
      config.requireLeases = true →
      (PinoutRuntime.machine numText).run (daemonContext r config now) after = some m →
      Gated numText m := by
  intro hgated
  have hlate := hgated (fun _ => []) { safetyEngine := { rules := [] } } [] _ {} 0
    [.register relay] _ rfl rfl rfl
  obtain ⟨owner, leases, howner, -⟩ := hlate (js "relay") (relay.attachGovernance 1)
    (js "relay.set") { name := js "relay.set", physicalOutput := true } [] {} { now := 0 } [] rfl rfl
    (Or.inl rfl) rfl
  cases howner

end Pinout.Daemon
