import Pinout.Daemon.FailSafeMonitor

/-! # The deadman check and the safety engine

The safety engine rejects an invocation when the heartbeat of the device is older than a deadman
rule allows; the monitor makes a device safe when its heartbeat is older than `governingAge`. The
two agree on a device, whatever its heartbeats, exactly when `governingAge` is within what every rule
allows. The max age recorded when a device was armed takes precedence over the rules, and a rule
without a max age counts with different defaults, so they need not. -/

namespace Pinout.Daemon

open Foundation Leasing Policy

namespace Monitoring

variable {s t u : Monitoring} {d deviceId : JsString}

/-- The max age the monitor goes by for a device. -/
def governingAge (s : Monitoring) (deviceId : JsString) : ℚ :=
  (((s.failSafe.armed.get? deviceId).map ArmedDeviceRecord.timeoutMs).or s.ruleMaxAge).getD
    s.failSafe.defaultDeadmanMaxAgeMs

/-! ## What happened to one device -/

/-- A fail-safe was applied to the device between the two states. -/
def Applied (deviceId : JsString) (s t : Monitoring) : Prop :=
  ∃ shown, t.trace = s.trace ++ shown ∧ ∃ reason, .failSafe deviceId reason ∈ shown

/-- Nothing was done to the device between the two states, and what the monitor knows of it is the
same. -/
structure Spared (deviceId : JsString) (s t : Monitoring) : Prop where
  armed : t.failSafe.armed.get? deviceId = s.failSafe.armed.get? deviceId
  alive : t.safety.feeds.deadman.get? deviceId = s.safety.feeds.deadman.get? deviceId
  rules : t.safety.rules = s.safety.rules
  default_ : t.failSafe.defaultDeadmanMaxAgeMs = s.failSafe.defaultDeadmanMaxAgeMs
  now : t.now = s.now
  devices : t.devices = s.devices
  trace : ∃ shown, t.trace = s.trace ++ shown ∧ ∀ reason, .failSafe deviceId reason ∉ shown

theorem Spared.refl (s : Monitoring) : Spared d s s :=
  ⟨rfl, rfl, rfl, rfl, rfl, rfl, [], by simp, by simp⟩

theorem Spared.trans (h : Spared d s t) (h' : Spared d t u) : Spared d s u := by
  obtain ⟨shown, htrace, hnot⟩ := h.trace
  obtain ⟨shown', htrace', hnot'⟩ := h'.trace
  refine ⟨h'.armed.trans h.armed, h'.alive.trans h.alive, h'.rules.trans h.rules,
    h'.default_.trans h.default_, h'.now.trans h.now, h'.devices.trans h.devices,
    shown ++ shown', by rw [htrace', htrace, List.append_assoc], fun reason hmem => ?_⟩
  rcases List.mem_append.mp hmem with hmem | hmem
  · exact hnot reason hmem
  · exact hnot' reason hmem

theorem Spared.applied (h : Spared d s t) (h' : Applied d t u) : Applied d s u := by
  obtain ⟨shown, htrace, -⟩ := h.trace
  obtain ⟨shown', htrace', reason, hmem⟩ := h'
  exact ⟨shown ++ shown', by rw [htrace', htrace, List.append_assoc], reason,
    List.mem_append_right _ hmem⟩

theorem Applied.trans (h : Applied d s t) (h' : t.trace <+: u.trace) :
    Applied d s u := by
  obtain ⟨shown, htrace, reason, hmem⟩ := h
  obtain ⟨shown', htrace'⟩ := h'
  exact ⟨shown ++ shown', by rw [← htrace', htrace, List.append_assoc], reason,
    List.mem_append_left _ hmem⟩

theorem Spared.not_applied (h : Spared d s t) : ¬ Applied d s t := by
  obtain ⟨shown, htrace, hnot⟩ := h.trace
  rintro ⟨shown', htrace', reason, hmem⟩
  rw [htrace, List.append_cancel_left_eq] at htrace'
  exact hnot reason (htrace' ▸ hmem)

/-- Recording anything but a fail-safe of the device spares it. -/
theorem spared_effect {e : Effect} (he : ∀ reason, e ≠ .failSafe d reason) :
    Spared d s (s.effect e) :=
  ⟨rfl, rfl, rfl, rfl, rfl, rfl, [e], rfl, fun reason hmem =>
    he reason (List.mem_singleton.mp hmem).symm⟩

theorem spared_markDisarmed (h : d ≠ deviceId) : Spared d s (s.markDisarmed deviceId) :=
  ⟨InsertionMap.get?_erase_of_ne _ h, InsertionMap.get?_erase_of_ne _ h, rfl, rfl, rfl, rfl, [],
    by simp [markDisarmed], by simp⟩

/-- Beginning and ending the fail-safe of another device spares the device. -/
theorem spared_beginFailSafe (s : Monitoring) (h : d ≠ deviceId) (reason : FailSafeReason) :
    Spared d s (s.beginFailSafe deviceId reason).1 ∧
      ∀ current ∈ (s.beginFailSafe deviceId reason).2, current = deviceId := by
  have heffect : Spared d s (s.effect (.failSafe deviceId reason)) :=
    spared_effect fun _ heq => h (Effect.failSafe.inj heq).1.symm
  unfold beginFailSafe
  dsimp only
  split
  · exact ⟨heffect, fun current hcurrent => (Option.some.inj hcurrent).symm⟩
  · exact ⟨heffect.trans (spared_markDisarmed h), nofun⟩

theorem spared_endFailSafe {current : Option JsString} (h : ∀ c ∈ current, d ≠ c) :
    Spared d s (s.endFailSafe current) := by
  cases current with
  | none => exact Spared.refl s
  | some deviceId => exact spared_markDisarmed (h deviceId rfl)

theorem applied_beginFailSafe (s : Monitoring) (reason : FailSafeReason) :
    Applied d s (s.beginFailSafe d reason).1 := by
  refine ⟨[.failSafe d reason], ?_, reason, List.mem_singleton_self _⟩
  unfold beginFailSafe
  dsimp only
  split <;> rfl

/-! ## The deadman check of one device -/

/-- The decision on a device depends on what the monitor knows of it. -/
theorem Spared.stale? (h : Spared d s t) (now : ℚ) (ruleMaxAge : Option ℚ) :
    t.stale? now ruleMaxAge d = s.stale? now ruleMaxAge d := by
  unfold Monitoring.stale?
  rw [h.armed, h.alive, h.default_]

/-- A turn of the loop for a device that is not stale, or for another device, spares the device. -/
theorem spared_checkDevice {now : ℚ} {ruleMaxAge : Option ℚ} {s : Monitoring}
    {deviceId : JsString} (h : d = deviceId → s.stale? now ruleMaxAge d = none) :
    Spared d s (checkDevice now ruleMaxAge s deviceId) := by
  unfold checkDevice
  by_cases hd : d = deviceId
  · rw [← hd, h hd]
    exact Spared.refl s
  · split
    · exact Spared.refl s
    · obtain ⟨hbegin, hcurrent⟩ := spared_beginFailSafe s hd (.deadmanStale _)
      exact hbegin.trans (spared_endFailSafe fun c hc => by rw [hcurrent c hc]; exact hd)

theorem spared_foldl_checkDevice {now : ℚ} {ruleMaxAge : Option ℚ} {ids : List JsString}
    (h : s.stale? now ruleMaxAge d = none) :
    Spared d s (ids.foldl (checkDevice now ruleMaxAge) s) := by
  induction ids generalizing s with
  | nil => exact Spared.refl s
  | cons deviceId rest ih =>
    have hfirst : Spared d s (checkDevice now ruleMaxAge s deviceId) :=
      spared_checkDevice fun _ => h
    exact hfirst.trans (ih (by rw [hfirst.stale?]; exact h))

/-- The loop makes a stale device safe when it comes to it. -/
theorem applied_foldl_checkDevice {now : ℚ} {ruleMaxAge : Option ℚ} {ids : List JsString}
    {maxAge : ℚ} (h : s.stale? now ruleMaxAge d = some maxAge) (hd : d ∈ ids) :
    Applied d s (ids.foldl (checkDevice now ruleMaxAge) s) := by
  induction ids generalizing s with
  | nil => cases hd
  | cons deviceId rest ih =>
    rw [List.foldl_cons]
    by_cases hsame : d = deviceId
    · -- Its own turn; the turns after it take nothing back.
      subst hsame
      have hturn : checkDevice now ruleMaxAge s d = s.applyFailSafe d (.deadmanStale maxAge) := by
        rw [checkDevice, h]
      have hframe : ∀ (v : Monitoring) (l : List JsString),
          v.trace <+: (l.foldl (checkDevice now ruleMaxAge) v).trace := by
        intro v l
        induction l generalizing v with
        | nil => exact List.prefix_refl _
        | cons e l ihl =>
          exact (frame_checkDevice now ruleMaxAge v e).trace.trans (ihl _)
      rw [hturn]
      exact ((applied_beginFailSafe s _).trans (frame_endFailSafe _ _).trace).trans (hframe _ rest)
    · have hfirst : Spared d s (checkDevice now ruleMaxAge s deviceId) :=
        spared_checkDevice fun heq => absurd heq hsame
      exact hfirst.applied (ih (by rw [hfirst.stale?]; exact h)
        ((List.mem_cons.mp hd).resolve_left hsame))

def Known (s : Monitoring) (deviceId : JsString) : Prop :=
  (s.failSafe.armed.get? deviceId).isSome = true ∨ deviceId ∈ s.devices

theorem mem_deviceIds (h : s.Known d) : d ∈ s.deviceIds := by
  rw [deviceIds, List.mem_eraseDups, List.mem_append]
  refine h.imp_left fun harmed => ?_
  obtain ⟨record, hrecord⟩ := Option.isSome_iff_exists.mp harmed
  exact List.mem_map_of_mem (InsertionMap.get?_eq_some_iff.mp hrecord)

/-- The smallest configured max age is there once there is a rule. -/
theorem strictestMaxAge_isSome {defaultMaxAgeMs : ℚ} {rules : List DeadmanRule} (h : rules ≠ []) :
    (strictestMaxAge defaultMaxAgeMs rules).isSome = true := by
  cases rules with
  | nil => exact absurd rfl h
  | cons rule rules =>
    rw [strictestMaxAge, List.foldl_cons]
    refine List.foldlRecOn (motive := fun existing : Option ℚ => existing.isSome = true) rules _ rfl
      fun existing _ rule _ => ?_
    cases existing with
    | none => rfl
    | some least =>
      dsimp only
      split <;> rfl

/-- The decision on a device with a heartbeat, where there are deadman rules. -/
theorem stale?_of_alive {lastAlive : ℚ}
    (halive : s.safety.feeds.deadman.get? d = some lastAlive)
    (hrules : listDeadmanRules s.safety ≠ []) (now : ℚ) :
    s.stale? now s.ruleMaxAge d =
      if now - lastAlive ≤ s.governingAge d then none else some (s.governingAge d) := by
  have hsome : s.ruleMaxAge.isNone = false := by
    rw [Option.isNone_eq_false_iff]
    exact strictestMaxAge_isSome hrules
  simp [stale?, halive, hsome, governingAge]

/-! ## A whole tick -/

/-- A tick that begins now, with nothing else happening until it is over, applies a fail-safe to the
device. -/
def TickApplies (s : Monitoring) (deviceId : JsString) : Prop :=
  ∃ n t, machine.run s (.timer :: List.replicate n .resume) = some t ∧ t.failSafe.pass = .idle ∧
    Applied deviceId s t

theorem spared_pass (s : Monitoring) (pass : Pass) :
    Spared d s { s with failSafe := { s.failSafe with pass } } :=
  ⟨rfl, rfl, rfl, rfl, rfl, rfl, [], by simp, by simp⟩

theorem Spared.ruleMaxAge (h : Spared d s t) : t.ruleMaxAge = s.ruleMaxAge := by
  rw [Monitoring.ruleMaxAge, Monitoring.ruleMaxAge, listDeadmanRules, listDeadmanRules, h.rules,
    h.default_]

theorem applied_checkDeadman {maxAge : ℚ} (hstale : s.stale? s.now s.ruleMaxAge d = some maxAge)
    (hknown : s.Known d) : Applied d s s.checkDeadman :=
  applied_foldl_checkDevice hstale (mem_deviceIds hknown)

/-- What is left of a tick makes a stale device safe, unless that was done before. -/
theorem run_reapFrom {maxAge : ℚ} (hstale : s.stale? s.now s.ruleMaxAge d = some maxAge)
    (hknown : s.Known d) (rest : List Lease) (t : Monitoring)
    (hso : Applied d s t ∨ Spared d s t) :
    ∃ u, machine.run (t.reapFrom rest) (List.replicate rest.length .resume) = some u ∧
      u.failSafe.pass = .idle ∧ Applied d s u := by
  induction rest generalizing t with
  | nil =>
    refine ⟨t.reapFrom [], rfl, rfl, ?_⟩
    rcases hso with happlied | hspared
    · exact happlied.trans (frame_reapFrom t []).trace
    · have hstale' : t.stale? t.now t.ruleMaxAge d = some maxAge := by
        rw [hspared.stale?, hspared.now, hspared.ruleMaxAge]
        exact hstale
      have hknown' : t.Known d := by
        rw [Known, hspared.armed, hspared.devices]
        exact hknown
      exact hspared.applied (applied_checkDeadman hstale' hknown')
  | cons lease rest ih =>
    -- The tick begins with this lease, and goes on when its safe state has come.
    set begun := (t.effect (.leaseExpired lease)).beginFailSafe lease.scope.deviceId
      (.leaseExpired lease.id) with hbegun
    set waits : Monitoring :=
      { begun.1 with failSafe := { begun.1.failSafe with pass := .reaping begun.2 rest } } with hwaits
    have hstep : machine.step (t.reapFrom (lease :: rest)) .resume =
        some ((waits.endFailSafe begun.2).reapFrom rest) := rfl
    have hpass : Frame begun.1 waits := ⟨rfl, rfl, rfl, List.prefix_refl _⟩
    have hframe : Frame t (waits.endFailSafe begun.2) :=
      (((frame_effect t _).trans (frame_beginFailSafe _ _ _)).trans hpass).trans
        (frame_endFailSafe waits begun.2)
    obtain ⟨u, hrun, hidle, happlied⟩ := ih (waits.endFailSafe begun.2) (by
      rcases hso with happlied | hspared
      · exact Or.inl (happlied.trans hframe.trace)
      · have heffect : Spared d t (t.effect (.leaseExpired lease)) :=
          spared_effect fun _ heq => nomatch heq
        by_cases hd : d = lease.scope.deviceId
        · refine Or.inl ((hspared.trans heffect).applied ?_)
          have happlied := applied_beginFailSafe (d := d) (t.effect (.leaseExpired lease))
            (.leaseExpired lease.id)
          rw [hd] at happlied ⊢
          exact happlied.trans (frame_endFailSafe waits begun.2).trace
        · obtain ⟨hbegin, hcurrent⟩ := spared_beginFailSafe (t.effect (.leaseExpired lease)) hd
            (.leaseExpired lease.id)
          refine Or.inr (((hspared.trans heffect).trans hbegin).trans ?_)
          exact (spared_pass begun.1 _).trans
            (spared_endFailSafe fun c hc => by rw [hcurrent c hc]; exact hd))
    refine ⟨u, ?_, hidle, happlied⟩
    rw [List.length_cons, List.replicate_succ]
    exact machine.run_cons_eq_some.mpr ⟨_, hstep, hrun⟩

theorem tickApplies_of_stale (hidle : s.failSafe.pass = .idle)
    (hon : s.failSafe.failSafeOnAuthorityLoss = true) {maxAge : ℚ}
    (hstale : s.stale? s.now s.ruleMaxAge d = some maxAge) (hknown : s.Known d) :
    s.TickApplies d := by
  set drained : Monitoring := { s with
    leases := s.leases.drainExpired.1
    expired := s.expired ++ departed s.leases s.leases.drainExpired.1
    handed := s.handed ++ s.leases.drainExpired.2 } with hdrained
  have htick : s.tick = drained.reapFrom s.leases.drainExpired.2 := by
    unfold tick
    rw [hidle]
    dsimp only
    rw [if_pos hon]
  obtain ⟨u, hrun, hidle', happlied⟩ := run_reapFrom hstale hknown s.leases.drainExpired.2 drained
    (Or.inr ⟨rfl, rfl, rfl, rfl, rfl, rfl, [], by simp [hdrained], by simp⟩)
  refine ⟨s.leases.drainExpired.2.length, u, machine.run_cons_eq_some.mpr ⟨s.tick, rfl, ?_⟩,
    hidle', happlied⟩
  rw [htick]
  exact hrun

theorem TickApplies.of_idle (h : s.TickApplies d) (hidle : s.tick.failSafe.pass = .idle) :
    Applied d s s.tick := by
  obtain ⟨n, t, hrun, -, happlied⟩ := h
  obtain ⟨m, hm, hrest⟩ := machine.run_cons_eq_some.mp hrun
  obtain rfl : s.tick = m := Option.some.inj hm
  cases n with
  | zero =>
    obtain rfl : s.tick = t := Option.some.inj hrest
    exact happlied
  | succ n =>
    -- Nothing is waited for, so nothing resumes.
    obtain ⟨m', hm', -⟩ := machine.run_cons_eq_some.mp hrest
    replace hm' : s.tick.step .resume = some m' := hm'
    rw [Monitoring.step, hidle] at hm'
    cases hm'

/-- When no lease has expired, a tick is over after the deadman check. -/
theorem tick_of_live (s : Monitoring) (d : JsString) (hidle : s.failSafe.pass = .idle)
    (hon : s.failSafe.failSafeOnAuthorityLoss = true)
    (hlive : ∀ lease ∈ s.leases.values, s.leases.isExpired lease = false) :
    s.tick.failSafe.pass = .idle ∧ (s.stale? s.now s.ruleMaxAge d = none → Spared d s s.tick) := by
  have hdrained : s.leases.drainExpired.2 = [] :=
    List.filter_eq_nil_iff.mpr fun lease hlease => by simp [hlive lease hlease]
  unfold tick
  rw [hidle]
  dsimp only
  rw [if_pos hon, hdrained]
  refine ⟨rfl, fun hstale => ?_⟩
  set drained : Monitoring := { s with
    leases := s.leases.drainExpired.1
    expired := s.expired ++ departed s.leases s.leases.drainExpired.1
    handed := s.handed ++ [] } with hdef
  have hsame : Spared d s drained := ⟨rfl, rfl, rfl, rfl, rfl, rfl, [], by simp [hdef], by simp⟩
  have hcheck : Spared d drained drained.checkDeadman :=
    spared_foldl_checkDevice (by rw [hsame.stale?, hsame.now, hsame.ruleMaxAge]; exact hstale)
  exact (hsame.trans hcheck).trans (spared_pass _ _)

/-! ## Agreement -/

/-- The daemon when the last heartbeat of the device came at `lastAlive` and it is `now`. -/
def heard (s : Monitoring) (deviceId : JsString) (lastAlive now : ℚ) : Monitoring :=
  { s with
    leases := { s.leases with now }
    safety := s.safety.heartbeatDeadman deviceId lastAlive }

/-- Whenever the safety engine rejects an invocation on the device because its last heartbeat is too
old for a deadman rule, a tick at that moment makes the device safe. -/
def Agrees (numText : ℚ → JsString) (s : Monitoring) (deviceId : JsString) : Prop :=
  ∀ rule ∈ listDeadmanRules s.safety, ∀ context : PolicyContext, context.deviceId = deviceId →
    (s.safety.feeds.deadman.get? deviceId).isSome = true →
    (∃ e, enforceDeadman numText rule context s.now s.safety.feeds = .error e) →
    s.TickApplies deviceId

/-- When a deadman rule rejects an invocation on a device that was heard of. -/
theorem enforceDeadman_eq_error_iff {numText : ℚ → JsString} {rule : DeadmanRule}
    {context : PolicyContext} {now lastAlive : ℚ} {f : Feeds}
    (halive : f.deadman.get? context.deviceId = some lastAlive) :
    (∃ e, enforceDeadman numText rule context now f = .error e) ↔
      rule.maxAgeMs.getD 1000 < now - lastAlive := by
  unfold enforceDeadman
  simp only [halive, Option.any_some, decide_eq_true_eq]
  by_cases h : now - lastAlive ≤ rule.maxAgeMs.getD 1000
  · rw [if_pos h]
    simpa using h
  · rw [if_neg h]
    exact iff_of_true ⟨_, rfl⟩ (not_le.mp h)

theorem exists_before (leases : List Lease) : ∃ now : ℚ, ∀ lease ∈ leases, now < lease.expiresAt := by
  induction leases with
  | nil => exact ⟨0, nofun⟩
  | cons lease leases ih =>
    obtain ⟨now, hnow⟩ := ih
    refine ⟨min now (lease.expiresAt - 1), fun other hother => ?_⟩
    rcases List.mem_cons.mp hother with rfl | hother
    · exact (min_le_right _ _).trans_lt (sub_one_lt _)
    · exact (min_le_left _ _).trans_lt (hnow other hother)

/-- **The monitor agrees with the safety engine.** For a device that is armed or registered, and
whatever its heartbeats and the time: the monitor makes it safe whenever the safety engine finds its
heartbeat too old for a rule, if and only if the max age the monitor goes by is at most that of every
rule, a missing one counting as the second the safety engine takes it for. -/
theorem agrees_iff_governingAge_le (numText : ℚ → JsString) (s : Monitoring) (deviceId : JsString)
    (hidle : s.failSafe.pass = .idle) (hon : s.failSafe.failSafeOnAuthorityLoss = true)
    (hknown : s.Known deviceId) :
    (∀ lastAlive now, (s.heard deviceId lastAlive now).Agrees numText deviceId) ↔
      ∀ rule ∈ listDeadmanRules s.safety, s.governingAge deviceId ≤ rule.maxAgeMs.getD 1000 := by
  have halive : ∀ lastAlive now,
      (s.heard deviceId lastAlive now).safety.feeds.deadman.get? deviceId = some lastAlive :=
    fun lastAlive now => InsertionMap.get?_insert_self _ _ _
  constructor
  · intro hagrees rule hrule
    by_contra hlt
    rw [not_le] at hlt
    -- A heartbeat as old as the monitor bears, at a time when no lease has expired.
    obtain ⟨now, hnow⟩ := exists_before s.leases.values
    set u := s.heard deviceId (now - s.governingAge deviceId) now with hu
    have hrejects : ∃ e, enforceDeadman numText rule
        { deviceId, capability := [], payload := [], operationalState := [] } u.now
        u.safety.feeds = .error e := by
      refine (enforceDeadman_eq_error_iff (halive _ _)).mpr ?_
      show _ < now - (now - s.governingAge deviceId)
      rwa [sub_sub_cancel]
    have happlies : u.TickApplies deviceId :=
      hagrees _ now rule hrule _ rfl (by rw [halive]; rfl) hrejects
    have hfresh : u.stale? u.now u.ruleMaxAge deviceId = none := by
      rw [stale?_of_alive (halive _ _) (List.ne_nil_of_mem hrule)]
      refine if_pos ?_
      show now - (now - s.governingAge deviceId) ≤ s.governingAge deviceId
      rw [sub_sub_cancel]
    obtain ⟨hidle', hspared⟩ := tick_of_live u deviceId hidle hon fun lease hlease =>
      decide_eq_false (not_le.mpr (hnow lease hlease))
    exact (hspared hfresh).not_applied (happlies.of_idle hidle')
  · intro hle lastAlive now rule hrule context hcontext hsome hrejects
    have hold : rule.maxAgeMs.getD 1000 < now - lastAlive :=
      (enforceDeadman_eq_error_iff (by rw [hcontext]; exact halive lastAlive now)).mp hrejects
    have hstale := stale?_of_alive (halive lastAlive now) (List.ne_nil_of_mem hrule) now
    have hexceeds : s.governingAge deviceId < now - lastAlive := (hle rule hrule).trans_lt hold
    exact tickApplies_of_stale hidle hon (hstale.trans (if_neg (not_le.mpr hexceeds))) hknown

/-- A deadman rule for a capability of the device `arm`. -/
def deadmanRule (maxAgeMs : ℚ) : DeadmanRule :=
  { capability := js "motion.move", maxAgeMs := some maxAgeMs }

/-- A daemon with one device and one deadman rule. -/
def oneRule (maxAgeMs : ℚ) : Monitoring :=
  new true 300000 0 [.deadman (deadmanRule maxAgeMs)] [js "arm"]

/-- An armed device, and a rule that allows what the monitor goes by. -/
theorem agrees_lenient :
    (((oneRule 60000).markArmed (js "arm") none).heard (js "arm") 0 40000).Agrees (fun _ => []) (js "arm") :=
  (agrees_iff_governingAge_le _ _ _ rfl rfl (Or.inr (by decide))).mpr (by decide +kernel) 0 40000

/-- **The monitor can miss a stale device.** Six seconds after it was armed, a rule of five seconds
rejects an invocation; the monitor goes by thirty seconds and does nothing. -/
theorem not_agrees_armed :
    ∃ s, machine.run (oneRule 5000) [.markArmed (js "arm") none, .elapse 6000] = some s ∧
      ¬ s.Agrees (fun _ => []) (js "arm") := by
  have hview : ((machine.run (oneRule 5000) [.markArmed (js "arm") none, .elapse 6000]).map fun s =>
      decide (s.safety.feeds.deadman.get? (js "arm") = some 0) && decide (s.now = 6000) &&
        decide ((listDeadmanRules s.safety).map DeadmanRule.maxAgeMs = [some 5000]) &&
        (s.tick.step .resume).isNone &&
        s.tick.trace.isEmpty) = some true := by decide +kernel
  obtain ⟨s, hs, hview⟩ := Option.map_eq_some_iff.mp hview
  simp only [Bool.and_eq_true, decide_eq_true_eq, List.isEmpty_iff] at hview
  obtain ⟨⟨⟨⟨halive, hnow⟩, hrules⟩, hpass⟩, htrace⟩ := hview
  obtain ⟨rule, rest, hlist, hage, -⟩ := List.map_eq_cons_iff.mp hrules
  refine ⟨s, hs, fun hagrees => ?_⟩
  have happlies : s.TickApplies (js "arm") := by
    refine hagrees rule (by rw [hlist]; exact List.mem_cons_self)
      { deviceId := js "arm", capability := [], payload := [], operationalState := [] } rfl
      (by rw [halive]; rfl) ((enforceDeadman_eq_error_iff halive).mpr ?_)
    rw [hage, hnow]
    decide +kernel
  have hidle : s.tick.failSafe.pass = .idle := by
    cases hp : s.tick.failSafe.pass with
    | idle => rfl
    | reaping current rest => rw [Monitoring.step, hp] at hpass; cases hpass
  -- The tick does nothing.
  obtain ⟨shown, hshown, reason, hmem⟩ := happlies.of_idle hidle
  rw [htrace, eq_comm, List.append_eq_nil_iff] at hshown
  rw [hshown.2] at hmem
  cases hmem

end Monitoring

end Pinout.Daemon
