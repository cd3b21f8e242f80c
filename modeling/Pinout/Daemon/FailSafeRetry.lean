import Pinout.Daemon.Deadman

/-! # When a fail-safe fails

The monitor once more, with what `applySafeState` came to and with requests at every point where a tick waits for it,
also in the deadman check. `applyFailSafe` ends in the same way whether the safe state was applied or not: the device is
marked as disarmed (`endFailSafe` does not look at the answer), so a tick with nothing in between is the one of the
coarser machine, whatever the answers are (`run_checkFrom`). A device that is registered stays recorded until its safe
state was applied exactly as long as no attempt for it fails, unless another expired lease on it is still to be seen to
(`keepsRecord_of_attended`). -/

namespace Pinout.Daemon

open Foundation Leasing Policy

inductive Wait
  | idle
  /-- `reapLeases` waits for the safe state of `current`, when that is registered, and has the leases `rest` still to
  see to. -/
  | reaping (current : Option JsString) (rest : List Lease)
  /-- `checkDeadman` waits for the safe state of `current`, when that is registered, and has the devices `rest` still to
  look at; it goes by the time and by the max age it began with. -/
  | checking (current : Option JsString) (now : ℚ) (ruleMaxAge : Option ℚ) (rest : List JsString)

/-- The monitored daemon, and where its tick waits. -/
structure Ticking where
  daemon : Monitoring
  wait : Wait := .idle

namespace Ticking

/-- `checkDeadman`, from where the given devices are still to be looked at. -/
def checkFrom (now : ℚ) (ruleMaxAge : Option ℚ) (daemon : Monitoring) : List JsString → Ticking
  | [] => ⟨daemon, .idle⟩
  | deviceId :: rest =>
    match daemon.stale? now ruleMaxAge deviceId with
    | none => checkFrom now ruleMaxAge daemon rest
    | some maxAge =>
      let (daemon, current) := daemon.beginFailSafe deviceId (.deadmanStale maxAge)
      ⟨daemon, .checking current now ruleMaxAge rest⟩

/-- `reapLeases`, from where the given leases are still to be seen to, and then `checkDeadman`. -/
def reapFrom (daemon : Monitoring) : List Lease → Ticking
  | [] => checkFrom daemon.now daemon.ruleMaxAge daemon daemon.deviceIds
  | lease :: rest =>
    let (daemon, current) := (daemon.effect (.leaseExpired lease)).beginFailSafe lease.scope.deviceId
      (.leaseExpired lease.id)
    ⟨daemon, .reaping current rest⟩

/-- `tick`, as the timer calls it. -/
def tick (s : Ticking) : Ticking :=
  match s.wait with
  | .idle =>
    if s.daemon.failSafe.failSafeOnAuthorityLoss then
      let (leases, drained) := s.daemon.leases.drainExpired
      reapFrom
        { s.daemon with
          leases := leases
          expired := s.daemon.expired ++ Monitoring.departed s.daemon.leases leases
          handed := s.daemon.handed ++ drained } drained
    else s
  | _ => s

inductive Event
  | timer
  /-- The safe state the tick waits for was applied, or failed to. -/
  | resume (succeeded : Bool)
  | call (action : Monitoring.Action)

def step (s : Ticking) : Event → Option Ticking
  | .timer => some s.tick
  | .resume _ =>
    match s.wait with
    | .idle => none
    | .reaping current rest => some (reapFrom (s.daemon.endFailSafe current) rest)
    | .checking current now ruleMaxAge rest => some (checkFrom now ruleMaxAge (s.daemon.endFailSafe current) rest)
  | .call .timer | .call .resume => none
  | .call action => (s.daemon.step action).map fun daemon => { s with daemon }

def machine : Machine Ticking Event := ⟨step⟩

/-! ## A tick with nothing in between -/

/-- With nothing happening while it waits, the check is the one of the coarser machine, whatever its attempts come to. -/
theorem run_checkFrom (now : ℚ) (ruleMaxAge : Option ℚ) (daemon : Monitoring) (deviceIds : List JsString) :
    ∃ n, ∀ answers : List Bool, answers.length = n →
      machine.run (checkFrom now ruleMaxAge daemon deviceIds) (answers.map .resume) =
        some ⟨deviceIds.foldl (Monitoring.checkDevice now ruleMaxAge) daemon, .idle⟩ := by
  induction deviceIds generalizing daemon with
  | nil =>
    refine ⟨0, fun answers hlen => ?_⟩
    rw [List.length_eq_zero_iff.mp hlen]
    rfl
  | cons deviceId rest ih =>
    unfold checkFrom
    rw [List.foldl_cons]
    cases hstale : daemon.stale? now ruleMaxAge deviceId with
    | none =>
      obtain ⟨n, hn⟩ := ih daemon
      refine ⟨n, fun answers hlen => ?_⟩
      rw [Monitoring.checkDevice, hstale]
      exact hn answers hlen
    | some maxAge =>
      obtain ⟨n, hn⟩ := ih (daemon.applyFailSafe deviceId (.deadmanStale maxAge))
      refine ⟨n + 1, fun answers hlen => ?_⟩
      obtain ⟨succeeded, answers, rfl⟩ := List.exists_of_length_succ answers hlen
      rw [Monitoring.checkDevice, hstale, List.map_cons]
      refine machine.run_cons_eq_some.mpr ⟨_, rfl, hn answers ?_⟩
      simpa using hlen

/-! ## The promise -/

def current? (s : Ticking) : Option JsString :=
  match s.wait with
  | .idle => none
  | .reaping current _ | .checking current _ _ _ => current

/-- The expired leases that are still to be seen to. -/
def pending (s : Ticking) : List Lease :=
  match s.wait with
  | .reaping _ rest => rest
  | _ => []

def Armed (s : Ticking) (deviceId : JsString) : Prop :=
  (s.daemon.failSafe.armed.get? deviceId).isSome = true

/-- A lease on the device is still to be seen to. -/
def Pending (s : Ticking) (deviceId : JsString) : Prop := ∃ lease ∈ s.pending, lease.scope.deviceId = deviceId

/-- A device is recorded: as armed, or because its fail-safe is under way or to come. -/
def Recorded (s : Ticking) (deviceId : JsString) : Prop :=
  s.Armed deviceId ∨ s.current? = some deviceId ∨ s.Pending deviceId

/-- The event gives a device back: its safe state was applied, or it was disarmed by a request. -/
def Releases (deviceId : JsString) (s : Ticking) : Event → Prop
  | .resume succeeded => succeeded = true ∧ s.current? = some deviceId
  | .call (.markDisarmed disarmed) => disarmed = deviceId
  | _ => False

instance (deviceId : JsString) (s : Ticking) (e : Event) : Decidable (Releases deviceId s e) := by
  unfold Releases
  split <;> infer_instance

/-- What is promised of a device in a run: it stays recorded until an event gives it back. -/
def KeepsRecord (deviceId : JsString) (s : Ticking) (events : List Event) : Prop :=
  ∀ before after t, events = before ++ after → s.Armed deviceId → machine.run s before = some t →
    machine.Guarded (fun s e => ¬ Releases deviceId s e) s before → t.Recorded deviceId

/-- The guard: the device is registered, and an attempt for it fails only while a lease on it is still to be seen to. -/
def Attended (deviceId : JsString) (s : Ticking) : Event → Prop
  | .resume false => deviceId ∈ s.daemon.devices ∧ (s.current? = some deviceId → s.Pending deviceId)
  | _ => deviceId ∈ s.daemon.devices

instance (s : Ticking) (deviceId : JsString) : Decidable (s.Pending deviceId) := by
  unfold Pending
  infer_instance

instance (s : Ticking) (deviceId : JsString) : Decidable (s.Armed deviceId) := by
  unfold Armed
  infer_instance

instance (s : Ticking) (deviceId : JsString) : Decidable (s.Recorded deviceId) := by
  unfold Recorded
  infer_instance

instance (deviceId : JsString) (s : Ticking) (e : Event) : Decidable (Attended deviceId s e) :=
  match e with
  | .resume false => inferInstanceAs (Decidable (_ ∧ (_ → _)))
  | .resume true | .timer | .call _ => inferInstanceAs (Decidable (_ ∈ _))

variable {s t : Ticking} {daemon : Monitoring} {d deviceId : JsString} {e : Event}

theorem Attended.registered (h : Attended d s e) : d ∈ s.daemon.devices := by
  unfold Attended at h
  split at h
  · exact h.1
  · exact h

/-! ## What the monitor does to a registered device -/

/-- Beginning a fail-safe leaves the record of a registered device, and waits when it is for the device. -/
theorem beginFailSafe_of_registered (daemon : Monitoring) (hd : d ∈ daemon.devices) (deviceId : JsString)
    (reason : FailSafeReason) :
    (daemon.beginFailSafe deviceId reason).1.failSafe.armed.get? d = daemon.failSafe.armed.get? d ∧
      (deviceId = d → (daemon.beginFailSafe deviceId reason).2 = some d) := by
  by_cases hregistered : deviceId ∈ daemon.devices
  · have hbegin : daemon.beginFailSafe deviceId reason = (daemon.effect (.failSafe deviceId reason), some deviceId) := by
      unfold Monitoring.beginFailSafe
      exact if_pos hregistered
    rw [hbegin]
    exact ⟨rfl, fun heq => congrArg some heq⟩
  · have hne : d ≠ deviceId := fun heq => hregistered (heq ▸ hd)
    have hbegin : daemon.beginFailSafe deviceId reason =
        ((daemon.effect (.failSafe deviceId reason)).markDisarmed deviceId, none) := by
      unfold Monitoring.beginFailSafe
      exact if_neg hregistered
    rw [hbegin]
    exact ⟨InsertionMap.get?_erase_of_ne _ hne, fun heq => absurd heq.symm hne⟩

theorem checkFrom_armed (hd : d ∈ daemon.devices) (now : ℚ) (ruleMaxAge : Option ℚ) (deviceIds : List JsString) :
    (checkFrom now ruleMaxAge daemon deviceIds).daemon.failSafe.armed.get? d = daemon.failSafe.armed.get? d := by
  induction deviceIds with
  | nil => rfl
  | cons deviceId rest ih =>
    unfold checkFrom
    split
    · exact ih
    · exact (beginFailSafe_of_registered daemon hd deviceId _).1

theorem reapFrom_armed (hd : d ∈ daemon.devices) (rest : List Lease) :
    (reapFrom daemon rest).daemon.failSafe.armed.get? d = daemon.failSafe.armed.get? d := by
  cases rest with
  | nil => exact checkFrom_armed hd _ _ _
  | cons lease rest => exact (beginFailSafe_of_registered (daemon.effect _) hd _ _).1

/-- A lease on a registered device that is to be seen to is seen to, or still to be seen to. -/
theorem recorded_reapFrom (hd : d ∈ daemon.devices) {rest : List Lease}
    (h : ∃ lease ∈ rest, lease.scope.deviceId = d) : (reapFrom daemon rest).Recorded d := by
  obtain ⟨lease, hmem, hlease⟩ := h
  cases rest with
  | nil => cases hmem
  | cons first rest =>
    rcases List.mem_cons.mp hmem with rfl | hmem
    · exact .inr (.inl ((beginFailSafe_of_registered (daemon.effect _) hd _ _).2 hlease))
    · exact .inr (.inr ⟨lease, hmem, hlease⟩)

/-- Ending the fail-safe of another device leaves the record. -/
theorem endFailSafe_armed {current : Option JsString} (h : current ≠ some d) :
    (daemon.endFailSafe current).failSafe.armed.get? d = daemon.failSafe.armed.get? d := by
  cases current with
  | none => rfl
  | some deviceId => exact InsertionMap.get?_erase_of_ne _ fun heq => h (congrArg some heq.symm)

theorem endFailSafe_devices (current : Option JsString) : (daemon.endFailSafe current).devices = daemon.devices := by
  cases current <;> rfl

/-- The other events leave the record of a device they do not disarm. -/
theorem armed_of_action {a : Monitoring.Action} {daemon' : Monitoring} (h : daemon.step a = some daemon')
    (htimer : a ≠ .timer) (hresume : a ≠ .resume) (hdisarm : a ≠ .markDisarmed d)
    (harmed : (daemon.failSafe.armed.get? d).isSome = true) : (daemon'.failSafe.armed.get? d).isSome = true := by
  cases a with
  | timer => exact absurd rfl htimer
  | resume => exact absurd rfl hresume
  | request r => exact Option.some.inj h ▸ harmed
  | elapse ms =>
    simp only [Monitoring.step] at h
    split at h
    · exact Option.some.inj h ▸ harmed
    · cases h
  | heartbeat deviceId => exact Option.some.inj h ▸ harmed
  | register deviceId => exact Option.some.inj h ▸ harmed
  | unregister deviceId => exact Option.some.inj h ▸ harmed
  | markArmed deviceId owner =>
    rw [← Option.some.inj h]
    show ((daemon.failSafe.armed.insert deviceId _).get? d).isSome = true
    rw [InsertionMap.get?_insert]
    split
    · rfl
    · exact harmed
  | markDisarmed deviceId =>
    rw [← Option.some.inj h]
    have hne : d ≠ deviceId := fun heq => hdisarm (heq ▸ rfl)
    show ((daemon.failSafe.armed.erase deviceId).get? d).isSome = true
    rw [InsertionMap.get?_erase_of_ne _ hne]
    exact harmed

/-! ## Steps and runs -/

/-- **Step lemma.** A guarded step that does not give a device back keeps it recorded. -/
theorem Recorded.step (h : s.Recorded d) (hguard : Attended d s e) (hkeeps : ¬ Releases d s e)
    (hstep : s.step e = some t) : t.Recorded d := by
  have hd := hguard.registered
  cases e with
  | timer =>
    obtain rfl := Option.some.inj hstep
    unfold tick
    split
    · next hidle =>
      split
      · -- No tick was running, so the device was recorded as armed.
        have harmed : s.Armed d := by
          rcases h with h | h | ⟨lease, hmem, -⟩
          · exact h
          · rw [current?, hidle] at h
            cases h
          · rw [pending, hidle] at hmem
            cases hmem
        refine .inl ?_
        unfold Armed
        rw [reapFrom_armed (by exact hd)]
        exact harmed
      · exact h
    · exact h
  | resume succeeded =>
    have hcurrent : s.current? = some d → s.Pending d := by
      intro hcurrent
      cases succeeded with
      | true => exact absurd ⟨rfl, hcurrent⟩ hkeeps
      | false => exact hguard.2 hcurrent
    simp only [Ticking.step] at hstep
    split at hstep
    · cases hstep
    · next current rest hwait =>
      obtain rfl := Option.some.inj hstep
      have hd' : d ∈ (s.daemon.endFailSafe current).devices := by rw [endFailSafe_devices]; exact hd
      by_cases hpending : s.Pending d
      · refine recorded_reapFrom hd' ?_
        rw [Pending, pending, hwait] at hpending
        exact hpending
      · have hne : s.current? ≠ some d := fun heq => hpending (hcurrent heq)
        have harmed : s.Armed d := (h.resolve_right fun h => h.elim hne hpending)
        rw [current?, hwait] at hne
        refine .inl ?_
        unfold Armed
        rw [reapFrom_armed hd', endFailSafe_armed hne]
        exact harmed
    · next current now ruleMaxAge rest hwait =>
      obtain rfl := Option.some.inj hstep
      have hd' : d ∈ (s.daemon.endFailSafe current).devices := by rw [endFailSafe_devices]; exact hd
      have hpending : ¬ s.Pending d := by
        rintro ⟨lease, hmem, -⟩
        rw [pending, hwait] at hmem
        cases hmem
      have hne : s.current? ≠ some d := fun heq => hpending (hcurrent heq)
      have harmed : s.Armed d := (h.resolve_right fun h => h.elim hne hpending)
      rw [current?, hwait] at hne
      refine .inl ?_
      unfold Armed
      rw [checkFrom_armed hd', endFailSafe_armed hne]
      exact harmed
  | call a =>
    have haction : a ≠ .timer ∧ a ≠ .resume ∧ (s.daemon.step a).map (fun daemon => { s with daemon }) = some t := by
      cases a <;> first | exact ⟨nofun, nofun, hstep⟩ | cases hstep
    obtain ⟨htimer, hresume, hmap⟩ := haction
    obtain ⟨daemon', hdaemon, rfl⟩ := Option.map_eq_some_iff.mp hmap
    refine h.imp_left fun harmed => armed_of_action hdaemon htimer hresume ?_ harmed
    rintro rfl
    exact hkeeps rfl

/-- **Fail-safe is retried.** In every run in which a device is registered and an attempt for it fails only while a
lease on it is still to be seen to, the device stays recorded until its safe state was applied or it was disarmed. -/
theorem keepsRecord_of_attended {events : List Event} (hguard : machine.Guarded (Attended d) s events) :
    KeepsRecord d s events := by
  rintro before after t rfl harmed hrun hkeeps
  replace hguard := (Machine.Guarded.of_append hguard hrun).1
  have hrecorded : s.Recorded d := .inl harmed
  clear harmed
  induction before generalizing s with
  | nil =>
    obtain rfl : s = t := by simpa using hrun
    exact hrecorded
  | cons e before ih =>
    obtain ⟨m, hm, hrest⟩ := machine.run_cons_eq_some.mp hrun
    obtain ⟨he, hguard⟩ := Machine.Guarded.of_cons hguard hm
    obtain ⟨hkeep, hkeeps⟩ := Machine.Guarded.of_cons hkeeps hm
    exact ih hrest hkeeps hguard (hrecorded.step he hkeep hm)

/-- A daemon with one device, which was just armed. -/
def armedLamp : Ticking := ⟨(Monitoring.new true 60000 0 [] [js "lamp"]).markArmed (js "lamp") none, .idle⟩

/-- The lamp is armed, its heartbeat goes stale, and its safe state is applied. -/
theorem keepsRecord_succeeded :
    KeepsRecord (js "lamp") armedLamp [.call (.elapse 30001), .timer, .resume true] :=
  keepsRecord_of_attended (by decide +kernel)

/-- **Not every run keeps the record.** The safe state of an armed lamp whose heartbeat is stale fails to be applied: the
lamp is not recorded any more, and a tick a minute later does not attempt it again. -/
theorem not_keepsRecord :
    ¬ KeepsRecord (js "lamp") armedLamp [.call (.elapse 30001), .timer, .resume false] ∧
      ∃ t u, machine.run armedLamp [.call (.elapse 30001), .timer, .resume false] = some t ∧
        machine.run t [.call (.elapse 60000), .timer] = some u ∧ u.daemon.trace = t.daemon.trace := by
  have hview : ((machine.run armedLamp [.call (.elapse 30001), .timer, .resume false]).bind fun t =>
      (machine.run t [.call (.elapse 60000), .timer]).map fun u =>
        (decide (t.Recorded (js "lamp")), decide (u.daemon.trace = t.daemon.trace))) = some (false, true) := by
    decide +kernel
  obtain ⟨t, ht, hview⟩ := Option.bind_eq_some_iff.mp hview
  obtain ⟨u, hu, hview⟩ := Option.map_eq_some_iff.mp hview
  obtain ⟨hnot, htrace⟩ := Prod.mk.inj hview
  refine ⟨fun h => of_decide_eq_false hnot ?_, t, u, ht, hu, of_decide_eq_true htrace⟩
  exact h _ [] t (List.append_nil _).symm (by decide +kernel) ht (by decide +kernel)

end Ticking

end Pinout.Daemon
