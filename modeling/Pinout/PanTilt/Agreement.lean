import Pinout.Foundation.Machine
import Pinout.PanTilt.Esp32Backend

/-! # When the two pan-tilt backends agree

The simulated backend and the ESP32 backend of one configuration, given the same calls, watchdog trips and
`applySafeState`: each step is alike, in what is rejected and in what is reported after it, exactly when it is orderly,
and a run is alike exactly when its steps are orderly. -/

namespace Pinout.PanTilt

open Foundation Pinout.Runtime

structure PanTiltRig where
  simulated : SimulatedPanTiltBackend
  /-- The `Esp32PanTiltBackend`, over a `SimulatedEsp32Transport`. -/
  esp32 : Esp32PanTiltBackend

/-- What is done to both backends; each is awaited before the next. -/
inductive PanTiltStep
  | invoke (call : PanTiltCall)
  /-- A watchdog trip: `injectTrip`, and `expireWatchdog` of the transport. -/
  | trip
  | applySafeState

namespace PanTiltRig

/-- Both backends are created with the same options. -/
def create (options : PanTiltConfig) : Except PanTiltError PanTiltRig := do
  let simulated ← SimulatedPanTiltBackend.create options
  let esp32 ← Esp32PanTiltBackend.create options
  .ok ⟨simulated, esp32⟩

/-- The code each backend rejects a step with, and the backends after it. -/
def take (rig : PanTiltRig) : PanTiltStep → (Option JsString × Option JsString) × PanTiltRig
  | .invoke call =>
    ((rejection (rig.simulated.invoke call).1, rejection (rig.esp32.invoke call).1),
      ⟨(rig.simulated.invoke call).2, (rig.esp32.invoke call).2⟩)
  | .trip => ((none, none), ⟨rig.simulated.injectTrip, rig.esp32.expireWatchdog⟩)
  | .applySafeState =>
    ((rejection rig.simulated.applySafeState.1, rejection rig.esp32.applySafeState.1),
      ⟨rig.simulated.applySafeState.2, rig.esp32.applySafeState.2⟩)

def machine : Machine PanTiltRig PanTiltStep := ⟨fun rig step => some (rig.take step).2⟩

/-! ## Alike and orderly steps -/

structure SameReport (rig : PanTiltRig) : Prop where
  armed : rig.simulated.buildStatus.armed = rig.esp32.buildStatusFromProtocol.armed
  commanded : rig.simulated.buildStatus.commanded = rig.esp32.buildStatusFromProtocol.commanded
  acknowledged : rig.simulated.buildStatus.acknowledged = rig.esp32.buildStatusFromProtocol.acknowledged

instance (rig : PanTiltRig) : Decidable rig.SameReport :=
  decidable_of_iff (rig.simulated.buildStatus.armed = rig.esp32.buildStatusFromProtocol.armed ∧
      rig.simulated.buildStatus.commanded = rig.esp32.buildStatusFromProtocol.commanded ∧
      rig.simulated.buildStatus.acknowledged = rig.esp32.buildStatusFromProtocol.acknowledged)
    ⟨fun h => ⟨h.1, h.2.1, h.2.2⟩, fun h => ⟨h.armed, h.commanded, h.acknowledged⟩⟩

/-- A report of a mount that is disarmed at its safe angles. -/
def AtSafeAngles (config : ValidatedPanTiltConfig) (status : PanTiltStatus) : Prop :=
  status.armed = .disarmed ∧ status.angles = config.safeAngles

instance (config : ValidatedPanTiltConfig) (status : PanTiltStatus) : Decidable (AtSafeAngles config status) :=
  inferInstanceAs (Decidable (_ ∧ _))

/-- After `applySafeState` both backends are disarmed at their safe angles. -/
def SafeAfter (rig : PanTiltRig) : PanTiltStep → Prop
  | .applySafeState =>
    AtSafeAngles rig.simulated.config rig.simulated.applySafeState.2.buildStatus ∧
      AtSafeAngles rig.esp32.config rig.esp32.applySafeState.2.buildStatusFromProtocol
  | _ => True

instance (rig : PanTiltRig) (step : PanTiltStep) : Decidable (rig.SafeAfter step) := by
  unfold SafeAfter
  split <;> infer_instance

/-- Both backends do the same in a step: they accept it, or reject it with the same code, and report the same after
it; and they are safe after `applySafeState`. -/
def Alike (rig : PanTiltRig) (step : PanTiltStep) : Prop :=
  (rig.take step).1.1 = (rig.take step).1.2 ∧ (rig.take step).2.SameReport ∧ rig.SafeAfter step

instance (rig : PanTiltRig) (step : PanTiltStep) : Decidable (rig.Alike step) :=
  inferInstanceAs (Decidable (_ ∧ _ ∧ _))

/-- The safe angles are what is commanded and acknowledged. -/
def ReportsSafe (b : Esp32PanTiltBackend) : Prop :=
  b.anglesEvidence = ⟨some b.config.safeAngles, some b.config.safeAngles⟩

/-- The safe angles of a backend are told apart by what is commanded and what is acknowledged. -/
theorem reportsSafe_of {b : Esp32PanTiltBackend} {angles : PanTiltAxisAngles} (hangles : angles = b.config.safeAngles)
    (hcommanded : b.anglesEvidence.commanded = some angles)
    (hacknowledged : b.anglesEvidence.acknowledged = some angles) : ReportsSafe b := by
  obtain ⟨config, protocolBackend, ⟨commanded, acknowledged⟩, armedEvidence, panAngle, tiltAngle⟩ := b
  obtain rfl : commanded = some angles := hcommanded
  obtain rfl : acknowledged = some angles := hacknowledged
  rw [ReportsSafe, ← hangles]

/-- A step that meets the condition under which the backends agree: a timeout and a validity are integers the device
takes, `panTilt.disarm` finds the device armed, and neither a trip nor `applySafeState` would change what is reported
but for the state: the safe angles are reported already, a device that trips is not disarmed, and one that is made
safe is. -/
def Orderly (rig : PanTiltRig) : PanTiltStep → Prop
  | .invoke .status => True
  | .invoke (.arm timeoutMs) => Admitted 0 (timeoutMs.number?.or rig.esp32.config.watchdogTimeoutMs)
  | .invoke .disarm => rig.esp32.protocolBackend.device.deviceState = .armed
  | .invoke (.setAngles payload) =>
    rig.esp32.protocolBackend.state = .armed →
      ∀ next, resolveAngles rig.esp32.config rig.esp32.snapshotAngles payload = .ok next →
        Admitted 1 payload.validityMs.number?
  | .invoke (.setAngle payload) =>
    rig.esp32.protocolBackend.state = .armed →
      ∀ next, resolveAngle rig.esp32.config rig.esp32.snapshotAngles payload = .ok next →
        Admitted 1 payload.validityMs.number?
  | .trip => rig.esp32.protocolBackend.device.deviceState ≠ .disarmed ∧ ReportsSafe rig.esp32
  | .applySafeState => rig.esp32.protocolBackend.state = .disarmed ∧ ReportsSafe rig.esp32

/-- What follows every success of a check can be evaluated. -/
instance {α : Type} (outcome : Except PanTiltError α) (p : Prop) [Decidable p] :
    Decidable (∀ a, outcome = .ok a → p) :=
  match outcome with
  | .ok a => decidable_of_iff p ⟨fun h _ _ => h, fun h => h a rfl⟩
  | .error _ => isTrue nofun

instance (least : ℚ) (value : Option JsNumber) : Decidable (Admitted least value) :=
  inferInstanceAs (Decidable (∀ number ∈ value, number.isIntegerFrom least = true))

instance (b : Esp32PanTiltBackend) : Decidable (ReportsSafe b) :=
  inferInstanceAs (Decidable (_ = _))

instance (rig : PanTiltRig) (step : PanTiltStep) : Decidable (rig.Orderly step) := by
  unfold Orderly
  split <;> infer_instance

/-! ## Backends in step -/

end PanTiltRig

/-- A protocol backend over outputs the board can drive, whose device is in the state it tells, or was armed from the
start and never asked. -/
structure ProtocolDeviceBackend.Ready (b : ProtocolDeviceBackend) (config : ValidatedPanTiltConfig) : Prop where
  outputs : b.outputs = config.pins
  watchdog : b.watchdogTimeoutMs = config.watchdogTimeoutMs
  drivable : Drivable config
  /-- The device is in the state of the backend, or armed before the backend armed it. -/
  device : b.device.deviceState = b.state ∨ b.device.deviceState = .armed ∧ b.state = .disarmed

namespace ProtocolDeviceBackend.Ready

variable {b : ProtocolDeviceBackend} {config : ValidatedPanTiltConfig}

theorem checks (h : b.Ready config) : ∀ pin ∈ b.outputs, checkOutputPin pin = .ok () :=
  h.outputs ▸ h.drivable

/-- The state of the backend and of the device change together. -/
theorem set (h : b.Ready config) {device : GpioState} {state : ArmState} (hdevice : device.deviceState = state) :
    ProtocolDeviceBackend.Ready { b with device, state } config :=
  ⟨h.outputs, h.watchdog, h.drivable, .inl hdevice⟩

theorem device_armed (h : b.Ready config) (harmed : b.state = .armed) : b.device.deviceState = .armed := by
  rcases h.device with hdevice | ⟨hdevice, -⟩
  · exact hdevice.trans harmed
  · exact hdevice

theorem state_eq (h : b.Ready config) (hdevice : b.device.deviceState ≠ .armed) :
    b.state = b.device.deviceState := by
  rcases h.device with heq | ⟨harmed, -⟩
  · exact heq.symm
  · exact absurd harmed hdevice

theorem of_create {autoArm : Bool} (h : create (Esp32PanTiltBackend.simulatedEsp32 autoArm) config.pins
    config.watchdogTimeoutMs = .ok b) : b.Ready config ∧ b.state = .disarmed := by
  obtain ⟨_, hpins, h⟩ := exists_of_bind_eq_ok h
  obtain rfl := Except.ok.inj h
  refine ⟨⟨rfl, rfl, forM_eq_ok_iff.mp hpins, ?_⟩, rfl⟩
  cases autoArm with
  | false => exact .inl rfl
  | true => exact .inr ⟨rfl, rfl⟩

/-- A protocol backend that is prepared is ready, and armed when it is to arm by itself. -/
theorem of_prepare (h : Esp32PanTiltBackend.prepare config = .ok b) :
    b.Ready config ∧ b.state = if config.autoArm then .armed else .disarmed := by
  obtain ⟨created, hcreated, h⟩ := exists_of_bind_eq_ok h
  obtain ⟨hready, hstate⟩ := of_create hcreated
  split at h
  · next hauto =>
    rcases checkInteger_cases (config.watchdogTimeoutMs.or created.watchdogTimeoutMs) (js "timeoutMs") 0 with
      ⟨-, hvalid⟩ | ⟨-, hvalid⟩
    · obtain ⟨device, harm, harmed⟩ := arm_of_valid hready.checks hvalid
      obtain ⟨driven, hdrive, hdriven⟩ :=
        driveServoAngles_of_armed hready.drivable (within_safeAngles config) (checkInteger_none ..) harmed
      simp only [harm, hdrive] at h
      obtain rfl := Except.ok.inj h
      exact ⟨hready.set hdriven, (if_pos hauto).symm⟩
    · rw [arm_of_invalid hready.checks hvalid] at h
      cases h
  · next hauto =>
    obtain ⟨_, -, h⟩ := exists_of_bind_eq_ok h
    obtain rfl := Except.ok.inj h
    exact ⟨hready, hstate.trans (if_neg hauto).symm⟩

end ProtocolDeviceBackend.Ready

namespace PanTiltRig

/-- The two backends are in step: they have one configuration, state, evidence and angles, and what is acknowledged
is where they are, within the limits. -/
structure InStep (rig : PanTiltRig) : Prop where
  config : rig.esp32.config = rig.simulated.config
  ready : rig.esp32.protocolBackend.Ready rig.esp32.config
  armed : rig.simulated.armedState = rig.esp32.protocolBackend.state
  evidence : rig.simulated.anglesEvidence = rig.esp32.anglesEvidence
  snapshot : rig.simulated.snapshotAngles = rig.esp32.snapshotAngles
  acknowledged : rig.esp32.anglesEvidence.acknowledged = some rig.esp32.snapshotAngles
  within : Within rig.esp32.config rig.esp32.snapshotAngles

theorem InStep.of_create {options : PanTiltConfig} {rig : PanTiltRig} (h : create options = .ok rig) : rig.InStep := by
  obtain ⟨simulated, hsimulated, h⟩ := exists_of_bind_eq_ok h
  obtain ⟨esp32, hesp32, h⟩ := exists_of_bind_eq_ok h
  obtain rfl := Except.ok.inj h
  obtain ⟨config, hconfig, hesp32⟩ := exists_of_bind_eq_ok hesp32
  obtain ⟨protocolBackend, hprepare, hesp32⟩ := exists_of_bind_eq_ok hesp32
  obtain rfl := Except.ok.inj hesp32
  obtain rfl : SimulatedPanTiltBackend.ofConfig config = simulated := by
    simpa [SimulatedPanTiltBackend.create, hconfig, Except.map] using hsimulated
  obtain ⟨hready, hstate⟩ := ProtocolDeviceBackend.Ready.of_prepare hprepare
  exact
    { config := rfl
      ready := hready
      armed := hstate.symm
      evidence := rfl
      snapshot := rfl
      acknowledged := rfl
      within := within_safeAngles config }

theorem InStep.sameReport {rig : PanTiltRig} (h : rig.InStep) : rig.SameReport :=
  { armed := h.armed
    commanded := congrArg EvidenceState.commanded h.evidence
    acknowledged := congrArg EvidenceState.acknowledged h.evidence }

/-- A step is orderly and alike and keeps the backends in step, or it is neither orderly nor alike. -/
def Settled (rig : PanTiltRig) (step : PanTiltStep) : Prop :=
  (rig.Orderly step ∧ rig.Alike step ∧ (rig.take step).2.InStep) ∨ ¬ rig.Orderly step ∧ ¬ rig.Alike step

/-- A call both backends reject with one code, or both accept, is alike when it leaves them in step. -/
theorem alike_invoke {rig : PanTiltRig} {call : PanTiltCall}
    (hcode : rejection (rig.simulated.invoke call).1 = rejection (rig.esp32.invoke call).1)
    (h : (rig.take (.invoke call)).2.InStep) : rig.Alike (.invoke call) :=
  ⟨hcode, h.sameReport, trivial⟩

/-- A call only the simulated backend accepts is not alike. -/
theorem not_alike_invoke {rig : PanTiltRig} {call : PanTiltCall} {result : PanTiltResult} (error : PanTiltError)
    (hsimulated : (rig.simulated.invoke call).1 = .ok result) (hesp32 : (rig.esp32.invoke call).1 = .error error) :
    ¬ rig.Alike (.invoke call) := by
  rintro ⟨hcode, -, -⟩
  simp [take, hsimulated, hesp32] at hcode

section Steps

variable {rig : PanTiltRig}

theorem settled_status (h : rig.InStep) : rig.Settled (.invoke .status) :=
  .inl ⟨trivial, alike_invoke rfl h, h⟩

theorem settled_arm (h : rig.InStep) (timeoutMs : JsValue) : rig.Settled (.invoke (.arm timeoutMs)) := by
  have htimeout : (timeoutMs.number?.or rig.esp32.config.watchdogTimeoutMs).or
      rig.esp32.protocolBackend.watchdogTimeoutMs = timeoutMs.number?.or rig.esp32.config.watchdogTimeoutMs := by
    rw [h.ready.watchdog, Option.or_assoc, Option.or_self]
  rcases checkInteger_cases (timeoutMs.number?.or rig.esp32.config.watchdogTimeoutMs) (js "timeoutMs") 0 with
    ⟨hadmitted, hvalid⟩ | ⟨hnot, hinvalid⟩
  · rw [← htimeout] at hvalid
    obtain ⟨device, harm, harmed⟩ := ProtocolDeviceBackend.arm_of_valid h.ready.checks hvalid
    have hesp32 : rig.esp32.invoke (.arm timeoutMs) =
        (.ok (.armed device.timeoutMs),
          { rig.esp32 with
            protocolBackend := { rig.esp32.protocolBackend with device, state := .armed }
            armedEvidence := rig.esp32.armedEvidence.recordAcknowledged .armed }) := by
      simp only [Esp32PanTiltBackend.invoke, Esp32PanTiltBackend.arm, harm]
    have hnext : (rig.take (.invoke (.arm timeoutMs))).2.InStep := by
      simp only [take, hesp32]
      exact ⟨h.config, h.ready.set harmed, rfl, h.evidence, h.snapshot, h.acknowledged, h.within⟩
    exact .inl ⟨hadmitted, alike_invoke (by rw [hesp32]; rfl) hnext, hnext⟩
  · rw [← htimeout] at hinvalid
    refine .inr ⟨hnot, not_alike_invoke (.inputSchema (js "timeoutMs")) rfl ?_⟩
    simp only [Esp32PanTiltBackend.invoke, Esp32PanTiltBackend.arm,
      ProtocolDeviceBackend.arm_of_invalid h.ready.checks hinvalid]

/-- Backends in step are in step after both committed angles within the limits. -/
theorem InStep.commit (h : rig.InStep) {angles : PanTiltAxisAngles} (hangles : Within rig.esp32.config angles)
    {device : GpioState} (hstate : rig.esp32.protocolBackend.state = .armed) (harmed : device.deviceState = .armed) :
    InStep ⟨rig.simulated.moveTo angles,
      { rig.esp32 with
        protocolBackend := { rig.esp32.protocolBackend with device }
        panAngle := angles.pan
        tiltAngle := angles.tilt
        anglesEvidence := ⟨some angles, some angles⟩ }⟩ := by
  have hsnapshot : currentAnglesFromConfig rig.esp32.config angles.pan angles.tilt = angles :=
    currentAngles_of_within hangles
  have hwithin : Within rig.esp32.config
      (currentAnglesFromConfig rig.esp32.config angles.pan angles.tilt) := by
    rw [hsnapshot]
    exact hangles
  have hmoved : (rig.simulated.moveTo angles).snapshotAngles = angles :=
    SimulatedPanTiltBackend.snapshotAngles_moveTo (h.config ▸ hangles)
  exact
    { config := h.config
      ready := ⟨h.ready.outputs, h.ready.watchdog, h.ready.drivable, .inl (harmed.trans hstate.symm)⟩
      armed := h.armed
      evidence := rfl
      snapshot := hmoved.trans hsnapshot.symm
      acknowledged := congrArg some hsnapshot.symm
      within := hwithin }

/-- What a commit of angles within the limits comes to on a device that is armed. -/
theorem InStep.committed (h : rig.InStep) {angles : PanTiltAxisAngles} (hangles : Within rig.esp32.config angles)
    (hstate : rig.esp32.protocolBackend.state = .armed) (validityMs : Option JsNumber) :
    (Admitted 1 validityMs ∧ (rig.esp32.commitAnglesOnDevice angles validityMs).1 = .ok () ∧
        InStep ⟨rig.simulated.moveTo angles, (rig.esp32.commitAnglesOnDevice angles validityMs).2⟩) ∨
      ¬ Admitted 1 validityMs ∧
        (rig.esp32.commitAnglesOnDevice angles validityMs).1 = .error (.inputSchema (js "validityMs")) := by
  rcases checkInteger_cases validityMs (js "validityMs") 1 with ⟨hadmitted, hvalid⟩ | ⟨hnot, hinvalid⟩
  · obtain ⟨device, hcommit, harmed⟩ := Esp32PanTiltBackend.commitAnglesOnDevice_of_armed h.ready.drivable hangles
      hvalid (h.ready.device_armed hstate)
    rw [hcommit]
    exact .inl ⟨hadmitted, rfl, h.commit hangles hstate harmed⟩
  · refine .inr ⟨hnot, Esp32PanTiltBackend.commitAnglesOnDevice_of_error ?_⟩
    exact deviceInvoke_servo_of_invalid h.ready.drivable.pan (rig.esp32.config.pan.servo hangles.pan) hinvalid

/-- A call that commits the angles its payload resolves to, when the mount is armed, is settled by its validity. -/
theorem settled_resolved (h : rig.InStep) {ρ : Type} {call : PanTiltCall} (done : Except PanTiltError ρ)
    (angles : ρ → PanTiltAxisAngles) (validityMs : Option JsNumber)
    (hrefused : ∀ error, done = .error error → rig.simulated.invoke call = (.error error, rig.simulated) ∧
      rig.esp32.invoke call = (.error error, rig.esp32))
    (hresolved : ∀ r, done = .ok r → rig.esp32.protocolBackend.state = .armed ∧
      Within rig.esp32.config (angles r) ∧
      (∃ result, rig.simulated.invoke call = (.ok result, rig.simulated.moveTo (angles r))) ∧
      ∃ result, rig.esp32.invoke call =
        ((rig.esp32.commitAnglesOnDevice (angles r) validityMs).1.map result,
          (rig.esp32.commitAnglesOnDevice (angles r) validityMs).2))
    (horderly : rig.Orderly (.invoke call) ↔ ∀ r, done = .ok r → Admitted 1 validityMs) :
    rig.Settled (.invoke call) := by
  cases hdone : done with
  | error error =>
    obtain ⟨hsimulated, hesp32⟩ := hrefused error hdone
    have hnext : (rig.take (.invoke call)).2.InStep := by
      simp only [take, hsimulated, hesp32]
      exact h
    refine .inl ⟨horderly.mpr fun r hr => ?_, alike_invoke (by rw [hsimulated, hesp32]) hnext, hnext⟩
    rw [hdone] at hr
    cases hr
  | ok r =>
    obtain ⟨hstate, hwithin, ⟨_, hsimulated⟩, ⟨_, hesp32⟩⟩ := hresolved r hdone
    rcases h.committed hwithin hstate validityMs with ⟨hadmitted, hok, hstep⟩ | ⟨hnot, herror⟩
    · have hnext : (rig.take (.invoke call)).2.InStep := by
        simp only [take, hsimulated, hesp32]
        exact hstep
      refine .inl ⟨horderly.mpr fun _ _ => hadmitted, alike_invoke ?_ hnext, hnext⟩
      rw [hsimulated, hesp32, hok]
      rfl
    · refine .inr ⟨fun hall => hnot (horderly.mp hall r hdone), ?_⟩
      refine not_alike_invoke (.inputSchema (js "validityMs")) (congrArg Prod.fst hsimulated) ?_
      rw [hesp32, herror]
      rfl

theorem settled_setAngles (h : rig.InStep) (payload : AnglesPayload) : rig.Settled (.invoke (.setAngles payload)) := by
  have hresolve : rig.simulated.resolveSetAnglesPayload payload = rig.esp32.resolveSetAnglesPayload payload := by
    rw [SimulatedPanTiltBackend.resolveSetAnglesPayload, Esp32PanTiltBackend.resolveSetAnglesPayload, h.config,
      h.snapshot]
  refine settled_resolved h
    (do
      assertArmedForActuation rig.esp32.protocolBackend.state
      rig.esp32.resolveSetAnglesPayload payload) id payload.validityMs.number? ?_ ?_ ?_
  · intro error hdone
    simp only [SimulatedPanTiltBackend.invoke, Esp32PanTiltBackend.invoke, h.armed, hresolve, hdone, and_self]
  · intro next hdone
    obtain ⟨hstate, hnext⟩ := armed_bind_eq_ok.mp hdone
    refine ⟨hstate, resolveAngles_within h.within hnext,
      ⟨.angles (rig.simulated.moveTo next).snapshotAngles, ?_⟩,
      ⟨fun _ => .angles (rig.esp32.commitAnglesOnDevice next payload.validityMs.number?).2.snapshotAngles, ?_⟩⟩
    · simp only [SimulatedPanTiltBackend.invoke, h.armed, hresolve, hdone, id]
    · simp only [Esp32PanTiltBackend.invoke, hdone, id]
  · constructor
    · intro horderly next hdone
      obtain ⟨hstate, hnext⟩ := armed_bind_eq_ok.mp hdone
      exact horderly hstate next hnext
    · intro hall hstate next hnext
      exact hall next (armed_bind_eq_ok.mpr ⟨hstate, hnext⟩)

theorem settled_setAngle (h : rig.InStep) (payload : AnglesPayload) : rig.Settled (.invoke (.setAngle payload)) := by
  have hresolve : resolveAngle rig.simulated.config rig.simulated.snapshotAngles payload =
      resolveAngle rig.esp32.config rig.esp32.snapshotAngles payload := by
    rw [h.config, h.snapshot]
  refine settled_resolved h
    (do
      assertArmedForActuation rig.esp32.protocolBackend.state
      resolveAngle rig.esp32.config rig.esp32.snapshotAngles payload) (fun r => r.2.2) payload.validityMs.number?
    ?_ ?_ ?_
  · intro error hdone
    simp only [SimulatedPanTiltBackend.invoke, Esp32PanTiltBackend.invoke, h.armed, hresolve, hdone, and_self]
  · rintro ⟨axis, angle, next⟩ hdone
    obtain ⟨hstate, hnext⟩ := armed_bind_eq_ok.mp hdone
    refine ⟨hstate, resolveAngle_within h.within hnext,
      ⟨.angle axis angle (rig.simulated.moveTo next).snapshotAngles, ?_⟩,
      ⟨fun _ => .angle axis angle
        (rig.esp32.commitAnglesOnDevice next payload.validityMs.number?).2.snapshotAngles, ?_⟩⟩
    · simp only [SimulatedPanTiltBackend.invoke, h.armed, hresolve, hdone]
    · simp only [Esp32PanTiltBackend.invoke, hdone]
  · constructor
    · intro horderly next hdone
      obtain ⟨hstate, hnext⟩ := armed_bind_eq_ok.mp hdone
      exact horderly hstate next hnext
    · intro hall hstate next hnext
      exact hall next (armed_bind_eq_ok.mpr ⟨hstate, hnext⟩)

theorem InStep.snapshot_eq (h : rig.InStep) (hsafe : ReportsSafe rig.esp32) :
    rig.esp32.snapshotAngles = rig.esp32.config.safeAngles := by
  have hshown := h.acknowledged
  rw [hsafe] at hshown
  exact (Option.some.inj hshown).symm

/-- The backends are in step after the simulated one applied its safe angles, when the other one is in the same state
at its own and reports them. -/
theorem InStep.safe (h : rig.InStep) (esp32 : Esp32PanTiltBackend) (state : ArmState)
    (hconfig : esp32.config = rig.esp32.config) (hstate : esp32.protocolBackend.state = state)
    (hready : esp32.protocolBackend.Ready esp32.config) (hevidence : ReportsSafe esp32)
    (hshown : esp32.snapshotAngles = esp32.config.safeAngles) :
    InStep ⟨rig.simulated.applySafeAngles.become state, esp32⟩ := by
  have hsame : rig.simulated.config = esp32.config := (hconfig.trans h.config).symm
  have hmoved : rig.simulated.applySafeAngles.snapshotAngles = esp32.config.safeAngles :=
    hsame ▸ SimulatedPanTiltBackend.snapshotAngles_moveTo (within_safeAngles rig.simulated.config)
  have hwithin : Within esp32.config esp32.snapshotAngles := by
    rw [hshown]
    exact within_safeAngles esp32.config
  exact
    { config := hsame.symm
      ready := hready
      armed := hstate.symm
      evidence := by
        rw [hevidence, ← hsame]
        rfl
      snapshot := hmoved.trans hshown.symm
      acknowledged := by
        rw [hevidence, hshown]
      within := hwithin }

/-- A mount that is armed on the device is driven to its safe angles and disarmed; a device that is not armed refuses. -/
theorem settled_disarm (h : rig.InStep) : rig.Settled (.invoke .disarm) := by
  have hsafe : Within rig.esp32.config rig.esp32.config.safeAngles := within_safeAngles rig.esp32.config
  by_cases hdevice : rig.esp32.protocolBackend.device.deviceState = .armed
  · obtain ⟨device, hcommit, -⟩ := Esp32PanTiltBackend.commitAnglesOnDevice_of_armed h.ready.drivable hsafe
      (checkInteger_none ..) hdevice
    have hcode : rejection (rig.simulated.invoke .disarm).1 = rejection (rig.esp32.invoke .disarm).1 := by
      simp only [Esp32PanTiltBackend.invoke, Esp32PanTiltBackend.disarm, hcommit, ProtocolDeviceBackend.disarm_eq]
      rfl
    have hnext : (rig.take (.invoke .disarm)).2.InStep := by
      simp only [take, Esp32PanTiltBackend.invoke, Esp32PanTiltBackend.disarm, hcommit,
        ProtocolDeviceBackend.disarm_eq]
      exact h.safe _ .disarmed rfl rfl (h.ready.set rfl) rfl (currentAngles_of_within hsafe)
    exact .inl ⟨hdevice, alike_invoke hcode hnext, hnext⟩
  · obtain ⟨error, herror⟩ : ∃ error, assertArmedForActuation rig.esp32.protocolBackend.device.deviceState =
        .error error := by
      cases hstate : rig.esp32.protocolBackend.device.deviceState with
      | armed => exact absurd hstate hdevice
      | disarmed => exact ⟨.notArmed, rfl⟩
      | tripped => exact ⟨.watchdogTripped, rfl⟩
    refine .inr ⟨hdevice, not_alike_invoke error rfl ?_⟩
    have hcommit : (rig.esp32.commitAnglesOnDevice rig.esp32.config.safeAngles none).1 = .error error :=
      Esp32PanTiltBackend.commitAnglesOnDevice_of_error (deviceInvoke_servo_of_not_armed h.ready.drivable.pan
        (rig.esp32.config.pan.servo hsafe.pan) (checkInteger_none ..) herror)
    unfold Esp32PanTiltBackend.invoke Esp32PanTiltBackend.disarm
    rcases hpair : rig.esp32.commitAnglesOnDevice rig.esp32.config.safeAngles none with ⟨outcome, b⟩
    rw [hpair] at hcommit
    simp only [show outcome = .error error from hcommit]

/-- After a trip the simulated backend is tripped at its safe angles; the other one has tripped if its device was
armed, and stays where it is. -/
theorem settled_trip (h : rig.InStep) : rig.Settled .trip := by
  have hstate : rig.esp32.expireWatchdog.protocolBackend.state = .tripped ↔
      rig.esp32.protocolBackend.device.deviceState ≠ .disarmed := by
    by_cases hdevice : rig.esp32.protocolBackend.device.deviceState = .armed
    · simp [Esp32PanTiltBackend.expireWatchdog, ProtocolDeviceBackend.expireWatchdog, hdevice]
    · simp only [Esp32PanTiltBackend.expireWatchdog, ProtocolDeviceBackend.expireWatchdog, if_neg hdevice,
        h.ready.state_eq hdevice]
      cases hold : rig.esp32.protocolBackend.device.deviceState with
      | armed => exact absurd hold hdevice
      | disarmed => simp
      | tripped => simp
  have hready : rig.esp32.expireWatchdog.protocolBackend.Ready rig.esp32.config := by
    by_cases hdevice : rig.esp32.protocolBackend.device.deviceState = .armed
    · refine ⟨h.ready.outputs, h.ready.watchdog, h.ready.drivable, .inl ?_⟩
      simp [Esp32PanTiltBackend.expireWatchdog, ProtocolDeviceBackend.expireWatchdog, GpioState.expireWatchdog, hdevice]
    · simpa [Esp32PanTiltBackend.expireWatchdog, ProtocolDeviceBackend.expireWatchdog, GpioState.expireWatchdog, hdevice]
        using h.ready
  by_cases horderly : rig.Orderly .trip
  · obtain ⟨hdevice, hsafe⟩ := horderly
    have hnext : (rig.take .trip).2.InStep :=
      h.safe rig.esp32.expireWatchdog .tripped rfl (hstate.mpr hdevice) hready hsafe (h.snapshot_eq hsafe)
    exact .inl ⟨⟨hdevice, hsafe⟩, ⟨rfl, hnext.sameReport, trivial⟩, hnext⟩
  · refine .inr ⟨horderly, fun halike => horderly ?_⟩
    obtain ⟨-, hreport, -⟩ := halike
    refine ⟨hstate.mp hreport.armed.symm, ?_⟩
    exact reportsSafe_of (congrArg ValidatedPanTiltConfig.safeAngles h.config.symm) hreport.commanded.symm
      hreport.acknowledged.symm

/-- After `applySafeState` the simulated backend is disarmed at its safe angles; the other one is left as it was. -/
theorem settled_applySafeState (h : rig.InStep) : rig.Settled .applySafeState := by
  have hstatus := SimulatedPanTiltBackend.buildStatus_safe rig.simulated .disarmed
  by_cases horderly : rig.Orderly .applySafeState
  · obtain ⟨hstate, hsafe⟩ := horderly
    have hnext : (rig.take .applySafeState).2.InStep :=
      h.safe rig.esp32 .disarmed rfl hstate h.ready hsafe (h.snapshot_eq hsafe)
    have hafter : rig.SafeAfter .applySafeState :=
      ⟨⟨rfl, congrArg PanTiltStatus.angles hstatus⟩, ⟨hstate, h.snapshot_eq hsafe⟩⟩
    exact .inl ⟨⟨hstate, hsafe⟩, ⟨rfl, hnext.sameReport, hafter⟩, hnext⟩
  · refine .inr ⟨horderly, fun halike => horderly ?_⟩
    obtain ⟨-, hreport, -⟩ := halike
    refine ⟨hreport.armed.symm, ?_⟩
    exact reportsSafe_of (congrArg ValidatedPanTiltConfig.safeAngles h.config.symm) hreport.commanded.symm
      hreport.acknowledged.symm

theorem InStep.settled (h : rig.InStep) (step : PanTiltStep) : rig.Settled step := by
  match step with
  | .invoke .status => exact settled_status h
  | .invoke (.arm timeoutMs) => exact settled_arm h timeoutMs
  | .invoke .disarm => exact settled_disarm h
  | .invoke (.setAngles payload) => exact settled_setAngles h payload
  | .invoke (.setAngle payload) => exact settled_setAngle h payload
  | .trip => exact settled_trip h
  | .applySafeState => exact settled_applySafeState h

/-- A step of backends in step is alike exactly when it is orderly. -/
theorem InStep.alike_iff (h : rig.InStep) (step : PanTiltStep) : rig.Alike step ↔ rig.Orderly step := by
  rcases h.settled step with ⟨horderly, halike, -⟩ | ⟨horderly, halike⟩
  · exact iff_of_true halike horderly
  · exact iff_of_false halike horderly

theorem InStep.step (h : rig.InStep) {step : PanTiltStep} (halike : rig.Alike step) : (rig.take step).2.InStep := by
  rcases h.settled step with ⟨-, -, hnext⟩ | ⟨-, hnot⟩
  · exact hnext
  · exact absurd halike hnot

end Steps

/-! ## Whole runs -/

/-- In every run of the two backends of one configuration every step is alike. -/
def BackendsAgree : Prop :=
  ∀ options rig, create options = .ok rig → ∀ steps, machine.Guarded Alike rig steps

/-- **The backends agree on a run exactly when each of its steps is orderly.** -/
theorem alike_iff_orderly {options : PanTiltConfig} {rig : PanTiltRig} (hcreate : create options = .ok rig)
    (steps : List PanTiltStep) : machine.Guarded Alike rig steps ↔ machine.Guarded Orderly rig steps := by
  obtain ⟨last, hrun⟩ := machine.exists_run_of_total (fun rig step => ⟨(rig.take step).2, rfl⟩) rig steps
  refine Machine.guarded_iff ?_ (fun rig step _ h _ => h.alike_iff step) (InStep.of_create hcreate) hrun
  rintro rig step _ h halike ⟨⟩
  exact h.step halike

/-- The options of a mount with one servo, on pin 13. -/
def deskOptions : PanTiltConfig := { keys := 1, panPin := .number (.finite 13) }

/-- A run of the mount whose steps are all orderly. -/
def deskSteps : List PanTiltStep :=
  [.invoke (.arm (.number (.finite 5000))), .invoke (.setAngles { pan := .number (.finite 30) }),
    .invoke .disarm, .applySafeState]

/-- The mount with one servo is armed, moved, disarmed and made safe alike by both backends. -/
theorem alike_desk : ∃ rig, create deskOptions = .ok rig ∧ machine.Guarded Alike rig deskSteps := by
  have hcreated : (create deskOptions).toOption.any fun rig => decide (machine.Guarded Orderly rig deskSteps) := by
    decide +kernel
  cases hcreate : create deskOptions with
  | error error => simp [hcreate, Except.toOption] at hcreated
  | ok rig =>
    refine ⟨rig, rfl, (alike_iff_orderly hcreate deskSteps).mpr ?_⟩
    simpa [hcreate, Except.toOption] using hcreated

/-- `applySafeState` leaves a mount that is armed and moved armed where it is, when it is on an ESP32. -/
theorem not_backendsAgree : ¬ BackendsAgree := by
  intro hagree
  have hfails : (create deskOptions).toOption.any fun rig => !decide (machine.Guarded Alike rig
      [.invoke (.arm (.number (.finite 5000))), .invoke (.setAngles { pan := .number (.finite 30) }),
        .applySafeState]) := by
    decide +kernel
  cases hcreate : create deskOptions with
  | error error => simp [hcreate, Except.toOption] at hfails
  | ok rig =>
    have halike := hagree deskOptions rig hcreate
      [.invoke (.arm (.number (.finite 5000))), .invoke (.setAngles { pan := .number (.finite 30) }), .applySafeState]
    simp [hcreate, Except.toOption, halike] at hfails

end PanTiltRig

end Pinout.PanTilt
