import Pinout.PanTilt.Simulator

/-! # The ESP32 pan-tilt backend

`Esp32PanTiltBackend` (`packages/core/src/modules/panTilt/esp32Backend.ts`) over a `SimulatedEsp32Transport`: the
bridge of the transport, what `Device` checks before it sends a request, the `ProtocolDeviceBackend` that arms and
disarms, and the backend over them. Every call is awaited, so a request is answered before the next one. -/

namespace Pinout.PanTilt

open Foundation Pinout.Runtime

/-! ## The bridge -/

inductive BridgeRequest
  | arm (timeoutMs : Option JsNumber)
  | disarm
  | configSafeState (pin : Nat)
  | servo (pin : Nat) (angle : ℚ) (validityMs : Option JsNumber)

/-- `GpioState`, as far as it is armed and drives servos. -/
structure GpioState where
  deviceState : ArmState := .disarmed
  timeoutMs : JsNumber := .finite 1000
  servos : Nat → Option ℚ := fun _ => none

namespace GpioState

/-- `gpioStopAll`, on the servos. -/
def stopAll (state : GpioState) : GpioState := { state with servos := fun _ => none }

def sysArm (state : GpioState) (timeoutMs : Option JsNumber) : Except PanTiltError Unit × GpioState :=
  match timeoutMs with
  | none => (.ok (), { state with deviceState := .armed })
  | some timeoutMs =>
    if timeoutMs.isIntegerFrom 0 then (.ok (), { state with deviceState := .armed, timeoutMs })
    else (.error (.bridgePayload (js "timeoutMs")), state)

def sysDisarm (state : GpioState) : GpioState := { state.stopAll with deviceState := .disarmed }

/-- `tripWatchdog`, as `expireWatchdog` of the transport does it: only a device that is armed trips. -/
def expireWatchdog (state : GpioState) : GpioState :=
  if state.deviceState = .armed then { state.stopAll with deviceState := .tripped } else state

def gpioServo (state : GpioState) (pin : Nat) (angle : ℚ) : Except PanTiltError Unit × GpioState :=
  match assertEsp32WritePin pin with
  | .error _ => (.error (.bridgePin pin), state)
  | .ok _ =>
    if 0 ≤ angle ∧ angle ≤ 180 then
      (.ok (), { state with servos := fun other => if other = pin then some angle else state.servos other })
    else (.error (.bridgePayload (js "angle")), state)

def assertValidity (validityMs : Option JsNumber) : Except PanTiltError Unit :=
  match validityMs with
  | none => .ok ()
  | some (.finite value) => if 0 < value then .ok () else .error .commandExpired
  | some .notFinite => .error .commandExpired

def handleBridgeAction (state : GpioState) (request : BridgeRequest) : Except PanTiltError Unit × GpioState :=
  match request with
  | .arm timeoutMs => state.sysArm timeoutMs
  | .disarm => (.ok (), state.sysDisarm)
  | .configSafeState pin =>
    match assertEsp32WritePin pin with
    | .error _ => (.error (.bridgePin pin), state)
    | .ok _ => (.ok (), state)
  | .servo pin angle validityMs =>
    match (do assertValidity validityMs; assertArmedForActuation state.deviceState) with
    | .error error => (.error error, state)
    | .ok _ => state.gpioServo pin angle

end GpioState

/-! ## The device -/

/-- `gpioPins` of the board `esp32-devkit-v1`. -/
def gpioPins : List Nat :=
  [0, 2, 4, 5, 13, 14, 15, 16, 17, 18, 19, 21, 22, 23, 25, 26, 27, 32, 33, 34, 35, 36, 39]

/-- `inputOnlyPins` of the board. -/
def inputOnlyPins : List Nat := [34, 35, 36, 39]

/-- `pwmPins` of the board. -/
def pwmPins : List Nat := [0, 2, 4, 5, 13, 14, 15, 16, 17, 18, 19, 21, 22, 23, 25, 26, 27, 32, 33]

/-- The check of `validateBoardAction` on a pin that is driven. -/
def checkOutputPin (pin : Nat) : Except PanTiltError Unit :=
  if gpioPins.contains pin && !inputOnlyPins.contains pin then .ok () else .error (.boardPin pin)

/-- The check of `validateBoardAction` on the pin of a servo. -/
def checkPwmPin (pin : Nat) : Except PanTiltError Unit :=
  if pwmPins.contains pin then .ok () else .error .noPwm

/-- A field of a request that is an integer from `least` on: the schema of the capability, and `validateAction` asks
for no more. -/
def checkInteger (value : Option JsNumber) (field : JsString) (least : ℚ) : Except PanTiltError Unit :=
  match value with
  | none => .ok ()
  | some value => if value.isIntegerFrom least then .ok () else .error (.inputSchema field)

/-- What `Device.invoke` checks before it sends a request: the schema of the capability, `validateBoardAction` and
`validateAction`. -/
def validateRequest (request : BridgeRequest) : Except PanTiltError Unit :=
  match request with
  | .arm timeoutMs => checkInteger timeoutMs (js "timeoutMs") 0
  | .disarm => .ok ()
  | .configSafeState pin => do
    checkOutputPin pin
    assertEsp32ModePin pin
  | .servo pin angle validityMs => do
    checkInteger validityMs (js "validityMs") 1
    checkOutputPin pin
    checkPwmPin pin
    assertEsp32WritePin pin
    if 0 ≤ angle ∧ angle ≤ 180 then .ok () else .error (.servoAngle angle)

/-- `Device.invoke`, of a device that is the bridge. -/
def deviceInvoke (state : GpioState) (request : BridgeRequest) : Except PanTiltError Unit × GpioState :=
  match validateRequest request with
  | .error error => (.error error, state)
  | .ok _ => state.handleBridgeAction request

/-! ## The protocol backend -/

/-- `ProtocolDeviceBackend`, as the pan-tilt backend uses it. -/
structure ProtocolDeviceBackend where
  device : GpioState
  outputs : List Nat
  watchdogTimeoutMs : Option JsNumber
  state : ArmState := .disarmed

namespace ProtocolDeviceBackend

/-- `constructor`. -/
def create (device : GpioState) (outputs : List Nat) (watchdogTimeoutMs : Option JsNumber) :
    Except PanTiltError ProtocolDeviceBackend := do
  outputs.forM checkOutputPin
  .ok { device, outputs, watchdogTimeoutMs }

/-- `initializeOutputs`: configuring an output changes nothing that is kept here. -/
def initializeOutputs (b : ProtocolDeviceBackend) : Except PanTiltError Unit :=
  b.outputs.forM fun pin => (deviceInvoke b.device (.configSafeState pin)).1

/-- `arm`; the device arms, and no board is told to check the timeout. -/
def arm (b : ProtocolDeviceBackend) (timeoutMs : Option JsNumber) :
    Except PanTiltError JsNumber × ProtocolDeviceBackend :=
  match b.initializeOutputs with
  | .error error => (.error error, b)
  | .ok _ =>
    match deviceInvoke b.device (.arm (timeoutMs.or b.watchdogTimeoutMs)) with
    | (.error error, device) => (.error error, { b with device })
    | (.ok _, device) => (.ok device.timeoutMs, { b with device, state := .armed })

def disarm (b : ProtocolDeviceBackend) : Except PanTiltError Unit × ProtocolDeviceBackend :=
  match deviceInvoke b.device .disarm with
  | (.error error, device) => (.error error, { b with device })
  | (.ok _, device) => (.ok (), { b with device, state := .disarmed })

/-- `tripHandler`, after a watchdog that expired: there is an event only when the device trips. -/
def expireWatchdog (b : ProtocolDeviceBackend) : ProtocolDeviceBackend :=
  { b with
    device := b.device.expireWatchdog
    state := if b.device.deviceState = .armed then .tripped else b.state }

end ProtocolDeviceBackend

def driveServoAngles (device : GpioState) (config : ValidatedPanTiltConfig) (angles : PanTiltAxisAngles)
    (validityMs : Option JsNumber) : Except PanTiltError Unit × GpioState :=
  match deviceInvoke device (.servo config.pan.pin angles.pan validityMs) with
  | (.error error, device) => (.error error, device)
  | (.ok _, device) =>
    match config.tilt, angles.tilt with
    | some axis, some angle => deviceInvoke device (.servo axis.pin angle validityMs)
    | _, _ => (.ok (), device)

/-! ## The backend -/

structure Esp32PanTiltBackend where
  config : ValidatedPanTiltConfig
  protocolBackend : ProtocolDeviceBackend
  anglesEvidence : EvidenceState PanTiltAxisAngles
  armedEvidence : EvidenceState ArmState
  panAngle : ℚ
  tiltAngle : Option ℚ

namespace Esp32PanTiltBackend

def snapshotAngles (b : Esp32PanTiltBackend) : PanTiltAxisAngles :=
  currentAnglesFromConfig b.config b.panAngle b.tiltAngle

/-- `constructor`. -/
def ofConfig (config : ValidatedPanTiltConfig) (protocolBackend : ProtocolDeviceBackend) : Esp32PanTiltBackend :=
  let b : Esp32PanTiltBackend :=
    { config
      protocolBackend
      anglesEvidence := {}
      armedEvidence := EvidenceState.recordAcknowledged {} (if config.autoArm then .armed else .disarmed)
      panAngle := config.pan.safeAngle
      tiltAngle := config.tilt.map PanTiltAxisLimits.safeAngle }
  { b with anglesEvidence := b.anglesEvidence.recordAcknowledged b.snapshotAngles }

/-- `new SimulatedEsp32Transport({ autoArm })`. -/
def simulatedEsp32 (autoArm : Bool) : GpioState :=
  { deviceState := if autoArm then .armed else .disarmed }

/-- The protocol backend of a configuration, armed and at the safe angles when it is to arm by itself. -/
def prepare (config : ValidatedPanTiltConfig) : Except PanTiltError ProtocolDeviceBackend := do
  let device := simulatedEsp32 (config.transport.getD false)
  let protocolBackend ← ProtocolDeviceBackend.create device config.pins config.watchdogTimeoutMs
  if config.autoArm then
    match protocolBackend.arm config.watchdogTimeoutMs with
    | (.error error, _) => .error error
    | (.ok _, armed) =>
      match driveServoAngles armed.device config config.safeAngles none with
      | (.error error, _) => .error error
      | (.ok _, device) => .ok { armed with device }
  else do
    protocolBackend.initializeOutputs
    .ok protocolBackend

def create (options : PanTiltConfig) : Except PanTiltError Esp32PanTiltBackend := do
  let config ← validatePanTiltConfig options
  let protocolBackend ← prepare config
  .ok (ofConfig config protocolBackend)

def buildStatusFromProtocol (b : Esp32PanTiltBackend) : PanTiltStatus :=
  { armed := b.protocolBackend.state
    commanded := b.anglesEvidence.commanded
    acknowledged := b.anglesEvidence.acknowledged
    angles := b.snapshotAngles
    armedEvidence := b.armedEvidence }

/-- `panTilt.arm`. -/
def arm (b : Esp32PanTiltBackend) (timeoutMs : JsValue) : Except PanTiltError PanTiltResult × Esp32PanTiltBackend :=
  match b.protocolBackend.arm (timeoutMs.number?.or b.config.watchdogTimeoutMs) with
  | (.error error, protocolBackend) => (.error error, { b with protocolBackend })
  | (.ok timeout, protocolBackend) =>
    (.ok (.armed timeout),
      { b with protocolBackend, armedEvidence := b.armedEvidence.recordAcknowledged .armed })

/-- `commitAnglesOnDevice`, and `applySafeAnglesOnDevice` without a validity: the angles are commanded, driven, and
acknowledged when the device took them. -/
def commitAnglesOnDevice (b : Esp32PanTiltBackend) (angles : PanTiltAxisAngles) (validityMs : Option JsNumber) :
    Except PanTiltError Unit × Esp32PanTiltBackend :=
  let b := { b with anglesEvidence := b.anglesEvidence.recordCommanded angles }
  match driveServoAngles b.protocolBackend.device b.config angles validityMs with
  | (.error error, device) => (.error error, { b with protocolBackend := { b.protocolBackend with device } })
  | (.ok _, device) =>
    (.ok (),
      { b with
        protocolBackend := { b.protocolBackend with device }
        panAngle := angles.pan
        tiltAngle := angles.tilt
        anglesEvidence := b.anglesEvidence.recordAcknowledged angles })

/-- `panTilt.disarm`: the safe angles are driven first. -/
def disarm (b : Esp32PanTiltBackend) : Except PanTiltError PanTiltResult × Esp32PanTiltBackend :=
  match b.commitAnglesOnDevice b.config.safeAngles none with
  | (.error error, b) => (.error error, b)
  | (.ok _, b) =>
    match b.protocolBackend.disarm with
    | (.error error, protocolBackend) => (.error error, { b with protocolBackend })
    | (.ok _, protocolBackend) =>
      (.ok (.disarmed b.snapshotAngles),
        { b with protocolBackend, armedEvidence := b.armedEvidence.recordAcknowledged .disarmed })

def resolveSetAnglesPayload (b : Esp32PanTiltBackend) (payload : AnglesPayload) :
    Except PanTiltError PanTiltAxisAngles :=
  resolveAngles b.config b.snapshotAngles payload

def invoke (b : Esp32PanTiltBackend) (call : PanTiltCall) :
    Except PanTiltError PanTiltResult × Esp32PanTiltBackend :=
  match call with
  | .status => (.ok (.status b.buildStatusFromProtocol), b)
  | .arm timeoutMs => b.arm timeoutMs
  | .disarm => b.disarm
  | .setAngles payload =>
    match (do assertArmedForActuation b.protocolBackend.state; b.resolveSetAnglesPayload payload) with
    | .error error => (.error error, b)
    | .ok next =>
      let done := b.commitAnglesOnDevice next payload.validityMs.number?
      (done.1.map fun _ => .angles done.2.snapshotAngles, done.2)
  | .setAngle payload =>
    match (do assertArmedForActuation b.protocolBackend.state; resolveAngle b.config b.snapshotAngles payload) with
    | .error error => (.error error, b)
    | .ok (axis, angle, next) =>
      let done := b.commitAnglesOnDevice next payload.validityMs.number?
      (done.1.map fun _ => .angle axis angle done.2.snapshotAngles, done.2)

/-- `expireWatchdog` of the transport, and the handlers of the event `device.tripped` when there is one. -/
def expireWatchdog (b : Esp32PanTiltBackend) : Esp32PanTiltBackend :=
  { b with
    protocolBackend := b.protocolBackend.expireWatchdog
    armedEvidence :=
      if b.protocolBackend.device.deviceState = .armed then b.armedEvidence.recordAcknowledged .tripped
      else b.armedEvidence }

/-- `applySafeState` of the `DeviceInstance` over the backend, which has no `safeState`. -/
def applySafeState (b : Esp32PanTiltBackend) : Except PanTiltError (Option PanTiltResult) × Esp32PanTiltBackend :=
  PanTilt.applySafeState none b

end Esp32PanTiltBackend

/-! ## What the device does -/

/-- A field that is left out, or an integer from `least` on. -/
def Admitted (least : ℚ) (value : Option JsNumber) : Prop := ∀ number ∈ value, number.isIntegerFrom least = true

@[simp] theorem checkInteger_none (field : JsString) (least : ℚ) : checkInteger none field least = .ok () := rfl

theorem checkInteger_cases (value : Option JsNumber) (field : JsString) (least : ℚ) :
    Admitted least value ∧ checkInteger value field least = .ok () ∨
      ¬ Admitted least value ∧ checkInteger value field least = .error (.inputSchema field) := by
  cases value with
  | none => exact .inl ⟨nofun, rfl⟩
  | some number =>
    by_cases h : number.isIntegerFrom least = true
    · refine .inl ⟨?_, if_pos h⟩
      rintro _ ⟨⟩
      exact h
    · exact .inr ⟨fun hall => h (hall number rfl), if_neg h⟩

theorem checks_of_checkOutputPin {pin : Nat} (h : checkOutputPin pin = .ok ()) :
    checkPwmPin pin = .ok () ∧ assertEsp32WritePin pin = .ok () ∧ assertEsp32ModePin pin = .ok () := by
  have hall : ∀ pin ∈ gpioPins, inputOnlyPins.contains pin = false →
      checkPwmPin pin = .ok () ∧ assertEsp32WritePin pin = .ok () ∧ assertEsp32ModePin pin = .ok () := by
    simp [gpioPins, inputOnlyPins, checkPwmPin, pwmPins, assertEsp32WritePin, assertEsp32ModePin, isEsp32FlashPin,
      isEsp32InputOnlyPin, isEsp32Uart0Pin, isEsp32StrapPin]
  unfold checkOutputPin at h
  split at h
  · next hpin =>
    obtain ⟨hgpio, hinput⟩ := Bool.and_eq_true_iff.mp hpin
    exact hall pin (List.contains_iff_mem.mp hgpio) (by simpa using hinput)
  · cases h

/-- A servo request on a pin that may be driven and an angle of a servo is checked for its validity only. -/
theorem validateRequest_servo {pin : Nat} {angle : ℚ} (hpin : checkOutputPin pin = .ok ())
    (hangle : 0 ≤ angle ∧ angle ≤ 180) (validityMs : Option JsNumber) :
    validateRequest (.servo pin angle validityMs) = checkInteger validityMs (js "validityMs") 1 := by
  obtain ⟨hpwm, hwrite, -⟩ := checks_of_checkOutputPin hpin
  simp only [validateRequest, hpin, hpwm, hwrite, if_pos hangle]
  cases checkInteger validityMs (js "validityMs") 1 <;> rfl

theorem assertValidity_of_checkInteger {validityMs : Option JsNumber} {field : JsString}
    (h : checkInteger validityMs field 1 = .ok ()) : GpioState.assertValidity validityMs = .ok () := by
  cases validityMs with
  | none => rfl
  | some value => cases value with
    | notFinite => simp [checkInteger, JsNumber.isIntegerFrom] at h
    | finite value =>
      have hle : 1 ≤ value := by
        by_contra hlt
        simp [checkInteger, JsNumber.isIntegerFrom, hlt] at h
      exact if_pos (lt_of_lt_of_le one_pos hle)

def Drivable (config : ValidatedPanTiltConfig) : Prop := ∀ pin ∈ config.pins, checkOutputPin pin = .ok ()

/-- An angle within the limits of an axis is an angle of a servo. -/
theorem PanTiltAxisLimits.servo (limits : PanTiltAxisLimits) {angle : ℚ}
    (h : limits.minAngle ≤ angle ∧ angle ≤ limits.maxAngle) : 0 ≤ angle ∧ angle ≤ 180 :=
  ⟨limits.limits.1.trans h.1, h.2.trans limits.limits.2.2⟩

section Servo

variable {state : GpioState} {pin : Nat} {angle : ℚ} {validityMs : Option JsNumber}

theorem deviceInvoke_servo_of_armed (hpin : checkOutputPin pin = .ok ()) (hangle : 0 ≤ angle ∧ angle ≤ 180)
    (hvalid : checkInteger validityMs (js "validityMs") 1 = .ok ()) (harmed : state.deviceState = .armed) :
    ∃ state', deviceInvoke state (.servo pin angle validityMs) = (.ok (), state') ∧ state'.deviceState = .armed := by
  obtain ⟨-, hwrite, -⟩ := checks_of_checkOutputPin hpin
  refine ⟨{ state with servos := fun other => if other = pin then some angle else state.servos other }, ?_, harmed⟩
  simp only [deviceInvoke, validateRequest_servo hpin hangle, hvalid, GpioState.handleBridgeAction,
    assertValidity_of_checkInteger hvalid, harmed, assertArmedForActuation, GpioState.gpioServo, hwrite, if_pos hangle]
  rfl

/-- A validity that is not a positive integer is refused before the request is sent. -/
theorem deviceInvoke_servo_of_invalid (hpin : checkOutputPin pin = .ok ()) (hangle : 0 ≤ angle ∧ angle ≤ 180)
    {error : PanTiltError} (hvalid : checkInteger validityMs (js "validityMs") 1 = .error error) :
    deviceInvoke state (.servo pin angle validityMs) = (.error error, state) := by
  simp only [deviceInvoke, validateRequest_servo hpin hangle, hvalid]

theorem deviceInvoke_servo_of_not_armed (hpin : checkOutputPin pin = .ok ()) (hangle : 0 ≤ angle ∧ angle ≤ 180)
    (hvalid : checkInteger validityMs (js "validityMs") 1 = .ok ()) {error : PanTiltError}
    (harmed : assertArmedForActuation state.deviceState = .error error) :
    deviceInvoke state (.servo pin angle validityMs) = (.error error, state) := by
  simp only [deviceInvoke, validateRequest_servo hpin hangle, hvalid, GpioState.handleBridgeAction,
    assertValidity_of_checkInteger hvalid, harmed]
  rfl

end Servo

section Drive

variable {device : GpioState} {config : ValidatedPanTiltConfig} {angles : PanTiltAxisAngles}
  {validityMs : Option JsNumber}

theorem Drivable.pan (h : Drivable config) : checkOutputPin config.pan.pin = .ok () :=
  h _ (List.mem_cons_self ..)

theorem Drivable.tilt (h : Drivable config) {axis : PanTiltAxisLimits} (haxis : config.tilt = some axis) :
    checkOutputPin axis.pin = .ok () :=
  h _ (by simp [ValidatedPanTiltConfig.pins, haxis])

theorem driveServoAngles_of_armed (hpins : Drivable config) (hangles : Within config angles)
    (hvalid : checkInteger validityMs (js "validityMs") 1 = .ok ()) (harmed : device.deviceState = .armed) :
    ∃ device', driveServoAngles device config angles validityMs = (.ok (), device') ∧
      device'.deviceState = .armed := by
  obtain ⟨first, hfirst, harmed⟩ :=
    deviceInvoke_servo_of_armed hpins.pan (config.pan.servo hangles.pan) hvalid harmed
  unfold driveServoAngles
  rw [hfirst]
  cases haxis : config.tilt with
  | none => exact ⟨first, rfl, harmed⟩
  | some axis =>
    cases htilt : angles.tilt with
    | none => exact ⟨first, rfl, harmed⟩
    | some angle =>
      exact deviceInvoke_servo_of_armed (hpins.tilt haxis) (axis.servo (hangles.tilt axis angle haxis htilt)) hvalid
        harmed

theorem driveServoAngles_of_error {error : PanTiltError}
    (h : deviceInvoke device (.servo config.pan.pin angles.pan validityMs) = (.error error, device)) :
    driveServoAngles device config angles validityMs = (.error error, device) := by
  unfold driveServoAngles
  rw [h]

end Drive

/-! ## What the backend does -/

theorem ProtocolDeviceBackend.initializeOutputs_eq_ok {b : ProtocolDeviceBackend}
    (h : ∀ pin ∈ b.outputs, checkOutputPin pin = .ok ()) : b.initializeOutputs = .ok () := by
  refine forM_eq_ok_iff.mpr fun pin hpin => ?_
  obtain ⟨-, hwrite, hmode⟩ := checks_of_checkOutputPin (h pin hpin)
  simp only [deviceInvoke, validateRequest, h pin hpin, hmode, GpioState.handleBridgeAction, hwrite]
  rfl

/-- A timeout that is a non-negative integer, or none, arms the device. -/
theorem ProtocolDeviceBackend.arm_of_valid {b : ProtocolDeviceBackend} {timeoutMs : Option JsNumber}
    (h : ∀ pin ∈ b.outputs, checkOutputPin pin = .ok ())
    (hvalid : checkInteger (timeoutMs.or b.watchdogTimeoutMs) (js "timeoutMs") 0 = .ok ()) :
    ∃ device, b.arm timeoutMs = (.ok device.timeoutMs, { b with device, state := .armed }) ∧
      device.deviceState = .armed := by
  unfold arm
  rw [initializeOutputs_eq_ok h]
  simp only [deviceInvoke, validateRequest, hvalid, GpioState.handleBridgeAction]
  cases htimeout : timeoutMs.or b.watchdogTimeoutMs with
  | none => exact ⟨{ b.device with deviceState := .armed }, rfl, rfl⟩
  | some timeout =>
    rw [htimeout] at hvalid
    have hint : timeout.isIntegerFrom 0 = true := by
      by_contra hnot
      simp [checkInteger, hnot] at hvalid
    simp only [GpioState.sysArm, if_pos hint]
    exact ⟨{ b.device with deviceState := .armed, timeoutMs := timeout }, rfl, rfl⟩

theorem ProtocolDeviceBackend.arm_of_invalid {b : ProtocolDeviceBackend} {timeoutMs : Option JsNumber}
    (h : ∀ pin ∈ b.outputs, checkOutputPin pin = .ok ()) {error : PanTiltError}
    (hvalid : checkInteger (timeoutMs.or b.watchdogTimeoutMs) (js "timeoutMs") 0 = .error error) :
    b.arm timeoutMs = (.error error, b) := by
  unfold arm
  rw [initializeOutputs_eq_ok h]
  simp only [deviceInvoke, validateRequest, hvalid]

theorem ProtocolDeviceBackend.disarm_eq (b : ProtocolDeviceBackend) :
    b.disarm = (.ok (), { b with device := b.device.sysDisarm, state := .disarmed }) := rfl

section Commit

variable {b : Esp32PanTiltBackend} {angles : PanTiltAxisAngles} {validityMs : Option JsNumber}

theorem Esp32PanTiltBackend.commitAnglesOnDevice_of_armed (hpins : Drivable b.config)
    (hangles : Within b.config angles) (hvalid : checkInteger validityMs (js "validityMs") 1 = .ok ())
    (harmed : b.protocolBackend.device.deviceState = .armed) :
    ∃ device, b.commitAnglesOnDevice angles validityMs =
        (.ok (), { b with
          protocolBackend := { b.protocolBackend with device }
          panAngle := angles.pan
          tiltAngle := angles.tilt
          anglesEvidence := ⟨some angles, some angles⟩ }) ∧ device.deviceState = .armed := by
  obtain ⟨device, hdrive, harmed⟩ := driveServoAngles_of_armed hpins hangles hvalid harmed
  refine ⟨device, ?_, harmed⟩
  unfold commitAnglesOnDevice
  simp only [hdrive]
  rfl

theorem Esp32PanTiltBackend.commitAnglesOnDevice_of_error {error : PanTiltError}
    (h : deviceInvoke b.protocolBackend.device (.servo b.config.pan.pin angles.pan validityMs) =
      (.error error, b.protocolBackend.device)) :
    (b.commitAnglesOnDevice angles validityMs).1 = .error error := by
  unfold commitAnglesOnDevice
  simp only [driveServoAngles_of_error h]

end Commit

end Pinout.PanTilt
