import Mathlib.Algebra.Order.Field.Rat
import Pinout.Foundation.Fallible
import Pinout.Foundation.Utf16

/-! # Pan-tilt configurations and angles

`packages/core/src/modules/panTilt/types.ts`: the commissioned configuration of a pan-tilt mount, and the checks of
an angle that both backends share. A configuration that is commissioned keeps its limits as fields. -/

namespace Pinout.PanTilt

open Foundation

/-! ## Values -/

/-- A value whose `typeof` is `'number'`. -/
inductive JsNumber
  | finite (value : ℚ)
  | notFinite
  deriving DecidableEq

/-- `Number.isInteger(value) && value >= least`. -/
def JsNumber.isIntegerFrom (least : ℚ) : JsNumber → Bool
  | .finite value => value.isInt && decide (least ≤ value)
  | .notFinite => false

inductive JsValue
  | undefined
  | null
  | boolean (value : Bool)
  | number (value : JsNumber)
  | text (value : JsString)
  | other
  deriving DecidableEq

/-- The value when `typeof` is `'number'`. -/
def JsValue.number? : JsValue → Option JsNumber
  | .number value => some value
  | _ => none

/-- `Number.isFinite(value)`, with the number. -/
def JsValue.finite? : JsValue → Option ℚ
  | .number (.finite value) => some value
  | _ => none

/-- `value !== undefined`. -/
def JsValue.given : JsValue → Bool
  | .undefined => false
  | _ => true

/-! ## Errors -/

inductive PanTiltAxisName
  | pan | tilt
  deriving DecidableEq

/-- What is thrown, by the place that throws it and the data its text shows. -/
inductive PanTiltError
  | configNotFinite (axis : PanTiltAxisName) (field : JsString)
  | pinRequired (axis : PanTiltAxisName)
  | gpioPin (pin : JsValue)
  | writePin (pin : Nat)
  | axisLimits (axis : PanTiltAxisName)
  | safeAngle (axis : PanTiltAxisName)
  | samePins
  | observationMaxAge
  | axisName
  | angleRequired
  /-- `panTilt.setAngles requires at least one of pan or tilt.` -/
  | anglesRequired
  | angleNotFinite (axis : PanTiltAxisName)
  | outsideLimits (axis : PanTiltAxisName) (angle minAngle maxAngle : ℚ)
  | tiltNotCommissioned
  | notArmed
  /-- `Device watchdog tripped.` of the host, `Watchdog tripped (…).` of the device. -/
  | watchdogTripped
  /-- `payload.… must be an integer.` or `payload.… must be >= ….` -/
  | inputSchema (field : JsString)
  | boardPin (pin : Nat)
  | noPwm
  | servoAngle (angle : ℚ)
  | commandExpired
  | bridgePin (pin : Nat)
  | bridgePayload (field : JsString)
  deriving DecidableEq

/-- The `code` of an error. -/
def PanTiltError.code : PanTiltError → JsString
  | .configNotFinite .. | .gpioPin _ | .writePin _ | .observationMaxAge | .inputSchema _ | .boardPin _ | .noPwm
  | .servoAngle _ => js "VALIDATION_ERROR"
  | .pinRequired _ | .axisLimits _ | .safeAngle _ | .samePins | .tiltNotCommissioned =>
    js "UNSUPPORTED_CONFIGURATION"
  | .axisName | .angleRequired | .anglesRequired | .angleNotFinite _ | .outsideLimits .. | .bridgePayload _ =>
    js "INVALID_PAYLOAD"
  | .notArmed => js "NOT_ARMED"
  | .watchdogTripped => js "WATCHDOG_TRIPPED"
  | .commandExpired => js "COMMAND_EXPIRED"
  | .bridgePin _ => js "INVALID_PIN"

/-! ## Pins -/

def assertGpioPin (pin : JsValue) : Except PanTiltError Nat :=
  match pin with
  | .number (.finite value) =>
    if (JsNumber.finite value).isIntegerFrom 0 then .ok value.num.toNat else .error (.gpioPin pin)
  | _ => .error (.gpioPin pin)

def isEsp32FlashPin (pin : Nat) : Bool := 6 ≤ pin && pin ≤ 11

def isEsp32InputOnlyPin (pin : Nat) : Bool := 34 ≤ pin && pin ≤ 39

def isEsp32Uart0Pin (pin : Nat) : Bool := pin == 1 || pin == 3

def isEsp32StrapPin (pin : Nat) : Bool := pin == 12

def assertEsp32WritePin (pin : Nat) : Except PanTiltError Unit :=
  if 39 < pin || isEsp32FlashPin pin || isEsp32InputOnlyPin pin || isEsp32Uart0Pin pin || isEsp32StrapPin pin then
    .error (.writePin pin)
  else .ok ()

def assertEsp32ModePin (pin : Nat) : Except PanTiltError Unit :=
  if 39 < pin || isEsp32FlashPin pin || isEsp32Uart0Pin pin || isEsp32StrapPin pin then .error (.writePin pin)
  else .ok ()

/-! ## Configurations -/

/-- `PanTiltAxisLimits`, of an axis that passed `validateAxisConfig`. -/
structure PanTiltAxisLimits where
  pin : Nat
  minAngle : ℚ
  maxAngle : ℚ
  safeAngle : ℚ
  limits : 0 ≤ minAngle ∧ minAngle < maxAngle ∧ maxAngle ≤ 180
  safe : minAngle ≤ safeAngle ∧ safeAngle ≤ maxAngle

structure PanTiltAxisConfigInput where
  pin : JsValue := .undefined
  minAngle : JsValue := .undefined
  maxAngle : JsValue := .undefined
  safeAngle : JsValue := .undefined

/-- `PanTiltConfig`, as a backend is created with. -/
structure PanTiltConfig where
  keys : Nat
  pan : Option PanTiltAxisConfigInput := none
  tilt : Option PanTiltAxisConfigInput := none
  panPin : JsValue := .undefined
  tiltPin : JsValue := .undefined
  watchdogTimeoutMs : JsValue := .undefined
  autoArm : JsValue := .undefined
  observationMaxAgeMs : JsValue := .undefined
  simulated : JsValue := .undefined
  /-- `transport`, when it is a `SimulatedEsp32Transport`, by its option `autoArm`. -/
  transport : Option Bool := none

structure ValidatedPanTiltConfig where
  pan : PanTiltAxisLimits
  tilt : Option PanTiltAxisLimits
  watchdogTimeoutMs : Option JsNumber
  autoArm : Bool
  transport : Option Bool
  distinct : ∀ axis, tilt = some axis → axis.pin ≠ pan.pin

/-- The pins of the axes, as `outputs` lists them. -/
def ValidatedPanTiltConfig.pins (config : ValidatedPanTiltConfig) : List Nat :=
  config.pan.pin :: (config.tilt.map PanTiltAxisLimits.pin).toList

/-- `assertFiniteAngle`, of a field that may be left out. -/
def assertFiniteAngle (value : JsValue) (axis : PanTiltAxisName) (field : JsString) (default : ℚ) :
    Except PanTiltError ℚ :=
  if value.given then
    match value.finite? with
    | some angle => .ok angle
    | none => .error (.configNotFinite axis field)
  else .ok default

/-- The checks of `validateAxisConfig` on the limits. -/
def checkedLimits (axis : PanTiltAxisName) (pin : Nat) (minAngle maxAngle safeAngle : ℚ) :
    Except PanTiltError PanTiltAxisLimits :=
  if hlimits : 0 ≤ minAngle ∧ minAngle < maxAngle ∧ maxAngle ≤ 180 then
    if hsafe : minAngle ≤ safeAngle ∧ safeAngle ≤ maxAngle then
      .ok ⟨pin, minAngle, maxAngle, safeAngle, hlimits, hsafe⟩
    else .error (.safeAngle axis)
  else .error (.axisLimits axis)

def validateAxisConfig (rawAxis : Option PanTiltAxisConfigInput) (pinFallback : JsValue) (axis : PanTiltAxisName)
    (required : Bool) : Except PanTiltError (Option PanTiltAxisLimits) :=
  let input := rawAxis.getD {}
  let pinValue := match input.pin with
    | .undefined | .null => pinFallback
    | pin => pin
  if pinValue.given then do
    let pin ← assertGpioPin pinValue
    assertEsp32WritePin pin
    let minAngle ← assertFiniteAngle input.minAngle axis (js "minAngle") 0
    let maxAngle ← assertFiniteAngle input.maxAngle axis (js "maxAngle") 180
    let safeAngle ← assertFiniteAngle input.safeAngle axis (js "safeAngle") 90
    some <$> checkedLimits axis pin minAngle maxAngle safeAngle
  else if required then .error (.pinRequired axis)
  else .ok none

/-- The pan axis of a configuration that is essentially empty. -/
def defaultPan : PanTiltAxisLimits := ⟨13, 0, 180, 90, by norm_num, by norm_num⟩

/-- A pin given beside its axis: only a number counts. -/
def pinFallback (pin : JsValue) : JsValue :=
  match pin.number? with
  | some value => .number value
  | none => .undefined

/-- The check of `observationMaxAgeMs`. -/
def checkObservationMaxAge (value : JsValue) : Except PanTiltError Unit :=
  if value.given then
    match value.finite? with
    | some age => if 0 < age then .ok () else .error .observationMaxAge
    | none => .error .observationMaxAge
  else .ok ()

/-- The configuration of axes that are checked, when their pins are not the same. -/
def withAxes (rawConfig : PanTiltConfig) (pan : PanTiltAxisLimits) (tilt : Option PanTiltAxisLimits) :
    Except PanTiltError ValidatedPanTiltConfig :=
  if hpins : ∀ axis, tilt = some axis → axis.pin ≠ pan.pin then do
    checkObservationMaxAge rawConfig.observationMaxAgeMs
    .ok { pan, tilt
          watchdogTimeoutMs := rawConfig.watchdogTimeoutMs.number?
          autoArm := rawConfig.autoArm = .boolean true
          transport := rawConfig.transport
          distinct := hpins }
  else .error .samePins

/-- `validatePanTiltConfig`, with empty defaults allowed. -/
def validatePanTiltConfig (rawConfig : PanTiltConfig) : Except PanTiltError ValidatedPanTiltConfig :=
  if rawConfig.keys = 0 ∨ rawConfig.keys = 1 ∧ rawConfig.simulated.given then
    .ok { pan := defaultPan
          tilt := none
          watchdogTimeoutMs := none
          autoArm := false
          transport := rawConfig.transport
          distinct := fun _ h => nomatch h }
  else do
    let pan ← validateAxisConfig rawConfig.pan (pinFallback rawConfig.panPin) .pan true
    match pan with
    | none => .error (.pinRequired .pan)
    | some pan =>
      let tilt ← validateAxisConfig rawConfig.tilt (pinFallback rawConfig.tiltPin) .tilt false
      withAxes rawConfig pan tilt

/-! ## Angles -/

structure PanTiltAxisAngles where
  pan : ℚ
  tilt : Option ℚ
  deriving DecidableEq

def assertAngleInLimits (angle : JsValue) (limits : PanTiltAxisLimits) (axis : PanTiltAxisName) :
    Except PanTiltError ℚ :=
  match angle.finite? with
  | none => .error (.angleNotFinite axis)
  | some angle =>
    if angle < limits.minAngle ∨ limits.maxAngle < angle then
      .error (.outsideLimits axis angle limits.minAngle limits.maxAngle)
    else .ok angle

theorem assertAngleInLimits_eq_ok {angle : JsValue} {limits : PanTiltAxisLimits} {axis : PanTiltAxisName} {q : ℚ}
    (h : assertAngleInLimits angle limits axis = .ok q) : limits.minAngle ≤ q ∧ q ≤ limits.maxAngle := by
  unfold assertAngleInLimits at h
  split at h
  · cases h
  · split at h
    · cases h
    · next hin =>
      obtain ⟨hmin, hmax⟩ := not_or.mp hin
      obtain rfl := Except.ok.inj h
      exact ⟨not_lt.mp hmin, not_lt.mp hmax⟩

def currentAnglesFromConfig (config : ValidatedPanTiltConfig) (pan : ℚ) (tilt : Option ℚ) : PanTiltAxisAngles :=
  match config.tilt with
  | some limits => ⟨pan, some (tilt.getD limits.safeAngle)⟩
  | none => ⟨pan, none⟩

def ValidatedPanTiltConfig.safeAngles (config : ValidatedPanTiltConfig) : PanTiltAxisAngles :=
  currentAnglesFromConfig config config.pan.safeAngle (config.tilt.map PanTiltAxisLimits.safeAngle)

/-- Angles within the limits of a configuration, one for each axis it has. -/
structure Within (config : ValidatedPanTiltConfig) (angles : PanTiltAxisAngles) : Prop where
  pan : config.pan.minAngle ≤ angles.pan ∧ angles.pan ≤ config.pan.maxAngle
  axes : angles.tilt.isSome = config.tilt.isSome
  tilt : ∀ limits angle, config.tilt = some limits → angles.tilt = some angle →
    limits.minAngle ≤ angle ∧ angle ≤ limits.maxAngle

theorem within_safeAngles (config : ValidatedPanTiltConfig) : Within config config.safeAngles := by
  unfold ValidatedPanTiltConfig.safeAngles currentAnglesFromConfig
  cases htilt : config.tilt with
  | none => exact ⟨config.pan.safe, by simp [htilt], fun limits angle h => by simp [htilt] at h⟩
  | some axis =>
    refine ⟨config.pan.safe, by simp [htilt], fun limits angle h hangle => ?_⟩
    obtain rfl : axis = limits := Option.some.inj (htilt.symm.trans h)
    obtain rfl : axis.safeAngle = angle := by simpa using hangle
    exact axis.safe

/-- Angles for the axes a configuration has are shown as they are. -/
theorem currentAngles_of_within {config : ValidatedPanTiltConfig} {angles : PanTiltAxisAngles}
    (h : Within config angles) : currentAnglesFromConfig config angles.pan angles.tilt = angles := by
  obtain ⟨pan, tilt⟩ := angles
  have haxes := h.axes
  unfold currentAnglesFromConfig
  cases htilt : config.tilt with
  | none => cases tilt with
    | none => rfl
    | some angle => simp [htilt] at haxes
  | some axis => cases tilt with
    | none => simp [htilt] at haxes
    | some angle => rfl

/-! ## Payloads -/

/-- The payload of `panTilt.setAngles` and of `panTilt.setAngle`, as far as the backends read it. -/
structure AnglesPayload where
  pan : JsValue := .undefined
  tilt : JsValue := .undefined
  axis : JsValue := .undefined
  angle : JsValue := .undefined
  validityMs : JsValue := .undefined

def resolveAxis (value : JsValue) : Except PanTiltError PanTiltAxisName :=
  if value = .undefined ∨ value = .text (js "pan") then .ok .pan
  else if value = .text (js "tilt") then .ok .tilt
  else .error .axisName

/-- The angles with another one for `pan`. -/
def nextPan (config : ValidatedPanTiltConfig) (angles : PanTiltAxisAngles) (value : JsValue) :
    Except PanTiltError PanTiltAxisAngles := do
  let pan ← assertAngleInLimits value config.pan .pan
  .ok { angles with pan }

/-- The angles with another one for `tilt`, when the axis is commissioned. -/
def nextTilt (config : ValidatedPanTiltConfig) (angles : PanTiltAxisAngles) (value : JsValue) :
    Except PanTiltError PanTiltAxisAngles :=
  match config.tilt with
  | none => .error .tiltNotCommissioned
  | some limits => do
    let tilt ← assertAngleInLimits value limits .tilt
    .ok { angles with tilt := some tilt }

/-- `resolveSetAnglesPayload` of both backends, from the angles they show. -/
def resolveAngles (config : ValidatedPanTiltConfig) (angles : PanTiltAxisAngles) (payload : AnglesPayload) :
    Except PanTiltError PanTiltAxisAngles :=
  if !payload.pan.given && !payload.tilt.given then .error .anglesRequired
  else do
    let next ← (if payload.pan.given then nextPan config angles payload.pan else .ok angles)
    if payload.tilt.given then nextTilt config next payload.tilt else .ok next

/-- What both backends make of the payload of `panTilt.setAngle`: the axis, the angle asked for and the next angles,
from the angles they show. -/
def resolveAngle (config : ValidatedPanTiltConfig) (angles : PanTiltAxisAngles) (payload : AnglesPayload) :
    Except PanTiltError (PanTiltAxisName × JsNumber × PanTiltAxisAngles) := do
  let axis ← resolveAxis payload.axis
  match payload.angle.number? with
  | none => .error .angleRequired
  | some angle =>
    let next ← (match axis with
      | .pan => nextPan config angles payload.angle
      | .tilt => nextTilt config angles payload.angle)
    .ok (axis, angle, next)

theorem nextPan_within {config : ValidatedPanTiltConfig} {angles next : PanTiltAxisAngles} {value : JsValue}
    (h : Within config angles) (hnext : nextPan config angles value = .ok next) : Within config next := by
  obtain ⟨pan, hpan, hnext⟩ := exists_of_bind_eq_ok hnext
  obtain rfl := Except.ok.inj hnext
  exact ⟨assertAngleInLimits_eq_ok hpan, h.axes, h.tilt⟩

theorem nextTilt_within {config : ValidatedPanTiltConfig} {angles next : PanTiltAxisAngles} {value : JsValue}
    (h : Within config angles) (hnext : nextTilt config angles value = .ok next) : Within config next := by
  unfold nextTilt at hnext
  cases haxis : config.tilt with
  | none => simp [haxis] at hnext
  | some limits =>
    rw [haxis] at hnext
    obtain ⟨tilt, htilt, hnext⟩ := exists_of_bind_eq_ok hnext
    obtain rfl := Except.ok.inj hnext
    refine ⟨h.pan, by simp [haxis], fun axis angle hlimits hangle => ?_⟩
    obtain rfl : limits = axis := Option.some.inj (haxis.symm.trans hlimits)
    obtain rfl : tilt = angle := Option.some.inj hangle
    exact assertAngleInLimits_eq_ok htilt

/-- Angles that are resolved from angles within the limits are within the limits. -/
theorem resolveAngles_within {config : ValidatedPanTiltConfig} {angles next : PanTiltAxisAngles}
    {payload : AnglesPayload} (h : Within config angles) (hnext : resolveAngles config angles payload = .ok next) :
    Within config next := by
  unfold resolveAngles at hnext
  split at hnext
  · cases hnext
  · obtain ⟨mid, hmid, hnext⟩ := exists_of_bind_eq_ok hnext
    have hwithin : Within config mid := by
      split at hmid
      · exact nextPan_within h hmid
      · exact Except.ok.inj hmid ▸ h
    split at hnext
    · exact nextTilt_within hwithin hnext
    · exact Except.ok.inj hnext ▸ hwithin

/-- Angles of one axis that are resolved from angles within the limits are within the limits. -/
theorem resolveAngle_within {config : ValidatedPanTiltConfig} {angles next : PanTiltAxisAngles}
    {payload : AnglesPayload} {axis : PanTiltAxisName} {angle : JsNumber} (h : Within config angles)
    (hnext : resolveAngle config angles payload = .ok (axis, angle, next)) : Within config next := by
  obtain ⟨named, -, hnext⟩ := exists_of_bind_eq_ok hnext
  split at hnext
  · cases hnext
  · obtain ⟨last, hlast, hnext⟩ := exists_of_bind_eq_ok hnext
    obtain ⟨-, -, rfl⟩ : _ ∧ _ ∧ last = next := by simpa using hnext
    cases named with
    | pan => exact nextPan_within h hlast
    | tilt => exact nextTilt_within h hlast

end Pinout.PanTilt
