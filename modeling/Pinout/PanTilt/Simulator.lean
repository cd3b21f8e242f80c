import Pinout.PanTilt.Types
import Pinout.Runtime.ProtocolBackend

/-! # The simulated pan-tilt backend

`SimulatedPanTiltBackend` (`packages/core/src/modules/panTilt/simulator.ts`), which keeps its own state, and what both
backends are called with and report. A call is what it returns or throws, and the backend after it. -/

namespace Pinout.PanTilt

open Foundation Pinout.Runtime

/-! ## Calls and reports -/

/-- `EvidenceState`, as far as it is commanded and acknowledged. -/
structure EvidenceState (α : Type) where
  commanded : Option α := none
  acknowledged : Option α := none
  deriving DecidableEq

namespace EvidenceState

variable {α : Type}

def recordCommanded (evidence : EvidenceState α) (value : α) : EvidenceState α :=
  { evidence with commanded := some value }

def recordAcknowledged (evidence : EvidenceState α) (value : α) : EvidenceState α :=
  { evidence with acknowledged := some value }

/-- What is commanded and then acknowledged is all the evidence there is. -/
@[simp] theorem recordAcknowledged_recordCommanded (evidence : EvidenceState α) (value : α) :
    (evidence.recordCommanded value).recordAcknowledged value = ⟨some value, some value⟩ := rfl

end EvidenceState

inductive PanTiltCall
  | status
  | arm (timeoutMs : JsValue)
  | disarm
  | setAngles (payload : AnglesPayload)
  | setAngle (payload : AnglesPayload)

/-- `PanTiltStatus`: what is reported of the mount. -/
structure PanTiltStatus where
  armed : ArmState
  commanded : Option PanTiltAxisAngles
  acknowledged : Option PanTiltAxisAngles
  angles : PanTiltAxisAngles
  armedEvidence : EvidenceState ArmState
  deriving DecidableEq

inductive PanTiltResult
  | status (status : PanTiltStatus)
  | armed (timeoutMs : JsNumber)
  | disarmed (angles : PanTiltAxisAngles)
  | angles (angles : PanTiltAxisAngles)
  | angle (axis : PanTiltAxisName) (angle : JsNumber) (angles : PanTiltAxisAngles)
  | safe (angles : PanTiltAxisAngles)

/-- The code an outcome is rejected with, if it is. -/
def rejection {α : Type} : Except PanTiltError α → Option JsString
  | .ok _ => none
  | .error error => some error.code

@[simp] theorem rejection_ok {α : Type} (a : α) : rejection (.ok a) = none := rfl

@[simp] theorem rejection_error {α : Type} (error : PanTiltError) :
    rejection (.error error : Except PanTiltError α) = some error.code := rfl

/-- `assertArmedForActuation` of both backends, from the state each of them asks. -/
def assertArmedForActuation : ArmState → Except PanTiltError Unit
  | .disarmed => .error .notArmed
  | .tripped => .error .watchdogTripped
  | .armed => .ok ()

theorem armed_bind_eq_ok {α : Type} {state : ArmState} {rest : Except PanTiltError α} {a : α} :
    (do assertArmedForActuation state; rest) = .ok a ↔ state = .armed ∧ rest = .ok a := by
  cases state with
  | armed => exact ⟨fun h => ⟨rfl, h⟩, fun h => h.2⟩
  | disarmed => exact ⟨nofun, nofun⟩
  | tripped => exact ⟨nofun, nofun⟩

/-- `applySafeState` of `DeviceInstance`: `backend.safeState?.()`. -/
def applySafeState {β : Type} (safeState : Option (β → Except PanTiltError PanTiltResult × β)) (backend : β) :
    Except PanTiltError (Option PanTiltResult) × β :=
  match safeState with
  | none => (.ok none, backend)
  | some safeState => ((safeState backend).1.map some, (safeState backend).2)

/-! ## The backend -/

structure SimulatedPanTiltBackend where
  config : ValidatedPanTiltConfig
  armedState : ArmState
  anglesEvidence : EvidenceState PanTiltAxisAngles
  armedEvidence : EvidenceState ArmState
  panAngle : ℚ
  tiltAngle : Option ℚ

namespace SimulatedPanTiltBackend

def snapshotAngles (b : SimulatedPanTiltBackend) : PanTiltAxisAngles :=
  currentAnglesFromConfig b.config b.panAngle b.tiltAngle

/-- The state and the evidence of it, after the backend went into it. -/
def become (b : SimulatedPanTiltBackend) (state : ArmState) : SimulatedPanTiltBackend :=
  { b with armedState := state, armedEvidence := b.armedEvidence.recordAcknowledged state }

/-- What `commitAngles` and `applySafeAngles` do to the angles. -/
def moveTo (b : SimulatedPanTiltBackend) (angles : PanTiltAxisAngles) : SimulatedPanTiltBackend :=
  { b with
    panAngle := angles.pan
    tiltAngle := angles.tilt
    anglesEvidence := (b.anglesEvidence.recordCommanded angles).recordAcknowledged angles }

/-- `constructor`, of a configuration that is validated. -/
def ofConfig (config : ValidatedPanTiltConfig) : SimulatedPanTiltBackend :=
  let b : SimulatedPanTiltBackend :=
    { config
      armedState := .disarmed
      anglesEvidence := {}
      armedEvidence := {}
      panAngle := config.pan.safeAngle
      tiltAngle := config.tilt.map PanTiltAxisLimits.safeAngle }
  let b := b.become (if config.autoArm then .armed else .disarmed)
  { b with anglesEvidence := b.anglesEvidence.recordAcknowledged b.snapshotAngles }

/-- `constructor`. -/
def create (options : PanTiltConfig) : Except PanTiltError SimulatedPanTiltBackend :=
  (validatePanTiltConfig options).map ofConfig

def buildStatus (b : SimulatedPanTiltBackend) : PanTiltStatus :=
  { armed := b.armedState
    commanded := b.anglesEvidence.commanded
    acknowledged := b.anglesEvidence.acknowledged
    angles := b.snapshotAngles
    armedEvidence := b.armedEvidence }

def arm (b : SimulatedPanTiltBackend) (timeoutMs : JsValue) :
    Except PanTiltError PanTiltResult × SimulatedPanTiltBackend :=
  let timeout := (timeoutMs.number?.or b.config.watchdogTimeoutMs).getD (.finite 1000)
  (.ok (.armed timeout), b.become .armed)

def applySafeAngles (b : SimulatedPanTiltBackend) : SimulatedPanTiltBackend := b.moveTo b.config.safeAngles

def disarm (b : SimulatedPanTiltBackend) : Except PanTiltError PanTiltResult × SimulatedPanTiltBackend :=
  (.ok (.disarmed b.applySafeAngles.snapshotAngles), b.applySafeAngles.become .disarmed)

def safeState (b : SimulatedPanTiltBackend) : Except PanTiltError PanTiltResult × SimulatedPanTiltBackend :=
  (.ok (.safe b.applySafeAngles.snapshotAngles), b.applySafeAngles.become .disarmed)

def injectTrip (b : SimulatedPanTiltBackend) : SimulatedPanTiltBackend := b.applySafeAngles.become .tripped

def resolveSetAnglesPayload (b : SimulatedPanTiltBackend) (payload : AnglesPayload) :
    Except PanTiltError PanTiltAxisAngles :=
  resolveAngles b.config b.snapshotAngles payload

def invoke (b : SimulatedPanTiltBackend) (call : PanTiltCall) :
    Except PanTiltError PanTiltResult × SimulatedPanTiltBackend :=
  match call with
  | .status => (.ok (.status b.buildStatus), b)
  | .arm timeoutMs => b.arm timeoutMs
  | .disarm => b.disarm
  | .setAngles payload =>
    match (do assertArmedForActuation b.armedState; b.resolveSetAnglesPayload payload) with
    | .error error => (.error error, b)
    | .ok next => (.ok (.angles (b.moveTo next).snapshotAngles), b.moveTo next)
  | .setAngle payload =>
    match (do assertArmedForActuation b.armedState; resolveAngle b.config b.snapshotAngles payload) with
    | .error error => (.error error, b)
    | .ok (axis, angle, next) => (.ok (.angle axis angle (b.moveTo next).snapshotAngles), b.moveTo next)

/-- `applySafeState` of the `DeviceInstance` over the backend. -/
def applySafeState (b : SimulatedPanTiltBackend) :
    Except PanTiltError (Option PanTiltResult) × SimulatedPanTiltBackend :=
  PanTilt.applySafeState (some safeState) b

@[simp] theorem config_become (b : SimulatedPanTiltBackend) (state : ArmState) : (b.become state).config = b.config :=
  rfl

@[simp] theorem config_moveTo (b : SimulatedPanTiltBackend) (angles : PanTiltAxisAngles) :
    (b.moveTo angles).config = b.config := rfl

@[simp] theorem snapshotAngles_become (b : SimulatedPanTiltBackend) (state : ArmState) :
    (b.become state).snapshotAngles = b.snapshotAngles := rfl

/-- After a move within the limits the angles are those it was to. -/
theorem snapshotAngles_moveTo {b : SimulatedPanTiltBackend} {angles : PanTiltAxisAngles}
    (h : Within b.config angles) : (b.moveTo angles).snapshotAngles = angles :=
  currentAngles_of_within h

@[simp] theorem anglesEvidence_moveTo (b : SimulatedPanTiltBackend) (angles : PanTiltAxisAngles) :
    (b.moveTo angles).anglesEvidence = ⟨some angles, some angles⟩ := rfl

/-- The safe angles, and a state, are what is reported after safe angles were applied on the way into the state. -/
theorem buildStatus_safe (b : SimulatedPanTiltBackend) (state : ArmState) :
    (b.applySafeAngles.become state).buildStatus =
      { armed := state
        commanded := some b.config.safeAngles
        acknowledged := some b.config.safeAngles
        angles := b.config.safeAngles
        armedEvidence := b.armedEvidence.recordAcknowledged state } := by
  have hsnapshot : (b.applySafeAngles.become state).snapshotAngles = b.config.safeAngles :=
    snapshotAngles_moveTo (within_safeAngles b.config)
  unfold buildStatus
  rw [hsnapshot]
  rfl

end SimulatedPanTiltBackend

end Pinout.PanTilt
