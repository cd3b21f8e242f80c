import Pinout.Errors
import Pinout.Foundation.Entries
import Pinout.Foundation.Machine

/-! # The ROS 2 sidecar

`Ros2Sidecar` (`packages/ros2-sidecar/src/sidecar.ts`): moves send a goal to a controller and wait for its
result, stops cancel the goal that is remembered as the active one. What happens between two answers of the
transport is one *event*. A goal is known by the number of the move that sent it; what became of it at the
controller, and which observations were recorded, is kept as a record. -/

namespace Pinout.Ros2

open Foundation

/-! ## The transport -/

/-- `RosActionResult.status`. -/
inductive GoalStatus
  | succeeded | canceled | aborted
  deriving DecidableEq

inductive RosCancelCode
  | errorNone | errorRejected | errorUnknownGoalId | errorGoalTerminated
  deriving DecidableEq

/-- How `sendGoal` is answered. -/
inductive SendAnswer
  | accepted
  | rejected
  | failed (e : Thrown) (reached : Bool)

inductive Fate
  | underway
  | absent
  /-- It was cancelled with `ERROR_NONE`. -/
  | cancelled
  | ended
  deriving DecidableEq

/-! ## State -/

inductive OperationalStatus
  | ready | busy | stopped | faulted
  deriving DecidableEq

/-- Where an observation of the status comes from. -/
inductive ObservationSource
  | construction
  | controllerStatus
  | result (move : Nat) (status : GoalStatus)
  | stop (number : Nat)
  deriving DecidableEq

structure StatusEvidence where
  commanded : Option OperationalStatus := none
  acknowledged : Option OperationalStatus := none
  observed : List (OperationalStatus × ObservationSource) := [(.ready, .construction)]

def StatusEvidence.recordCommanded (e : StatusEvidence) (value : OperationalStatus) : StatusEvidence :=
  { e with commanded := some value }

def StatusEvidence.recordAcknowledged (e : StatusEvidence) (value : OperationalStatus) : StatusEvidence :=
  { e with acknowledged := some value }

def StatusEvidence.recordObserved (e : StatusEvidence) (value : OperationalStatus)
    (source : ObservationSource) : StatusEvidence :=
  { e with observed := e.observed ++ [(value, source)] }

inductive MovePhase
  | sending
  | executing
  | settled (result : Except Thrown Unit)

/-- A `moveToPose`. -/
structure Move where
  phase : MovePhase
  fate : Fate
  aborted : Bool := false
  /-- Whether its abort listener waits for the answer to a cancel. -/
  cancelling : Bool := false

def Move.fail (m : Move) (e : Thrown) (fate : Fate) : Move :=
  { m with phase := .settled (.error e), fate }

/-- A cancel is answered: with `ERROR_NONE` the goal is cancelled, unless it had ended. -/
def Move.cancel (m : Move) (code : Option RosCancelCode) : Move :=
  if code = some .errorNone ∧ m.fate = .underway then { m with fate := .cancelled } else m

inductive StopPhase
  | cancelling (goal : Nat)
  | confirmed (activeGoalCancelled : Bool)
  /-- It threw a `StopUnconfirmedError`. -/
  | unconfirmed

/-- A `stopMotion`. -/
structure Stop where
  mark : Nat
  phase : StopPhase

structure Ros2Sidecar where
  closed : Bool := false
  controllerAlive : Bool := true
  activeGoal : Option Nat := none
  operationalStatus : OperationalStatus := .ready
  statusEvidence : StatusEvidence := {}
  moves : List Move := []
  stops : List Stop := []

inductive Event
  /-- `arm.move_to_pose`; `refusal` is what the checks of its payload throw. -/
  | move (refusal : Option Thrown)
  | sent (number : Nat) (answer : SendAnswer)
  | abort (number : Nat)
  /-- The cancel of an abort listener is answered; `none` when it throws. -/
  | abortAnswer (number : Nat) (code : Option RosCancelCode)
  | ended (number : Nat)
  | result (number : Nat) (status : GoalStatus) (error : Option JsString)
  | resultFailed (number : Nat) (e : Thrown)
  | stop
  | stopAnswer (number : Nat) (code : Option RosCancelCode)
  | controllerStatus (alive : Bool)
  | close

namespace Ros2Sidecar

/-! ## Moves -/

def controllerUnavailable : Thrown :=
  .structuredError (pinoutStructuredError (js "CONTROLLER_UNAVAILABLE") .device
    (js "ROS 2 action controller is unavailable or disconnected."))

def updateMove (b : Ros2Sidecar) (number : Nat) (f : Move → Move) : Ros2Sidecar :=
  { b with moves := b.moves.modify number f }

/-- `moveToPose`, up to where it waits for `sendGoal`. -/
def beginMove (b : Ros2Sidecar) (refusal : Option Thrown) : Ros2Sidecar :=
  let refused (e : Thrown) : Ros2Sidecar :=
    { b with moves := b.moves ++ [{ phase := .settled (.error e), fate := .absent }] }
  if b.closed then
    refused (.pinoutError (js "DeviceError") (js "DISCONNECTED") (js "Ros2Sidecar backend is closed."))
  else match refusal with
    | some e => refused e
    | none =>
      if ¬ b.controllerAlive then refused controllerUnavailable
      else { b with
        statusEvidence := b.statusEvidence.recordCommanded .busy
        operationalStatus := .busy
        moves := b.moves ++ [{ phase := .sending, fate := .underway }] }

/-- `sendGoal` is answered. -/
def hearSent (b : Ros2Sidecar) (number : Nat) : SendAnswer → Ros2Sidecar
  | .accepted =>
    { b with
      activeGoal := some number
      statusEvidence := b.statusEvidence.recordAcknowledged .busy }.updateMove number fun m =>
        { m with phase := .executing, cancelling := m.aborted }
  | .rejected =>
    { b with operationalStatus := .ready }.updateMove number fun m =>
      m.fail (.structuredError (pinoutStructuredError (js "GOAL_REJECTED") .device
        (js "ROS 2 action controller rejected the requested goal."))) .absent
  | .failed e reached =>
    { b with operationalStatus := .faulted }.updateMove number fun m =>
      m.fail (.structuredError (pinoutStructuredError (js "CONTROLLER_COMMUNICATION_ERROR") .transport
        (js "Failed to send goal to ROS 2 action server: " ++ e.text))) (if reached then m.fate else .absent)

def abortMove (b : Ros2Sidecar) (number : Nat) (m : Move) : Ros2Sidecar :=
  match m.phase with
  | .executing => b.updateMove number fun m => { m with aborted := true, cancelling := true }
  | _ => b.updateMove number fun m => { m with aborted := true }

/-- The `finally` of a move. -/
def release (b : Ros2Sidecar) (number : Nat) : Ros2Sidecar :=
  { b with activeGoal := if b.activeGoal = some number then none else b.activeGoal }

/-- `getResult` resolves. -/
def hearResult (b : Ros2Sidecar) (number : Nat) (error : Option JsString) : GoalStatus → Ros2Sidecar
  | .succeeded =>
    ({ b with
      operationalStatus := .ready
      statusEvidence := b.statusEvidence.recordObserved .ready (.result number .succeeded) }.updateMove
        number fun m => { m with phase := .settled (.ok ()), fate := .ended }).release number
  | .canceled =>
    ({ b with
      operationalStatus := .stopped
      statusEvidence := b.statusEvidence.recordObserved .stopped (.result number .canceled) }.updateMove
        number fun m => m.fail (Thrown.abortedError
          (js "ROS 2 trajectory execution was cancelled and stop confirmed.")) .ended).release number
  | .aborted =>
    ({ b with
      operationalStatus := .faulted
      statusEvidence := b.statusEvidence.recordObserved .faulted (.result number .aborted) }.updateMove
        number fun m => m.fail (.structuredError (pinoutStructuredError (js "CONTROLLER_ABORTED") .device
          (error.getD (js "ROS 2 action was aborted by the controller.")))) .ended).release number

/-- `error instanceof DeviceError && error.code === 'DISCONNECTED'`. -/
def isDisconnected : Thrown → Bool
  | .pinoutError name code _ _ => name = js "DeviceError" ∧ code = js "DISCONNECTED"
  | _ => false

/-- `getResult` throws. -/
def hearFailure (b : Ros2Sidecar) (number : Nat) (e : Thrown) : Ros2Sidecar :=
  if isDisconnected e then
    ({ b with operationalStatus := .faulted }.updateMove number fun m =>
      m.fail (.structuredError (pinoutStructuredError (js "OPERATION_REQUIRES_RECONCILIATION") .operation
        (js "ROS 2 controller communication lost while trajectory in flight. Physical state is uncertain.")))
        m.fate).release number
  else (b.updateMove number fun m => m.fail e m.fate).release number

/-! ## Stops -/

/-- `stopMotion` after the cancel. -/
def finishStop (b : Ros2Sidecar) (number : Nat) (phase : StopPhase) : Ros2Sidecar :=
  { b with
    operationalStatus := .stopped
    statusEvidence := b.statusEvidence.recordObserved .stopped (.stop number)
    stops := b.stops.modify number fun s => { s with phase } }

/-- `stopMotion`, up to where it waits for the answer to the cancel. -/
def beginStop (b : Ros2Sidecar) : Ros2Sidecar :=
  match b.activeGoal with
  | some goal => { b with stops := b.stops ++ [{ mark := b.moves.length, phase := .cancelling goal }] }
  | none =>
    let begun : Ros2Sidecar :=
      { b with stops := b.stops ++ [{ mark := b.moves.length, phase := .unconfirmed }] }
    begun.finishStop b.stops.length (.confirmed false)

def hearStop (b : Ros2Sidecar) (number goal : Nat) (code : Option RosCancelCode) : Ros2Sidecar :=
  (b.updateMove goal fun m => m.cancel code).finishStop number
    (if code = some .errorNone then .confirmed true else .unconfirmed)

/-! ## Events -/

/-- `onControllerStatus` calls back. -/
def hearStatus (b : Ros2Sidecar) (alive : Bool) : Ros2Sidecar :=
  if b.closed then b
  else if ¬ alive then { b with
    controllerAlive := alive
    operationalStatus := .faulted
    statusEvidence := b.statusEvidence.recordObserved .faulted .controllerStatus }
  else if b.operationalStatus = .faulted then { b with
    controllerAlive := alive
    operationalStatus := .ready
    statusEvidence := b.statusEvidence.recordObserved .ready .controllerStatus }
  else { b with controllerAlive := alive }

def step (b : Ros2Sidecar) : Event → Option Ros2Sidecar
  | .move refusal => some (b.beginMove refusal)
  | .sent number answer => match b.moves[number]? with
    | some ⟨.sending, _, _, _⟩ => some (b.hearSent number answer)
    | _ => none
  | .abort number => match b.moves[number]? with
    | some m => if m.aborted then none else some (b.abortMove number m)
    | none => none
  | .abortAnswer number code => match b.moves[number]? with
    | some ⟨_, _, _, true⟩ =>
      some (b.updateMove number fun m => { m.cancel code with cancelling := false })
    | _ => none
  | .ended number => match b.moves[number]? with
    | some ⟨_, .underway, _, _⟩ | some ⟨_, .cancelled, _, _⟩ =>
      some (b.updateMove number fun m => { m with fate := .ended })
    | _ => none
  | .result number status error => match b.moves[number]? with
    | some ⟨.executing, _, _, _⟩ => some (b.hearResult number error status)
    | _ => none
  | .resultFailed number e => match b.moves[number]? with
    | some ⟨.executing, _, _, _⟩ => some (b.hearFailure number e)
    | _ => none
  | .stop => some b.beginStop
  | .stopAnswer number code => match b.stops[number]? with
    | some ⟨_, .cancelling goal⟩ => some (b.hearStop number goal code)
    | _ => none
  | .controllerStatus alive => some (b.hearStatus alive)
  | .close => some { b with closed := true }

def machine : Machine Ros2Sidecar Event := ⟨step⟩

end Ros2Sidecar

end Pinout.Ros2
