import Pinout.Ur.DashboardClient

/-! # The UR backend

The motion commands and the stop of `UrBackend` (`packages/protocols-ur/src/urBackend.ts`) over a dashboard
client and a script client. An invocation runs up to where it waits, for the backend to be ready, for the
reply to a dashboard call or for the script transport, and goes on in an event of its own. What was written
that moves the robot is kept as a record. -/

namespace Pinout.Ur

open Foundation Protocol

/-! ## Errors -/

inductive UrFailure
  | deviceError (code message : JsString)
  | script (code message : JsString)
  | dashboard (e : DashboardFailure)
  | thrown (e : Thrown)

/-- `wrapDashboard`, for what the dashboard client rejected with. -/
def wrapDashboard : DashboardFailure → UrFailure
  | .dashboard code message response =>
    if code = js "UR_DASHBOARD_TIMEOUT" ∨ code = js "UR_DASHBOARD_CLOSED" then
      .deviceError (js "DISCONNECTED") (js "UR dashboard connection lost: " ++ message)
    else .dashboard (.dashboard code message response)
  | .thrown e => .dashboard (.thrown e)

/-- What `moveToPose` and `executeScript` make of what `sendScript` rejected with. -/
def wrapScript : UrFailure → UrFailure
  | .script code message =>
    if code = js "UR_SCRIPT_CLOSED" then
      .deviceError (js "DISCONNECTED") (js "URScript transport is closed.")
    else .script code message
  | e => e

def safetyStopModes : List UrSafetyMode :=
  [.protectiveStop, .safeguardStop, .systemEmergencyStop, .robotEmergencyStop, .fault, .violation]

def notReadyRobotModes : List UrRobotMode := [.powerOff, .booting, .disconnected, .noController]

/-! ## Invocations -/

inductive Motion
  /-- `ur.move_to_pose`: what the checks of its payload throw, and the command that is built. -/
  | moveToPose (refusal : Option UrFailure) (command : Except UrFailure JsString)
  | executeScript (script : JsString)
  | playProgram

inductive Phase
  | starting
  | robotMode (task : Nat)
  | safetyMode (task : Nat)
  /-- It waits for the script client to open, with a line to write. -/
  | opening (line : JsString)
  | writing
  | playing (task : Nat)
  /-- It was settled; with the reply to `play`, if it asked for one. -/
  | settled (result : Except UrFailure (Option JsString))

structure Invocation where
  motion : Motion
  phase : Phase := .starting

/-! ## Stops -/

inductive ProgramStop
  | confirmed
  | failed (e : DashboardFailure)
  | unavailable

inductive ScriptStop
  | sent
  | failed (e : UrFailure)
  | unavailable

/-- Where a `stopMotion` is. -/
inductive StopPhase
  | dashboard (task : Nat)
  | opening (line : JsString)
  | writing
  | resolved (scriptStop : ScriptStop)
  | unconfirmed (scriptStop : ScriptStop)

/-- A `stopMotion`. -/
structure Stop where
  mark : Nat
  programStop : ProgramStop := .unavailable
  phase : StopPhase

def StopPhase.isResolved : StopPhase → Bool
  | resolved _ => true
  | _ => false

/-- A line that moves the robot, when it is written. -/
structure MotionLine where
  invocation : Nat
  bytes : List UInt8
  /-- How many invocations began before each of the stops that have resolved. -/
  stopped : List Nat
  deriving DecidableEq

/-! ## The backend -/

structure UrOptions where
  hasDashboard : Bool := true
  dashboard : DashboardOptions := {}
  hasScript : Bool := true
  playAfterScript : Bool := false
  preflightChecks : Bool := true
  maxScriptBytes : Nat := 65536
  stopLCommand : Except UrFailure JsString

structure UrBackend where
  closed : Bool := false
  dashboard : DashboardClient := {}
  scriptStarted : Bool := false
  scriptClosed : Bool := false
  invocations : List Invocation := []
  /-- The calls of `stopMotion`, in the order in which they began. -/
  stops : List Stop := []
  /-- The `play` calls on the dashboard client, and the invocations they belong to. -/
  plays : List (Nat × Nat) := []
  lines : List MotionLine := []

inductive UrEvent
  | dashboard (event : DashboardEvent)
  | startScript
  | invoke (motion : Motion)
  | ready (number : Nat) (thrown : Option Thrown)
  | hear (number : Nat)
  /-- The script client is open, or has taken a line, for an invocation. -/
  | goOn (number : Nat) (thrown : Option Thrown)
  | stop
  | hearStop (number : Nat)
  /-- The script client is open, or has taken a line, for a stop. -/
  | goOnStop (number : Nat) (thrown : Option Thrown)
  | close
  | closeScript

namespace UrBackend

/-- How many invocations began before each of the stops that have resolved. -/
def stopped (b : UrBackend) : List Nat := (b.stops.filter (·.phase.isResolved)).map Stop.mark

def moveOn (b : UrBackend) (number : Nat) (phase : Phase) : UrBackend :=
  { b with invocations := b.invocations.modify number fun i => { i with phase } }

def fail (b : UrBackend) (number : Nat) (e : UrFailure) : UrBackend :=
  b.moveOn number (.settled (.error e))

/-- What is written for a script: a trailing line feed is added when there is none. -/
def payload (text : JsString) : List UInt8 :=
  encodeUtf8 (if text.getLast? = some lineFeed then text else text ++ [lineFeed])

/-- An invocation writes its line to the script transport. -/
def writeLine (b : UrBackend) (number : Nat) (line : JsString) : UrBackend :=
  let written : MotionLine := ⟨number, payload line, b.stopped⟩
  { b with lines := b.lines ++ [written] }.moveOn number .writing

/-- What `sendScript` throws at once. -/
def scriptRefusal (b : UrBackend) (text : JsString) : Option UrFailure :=
  if trim text = [] then
    some (.script (js "UR_SCRIPT_EMPTY") (js "URScript payload must be a non-empty string."))
  else if b.scriptClosed then
    some (.script (js "UR_SCRIPT_CLOSED") (js "URScript transport is closed."))
  else none

/-- `sendScript`, for an invocation. -/
def sendScript (b : UrBackend) (number : Nat) (text : JsString) : UrBackend :=
  match b.scriptRefusal text with
  | some e => b.fail number (wrapScript e)
  | none =>
    if b.scriptStarted then b.writeLine number text
    else { b with scriptStarted := true }.moveOn number (.opening text)

/-- `dashboard.play()`, for an invocation. -/
def play (b : UrBackend) (number : Nat) : UrBackend :=
  { b with
    dashboard := b.dashboard.enqueue .play
    plays := b.plays ++ [(b.dashboard.made, number)] }.moveOn number (.playing b.dashboard.made)

def proceed (b : UrBackend) (number : Nat) : Motion → UrBackend
  | .moveToPose _ command => match command with
    | .error e => b.fail number e
    | .ok line => b.sendScript number line
  | .executeScript script => b.sendScript number script
  | .playProgram => b.play number

variable (options : UrOptions)

/-- `preflightRobotReady`, up to where it waits. -/
def preflight (b : UrBackend) (number : Nat) (motion : Motion) : UrBackend :=
  if options.preflightChecks ∧ options.hasDashboard then
    { b with dashboard := b.dashboard.enqueue .robotMode }.moveOn number (.robotMode b.dashboard.made)
  else b.proceed number motion

/-- What an invocation does once the backend is ready. -/
def start (b : UrBackend) (number : Nat) : Motion → UrBackend
  | .moveToPose refusal command =>
    if ¬ options.hasScript then
      b.fail number (.deviceError (js "UNSUPPORTED_CONFIGURATION")
        (js "Cannot move: no URScript client is configured."))
    else match refusal with
      | some e => b.fail number e
      | none => b.preflight options number (.moveToPose refusal command)
  | .executeScript script =>
    if ¬ options.hasScript then
      b.fail number (.deviceError (js "UNSUPPORTED_CONFIGURATION")
        (js "Cannot execute a script: no URScript client is configured."))
    else if trim script = [] then
      b.fail number (.deviceError (js "VALIDATION_ERROR") (js "'script' must be a non-empty string."))
    else if (encodeUtf8 script).length > options.maxScriptBytes then
      b.fail number (.deviceError (js "VALIDATION_ERROR")
        (js "Script payload of " ++ decimal (encodeUtf8 script).length ++
          js " bytes exceeds the configured maximum of " ++ decimal options.maxScriptBytes ++ js " bytes."))
    else b.sendScript number script
  | .playProgram =>
    if ¬ options.hasDashboard then
      b.fail number (.deviceError (js "UNSUPPORTED_CONFIGURATION")
        (js "Cannot play a program: no dashboard client is configured."))
    else b.preflight options number .playProgram

def outcome (b : UrBackend) (task : DashboardTask) : Option (Except DashboardFailure DashboardResult) :=
  (b.dashboard.outcomes.find? (·.1 = task)).map Prod.snd

def hearRobotMode (b : UrBackend) (number : Nat) (mode : UrRobotMode) : UrBackend :=
  if mode ∈ notReadyRobotModes then
    b.fail number (.deviceError (js "UR_ROBOT_NOT_READY")
      (js "Robot is not ready for motion: robot mode is " ++ mode.text ++
        js ". Power on and release brakes first."))
  else
    { b with dashboard := b.dashboard.enqueue .safetyMode }.moveOn number (.safetyMode b.dashboard.made)

def hearSafetyMode (b : UrBackend) (number : Nat) (motion : Motion) (mode : UrSafetyMode) : UrBackend :=
  if mode ∈ safetyStopModes then
    b.fail number (.deviceError (js "UR_SAFETY_STOP_ACTIVE")
      (js "Robot reports safety mode " ++ mode.text ++ js "; motion commands will not be sent."))
  else b.proceed number motion

/-- A dashboard call is settled for an invocation. -/
def hear (b : UrBackend) (number : Nat) (i : Invocation) : Option UrBackend :=
  match i.phase with
  | .robotMode task => match b.outcome ⟨task, .robotMode⟩ with
    | some (.ok (.robotMode parsed)) => some (b.hearRobotMode number parsed.mode)
    | some (.error e) => some (b.fail number (wrapDashboard e))
    | _ => none
  | .safetyMode task => match b.outcome ⟨task, .safetyMode⟩ with
    | some (.ok (.safetyMode parsed)) => some (b.hearSafetyMode number i.motion parsed.mode)
    | some (.error e) => some (b.fail number (wrapDashboard e))
    | _ => none
  | .playing task => match b.outcome ⟨task, .play⟩ with
    | some (.ok (.text reply)) => some (b.moveOn number (.settled (.ok (some reply))))
    | some (.error e) => some (b.fail number (wrapDashboard e))
    | _ => none
  | _ => none

/-- The script client is open, or has taken the line of an invocation; `thrown` is what it threw instead. -/
def goOn (b : UrBackend) (number : Nat) (i : Invocation) (thrown : Option Thrown) : Option UrBackend :=
  match i.phase, thrown with
  | .opening line, none => some (b.writeLine number line)
  | .writing, none =>
    if options.playAfterScript ∧ options.hasDashboard then some (b.play number)
    else some (b.moveOn number (.settled (.ok none)))
  | .opening _, some e => some (b.fail number (.thrown e))
  | .writing, some e => some (b.fail number (.thrown e))
  | _, _ => none

def moveStop (b : UrBackend) (number : Nat) (phase : StopPhase) : UrBackend :=
  { b with stops := b.stops.modify number fun s => { s with phase } }

/-- The end of `stopMotion`. -/
def finishStop (b : UrBackend) (number : Nat) (programStop : ProgramStop) (scriptStop : ScriptStop) :
    UrBackend :=
  match programStop, scriptStop with
  | .confirmed, _ => b.moveStop number (.resolved scriptStop)
  | _, .sent => b.moveStop number (.resolved scriptStop)
  | _, _ => b.moveStop number (.unconfirmed scriptStop)

/-- `stopMotion` after the dashboard's stop. -/
def stopScript (b : UrBackend) (number : Nat) (programStop : ProgramStop) : UrBackend :=
  if options.hasScript then
    match options.stopLCommand with
    | .error e => b.finishStop number programStop (.failed e)
    | .ok line => match b.scriptRefusal line with
      | some e => b.finishStop number programStop (.failed e)
      | none =>
        if b.scriptStarted then b.moveStop number .writing
        else { b with scriptStarted := true }.moveStop number (.opening line)
  else b.finishStop number programStop .unavailable

/-- `stopMotion`, up to where it waits. -/
def stopMotion (b : UrBackend) : UrBackend :=
  if options.hasDashboard then { b with
    dashboard := b.dashboard.enqueue .stop
    stops := b.stops ++ [{ mark := b.invocations.length, phase := .dashboard b.dashboard.made }] }
  else stopScript options
    { b with stops := b.stops ++ [{ mark := b.invocations.length, phase := .writing }] } b.stops.length
    .unavailable

def hearStop (b : UrBackend) (number : Nat) (s : Stop) : Option UrBackend :=
  match s.phase with
  | .dashboard task => (b.outcome ⟨task, .stop⟩).map fun result =>
    let programStop := match result with
      | .ok _ => .confirmed
      | .error e => .failed e
    stopScript options
      { b with stops := b.stops.modify number fun s => { s with programStop } } number programStop
  | _ => none

/-- The script client is open, or has taken the line of a stop. -/
def goOnStop (b : UrBackend) (number : Nat) (s : Stop) (thrown : Option Thrown) : Option UrBackend :=
  match s.phase, thrown with
  | .opening _, none => some (b.moveStop number .writing)
  | .writing, none => some (b.finishStop number s.programStop .sent)
  | .opening _, some e => some (b.finishStop number s.programStop (.failed (.thrown e)))
  | .writing, some e => some (b.finishStop number s.programStop (.failed (.thrown e)))
  | _, _ => none

/-- The lines that the dashboard client writes in a step and that belong to an invocation. -/
def playLines (b : UrBackend) (dashboard : DashboardClient) : List MotionLine :=
  (dashboard.sent.drop b.dashboard.sent.length).flatMap fun p =>
    (b.plays.filter (·.1 = p.1)).map fun play => ⟨play.2, p.2, b.stopped⟩

def step (b : UrBackend) : UrEvent → Option UrBackend
  | .dashboard event => (b.dashboard.step options.dashboard event).map fun dashboard =>
    { b with dashboard, lines := b.lines ++ b.playLines dashboard }
  | .startScript => some { b with scriptStarted := true }
  | .invoke motion =>
    let phase : Phase :=
      if b.closed then
        .settled (.error (.deviceError (js "DISCONNECTED") (js "UR backend is closed.")))
      else .starting
    some { b with invocations := b.invocations ++ [{ motion, phase }] }
  | .ready number thrown => match b.invocations[number]? with
    | some i => match i.phase, thrown with
      | .starting, none => some (b.start options number i.motion)
      | .starting, some e => some (b.fail number (.thrown e))
      | _, _ => none
    | none => none
  | .hear number => (b.invocations[number]?).bind (b.hear number)
  | .goOn number thrown => (b.invocations[number]?).bind fun i => b.goOn options number i thrown
  | .stop => some (b.stopMotion options)
  | .hearStop number => (b.stops[number]?).bind (b.hearStop options number)
  | .goOnStop number thrown => (b.stops[number]?).bind fun s => b.goOnStop number s thrown
  | .close => some { b with closed := true }
  | .closeScript => some { b with scriptClosed := true }

def machine : Machine UrBackend UrEvent := ⟨step options⟩

end UrBackend

end Pinout.Ur
