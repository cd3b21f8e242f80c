import Pinout.Errors
import Pinout.Foundation.InsertionMap
import Pinout.Foundation.Machine
import Pinout.Protocol.Messages

/-! # Module processes

`ModuleProcess` (`packages/module-host/src/moduleHost.ts`) and the messages of its workers (`protocol.ts`). A
worker is a child process; its number is its place in the order in which workers are spawned, and it is
*alive* until its `exit` event. Whatever the host reacts to (a line of a worker, an exit, the callback of a
write, a timer, a call) is one event. Timers never fire early; that of the watchdog and those of shutdowns
are assumed not to fire late. `JSON.parse` is a parameter (`parse`; `none` when it throws). -/

namespace Pinout.ModuleHost

open Foundation Protocol

/-! ## Messages -/

def moduleIpcVersion : ℚ := 1

/-- `decodeMessage`, without `invalid`: the record of a message. -/
def decodeMessage (parse : JsString → Option Json) (line : JsString) : Option JsonObject :=
  let trimmed := trim line
  if trimmed = [] ∨ !(js "\x7b").isPrefixOf trimmed then none
  else match Json.fields? (parse trimmed) with
    | some record =>
      if Json.number? (record.get? (js "v")) = some moduleIpcVersion ∧
          (Json.string? (record.get? (js "kind"))).isSome then some record
      else none
    | none => none

/-- `message.kind`. -/
def kindOf (message : JsonObject) : JsString := (Json.string? (message.get? (js "kind"))).getD []

/-- `new TypeError(message)`. -/
def typeError (message : JsString) : Thrown := .error (js "TypeError") none message

/-- A property of `message.payload`, which may be missing. -/
def readPayload (message : JsonObject) (name : JsString) : Except Thrown (Option Json) :=
  match message.get? (js "payload") with
  | none => .error (typeError (js "Cannot read properties of undefined (reading '" ++ name ++ js "')"))
  | some .null => .error (typeError (js "Cannot read properties of null (reading '" ++ name ++ js "')"))
  | some (.obj fields) => .ok (JsonObject.get? fields name)
  | some _ => .ok none

/-! ## Processes -/

inductive ModuleProcessState
  | starting | ready | restarting | dead
  deriving DecidableEq, Repr

structure RestartPolicy where
  maxRestarts : Nat := 3
  backoffMs : Nat := 100
  maxBackoffMs : Nat := 2000

structure ModuleSpawnSpec where
  id : JsString
  heartbeatIntervalMs : Nat := 1000
  restart : RestartPolicy := {}

/-- The delay `setTimeout` uses: one out of its range is taken as one millisecond. -/
def timerDelay (ms : Nat) : Nat := if 1 ≤ ms ∧ ms ≤ 2147483647 then ms else 1

namespace ModuleSpawnSpec

def watchdogMs (spec : ModuleSpawnSpec) : Nat := spec.heartbeatIntervalMs * 3 + 500

/-- The backoff before the restart with the number `attempt`, from 1. -/
def backoff (spec : ModuleSpawnSpec) (attempt : Nat) : Nat :=
  min (spec.restart.backoffMs * 2 ^ (attempt - 1)) spec.restart.maxBackoffMs

/-- `new ModuleDeadError(id, message)`. -/
def deadError (spec : ModuleSpawnSpec) (message : JsString) : Thrown :=
  .error (js "Error") (some (js "MODULE_DEAD")) (js "Module '" ++ spec.id ++ js "' is dead: " ++ message)

/-- `new ModuleCrashedError(id, message)`. -/
def crashedError (spec : ModuleSpawnSpec) (message : JsString) : Thrown :=
  .error (js "Error") (some (js "MODULE_CRASHED")) (js "Module '" ++ spec.id ++ js "' crashed: " ++ message)

end ModuleSpawnSpec

structure Worker where
  respawned : Bool
  alive : Bool := true
  killed : Bool := false
  /-- Whether the write of its `init` message has been answered. -/
  initWritten : Bool := false
  heard : Nat

inductive Outcome
  | resolved (result : Option Json)
  | rejected (error : Thrown)
  | failed (message code category : Option Json) (retryable : Json)

/-- A call of `invoke`: the request it sent, if it sent one, and to which worker. -/
structure Invocation where
  requestId : Option JsString := none
  worker : Option Nat := none
  outcomes : List Outcome

structure PendingInvoke where
  call : Nat
  capability : JsString
  timeoutMs : Nat
  due : Nat

/-- Where a call of `start` is. -/
inductive StartStage
  | writing (worker : Nat)
  | waiting
  | settled (error : Option Thrown)

/-- A call of `shutdown` that found a worker. -/
structure ShutdownCall where
  worker : Nat
  due : Nat
  waiting : Bool := true

/-- `ModuleProcess`. The last fields tell what has happened. -/
structure ModuleProcess where
  child : Option Nat := none
  currentState : ModuleProcessState := .starting
  pending : InsertionMap JsString PendingInvoke := .empty
  heartbeatTimer : Option Nat := none
  restartAttempts : Nat := 0
  restartTimers : List Nat := []
  eventListeners : Nat := 0
  knownCapabilities : Option Json := some (.arr [])
  stopping : Bool := false
  requestSequence : Nat := 0
  now : Nat := 0
  workers : List Worker := []
  invocations : List Invocation := []
  starts : List StartStage := []
  shutdowns : List ShutdownCall := []
  lines : List (Nat × JsString) := []
  thrown : List Thrown := []
  /-- The restarts that were scheduled since the last heartbeat. -/
  scheduled : Nat := 0
  /-- Whether a crash found no restart left, since the last `start`. -/
  exhausted : Bool := false
  /-- Whether a worker was spawned after `shutdown` had been called. -/
  spawnedStopping : Bool := false

inductive ProcessEvent
  | start
  | initWritten (worker : Nat) (error : Option Thrown)
  | line (worker : Nat) (text : JsString) (emit : Option Thrown)
  | exit (worker : Nat) (reason : JsString)
  | restartDue (timer : Nat)
  | watchdogDue
  | invoke (capability : JsString) (timeoutMs : Nat)
  | invokeDue (requestId : JsString)
  | shutdown
  | shutdownDue (call : Nat)
  | onEvent
  | offEvent
  | elapse (ms : Nat)

/-- The listener of a `start`. -/
def StartStage.onState (spec : ModuleSpawnSpec) (state : ModuleProcessState) : StartStage → StartStage
  | .waiting => match state with
    | .ready => .settled none
    | .dead => .settled (some (spec.deadError (js "worker exited before becoming ready")))
    | .starting | .restarting => .waiting
  | stage => stage

/-- A `start` goes on when the `init` message of its worker has been written. -/
def StartStage.afterInit (spec : ModuleSpawnSpec) (state : ModuleProcessState) (worker : Nat)
    (error : Option Thrown) : StartStage → StartStage
  | .writing n =>
    if n = worker then match error with
      | some e => .settled (some e)
      | none => StartStage.onState spec state .waiting
    else .writing n
  | stage => stage

def requestIdOf (sequence : Nat) : JsString := js "inv_" ++ decimal sequence

/-- What an `error` message says of the error. -/
def errorOf (message : JsonObject) : Except Thrown Outcome :=
  match readPayload message (js "message"), readPayload message (js "code"),
      readPayload message (js "category"), readPayload message (js "retryable") with
  | .ok text, .ok code, .ok category, .ok retryable =>
    -- `new Error(message)` takes the text of what it is given
    if text.all Json.hasText then .ok (.failed text code category (match retryable with
      | none | some .null => .bool false
      | some value => value))
    else .error noPrimitive
  | .error e, _, _, _ | _, .error e, _, _ | _, _, .error e, _ | _, _, _, .error e => .error e

def settle (invocations : List Invocation) (call : Nat) (outcome : Outcome) : List Invocation :=
  invocations.modify call fun invocation =>
    { invocation with outcomes := invocation.outcomes ++ [outcome] }

/-- The loop of `rejectAllPending`. -/
def settleAll (error : Thrown) : List (JsString × PendingInvoke) → List Invocation → List Invocation
  | [], invocations => invocations
  | (_, waiter) :: pending, invocations =>
    settleAll error pending (settle invocations waiter.call (.rejected error))

namespace ModuleProcess

variable (spec : ModuleSpawnSpec) (parse : JsString → Option Json)

def setState (s : ModuleProcess) (state : ModuleProcessState) : ModuleProcess :=
  if s.currentState = state then s
  else { s with currentState := state, starts := s.starts.map (StartStage.onState spec state) }

def rejectAllPending (s : ModuleProcess) (error : Thrown) : ModuleProcess :=
  { s with pending := .empty, invocations := settleAll error s.pending.entries s.invocations }

/-- `spawnChild`, up to the write of the `init` message. -/
def spawnChild (s : ModuleProcess) (respawned : Bool) : ModuleProcess :=
  let s := { s with
    workers := s.workers ++ [({ respawned, heard := s.now } : Worker)]
    child := some s.workers.length
    spawnedStopping := s.spawnedStopping || s.stopping }
  s.setState spec .starting

/-- `start`, up to where it waits for the write. -/
def start (s : ModuleProcess) : ModuleProcess :=
  let s := { s with starts := s.starts ++ [StartStage.writing s.workers.length], exhausted := false }
  s.spawnChild spec false

def scheduleRestart (s : ModuleProcess) : ModuleProcess :=
  if s.stopping then s
  else if s.restartAttempts ≥ spec.restart.maxRestarts then
    { s with exhausted := true }.setState spec .dead
  else
    { s with
      restartAttempts := s.restartAttempts + 1
      restartTimers := s.restartTimers ++ [s.now + timerDelay (spec.backoff (s.restartAttempts + 1))]
      scheduled := s.scheduled + 1 }.setState spec .restarting

def resetHeartbeatWatch (s : ModuleProcess) : ModuleProcess :=
  { s with heartbeatTimer := some (s.now + timerDelay spec.watchdogMs) }

/-- `this.pending.get(message.id)`, with the id. -/
def waiterOf (s : ModuleProcess) (message : JsonObject) : Option (JsString × PendingInvoke) :=
  match Json.string? (message.get? (js "id")) with
  | some id => (s.pending.get? id).map (id, ·)
  | none => none

/-- A `result` message. -/
def onResult (s : ModuleProcess) (message : JsonObject) : ModuleProcess × Option Thrown :=
  match s.waiterOf message with
  | none => (s, none)
  | some (id, waiter) =>
    let s := { s with pending := s.pending.erase id }
    match readPayload message (js "result") with
    | .error e => (s, some e)
    | .ok result => ({ s with invocations := settle s.invocations waiter.call (.resolved result) }, none)

/-- An `error` message. -/
def onError (s : ModuleProcess) (message : JsonObject) : ModuleProcess × Option Thrown :=
  match s.waiterOf message with
  | none => (s, none)
  | some (id, waiter) =>
    let s := { s with pending := s.pending.erase id }
    match errorOf message with
    | .error e => (s, some e)
    | .ok outcome => ({ s with invocations := settle s.invocations waiter.call outcome }, none)

/-- `onWorkerMessage`: the process after it, and what it throws, if it throws. -/
def onWorkerMessage (s : ModuleProcess) (message : JsonObject) (emit : Option Thrown) :
    ModuleProcess × Option Thrown :=
  if kindOf message = js "ready" then match readPayload message (js "capabilities") with
    | .error e => (s, some e)
    | .ok capabilities =>
      ((resetHeartbeatWatch spec { s with knownCapabilities := capabilities }).setState spec .ready, none)
  else if kindOf message = js "result" then s.onResult message
  else if kindOf message = js "error" then s.onError message
  else if kindOf message = js "event" then
    if s.eventListeners = 0 then (s, none)
    else match readPayload message (js "event") with
      | .error e => (s, some e)
      | .ok _ => (s, emit)
  else if kindOf message = js "heartbeat" then
    (resetHeartbeatWatch spec { s with restartAttempts := 0, scheduled := 0 }, none)
  else (s, none)

def onLine (s : ModuleProcess) (worker : Nat) (text : JsString) (emit : Option Thrown) : ModuleProcess :=
  let s := { s with
    lines := s.lines ++ [(worker, text)]
    workers := s.workers.modify worker fun w => { w with heard := s.now } }
  match decodeMessage parse text with
  | none => s
  | some message =>
    let (s, thrown) := s.onWorkerMessage spec message emit
    { s with thrown := s.thrown ++ thrown.toList }

/-- The shutdowns that wait for the exit of a worker go on. -/
def endShutdowns (s : ModuleProcess) (worker : Nat) : ModuleProcess :=
  let ended := s.shutdowns.any fun call => call.waiting && call.worker = worker
  let s := { s with
    shutdowns := s.shutdowns.map fun call =>
      { call with waiting := call.waiting && call.worker ≠ worker } }
  if ended then s.setState spec .dead else s

def exited (s : ModuleProcess) (worker : Nat) (reason : JsString) : ModuleProcess :=
  rejectAllPending { s with
    workers := s.workers.modify worker fun w => { w with alive := false }
    heartbeatTimer := none, child := none } (spec.crashedError reason)

/-- The handler of `exit`, and then those of the shutdowns. -/
def onExit (s : ModuleProcess) (worker : Nat) (reason : JsString) : ModuleProcess :=
  let s := s.exited spec worker reason
  (if s.stopping then s.setState spec .dead else s.scheduleRestart spec).endShutdowns spec worker

/-- The write of the `init` message of a worker is answered. -/
def onInitWritten (s : ModuleProcess) (worker : Nat) (respawned : Bool) (error : Option Thrown) :
    ModuleProcess :=
  let s := { s with workers := s.workers.modify worker fun w => { w with initWritten := true } }
  if respawned then
    if error.isSome then s.scheduleRestart spec else s
  else { s with starts := s.starts.map (StartStage.afterInit spec s.currentState worker error) }

def onWatchdog (s : ModuleProcess) : ModuleProcess :=
  let s := { s with heartbeatTimer := none }
  if s.stopping then s
  else
    let s := s.rejectAllPending (spec.crashedError (js "heartbeat timeout"))
    match s.child with
    | some worker => { s with workers := s.workers.modify worker fun w => { w with killed := true } }
    | none => s

def invoke (s : ModuleProcess) (capability : JsString) (timeoutMs : Nat) : ModuleProcess :=
  if s.currentState = .dead then
    { s with invocations := s.invocations ++
        [{ outcomes := [.rejected (spec.deadError (js "all restart attempts exhausted"))] }] }
  else match s.child, s.currentState with
    | some worker, .ready =>
      let requestId := requestIdOf (s.requestSequence + 1)
      { s with
        requestSequence := s.requestSequence + 1
        pending := s.pending.insert requestId
          { call := s.invocations.length, capability, timeoutMs, due := s.now + timerDelay timeoutMs }
        invocations := s.invocations ++
          [{ requestId := some requestId, worker := some worker, outcomes := [] }] }
    | _, _ =>
      { s with invocations := s.invocations ++
          [{ outcomes := [.rejected (spec.crashedError (js "worker is not ready"))] }] }

/-- `shutdown`, up to where it waits. -/
def shutdown (s : ModuleProcess) : ModuleProcess :=
  let s := { s with stopping := true }
  match s.child with
  | none => s
  | some worker =>
    let s := s.rejectAllPending (spec.deadError (js "host shutting down"))
    { s with shutdowns := s.shutdowns ++ [{ worker, due := s.now + 2000 }] }

def onShutdownDue (s : ModuleProcess) (call worker : Nat) : ModuleProcess :=
  { s with
    workers := s.workers.modify worker fun w => { w with killed := true }
    shutdowns := s.shutdowns.modify call fun call => { call with waiting := false } }.setState spec .dead

/-- The text of the error of an invoke that was not answered in time. -/
def timeoutError (waiter : PendingInvoke) : Thrown :=
  .error (js "Error") none (js "MODULE_INVOKE_TIMEOUT: '" ++ waiter.capability ++
    js "' did not answer within " ++ decimal waiter.timeoutMs ++ js "ms.")

def step (s : ModuleProcess) : ProcessEvent → Option ModuleProcess
  | .start => some (s.start spec)
  | .initWritten worker error => match s.workers[worker]? with
    | some w => if w.initWritten then none else some (s.onInitWritten spec worker w.respawned error)
    | none => none
  | .line worker text emit => match s.workers[worker]? with
    | some w => if w.alive then some (s.onLine spec parse worker text emit) else none
    | none => none
  | .exit worker reason => match s.workers[worker]? with
    | some w => if w.alive then some (s.onExit spec worker reason) else none
    | none => none
  | .restartDue timer => match s.restartTimers[timer]? with
    | some due =>
      if due ≤ s.now then
        let s := { s with restartTimers := s.restartTimers.eraseIdx timer }
        some (if s.stopping then s else s.spawnChild spec true)
      else none
    | none => none
  | .watchdogDue => match s.heartbeatTimer with
    | some due => if due ≤ s.now then some (s.onWatchdog spec) else none
    | none => none
  | .invoke capability timeoutMs => some (s.invoke spec capability timeoutMs)
  | .invokeDue requestId => match s.pending.get? requestId with
    | some waiter =>
      if waiter.due ≤ s.now then
        some { s with
          pending := s.pending.erase requestId
          invocations := settle s.invocations waiter.call (.rejected (timeoutError waiter)) }
      else none
    | none => none
  | .shutdown => some (s.shutdown spec)
  | .shutdownDue call => match s.shutdowns[call]? with
    | some ⟨worker, due, true⟩ => if due ≤ s.now then some (s.onShutdownDue spec call worker) else none
    | _ => none
  | .onEvent => some { s with eventListeners := s.eventListeners + 1 }
  | .offEvent => some { s with eventListeners := s.eventListeners - 1 }
  | .elapse ms =>
    if s.heartbeatTimer.all (s.now + ms ≤ ·) ∧
        s.shutdowns.all (fun call => !call.waiting || s.now + ms ≤ call.due) then
      some { s with now := s.now + ms }
    else none

def machine : Machine ModuleProcess ProcessEvent := ⟨step spec parse⟩

end ModuleProcess

end Pinout.ModuleHost
