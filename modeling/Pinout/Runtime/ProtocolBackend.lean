import Mathlib.Algebra.Order.Field.Rat
import Pinout.Foundation.Json
import Pinout.Foundation.Machine

/-! # The protocol backend

`ProtocolDeviceBackend` (`packages/core/src/runtime/protocolBackend.ts`), as far as it arms, disarms and keeps a
heartbeat. Every request is sent at once and its reply is handled later: `inFlight` are the requests without a reply,
`ready` the replies that have arrived and wait to be handled, in their order. -/

namespace Pinout.Runtime

open Foundation

/-- `state`, and the value of the evidence for `armed`. -/
inductive ArmState
  | disarmed | armed | tripped
  deriving DecidableEq, Repr

/-- `ProtocolDeviceBackendOptions`, as far as they are about arming. -/
structure BackendOptions where
  autoHeartbeat : Bool := true
  heartbeatIntervalMs : Option ℚ := none
  watchdogTimeoutMs : Option ℚ := none
  requireWatchdog : Bool := false

structure DeviceSupport where
  arm : Bool := true
  disarm : Bool := true
  stopAll : Bool := true
  kick : Bool := true
  configSafeState : Bool := true
  watchdog : Bool := true
  board : Bool := true

/-- The options of `arm`. -/
structure ArmOptions where
  timeoutMs : Option ℚ := none
  heartbeatIntervalMs : Option ℚ := none
  requireWatchdog : Option Bool := none
  deriving DecidableEq

/-- A call of `arm`, with the number of stops there were before it. -/
structure ArmCall where
  options : ArmOptions
  stops : Nat
  deriving DecidableEq

inductive Awaiting
  | configured (index : Nat) (call : ArmCall)
  | initialized (call : ArmCall)
  | armed (call : ArmCall)
  | disarmed
  | stopped
  | safeDisarmed
  | safeStopped
  | kicked
  deriving DecidableEq

/-- What a request comes to: a result, with `timeoutMs` if it has one, or an error, by its code; no reply in time is
an error as well. -/
inductive Reply
  | ok (timeoutMs : Option ℚ)
  | notArmed
  | watchdogTripped
  | failed
  deriving DecidableEq

inductive Confirmation
  | armed | disarmed | tripped | notArmed
  deriving DecidableEq, Repr

def confirmation : Awaiting → Reply → Option Confirmation
  | _, .notArmed => some .notArmed
  | _, .watchdogTripped => some .tripped
  | .armed _, .ok _ => some .armed
  | .disarmed, .ok _ | .safeDisarmed, .ok _ => some .disarmed
  | _, _ => none

/-- The state of a `ProtocolDeviceBackend`, with what is said about its runs: the last confirmation of the device, the
stops there were, whether there was a stop since the last `arm` that succeeded after it began, and for each kick
whether there was. -/
structure ProtocolBackend where
  state : ArmState := .disarmed
  tripReason : Option JsString := none
  acknowledged : ArmState := .disarmed
  commanded : Option ArmState := none
  heartbeat : Option ℚ := none
  timeoutMs : ℚ := 1000
  outputs : List Nat := []
  listening : Bool := true
  inFlight : List (Nat × Awaiting) := []
  next : Nat := 0
  ready : List (Awaiting × Reply) := []
  last : Option Confirmation := none
  stops : Nat := 0
  /-- Whether no `arm` that began after the last stop has succeeded, if there was a stop. -/
  blocked : Bool := false
  kicks : List Bool := []
  deriving DecidableEq

namespace ProtocolBackend

variable (options : BackendOptions) (support : DeviceSupport)

def construct (outputs : List Nat) : ProtocolBackend where
  timeoutMs := options.watchdogTimeoutMs.getD 1000
  outputs := outputs

variable (s : ProtocolBackend)

def request (awaiting : Awaiting) : ProtocolBackend :=
  { s with inFlight := s.inFlight ++ [(s.next, awaiting)], next := s.next + 1 }

def acknowledge (state : ArmState) (reason : Option JsString) : ProtocolBackend :=
  { s with state, acknowledged := state, tripReason := reason }

def stopHeartbeat : ProtocolBackend := { s with heartbeat := none }

def countStop : ProtocolBackend := { s with stops := s.stops + 1, blocked := true }

def keepsHeartbeat : Bool := options.autoHeartbeat && support.kick

def startHeartbeat (intervalMs : Option ℚ) : ProtocolBackend :=
  if keepsHeartbeat options support then
    let default := max 50 ((s.timeoutMs / 2).floor : ℚ)
    { s with heartbeat := some ((intervalMs <|> options.heartbeatIntervalMs).getD default) }
  else s

/-- The next output of `initializeOutputs`, or its end. -/
def nextOutput (index : Nat) (call : ArmCall) : ProtocolBackend :=
  if support.configSafeState && index < s.outputs.length then s.request (.configured index call)
  else { s with ready := s.ready ++ [(.initialized call, .ok none)] }

/-- Whether `arm` is refused. -/
def refuses (arm : ArmOptions) : Bool :=
  let requireWatchdog := arm.requireWatchdog.getD options.requireWatchdog
  let supportsWatchdog := support.arm || support.watchdog
  let requestedTimeout := (arm.timeoutMs <|> options.watchdogTimeoutMs).getD 1000
  requireWatchdog && (!supportsWatchdog ||
    (support.board && (requestedTimeout.den ≠ 1 || requestedTimeout < 250 || requestedTimeout > 10000)))

/-- A call of `arm`. -/
def arm (arm : ArmOptions) : ProtocolBackend :=
  if refuses options support arm then s else s.nextOutput support 0 { options := arm, stops := s.stops }

/-- A call of `disarm`. -/
def disarm : ProtocolBackend :=
  let s := { s.stopHeartbeat.countStop with commanded := some .disarmed }
  if support.disarm then s.request .disarmed
  else if support.stopAll then s.request .stopped
  else s.acknowledge .disarmed none

/-- The end of `safeState`, once the device was told to disarm. -/
def afterSafeDisarm : ProtocolBackend :=
  if support.stopAll then s.request .safeStopped else { s with state := .disarmed }

/-- A call of `safeState`. -/
def safeState : ProtocolBackend :=
  let s := s.stopHeartbeat.countStop
  if support.disarm then s.request .safeDisarmed else s.afterSafeDisarm support

/-- A call of `close`. -/
def close : ProtocolBackend :=
  let s := { s.stopHeartbeat with listening := false }
  if s.state = .armed then s.disarm support else s

/-- A call of `configSafeState`. -/
def configSafeState (pin : Nat) : ProtocolBackend :=
  { s with outputs := if pin ∈ s.outputs then s.outputs else s.outputs ++ [pin] }

/-- The handler of `device.tripped`, if it is listened to. -/
def trip (reason : Option JsString) : ProtocolBackend :=
  let s := { s with last := some .tripped }.countStop
  if s.listening then s.stopHeartbeat.acknowledge .tripped (some (reason.getD (js "WATCHDOG_EXPIRED"))) else s

def handle : Awaiting → Reply → ProtocolBackend
  | .configured index call, .ok _ => s.nextOutput support (index + 1) call
  | .initialized call, _ =>
    let s := { s with commanded := some .armed }
    if support.arm then s.request (.armed call) else s.acknowledge .armed none
  | .armed call, .ok timeoutMs =>
    let s := s.acknowledge .armed none
    { s with timeoutMs := timeoutMs.getD s.timeoutMs
             blocked := s.blocked && call.stops ≠ s.stops }.startHeartbeat options support
      call.options.heartbeatIntervalMs
  | .disarmed, .ok _ | .stopped, .ok _ => s.acknowledge .disarmed none
  | .safeDisarmed, _ => s.afterSafeDisarm support
  | .safeStopped, .ok _ => { s with state := .disarmed }
  | .kicked, .watchdogTripped =>
    s.stopHeartbeat.countStop.acknowledge .tripped (some (js "WATCHDOG_EXPIRED"))
  | .kicked, .notArmed => s.stopHeartbeat.acknowledge .disarmed s.tripReason
  | _, _ => s

def tick : ProtocolBackend :=
  if s.state ≠ .armed then s.stopHeartbeat else { s.request .kicked with kicks := s.kicks ++ [s.blocked] }

inductive Event
  | arm (options : ArmOptions)
  | disarm
  | safeState
  | close
  | configSafeState (pin : Nat)
  /-- The reply to a request arrives, or the time for it is over. -/
  | arrive (request : Nat) (reply : Reply)
  /-- A confirmation that nobody waits for: in a late reply, in a result that is not valid, or as the error of another
  request. -/
  | unheard (confirmation : Confirmation)
  | trip (reason : Option JsString)
  | resume
  | tick
  deriving DecidableEq

/-- One step; timers fire when all that has arrived is handled. -/
def step (s : ProtocolBackend) : Event → Option ProtocolBackend
  | .arm arm => some (s.arm options support arm)
  | .disarm => some (s.disarm support)
  | .safeState => some (s.safeState support)
  | .close => some (s.close support)
  | .configSafeState pin => some (s.configSafeState pin)
  | .arrive request reply => (s.inFlight.lookup request).map fun awaiting =>
    { s with
      inFlight := s.inFlight.filter fun entry => entry.1 ≠ request
      ready := s.ready ++ [(awaiting, reply)]
      last := confirmation awaiting reply <|> s.last }
  | .unheard confirmation => some { s with last := some confirmation }
  | .trip reason => some (s.trip reason)
  | .resume => match s.ready with
    | [] => none
    | (awaiting, reply) :: ready => some ({ s with ready }.handle options support awaiting reply)
  | .tick => if s.heartbeat.isSome ∧ s.ready = [] then some s.tick else none

def machine : Machine ProtocolBackend Event := ⟨step options support⟩

end ProtocolBackend

end Pinout.Runtime
