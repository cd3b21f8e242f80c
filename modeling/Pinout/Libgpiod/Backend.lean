import Mathlib.Data.List.Sort
import Mathlib.Logic.Function.Basic
import Pinout.Foundation.Machine

/-! # The libgpiod backend

`LibgpiodBackend` (`packages/libgpiod/src/backend.ts`): each `gpio.write`, `gpio.safeState` and `close` is a
call that waits for `gpioset` children to start and to exit. What happens between two points where a call
waits is one *event*. A child owns its line while it is alive; one that asks for a line that is owned ends
at once, and is noticed later. -/

namespace Pinout.Libgpiod

open Foundation

/-! ## Lines -/

inductive LibgpiodDirection
  | input | output
  deriving DecidableEq

inductive LibgpiodPolarity
  | activeHigh | activeLow
  deriving DecidableEq

inductive LibgpiodSafeLevel
  | low | high | highZ | hold
  deriving DecidableEq

/-- `ValidatedLibgpiodLine`; a line is known by its place among the declared ones. -/
structure ValidatedLibgpiodLine where
  direction : LibgpiodDirection
  polarity : LibgpiodPolarity := .activeHigh
  safeLevel : LibgpiodSafeLevel
  deriving DecidableEq

namespace ValidatedLibgpiodLine

/-- The level the line is driven to in safe state, if it is driven. -/
def safeRaw (line : ValidatedLibgpiodLine) : Option Bool :=
  if line.direction = .input then none
  else match line.safeLevel with
    | .low => some false
    | .high => some true
    | .highZ | .hold => none

/-- The rank of a line in `orderForSafeState`. -/
def rank (line : ValidatedLibgpiodLine) : Nat :=
  if line.direction ≠ .output then 2
  else if line.safeLevel = .low ∨ line.safeLevel = .high then 0
  else if line.safeLevel = .highZ then 1
  else 2

end ValidatedLibgpiodLine

def logicalToRaw (value : Bool) : LibgpiodPolarity → Bool
  | .activeLow => !value
  | .activeHigh => value

def orderForSafeState (config : List ValidatedLibgpiodLine) : List Nat :=
  let rank := fun line => ((config[line]?).map ValidatedLibgpiodLine.rank).getD 2
  (List.range config.length).insertionSort fun a b => rank a < rank b ∨ rank a = rank b ∧ a ≤ b

/-! ## Calls -/

/-- A `gpioset` child. -/
structure GpiosetChild where
  line : Nat
  raw : Bool
  alive : Bool
  noticed : Bool := false
  deriving DecidableEq

/-- What a call waits for that works on a line. -/
inductive LineWait
  /-- `releaseHolder` waits for the exit of a child, if there was a holder. -/
  | releasing (child : Option Nat)
  | starting (child : Nat)
  deriving DecidableEq

structure LineJob where
  line : Nat
  goal : Option Bool
  wait : LineWait
  deriving DecidableEq

/-- What a call goes on with when its work on a line is done. -/
inductive AfterJob
  | write
  /-- `runPulse` waits for the pulse, unless `cancelledBeforeWait`. -/
  | pulseStart (cancelledBeforeWait : Bool)
  | pulseComplete
  | safeState (rest : List Nat)
  deriving DecidableEq

inductive CallPhase
  | running
  | working (job : LineJob) (after : AfterJob)
  | once (child : Nat)
  | waitForPulse (line : Nat)
  | closing (children : List Nat)
  | settled (resolved : Bool)
  deriving DecidableEq

inductive CallAction
  | write (line : Nat)
  | safeState (target : Option Nat)
  | close
  deriving DecidableEq

structure GpioCall where
  action : CallAction
  phase : CallPhase
  /-- The lines whose safe level `invokeSafeState` has attempted. -/
  attempted : List Nat := []
  deriving DecidableEq

/-- The lines `invokeSafeState` goes through. -/
def safeStateLines (config : List ValidatedLibgpiodLine) : Option Nat → List Nat
  | none => orderForSafeState config
  | some line => [line]

/-- The hook a pulse left in `cancelPulse` is called. -/
def GpioCall.cancelled (call : GpioCall) : GpioCall :=
  match call.phase with
  | .working job (.pulseStart _) => { call with phase := .working job (.pulseStart true) }
  | .waitForPulse _ => { call with phase := .settled true }
  | _ => call

structure LibgpiodBackend where
  config : List ValidatedLibgpiodLine
  holder : Nat → Option Nat := fun _ => none
  cancelPulse : Nat → Option Nat := fun _ => none
  closed : Bool := false
  children : List GpiosetChild := []
  calls : List GpioCall := []

/-- How `gpio.write` writes. -/
inductive WriteMode
  | hold | once | pulse

inductive GpioEvent
  | write (line : Nat) (value : Bool) (mode : WriteMode)
  | safeState (target : Option Nat)
  | close
  | released (call : Nat)
  | graceElapsed (call : Nat)
  /-- `holdLines` throws, for the exit of its child was noticed. -/
  | startFailed (call : Nat)
  | onceDone (call : Nat) (resolved : Bool)
  | pulseElapsed (call : Nat)
  | closeDone (call : Nat)
  | died (child : Nat)
  | noticed (child : Nat)

namespace LibgpiodBackend

/-! ## Operations -/

def begin (b : LibgpiodBackend) (action : CallAction) : LibgpiodBackend :=
  { b with calls := b.calls ++ [{ action, phase := .running }] }

def setPhase (b : LibgpiodBackend) (t : Nat) (phase : CallPhase) : LibgpiodBackend :=
  { b with calls := b.calls.modify t fun call => { call with phase } }

/-- `cancelPulse`. -/
def cancel (b : LibgpiodBackend) (line : Nat) : LibgpiodBackend :=
  match b.cancelPulse line with
  | some t =>
    { b with
      cancelPulse := Function.update b.cancelPulse line none
      calls := b.calls.modify t GpioCall.cancelled }
  | none => b

def hook (b : LibgpiodBackend) (line t : Nat) : LibgpiodBackend :=
  { b with cancelPulse := Function.update b.cancelPulse line (some t) }

def owned (b : LibgpiodBackend) (line : Nat) : Bool := b.children.any fun child => child.alive && child.line = line

/-- `gpioset` is spawned for a line. -/
def spawn (b : LibgpiodBackend) (line : Nat) (raw : Bool) : LibgpiodBackend :=
  { b with children := b.children ++ [{ line, raw, alive := !b.owned line }] }

/-- The lines a call has attempted when it starts to work on one. -/
def attempts (line : Nat) : AfterJob → List Nat
  | .safeState _ => [line]
  | .write | .pulseStart _ | .pulseComplete => []

/-- A call starts to work on a line, once a child that was released has exited. -/
def startJob (b : LibgpiodBackend) (t line : Nat) (goal : Option Bool) (child : Option Nat)
    (after : AfterJob) : LibgpiodBackend :=
  { b with calls := b.calls.modify t fun call =>
    { call with
      phase := .working ⟨line, goal, .releasing child⟩ after
      attempted := call.attempted ++ attempts line after } }

/-- `releaseHolder`, for work on a line. -/
def releaseHolder (b : LibgpiodBackend) (t line : Nat) (goal : Option Bool) (after : AfterJob) :
    LibgpiodBackend :=
  { b with holder := Function.update b.holder line none }.startJob t line goal (b.holder line) after

/-- `drive` up to where it waits. -/
def drive (b : LibgpiodBackend) (t line : Nat) (raw : Bool) (after : AfterJob) : LibgpiodBackend :=
  b.releaseHolder t line (some raw) after

/-- `applySafeLevel` up to where it waits. -/
def applySafeLevel (b : LibgpiodBackend) (t line : Nat) (after : AfterJob) : LibgpiodBackend :=
  match b.config[line]? with
  | some config =>
    if config.direction = .input then b.startJob t line none none after
    else match config.safeLevel with
      | .highZ => b.releaseHolder t line none after
      | .hold => b.startJob t line none none after
      | .high => b.drive t line true after
      | .low => b.drive t line false after
  | none => b.startJob t line none none after

/-- `invokeSafeState` goes on with the rest of its lines. -/
def safeNext (b : LibgpiodBackend) (t : Nat) : List Nat → LibgpiodBackend
  | [] => b.setPhase t (.settled true)
  | line :: rest => (b.cancel line).applySafeLevel t line (.safeState rest)

/-- A call goes on when its work on a line is done. -/
def goOn (b : LibgpiodBackend) (t line : Nat) : AfterJob → LibgpiodBackend
  | .write | .pulseComplete => b.setPhase t (.settled true)
  | .pulseStart true => { b with cancelPulse := Function.update b.cancelPulse line none }.setPhase t (.settled true)
  | .pulseStart false => (b.hook line t).setPhase t (.waitForPulse line)
  | .safeState rest => (b.setPhase t .running).safeNext t rest

/-! ## Events -/

/-- `invokeWrite` up to where it waits. -/
def invokeWrite (b : LibgpiodBackend) (line : Nat) (raw : Bool) (mode : WriteMode) : LibgpiodBackend :=
  let t := b.calls.length
  let begun := (b.begin (.write line)).cancel line
  match mode with
  | .once => (begun.spawn line raw).setPhase t (.once begun.children.length)
  | .pulse => (begun.hook line t).drive t line raw (.pulseStart false)
  | .hold => begun.drive t line raw .write

/-- `invokeSafeState` up to where it waits. -/
def invokeSafeState (b : LibgpiodBackend) (target : Option Nat) : LibgpiodBackend :=
  (b.begin (.safeState target)).safeNext b.calls.length (safeStateLines b.config target)

/-- `close` up to where it waits. -/
def invokeClose (b : LibgpiodBackend) : LibgpiodBackend :=
  let cancelled := (List.range b.config.length).foldl cancel b
  { cancelled with
    closed := true
    holder := fun _ => none
    calls := cancelled.calls ++
      [{ action := .close, phase := .closing ((List.range b.config.length).filterMap cancelled.holder) }] }

def isNoticed (b : LibgpiodBackend) (child : Nat) : Bool := (b.children[child]?).any (·.noticed)

def phaseOf (b : LibgpiodBackend) (t : Nat) : Option CallPhase := (b.calls[t]?).map GpioCall.phase

def step (b : LibgpiodBackend) : GpioEvent → Option LibgpiodBackend
  | .write line value mode => match b.config[line]? with
    | some config =>
      if b.closed ∨ config.direction ≠ .output then some b
      else some (b.invokeWrite line (logicalToRaw value config.polarity) mode)
    | none => some b
  | .safeState target =>
    if b.closed ∨ target.any (b.config.length ≤ ·) then some b
    else some (b.invokeSafeState target)
  | .close =>
    if b.closed then some { b with calls := b.calls ++ [{ action := .close, phase := .settled true }] }
    else some b.invokeClose
  | .released t => match b.phaseOf t with
    | some (.working ⟨line, goal, .releasing child⟩ after) =>
      if child.all b.isNoticed then
        match goal with
        | some raw => some ((b.spawn line raw).setPhase t
            (.working ⟨line, goal, .starting b.children.length⟩ after))
        | none => some (b.goOn t line after)
      else none
    | _ => none
  | .graceElapsed t => match b.phaseOf t with
    | some (.working ⟨line, _, .starting child⟩ after) =>
      if b.isNoticed child then none
      else some ({ b with holder := Function.update b.holder line (some child) }.goOn t line after)
    | _ => none
  | .startFailed t => match b.phaseOf t with
    | some (.working ⟨_, _, .starting child⟩ _) =>
      if b.isNoticed child then some (b.setPhase t (.settled false)) else none
    | _ => none
  | .onceDone t resolved => match b.phaseOf t with
    | some (.once child) => if b.isNoticed child then some (b.setPhase t (.settled resolved)) else none
    | _ => none
  | .pulseElapsed t => match b.phaseOf t with
    | some (.waitForPulse line) =>
      some (({ b with cancelPulse := Function.update b.cancelPulse line none }.setPhase t .running).applySafeLevel
        t line .pulseComplete)
    | _ => none
  | .closeDone t => match b.phaseOf t with
    | some (.closing children) =>
      if children.all b.isNoticed then some (b.setPhase t (.settled true)) else none
    | _ => none
  | .died child => match b.children[child]? with
    | some c => if c.alive then
        some { b with children := b.children.modify child fun c => { c with alive := false } }
      else none
    | none => none
  | .noticed child => match b.children[child]? with
    | some c =>
      if c.alive ∨ c.noticed then none
      else some { b with
        children := b.children.modify child fun c => { c with noticed := true }
        holder := if b.holder c.line = some child then Function.update b.holder c.line none else b.holder }
    | none => none

def machine : Machine LibgpiodBackend GpioEvent := ⟨step⟩

end LibgpiodBackend

end Pinout.Libgpiod
