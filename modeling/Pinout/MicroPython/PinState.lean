import Mathlib.Algebra.Order.Ring.Unbundled.Rat
import Mathlib.Logic.Function.Basic
import Pinout.Foundation.Fallible
import Pinout.Foundation.Utf16

/-! # Pins and replies

The pin requests of `firmware/micropython-bridge/main.py` on a board with the `machine` module. `machine.Pin(pin, mode)`
sets the direction of a pin, `value(v)` its output latch, and `machine.PWM` drives it up to `deinit`. The bridge keeps
the `Pin` objects it made and takes one again without setting the direction, and `gpio.mode` with `output` makes none;
a reply is true of its pin exactly when that did not matter (`agrees_iff`). -/

namespace Pinout.MicroPython

open Foundation

inductive PyValue
  | int (n : Int)
  | bool (b : Bool)
  | float (q : ℚ)
  | str (text : JsString)
  | other

inductive PinMode
  | input | inputPullup | inputPulldown | output
  deriving DecidableEq

def PinMode.text : PinMode → JsString
  | input => js "input"
  | inputPullup => js "input-pullup"
  | inputPulldown => js "input-pulldown"
  | output => js "output"

def readMode : PyValue → Option PinMode
  | .str text => [PinMode.input, .inputPullup, .inputPulldown, .output].find? fun mode => mode.text = text
  | _ => none

structure Failure where
  code : JsString
  message : JsString

def invalidPin (message : JsString) : Failure := ⟨js "INVALID_PIN", message⟩

def invalidPayload (message : JsString) : Failure := ⟨js "INVALID_PAYLOAD", message⟩

/-- `config`, and whether there is `machine.PWM`. -/
structure Board where
  reservedPins : List Nat
  allowedPins : List Nat
  hasPwm : Bool
  servoDuty : ℚ → Int

/-! ## Pins -/

inductive Direction
  | input | output
  deriving DecidableEq

structure Pins where
  direction : Nat → Direction
  latch : Nat → Option Int
  pwm : Nat → Bool

/-- An entry of `pwm`. -/
structure PwmEntry where
  frequency : Int
  duty : Int
  servoAngle : Option ℚ

/-- `Bridge`, with the pins of its board. -/
structure Bridge where
  pinModes : Nat → Option PinMode := fun _ => none
  pinValues : Nat → Option Int := fun _ => none
  /-- Whether there is a `Pin` object under a pin and a direction. -/
  hardwarePins : Nat → Direction → Bool := fun _ _ => false
  pwm : Nat → Option PwmEntry := fun _ => none
  pins : Pins

namespace Bridge

/-- `machine.Pin(pin, mode)`, kept in `hardware_pins`. -/
def newPin (b : Bridge) (pin : Nat) (direction : Direction) : Bridge :=
  { b with
    hardwarePins := Function.update b.hardwarePins pin (Function.update (b.hardwarePins pin) direction true)
    pins := { b.pins with direction := Function.update b.pins.direction pin direction } }

def hardwarePin (b : Bridge) (pin : Nat) (direction : Direction) : Bridge :=
  if b.hardwarePins pin direction then b else b.newPin pin direction

def releasePwm (b : Bridge) (pin : Nat) : Bridge :=
  match b.pwm pin with
  | none => b
  | some _ => { b with
      pwm := Function.update b.pwm pin none
      pins := { b.pins with pwm := Function.update b.pins.pwm pin false } }

/-- `_ensure_pwm`, with what becomes of the entry. -/
def ensurePwm (board : Board) (b : Bridge) (pin : Nat) (frequency : Int) (change : PwmEntry → PwmEntry) :
    Except Failure Bridge :=
  match b.pwm pin with
  | some entry => .ok { b with pwm := Function.update b.pwm pin (some (change { entry with frequency })) }
  | none =>
    if board.hasPwm then
      let b := b.hardwarePin pin .output
      .ok { b with
        pwm := Function.update b.pwm pin (some (change ⟨frequency, 0, none⟩))
        pinModes := Function.update b.pinModes pin (some .output)
        pinValues := Function.update b.pinValues pin none
        pins := { b.pins with pwm := Function.update b.pins.pwm pin true } }
    else .error ⟨js "UNSUPPORTED_CAPABILITY", js "pwm requires machine.PWM (none on this runtime)"⟩

end Bridge

/-! ## Requests -/

inductive Request
  | gpioMode (pin mode : PyValue)
  | gpioWrite (pin value : PyValue)
  | gpioToggle (pin : PyValue)
  | pwmConfigure (pin : PyValue) (frequency : Option PyValue)
  | pwmWrite (pin duty : PyValue)
  | gpioServo (pin angle : PyValue)

inductive Reply
  | mode (pin : Nat) (mode : PinMode)
  | value (pin : Nat) (value : Int)
  | frequency (pin : Nat) (frequency : Int)
  | duty (pin : Nat) (duty : Int)
  | angle (pin : Nat) (angle : ℚ)

def checkPin (board : Board) : PyValue → Except Failure Nat
  | .int (.ofNat pin) =>
    if pin ∈ board.reservedPins then .error (invalidPin (js "pin " ++ decimal pin ++ js " is reserved"))
    else if board.allowedPins ≠ [] ∧ pin ∉ board.allowedPins then
      .error (invalidPin (js "pin " ++ decimal pin ++ js " is not a usable GPIO on this board"))
    else .ok pin
  | _ => .error (invalidPin (js "pin must be a non-negative integer"))

def checkInt (low high : Int) (message : JsString) : PyValue → Except Failure Int
  | .int n => if low ≤ n ∧ n ≤ high then .ok n else .error (invalidPayload message)
  | _ => .error (invalidPayload message)

def checkLevel : PyValue → Except Failure Int
  | .bool b => .ok (if b then 1 else 0)
  | value => checkInt 0 1 (js "value must be 0 or 1") value

def checkAngle (value : PyValue) : Except Failure ℚ :=
  let angle := match value with
    | .int n => some (n : ℚ)
    | .float q => some q
    | _ => none
  match angle with
  | some q =>
    if 0 ≤ q ∧ q ≤ 180 then .ok q else .error (invalidPayload (js "angle must be a number in [0, 180]"))
  | none => .error (invalidPayload (js "angle must be a number in [0, 180]"))

namespace Bridge

def gpioMode (b : Bridge) (pin : Nat) (mode : PinMode) : Bridge :=
  let b := b.releasePwm pin
  let b := { b with pinModes := Function.update b.pinModes pin (some mode) }
  if mode = .output then b else b.newPin pin .input

/-- What `gpio_write` does once PWM is released. -/
def setLevel (b : Bridge) (pin : Nat) (value : Int) : Bridge :=
  let b := { b with
    pinModes := Function.update b.pinModes pin (some .output)
    pinValues := Function.update b.pinValues pin (some value) }
  let b := b.hardwarePin pin .output
  { b with pins := { b.pins with latch := Function.update b.pins.latch pin (some value) } }

/-- `gpio_write`, with the checks of its payload done. -/
def gpioWrite (b : Bridge) (pin : Nat) (value : Int) : Except Failure Bridge :=
  match b.pinModes pin with
  | some .output | none => .ok ((b.releasePwm pin).setLevel pin value)
  | some mode => .error (invalidPin (js "pin " ++ decimal pin ++ js " is configured as " ++ mode.text ++
      js "; call gpio.mode first"))

def handle (board : Board) (b : Bridge) : Request → Except Failure (Bridge × Reply)
  | .gpioMode pin mode => do
    let pin ← checkPin board pin
    match readMode mode with
    | some mode => return (b.gpioMode pin mode, .mode pin mode)
    | none => throw (invalidPayload (js "mode must be input, input-pullup, input-pulldown or output"))
  | .gpioWrite pin value => do
    let pin ← checkPin board pin
    let value ← checkLevel value
    return (← b.gpioWrite pin value, .value pin value)
  | .gpioToggle pin => do
    let pin ← checkPin board pin
    match b.pinValues pin with
    | some level =>
      let value := if level = 0 then 1 else 0
      return (← b.gpioWrite pin value, .value pin value)
    | none => throw (invalidPin (js "pin " ++ decimal pin ++ js " has no known value; call gpio.write first"))
  | .pwmConfigure pin frequency => do
    let pin ← checkPin board pin
    let frequency ← checkInt 1 100000 (js "frequency must be an integer in [1, 100000]")
      (frequency.getD (.int 1000))
    return (← b.ensurePwm board pin frequency id, .frequency pin frequency)
  | .pwmWrite pin duty => do
    let pin ← checkPin board pin
    match b.pwm pin with
    | some entry =>
      let duty ← checkInt 0 65535 (js "duty must be an integer in [0, 65535]") duty
      return ({ b with pwm := Function.update b.pwm pin (some { entry with duty }) }, .duty pin duty)
    | none => throw (invalidPin (js "pin " ++ decimal pin ++
        js " has no PWM configuration; call pwm.configure first"))
  | .gpioServo pin angle => do
    let pin ← checkPin board pin
    let angle ← checkAngle angle
    let b ← b.ensurePwm board pin 50 fun entry =>
      { entry with duty := board.servoDuty angle, servoAngle := some angle }
    return (b, .angle pin angle)

/-- A bridge after a request: one that fails changes nothing. -/
def serve (board : Board) (b : Bridge) (request : Request) : Bridge :=
  match b.handle board request with
  | .ok (b', _) => b'
  | .error _ => b

end Bridge

/-! ## What replies say -/

/-- **What a reply says of its pin**: its direction, its level, and whether PWM drives it. -/
def Agrees (pins : Pins) : Reply → Prop
  | .mode pin mode =>
    pins.direction pin = (if mode = .output then .output else .input) ∧ pins.pwm pin = false
  | .value pin value => pins.direction pin = .output ∧ pins.latch pin = some value ∧ pins.pwm pin = false
  | .frequency pin _ | .duty pin _ | .angle pin _ => pins.pwm pin = true

/-- Nothing depends on what the bridge does not set again: `gpio.mode` with `output` finds an output, and so does a write
that takes a `Pin` object again. -/
def Settled (b : Bridge) : Request → Prop
  | .gpioMode (.int (.ofNat pin)) mode => readMode mode = some .output → b.pins.direction pin = .output
  | .gpioWrite (.int (.ofNat pin)) _ | .gpioToggle (.int (.ofNat pin)) =>
    b.hardwarePins pin .output = true → b.pins.direction pin = .output
  | _ => True

namespace Bridge

def Driven (b : Bridge) : Prop := ∀ pin, b.pins.pwm pin = (b.pwm pin).isSome

variable {board : Board} {b b' : Bridge} {pin : Nat} {reply : Reply} {request : Request}

theorem Driven.congr (h : b.Driven) (hpwm : b'.pwm = b.pwm) (hpins : b'.pins.pwm = b.pins.pwm) : b'.Driven := by
  intro pin
  rw [hpwm, hpins]
  exact h pin

theorem Driven.update (h : b.Driven) (pin : Nat) (entry : Option PwmEntry) (hpwm : b'.pwm = Function.update b.pwm pin entry)
    (hpins : b'.pins.pwm = Function.update b.pins.pwm pin entry.isSome) : b'.Driven := by
  intro other
  rw [hpwm, hpins]
  by_cases hpin : other = pin
  · rw [hpin, Function.update_self, Function.update_self]
  · rw [Function.update_of_ne hpin, Function.update_of_ne hpin]
    exact h other

theorem hardwarePin_spec (b : Bridge) (pin : Nat) (direction : Direction) :
    (b.hardwarePin pin direction).pwm = b.pwm ∧ (b.hardwarePin pin direction).pins.pwm = b.pins.pwm ∧
      (b.hardwarePin pin direction).pins.latch = b.pins.latch ∧
      ((b.hardwarePin pin direction).pins.direction pin = direction ↔
        (b.hardwarePins pin direction = true → b.pins.direction pin = direction)) := by
  unfold hardwarePin
  split
  · next hkept => exact ⟨rfl, rfl, rfl, fun h _ => h, fun h => h hkept⟩
  · next hkept =>
    refine ⟨rfl, rfl, rfl, iff_of_true ?_ fun h => absurd h hkept⟩
    exact Function.update_self ..

theorem Driven.releasePwm (h : b.Driven) (pin : Nat) :
    (b.releasePwm pin).Driven ∧ (b.releasePwm pin).pins.pwm pin = false ∧
      (b.releasePwm pin).hardwarePins = b.hardwarePins ∧ (b.releasePwm pin).pins.direction = b.pins.direction := by
  unfold Bridge.releasePwm
  split
  · next hnone => exact ⟨h, (h pin).trans (by rw [hnone]; rfl), rfl, rfl⟩
  · exact ⟨h.update _ none rfl rfl, Function.update_self .., rfl, rfl⟩

theorem Driven.ensurePwm (h : b.Driven) {frequency : Int} {change : PwmEntry → PwmEntry}
    (hok : b.ensurePwm board pin frequency change = .ok b') : b'.Driven ∧ b'.pins.pwm pin = true := by
  unfold Bridge.ensurePwm at hok
  split at hok
  · next entry hentry =>
    obtain rfl := Except.ok.inj hok
    have hdriven : b.pins.pwm pin = true := (h pin).trans (by rw [hentry]; rfl)
    refine ⟨h.update pin (some (change { entry with frequency })) rfl ?_, hdriven⟩
    rw [Option.isSome_some, ← hdriven, Function.update_eq_self]
  · split at hok
    · obtain rfl := Except.ok.inj hok
      obtain ⟨hpwm, hpins, -, -⟩ := hardwarePin_spec b pin .output
      refine ⟨h.update pin (some (change ⟨frequency, 0, none⟩)) ?_ ?_, Function.update_self ..⟩
      · rw [← hpwm]
      · rw [← hpins]
        rfl
    · cases hok

/-- **A write** sets the level and ends PWM, and the pin is an output unless a `Pin` object was taken again that is
none. -/
theorem Driven.gpioWrite (h : b.Driven) {value : Int} (hok : b.gpioWrite pin value = .ok b') :
    b'.Driven ∧ (Agrees b'.pins (.value pin value) ↔
      (b.hardwarePins pin .output = true → b.pins.direction pin = .output)) := by
  obtain ⟨hdriven, hoff, hkept, hdirection⟩ := h.releasePwm pin
  obtain rfl : (b.releasePwm pin).setLevel pin value = b' := by
    unfold Bridge.gpioWrite at hok
    split at hok
    · exact Except.ok.inj hok
    · exact Except.ok.inj hok
    · cases hok
  obtain ⟨hpwm, hpins, -, houtput⟩ := hardwarePin_spec { b.releasePwm pin with
    pinModes := Function.update (b.releasePwm pin).pinModes pin (some .output)
    pinValues := Function.update (b.releasePwm pin).pinValues pin (some value) } pin .output
  refine ⟨hdriven.congr hpwm hpins, ?_⟩
  rw [← hkept, ← hdirection]
  exact ⟨fun hagrees => houtput.mp hagrees.1, fun hkept =>
    ⟨houtput.mpr hkept, Function.update_self .., (congrFun hpins pin).trans hoff⟩⟩

theorem checkPin_eq_ok {value : PyValue} (h : checkPin board value = .ok pin) : value = .int (.ofNat pin) := by
  unfold checkPin at h
  split at h
  · split at h
    · cases h
    · split at h
      · cases h
      · rw [Except.ok.inj h]
  · cases h

/-- **One request**: PWM drives the pins that have an entry, and the reply is true exactly when nothing depends on what
is not set again. -/
theorem Driven.handle (h : b.Driven) (hok : b.handle board request = .ok (b', reply)) :
    b'.Driven ∧ (Agrees b'.pins reply ↔ Settled b request) := by
  cases request with
  | gpioMode value mode =>
    obtain ⟨pin, hpin, hrest⟩ := exists_of_bind_eq_ok hok
    obtain rfl := checkPin_eq_ok hpin
    clear hok
    obtain ⟨hdriven, hoff, -, hdirection⟩ := h.releasePwm pin
    cases hmode : readMode mode with
    | none =>
      rw [hmode] at hrest
      cases hrest
    | some mode' =>
      rw [hmode] at hrest
      obtain ⟨rfl, rfl⟩ := Prod.mk.inj (Except.ok.inj hrest)
      rw [Settled, hmode, Option.some.injEq, Bridge.gpioMode]
      by_cases houtput : mode' = .output
      · rw [if_pos houtput, Agrees, if_pos houtput]
        exact ⟨hdriven.congr rfl rfl, fun hagrees _ => hdirection ▸ hagrees.1, fun hout =>
          ⟨(congrFun hdirection pin).trans (hout houtput), hoff⟩⟩
      · rw [if_neg houtput, Agrees, if_neg houtput]
        exact ⟨hdriven.congr rfl rfl, iff_of_true ⟨Function.update_self .., hoff⟩ fun hout => absurd hout houtput⟩
  | gpioWrite value level =>
    obtain ⟨pin, hpin, hrest⟩ := exists_of_bind_eq_ok hok
    obtain rfl := checkPin_eq_ok hpin
    clear hok
    obtain ⟨level', -, hrest⟩ := exists_of_bind_eq_ok hrest
    obtain ⟨b'', hwrite, hrest⟩ := exists_of_bind_eq_ok hrest
    obtain ⟨rfl, rfl⟩ := Prod.mk.inj (Except.ok.inj hrest)
    exact h.gpioWrite hwrite
  | gpioToggle value =>
    obtain ⟨pin, hpin, hrest⟩ := exists_of_bind_eq_ok hok
    obtain rfl := checkPin_eq_ok hpin
    clear hok
    cases hvalue : b.pinValues pin with
    | none =>
      rw [hvalue] at hrest
      cases hrest
    | some level =>
      rw [hvalue] at hrest
      obtain ⟨b'', hwrite, hrest⟩ := exists_of_bind_eq_ok hrest
      obtain ⟨rfl, rfl⟩ := Prod.mk.inj (Except.ok.inj hrest)
      exact h.gpioWrite hwrite
  | pwmConfigure value frequency =>
    obtain ⟨pin, -, hok⟩ := exists_of_bind_eq_ok hok
    obtain ⟨frequency', -, hok⟩ := exists_of_bind_eq_ok hok
    obtain ⟨b'', hensure, hok⟩ := exists_of_bind_eq_ok hok
    obtain ⟨rfl, rfl⟩ := Prod.mk.inj (Except.ok.inj hok)
    obtain ⟨hdriven, hon⟩ := h.ensurePwm hensure
    exact ⟨hdriven, iff_of_true hon trivial⟩
  | pwmWrite value duty =>
    obtain ⟨pin, -, hok⟩ := exists_of_bind_eq_ok hok
    cases hentry : b.pwm pin with
    | none =>
      rw [hentry] at hok
      cases hok
    | some entry =>
      rw [hentry] at hok
      obtain ⟨duty', -, hok⟩ := exists_of_bind_eq_ok hok
      obtain ⟨rfl, rfl⟩ := Prod.mk.inj (Except.ok.inj hok)
      have hon : b.pins.pwm pin = true := (h pin).trans (by rw [hentry]; rfl)
      refine ⟨h.update pin (some { entry with duty := duty' }) rfl ?_, iff_of_true hon trivial⟩
      rw [Option.isSome_some, ← hon, Function.update_eq_self]
  | gpioServo value angle =>
    obtain ⟨pin, -, hok⟩ := exists_of_bind_eq_ok hok
    obtain ⟨angle', -, hok⟩ := exists_of_bind_eq_ok hok
    obtain ⟨b'', hensure, hok⟩ := exists_of_bind_eq_ok hok
    obtain ⟨rfl, rfl⟩ := Prod.mk.inj (Except.ok.inj hok)
    obtain ⟨hdriven, hon⟩ := h.ensurePwm hensure
    exact ⟨hdriven, iff_of_true hon trivial⟩

theorem Driven.foldl_serve (h : b.Driven) (requests : List Request) : (requests.foldl (serve board) b).Driven := by
  induction requests generalizing b with
  | nil => exact h
  | cons request requests ih =>
    refine ih ?_
    unfold serve
    split
    · next hok => exact (h.handle hok).1
    · exact h

/-- **A reply is true of its pin** exactly when nothing depended on what the bridge does not set again, after any
requests. -/
theorem agrees_iff {pins : Pins} (hpins : ∀ pin, pins.pwm pin = false) {requests : List Request}
    (hok : (requests.foldl (serve board) { pins }).handle board request = .ok (b', reply)) :
    Agrees b'.pins reply ↔ Settled (requests.foldl (serve board) { pins }) request :=
  ((Driven.foldl_serve (b := { pins }) hpins requests).handle hok).2

/-! ## A pin that is made an input and an output again -/

def freeBoard : Board := ⟨[], [], true, fun _ => 0⟩

def resetPins : Pins := ⟨fun _ => .input, fun _ => none, fun _ => false⟩

/-- A pin that has been an output and an input, and is to be an output again. -/
def backAndForth : List Request :=
  [.gpioWrite (.int 2) (.int 1), .gpioMode (.int 2) (.str (js "input")), .gpioMode (.int 2) (.str (js "output"))]

/-- The first write of a pin makes it an output. -/
theorem agrees_first_write : ∃ b' reply, ({ pins := resetPins } : Bridge).handle freeBoard
    (.gpioWrite (.int 2) (.int 1)) = .ok (b', reply) ∧ Agrees b'.pins reply :=
  ⟨_, _, rfl, (@agrees_iff freeBoard _ _ (.gpioWrite (.int 2) (.int 1)) resetPins (fun _ => rfl) [] rfl).mpr nofun⟩

/-- **A write to a pin that is an input** is answered as if it were an output. -/
theorem not_agrees_write : ¬ ∀ (board : Board) (pins : Pins) (requests : List Request) (request : Request) (b' : Bridge)
    (reply : Reply), (∀ pin, pins.pwm pin = false) →
      (requests.foldl (serve board) { pins }).handle board request = .ok (b', reply) → Agrees b'.pins reply := by
  intro h
  have hagrees := h freeBoard resetPins backAndForth (.gpioWrite (.int 2) (.int 0)) _ _ (fun _ => rfl) rfl
  have hdirection := hagrees.1
  revert hdirection
  decide

end Bridge

end Pinout.MicroPython
