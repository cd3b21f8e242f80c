import Mathlib.Algebra.Order.Ring.Unbundled.Rat
import Mathlib.Logic.Function.Basic
import Pinout.Foundation.Fallible
import Pinout.Foundation.Utf16

/-! # PWM channels

`gpio.write`, `gpio.pwm`, `gpio.servo` and `gpio.motor` of `firmware/esp32-bridge/src/main.cpp`. PWM comes from channels
with a frequency and a duty, and a pin follows its channel while it is attached. A request that takes a channel over from
another pin, or writes a level to a pin that is attached, leaves a pin with another output than the one commanded; as long
as no request does (`AllFree`), every pin has what it was commanded last (`output_eq_commanded`). -/

namespace Pinout.Esp32Bridge

open Foundation

structure BoardTable where
  maxGpioPin : Int
  pwmChannels : Int
  motorChannels : Int
  servoChannelBase : Int
  isFlashPin : Int → Bool
  isInputOnlyPin : Int → Bool
  isUart0Pin : Int → Bool
  isStrapPin : Int → Bool
  isUsbPin : Int → Bool
  isReservedPin : Int → Bool
  /-- The ticks of a duty: `static_cast<uint32_t>(duty * 255)`. -/
  dutyTicks : ℚ → Nat
  servoTicks : ℚ → Nat

/-- `isWritablePin`. -/
def BoardTable.isWritablePin (board : BoardTable) (pin : Int) : Bool :=
  0 ≤ pin && pin ≤ board.maxGpioPin && !board.isFlashPin pin && !board.isUart0Pin pin && !board.isStrapPin pin &&
    !board.isUsbPin pin && !board.isReservedPin pin && !board.isInputOnlyPin pin

structure Channel where
  frequency : Int
  resolution : Nat
  duty : Nat
  deriving DecidableEq

inductive Output
  | level (value : Bool)
  | pwm (channel : Channel)
  deriving DecidableEq

/-- The firmware, as far as outputs go, with its pins and channels. -/
structure Firmware where
  activePwmPins : Int → Option Int
  channels : Int → Channel
  attached : Int → Option Int
  levels : Int → Bool

namespace Firmware

/-- What a pin gives: it follows its channel while it is attached. -/
def output (f : Firmware) (pin : Int) : Output :=
  match f.attached pin with
  | some channel => .pwm (f.channels channel)
  | none => .level (f.levels pin)

/-- `pinoutLedcDetachPin`. -/
def detachPin (f : Firmware) (pin : Int) : Firmware := { f with attached := Function.update f.attached pin none }

/-- `pinoutLedcSetup`, `pinoutLedcAttachPin` and `pinoutLedcWrite`, and what stands between them. -/
def takeChannel (f : Firmware) (pin channel : Int) (setting : Channel) : Firmware :=
  let f := match f.activePwmPins channel with
    | some other => if other = pin then f else f.detachPin other
    | none => f
  { f with
    channels := Function.update f.channels channel setting
    attached := Function.update f.attached pin (some channel)
    activePwmPins := Function.update f.activePwmPins channel (some pin) }

/-- `digitalWrite` and `pinMode`. -/
def digitalWrite (f : Firmware) (pin : Int) (value : Bool) : Firmware :=
  { f with levels := Function.update f.levels pin value }

end Firmware

/-! ## Requests -/

/-- A request, with the fields of its payload that have the right type. -/
inductive Request
  | gpioWrite (pin : Option Int) (value : Option Bool)
  | gpioPwm (pin channel : Option Int) (duty : Option ℚ) (frequency : Option Int)
  | gpioServo (pin : Option Int) (angle : Option ℚ)
  | gpioMotor (pwmPin : Option Int) (speed : Option ℚ) (dirPin : Option Int)

/-- What `sendError` sends. -/
structure Refusal where
  code : JsString
  message : JsString

section Handlers

variable (board : BoardTable)

def servoChannel (pin : Int) : Int :=
  board.servoChannelBase + pin % (board.pwmChannels - board.servoChannelBase)

def motorChannel (pin : Int) : Int := pin % board.motorChannels

def pwmSetting (duty : ℚ) (frequency : Int) : Channel := ⟨frequency, 8, board.dutyTicks duty⟩

def servoSetting (angle : ℚ) : Channel := ⟨50, 16, board.servoTicks angle⟩

def motorSetting (speed : ℚ) : Channel := ⟨1000, 8, board.dutyTicks |speed|⟩

def handle (f : Firmware) : Request → Except Refusal Firmware
  | .gpioWrite (some pin) (some value) =>
    if board.isWritablePin pin then .ok (f.digitalWrite pin value)
    else .error ⟨js "INVALID_PIN", js "Pin is not a valid ESP32 output GPIO."⟩
  | .gpioWrite _ _ => .error ⟨js "INVALID_PAYLOAD", js "gpio.write requires integer pin and boolean value."⟩
  | .gpioPwm (some pin) (some channel) (some duty) (some frequency) =>
    if board.isWritablePin pin = false ∨ channel < 0 ∨ channel ≥ board.pwmChannels ∨ duty < 0 ∨ duty > 1 ∨
        frequency ≤ 0 then
      .error ⟨js "INVALID_PIN", js "Invalid PWM pin or parameters."⟩
    else .ok (f.takeChannel pin channel (pwmSetting board duty frequency))
  | .gpioPwm _ _ _ _ =>
    .error ⟨js "INVALID_PAYLOAD", js "gpio.pwm requires pin, channel, duty, and frequency."⟩
  | .gpioServo (some pin) (some angle) =>
    if board.isWritablePin pin = false then
      .error ⟨js "INVALID_PIN", js "Pin is not a valid ESP32 output GPIO."⟩
    else if angle < 0 ∨ angle > 180 then
      .error ⟨js "INVALID_PAYLOAD", js "Servo angle must be between 0 and 180."⟩
    else .ok (f.takeChannel pin (servoChannel board pin) (servoSetting board angle))
  | .gpioServo _ _ => .error ⟨js "INVALID_PAYLOAD", js "gpio.servo requires pin and angle."⟩
  | .gpioMotor (some pwmPin) (some speed) dirPin =>
    if board.isWritablePin pwmPin = false then
      .error ⟨js "INVALID_PIN", js "PWM pin is not a valid ESP32 output GPIO."⟩
    else
      let taken := f.takeChannel pwmPin (motorChannel board pwmPin) (motorSetting board speed)
      match dirPin with
      | none =>
        if speed < 0 ∨ speed > 1 then
          .error ⟨js "INVALID_PAYLOAD",
            js "Motor speed must be between 0 and 1 unless a direction pin is provided."⟩
        else .ok taken
      | some dirPin =>
        if board.isWritablePin dirPin = false then
          .error ⟨js "INVALID_PIN", js "Direction pin is not a valid ESP32 output GPIO."⟩
        else if speed < -1 ∨ speed > 1 then
          .error ⟨js "INVALID_PAYLOAD", js "Motor speed must be between -1 and 1 when a direction pin is set."⟩
        else .ok (taken.digitalWrite dirPin (decide (speed ≥ 0)))
  | .gpioMotor _ _ _ => .error ⟨js "INVALID_PAYLOAD", js "gpio.motor requires pwmPin and speed."⟩

/-! ## Commands -/

/-- The channel that a request takes, with its pin and what it is set to. -/
def taken : Request → Option (Int × Int × Channel)
  | .gpioPwm (some pin) (some channel) (some duty) (some frequency) =>
    some (pin, channel, pwmSetting board duty frequency)
  | .gpioServo (some pin) (some angle) => some (pin, servoChannel board pin, servoSetting board angle)
  | .gpioMotor (some pin) (some speed) _ => some (pin, motorChannel board pin, motorSetting board speed)
  | _ => none

/-- The level that a request writes, with its pin. -/
def written : Request → Option (Int × Bool)
  | .gpioWrite (some pin) (some value) => some (pin, value)
  | .gpioMotor (some _) (some speed) (some dirPin) => some (dirPin, decide (speed ≥ 0))
  | _ => none

def command (commanded : Int → Option Output) (r : Request) : Int → Option Output :=
  let commanded := match taken board r with
    | some (pin, _, setting) => Function.update commanded pin (some (.pwm setting))
    | none => commanded
  match written r with
  | some (pin, value) => Function.update commanded pin (some (.level value))
  | none => commanded

/-- A request takes no channel over, and writes no level to a pin that has a channel or that it takes one for. -/
structure Free (f : Firmware) (r : Request) : Prop where
  channel : ∀ pin channel setting, taken board r = some (pin, channel, setting) →
    f.activePwmPins channel = none ∨ f.activePwmPins channel = some pin
  level : ∀ pin value, written r = some (pin, value) → ∀ channel, f.activePwmPins channel ≠ some pin
  apart : ∀ pin channel setting value, taken board r = some (pin, channel, setting) → written r ≠ some (pin, value)

def AllFree (f : Firmware) : List Request → Prop
  | [] => True
  | r :: rest => Free board f r ∧ ∀ f', handle board f r = .ok f' → AllFree f' rest

end Handlers

/-! ## Runs -/

variable {board : BoardTable} {f f' : Firmware} {commanded : Int → Option Output} {r : Request}

/-- What holds of the firmware while all requests are free: a pin that is attached is in the table, and pins give what
they are commanded. -/
structure Follows (f : Firmware) (commanded : Int → Option Output) : Prop where
  table : ∀ pin channel, f.attached pin = some channel → f.activePwmPins channel = some pin
  output : ∀ pin o, commanded pin = some o → f.output pin = o

theorem Firmware.output_of_attached {pin channel : Int} (h : f.attached pin = some channel) :
    f.output pin = .pwm (f.channels channel) := by
  rw [Firmware.output, h]

theorem Firmware.output_of_detached {pin : Int} (h : f.attached pin = none) : f.output pin = .level (f.levels pin) := by
  rw [Firmware.output, h]

def Firmware.take (f : Firmware) : Option (Int × Int × Channel) → Firmware
  | some (pin, channel, setting) => f.takeChannel pin channel setting
  | none => f

def Firmware.write (f : Firmware) : Option (Int × Bool) → Firmware
  | some (pin, value) => f.digitalWrite pin value
  | none => f

/-- **An accepted request** takes its channel and then writes its level. -/
theorem handle_eq_ok (h : handle board f r = .ok f') : f' = (f.take (taken board r)).write (written r) := by
  unfold handle at h
  split at h
  · split at h
    · exact (Except.ok.inj h).symm
    · cases h
  · cases h
  · split at h
    · cases h
    · exact (Except.ok.inj h).symm
  · cases h
  · split at h
    · cases h
    · split at h
      · cases h
      · exact (Except.ok.inj h).symm
  · cases h
  · split at h
    · cases h
    · dsimp only at h
      split at h
      · split at h
        · cases h
        · exact (Except.ok.inj h).symm
      · split at h
        · cases h
        · split at h
          · cases h
          · exact (Except.ok.inj h).symm
  · cases h

/-- **A channel that nobody else has** is taken: the pin follows it, and the others give what they gave. -/
theorem Follows.take (h : Follows f commanded) {pin channel : Int} {setting : Channel}
    (hfree : f.activePwmPins channel = none ∨ f.activePwmPins channel = some pin) :
    Follows (f.takeChannel pin channel setting) (Function.update commanded pin (some (.pwm setting))) := by
  have htaken : f.takeChannel pin channel setting = { f with
      channels := Function.update f.channels channel setting
      attached := Function.update f.attached pin (some channel)
      activePwmPins := Function.update f.activePwmPins channel (some pin) } := by
    rcases hfree with hnone | hsome
    · rw [Firmware.takeChannel, hnone]
    · rw [Firmware.takeChannel, hsome]
      dsimp only
      rw [if_pos rfl]
  -- who is attached elsewhere is in the table there, and the table has nobody else at the channel
  have hother : ∀ p c, p ≠ pin → f.attached p = some c → c ≠ channel := by
    rintro p c hp hattached rfl
    have htable := h.table p c hattached
    rcases hfree with hnone | hsome
    · rw [hnone] at htable
      cases htable
    · rw [hsome] at htable
      exact hp (Option.some.inj htable).symm
  rw [htaken]
  constructor
  · intro p c hattached
    dsimp only at hattached ⊢
    by_cases hp : p = pin
    · subst hp
      rw [Function.update_self] at hattached
      rw [← Option.some.inj hattached, Function.update_self]
    · rw [Function.update_of_ne hp] at hattached
      rw [Function.update_of_ne (hother p c hp hattached)]
      exact h.table p c hattached
  · intro p o ho
    by_cases hp : p = pin
    · subst hp
      rw [Function.update_self] at ho
      rw [Firmware.output_of_attached (Function.update_self ..), ← Option.some.inj ho]
      exact congrArg Output.pwm (Function.update_self ..)
    · rw [Function.update_of_ne hp] at ho
      rw [← h.output p o ho]
      cases hattached : f.attached p with
      | none =>
        rw [Firmware.output_of_detached hattached,
          Firmware.output_of_detached ((Function.update_of_ne hp _ _).trans hattached)]
      | some c =>
        rw [Firmware.output_of_attached hattached,
          Firmware.output_of_attached ((Function.update_of_ne hp _ _).trans hattached)]
        exact congrArg Output.pwm (Function.update_of_ne (hother p c hp hattached) ..)

/-- **A level at a pin without channel**: the pin gives it, and the others give what they gave. -/
theorem Follows.write (h : Follows f commanded) {pin : Int} {value : Bool}
    (hfree : ∀ channel, f.activePwmPins channel ≠ some pin) :
    Follows (f.digitalWrite pin value) (Function.update commanded pin (some (.level value))) := by
  refine ⟨h.table, fun p o ho => ?_⟩
  by_cases hp : p = pin
  · subst hp
    rw [Function.update_self] at ho
    have hdetached : f.attached p = none := Option.eq_none_iff_forall_ne_some.mpr fun c hattached =>
      hfree c (h.table p c hattached)
    rw [@Firmware.output_of_detached (f.digitalWrite p value) p hdetached, ← Option.some.inj ho]
    exact congrArg Output.level (Function.update_self ..)
  · rw [Function.update_of_ne hp] at ho
    rw [← h.output p o ho, Firmware.output, Firmware.output]
    have hlevel : (f.digitalWrite pin value).levels p = f.levels p := Function.update_of_ne hp ..
    rw [hlevel]
    rfl

theorem Follows.handle (h : Follows f commanded) (hfree : Free board f r) (hok : handle board f r = .ok f') :
    Follows f' (command board commanded r) := by
  rw [handle_eq_ok hok, command]
  have htaken : Follows (f.take (taken board r)) (match taken board r with
      | some (pin, _, setting) => Function.update commanded pin (some (.pwm setting))
      | none => commanded) := by
    cases ht : taken board r with
    | none => exact h
    | some t => exact h.take (hfree.channel t.1 t.2.1 t.2.2 ht)
  cases hw : written r with
  | none => exact htaken
  | some w =>
    refine htaken.write fun c => ?_
    cases ht : taken board r with
    | none => exact hfree.level w.1 w.2 hw c
    | some t =>
      -- the only new entry of the table is the pin of the channel
      have hne : t.1 ≠ w.1 := fun heq => hfree.apart t.1 t.2.1 t.2.2 w.2 ht (hw.trans (by rw [heq]))
      intro hc
      refine hfree.level w.1 w.2 hw c ?_
      have htable : (f.take (some t)).activePwmPins c = Function.update f.activePwmPins t.2.1 (some t.1) c := by
        rw [Firmware.take, Firmware.takeChannel]
        cases f.activePwmPins t.2.1 with
        | none => rfl
        | some other =>
          dsimp only
          split <;> rfl
      rw [htable] at hc
      by_cases hchannel : c = t.2.1
      · rw [hchannel, Function.update_self] at hc
        exact absurd (Option.some.inj hc) hne
      · rwa [Function.update_of_ne hchannel] at hc

theorem Follows.foldlM {requests : List Request} (h : Follows f commanded) (hfree : AllFree board f requests)
    (hok : requests.foldlM (Esp32Bridge.handle board) f = .ok f') :
    Follows f' (requests.foldl (command board) commanded) := by
  induction requests generalizing f commanded with
  | nil =>
    obtain rfl := Except.ok.inj hok
    exact h
  | cons r requests ih =>
    rw [List.foldlM_cons] at hok
    obtain ⟨g, hg, hok⟩ := exists_of_bind_eq_ok hok
    exact ih (h.handle hfree.1 hg) (hfree.2 g hg) hok

/-- **Outputs are independent**: while every request is free, each pin gives what it was commanded last. -/
theorem output_eq_commanded {requests : List Request} (hattached : ∀ pin, f.attached pin = none)
    (hfree : AllFree board f requests) (hok : requests.foldlM (handle board) f = .ok f') {pin : Int} {o : Output}
    (hcommanded : requests.foldl (command board) (fun _ => none) pin = some o) : f'.output pin = o := by
  have hfollows : Follows f fun _ => none := by
    refine ⟨fun p c hp => ?_, nofun⟩
    rw [hattached p] at hp
    cases hp
  exact (hfollows.foldlM hfree hok).output pin o hcommanded

/-! ## Two motors -/

def esp32Devkit : BoardTable where
  maxGpioPin := 39
  pwmChannels := 16
  motorChannels := 8
  servoChannelBase := 8
  isFlashPin pin := 6 ≤ pin && pin ≤ 11
  isInputOnlyPin pin := 34 ≤ pin && pin ≤ 39
  isUart0Pin pin := pin = 1 || pin = 3
  isStrapPin pin := pin = 12
  isUsbPin _ := false
  isReservedPin _ := false
  dutyTicks duty := (duty * 255).floor.toNat
  servoTicks angle := (1000 + (angle / 180 * 1000).floor.toNat) * 65535 / 20000

/-- The firmware after `setup`. -/
def booted : Firmware := ⟨fun _ => none, fun _ => ⟨0, 0, 0⟩, fun _ => none, fun _ => false⟩

/-- A motor on pin 25, and one on pin 26 or 33: the second has the channel of the first, or another one. -/
def motors (second : Int) : List Request :=
  [.gpioMotor (some 25) (some 1) none, .gpioMotor (some second) (some 1) none]

theorem output_motors : ∃ f', (motors 26).foldlM (handle esp32Devkit) booted = .ok f' ∧
    f'.output 25 = .pwm ⟨1000, 8, 255⟩ := by
  have hfree : AllFree esp32Devkit booted (motors 26) := by
    refine ⟨⟨fun _ _ _ _ => .inl rfl, nofun, nofun⟩, fun g hg => ⟨⟨?_, nofun, nofun⟩, fun _ _ => trivial⟩⟩
    rintro pin channel setting ⟨⟩
    obtain rfl := handle_eq_ok hg
    exact .inl (by decide)
  exact ⟨_, rfl, output_eq_commanded (fun _ => rfl) hfree rfl (by decide +kernel)⟩

/-- **A motor on pin 33** stops the one on pin 25. -/
theorem not_output_motors : ¬ ∀ (board : BoardTable) (f f' : Firmware) (requests : List Request) (pin : Int)
    (o : Output), (∀ channel, f.activePwmPins channel = none) → (∀ pin, f.attached pin = none) →
      requests.foldlM (handle board) f = .ok f' → requests.foldl (command board) (fun _ => none) pin = some o →
        f'.output pin = o := by
  intro h
  have houtput := h esp32Devkit booted _ (motors 33) 25 (.pwm ⟨1000, 8, 255⟩) (fun _ => rfl) (fun _ => rfl) rfl
    (by decide +kernel)
  revert houtput
  decide +kernel

end Pinout.Esp32Bridge
