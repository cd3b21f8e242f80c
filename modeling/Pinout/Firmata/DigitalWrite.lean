import Mathlib.Data.Nat.Bitwise
import Pinout.Errors
import Pinout.Foundation.InsertionMap
import Pinout.Foundation.Machine

/-! # Digital outputs over Firmata

`FirmataClient.digitalWrite` (`packages/protocols-firmata/src/client.ts`) sets one pin with a message of its
own, or rewrites the eight pins of a port from a latch that it keeps itself. Only the second way keeps the
latch, so a port message undoes what the first way wrote to the other pins. A board keeps the levels that
were written last exactly as long as every port message finds the other pins of its port in the latch
(`digital_outputs_iff`). -/

namespace Pinout.Firmata

open Foundation

/-! ## The client -/

/-- `new FirmataValidationError(message)`. -/
def validationError (message : JsString) : Thrown :=
  .error (js "FirmataValidationError") (some (js "FIRMATA_VALIDATION")) message

/-- `new FirmataUnsupportedError(message)`. -/
def unsupportedError (message : JsString) : Thrown :=
  .error (js "FirmataUnsupportedError") (some (js "FIRMATA_UNSUPPORTED")) message

/-- `String(pin)` of an integer. -/
def pinText (pin : Int) : JsString := (if pin < 0 then js "-" else []) ++ decimal pin.natAbs

def encodeSetDigitalPinValue (pin : Nat) (value : Bool) : List UInt8 :=
  [0xF5, pin.toUInt8, if value then 1 else 0]

def encodeDigitalPortWrite (port portValue : Nat) : List UInt8 :=
  [(0x90 ||| port).toUInt8, (portValue % 128).toUInt8, (portValue / 128 % 128).toUInt8]

/-- `options.mode`. -/
inductive WriteMode
  | pin | port
  deriving DecidableEq, Repr

/-- `FirmataClient`, with what its transport took and the value last written to each pin. -/
structure FirmataClient where
  capabilities : Option Nat := none
  portLatch : InsertionMap Nat Nat := .empty
  sent : List (List UInt8) := []
  written : Nat → Option Bool := fun _ => none

namespace FirmataClient

def assertPinKnown (c : FirmataClient) (pin : Int) : Except Thrown Unit :=
  if pin < 0 ∨ pin > 0x7F then
    .error (validationError
      (js "Pin number must be an integer between 0 and 127, received " ++ pinText pin ++ js "."))
  else match c.capabilities with
    | some count =>
      if pin ≥ count then
        .error (unsupportedError (js "Pin " ++ pinText pin ++ js " is beyond the " ++ decimal count ++
          js " pins reported by this device."))
      else .ok ()
    | none => .ok ()

def latched (c : FirmataClient) (port : Nat) : Nat := (c.portLatch.get? port).getD 0

/-- The value of its port with a pin at a level. -/
def nextPortValue (c : FirmataClient) (pin : Nat) (value : Bool) : Nat :=
  if value then c.latched (pin / 8) ||| 2 ^ (pin % 8) else Nat.ldiff (c.latched (pin / 8)) (2 ^ (pin % 8))

/-- `digitalWrite`; `failure` is what the transport rejects the message with. -/
def digitalWrite (c : FirmataClient) (pin : Int) (value : Bool) (mode : WriteMode)
    (failure : Option Thrown) : FirmataClient × Except Thrown Unit :=
  match c.assertPinKnown pin with
  | .error e => (c, .error e)
  | .ok _ => match failure with
    | some e => (c, .error e)
    | none =>
      let pin := pin.toNat
      let written := Function.update c.written pin (some value)
      match mode with
      | .port =>
        let next := c.nextPortValue pin value
        ({ c with
            portLatch := c.portLatch.insert (pin / 8) next
            sent := c.sent ++ [encodeDigitalPortWrite (pin / 8) next]
            written }, .ok ())
      | .pin =>
        ({ c with sent := c.sent ++ [encodeSetDigitalPinValue pin value], written }, .ok ())

end FirmataClient

/-! ## The board -/

/-- The level each pin was commanded to, if it was. -/
abbrev Levels : Type := Nat → Option Bool

/-- What a board with some output pins makes of the messages of `digitalWrite`. -/
def execute (outputs : Nat → Bool) (levels : Levels) : List UInt8 → Levels
  | command :: first :: second :: rest =>
    if command = 0xF5 then
      execute outputs (fun pin =>
        if pin = first.toNat ∧ outputs pin = true then some (decide (second ≠ 0)) else levels pin) rest
    else if command.toNat / 16 = 9 then
      execute outputs (fun pin =>
        if pin / 8 = command.toNat % 16 ∧ outputs pin = true then
          some ((first.toNat % 128 + second.toNat % 128 * 128).testBit (pin % 8))
        else levels pin) rest
    else execute outputs levels (first :: second :: rest)
  | _ => levels

def Whole (message : List UInt8) : Prop :=
  ∃ command first second, message = [command, first, second] ∧
    (command = 0xF5 ∨ command.toNat / 16 = 9)

section Board

variable {outputs : Nat → Bool} {levels : Levels}

@[simp] theorem execute_nil : execute outputs levels [] = levels := rfl

theorem execute_append {message : List UInt8} (h : Whole message) (rest : List UInt8) :
    execute outputs levels (message ++ rest) = execute outputs (execute outputs levels message) rest := by
  obtain ⟨command, first, second, rfl, hcommand⟩ := h
  simp only [List.cons_append, List.nil_append, execute]
  by_cases hpin : command = 0xF5
  · simp only [if_pos hpin]
  · simp only [if_neg hpin, if_pos (hcommand.resolve_left hpin)]

theorem execute_flatten_append {messages : List (List UInt8)} (h : ∀ message ∈ messages, Whole message)
    (rest : List UInt8) :
    execute outputs levels (messages.flatten ++ rest) =
      execute outputs (execute outputs levels messages.flatten) rest := by
  induction messages generalizing levels with
  | nil => rfl
  | cons message messages ih =>
    rw [List.flatten_cons, List.append_assoc, execute_append (h message (List.mem_cons_self ..)),
      execute_append (h message (List.mem_cons_self ..)),
      ih fun m hm => h m (List.mem_cons_of_mem _ hm)]

theorem whole_setDigitalPinValue (pin : Nat) (value : Bool) :
    Whole (encodeSetDigitalPinValue pin value) := ⟨_, _, _, rfl, .inl rfl⟩

theorem toNat_portCommand {port : Nat} (h : port < 16) :
    (0x90 ||| port).toUInt8.toNat = 0x90 + port := by
  have hall : ∀ p < 16, (0x90 ||| p).toUInt8.toNat = 0x90 + p := by decide
  exact hall port h

theorem whole_digitalPortWrite {port : Nat} (h : port < 16) (portValue : Nat) :
    Whole (encodeDigitalPortWrite port portValue) := by
  refine ⟨_, _, _, rfl, .inr ?_⟩
  rw [toNat_portCommand h]
  omega

/-- **A pin message** sets its pin. -/
theorem execute_setDigitalPinValue {pin : Nat} (hpin : pin < 128) (value : Bool) (q : Nat) :
    execute outputs levels (encodeSetDigitalPinValue pin value) q =
      if q = pin ∧ outputs q = true then some value else levels q := by
  have hbyte : pin.toUInt8.toNat = pin := by
    rw [UInt8.toNat_ofNat', Nat.mod_eq_of_lt (by omega)]
  rw [encodeSetDigitalPinValue, execute, if_pos rfl, execute_nil, hbyte]
  cases value <;> rfl

/-- **A port message** sets the eight pins of its port. -/
theorem execute_digitalPortWrite {port portValue : Nat} (hport : port < 16) (hvalue : portValue < 256)
    (q : Nat) :
    execute outputs levels (encodeDigitalPortWrite port portValue) q =
      if q / 8 = port ∧ outputs q = true then some (portValue.testBit (q % 8)) else levels q := by
  have hcommand := toNat_portCommand hport
  have hne : ¬ (0x90 ||| port).toUInt8 = 0xF5 := by
    intro heq
    rw [heq] at hcommand
    have hbyte : (0xF5 : UInt8).toNat = 245 := rfl
    omega
  have hlow : (portValue % 128).toUInt8.toNat % 128 + (portValue / 128 % 128).toUInt8.toNat % 128 * 128 =
      portValue := by
    rw [UInt8.toNat_ofNat', UInt8.toNat_ofNat']
    omega
  have hpart : (0x90 + port) / 16 = 9 ∧ (0x90 + port) % 16 = port := by omega
  rw [encodeDigitalPortWrite, execute, if_neg hne, hcommand, if_pos hpart.1, execute_nil, hlow,
    hpart.2]

end Board

/-! ## Runs -/

/-- A call of `digitalWrite`. -/
structure DigitalWrite where
  pin : Int
  value : Bool
  mode : WriteMode := .pin
  failure : Option Thrown := none

namespace FirmataClient

section Runs

variable (outputs : Nat → Bool)

/-- One call on an output pin, or one that is refused before anything is sent. -/
def step (c : FirmataClient) (w : DigitalWrite) : Option FirmataClient :=
  match c.assertPinKnown w.pin with
  | .error _ => some c
  | .ok _ =>
    if outputs w.pin.toNat then some (c.digitalWrite w.pin w.value w.mode w.failure).1 else none

def machine : Machine FirmataClient DigitalWrite := ⟨step outputs⟩

/-- The levels that the board was commanded to. -/
def levels (c : FirmataClient) : Levels := execute outputs (fun _ => none) c.sent.flatten

/-- **Every pin is at the level last written to it.** -/
def KeepsLevels (c : FirmataClient) : Prop :=
  ∀ pin value, c.written pin = some value → c.levels outputs pin = some value

/-- After the call, every pin is at the level last written to it. -/
def StepKeepsLevels (c : FirmataClient) (w : DigitalWrite) : Prop :=
  ∀ c', c.step outputs w = some c' → c'.KeepsLevels outputs

/-- A port message that is sent finds every other pin of its port in the latch with the value last written to
it. -/
def LatchCurrent (c : FirmataClient) (w : DigitalWrite) : Prop :=
  (∃ u, c.assertPinKnown w.pin = .ok u) → w.failure = none → w.mode = .port →
    ∀ pin value, pin / 8 = w.pin.toNat / 8 → pin ≠ w.pin.toNat → c.written pin = some value →
      (c.latched (pin / 8)).testBit (pin % 8) = value

/-- What has been sent is whole messages, and only output pins were written. -/
structure Orderly (c : FirmataClient) : Prop where
  whole : ∀ message ∈ c.sent, Whole message
  outputs : ∀ pin value, c.written pin = some value → outputs pin = true
  latch : ∀ port, c.latched port < 256

variable {outputs} {c : FirmataClient}

theorem toNat_lt_of_assertPinKnown {pin : Int} {u : Unit} (h : c.assertPinKnown pin = .ok u) :
    pin.toNat < 128 := by
  rw [assertPinKnown] at h
  split at h
  · cases h
  · omega

/-- The next value of a port is that of the latch, but for the pin. -/
theorem testBit_nextPortValue (pin : Nat) (value : Bool) (i : Nat) :
    (c.nextPortValue pin value).testBit i =
      if i = pin % 8 then value else (c.latched (pin / 8)).testBit i := by
  rw [nextPortValue]
  cases value with
  | true =>
    rw [if_pos rfl, Nat.testBit_or, Nat.testBit_two_pow]
    by_cases hi : i = pin % 8
    · simp [hi]
    · simp [hi, Ne.symm hi]
  | false =>
    rw [if_neg Bool.false_ne_true, Nat.testBit_ldiff, Nat.testBit_two_pow]
    by_cases hi : i = pin % 8
    · simp [hi]
    · simp [hi, Ne.symm hi]

theorem nextPortValue_lt (h : c.Orderly outputs) (pin : Nat) (value : Bool) :
    c.nextPortValue pin value < 256 := by
  have hlatch := h.latch (pin / 8)
  refine Nat.lt_pow_two_of_testBit (n := 8) _ fun i hi => ?_
  rw [testBit_nextPortValue, if_neg (by omega)]
  exact Nat.testBit_lt_two_pow (lt_of_lt_of_le hlatch (Nat.pow_le_pow_right Nat.two_pos hi))

theorem levels_append (h : c.Orderly outputs) (message : List UInt8) :
    execute outputs (fun _ => none) (c.sent ++ [message]).flatten =
      execute outputs (c.levels outputs) message := by
  rw [List.flatten_append, List.flatten_singleton, execute_flatten_append h.whole]
  rfl

/-- **What a call does.** -/
theorem step_cases {c' : FirmataClient} {w : DigitalWrite} (h : c.step outputs w = some c') :
    (c' = c ∧ ((∀ u, c.assertPinKnown w.pin ≠ .ok u) ∨ w.failure ≠ none)) ∨
    (∃ u, c.assertPinKnown w.pin = .ok u) ∧ w.failure = none ∧ outputs w.pin.toNat = true ∧
      w.pin.toNat < 128 ∧ c'.written = Function.update c.written w.pin.toNat (some w.value) ∧
      (w.mode = .pin ∧ c'.portLatch = c.portLatch ∧
          c'.sent = c.sent ++ [encodeSetDigitalPinValue w.pin.toNat w.value] ∨
        w.mode = .port ∧
          c'.portLatch = c.portLatch.insert (w.pin.toNat / 8) (c.nextPortValue w.pin.toNat w.value) ∧
          c'.sent = c.sent ++
            [encodeDigitalPortWrite (w.pin.toNat / 8) (c.nextPortValue w.pin.toNat w.value)]) := by
  rw [step] at h
  cases hknown : c.assertPinKnown w.pin with
  | error e =>
    rw [hknown] at h
    exact .inl ⟨(Option.some.inj h).symm, .inl nofun⟩
  | ok u =>
    rw [hknown] at h
    simp only at h
    split at h
    · next houtput =>
      have hlt := toNat_lt_of_assertPinKnown hknown
      simp only [digitalWrite, hknown] at h
      cases hfailure : w.failure with
      | some e =>
        rw [hfailure] at h
        exact .inl ⟨(Option.some.inj h).symm, .inr nofun⟩
      | none =>
        rw [hfailure] at h
        refine .inr ⟨⟨u, rfl⟩, rfl, houtput, hlt, ?_⟩
        cases hmode : w.mode with
        | pin =>
          rw [hmode] at h
          obtain rfl := Option.some.inj h
          exact ⟨rfl, .inl ⟨rfl, rfl, rfl⟩⟩
        | port =>
          rw [hmode] at h
          obtain rfl := Option.some.inj h
          exact ⟨rfl, .inr ⟨rfl, rfl, rfl⟩⟩
    · cases h

theorem Orderly.step (h : c.Orderly outputs) {c' : FirmataClient} {w : DigitalWrite}
    (hstep : c.step outputs w = some c') : c'.Orderly outputs := by
  rcases step_cases hstep with ⟨rfl, -⟩ | ⟨-, -, houtput, hlt, hwritten, hmessage⟩
  · exact h
  · have houtputs : ∀ pin value, c'.written pin = some value → outputs pin = true := by
      intro pin value hvalue
      rw [hwritten] at hvalue
      by_cases hpin : pin = w.pin.toNat
      · rw [hpin]
        exact houtput
      · rw [Function.update_of_ne hpin] at hvalue
        exact h.outputs pin value hvalue
    rcases hmessage with ⟨-, hlatch, hsent⟩ | ⟨-, hlatch, hsent⟩
    · refine ⟨fun message hm => ?_, houtputs, fun port => ?_⟩
      · rw [hsent] at hm
        rcases List.mem_append.mp hm with hold | hnew
        · exact h.whole message hold
        · rw [List.mem_singleton.mp hnew]
          exact whole_setDigitalPinValue _ _
      · rw [latched, hlatch]
        exact h.latch port
    · refine ⟨fun message hm => ?_, houtputs, fun port => ?_⟩
      · rw [hsent] at hm
        rcases List.mem_append.mp hm with hold | hnew
        · exact h.whole message hold
        · rw [List.mem_singleton.mp hnew]
          exact whole_digitalPortWrite (by omega) _
      · rw [latched, hlatch, InsertionMap.get?_insert]
        split
        · exact nextPortValue_lt h _ _
        · exact h.latch port

/-- **A call keeps the levels** exactly when a port message finds the other pins in the latch. -/
theorem latchCurrent_iff (h : c.Orderly outputs) (hkeeps : c.KeepsLevels outputs)
    {c' : FirmataClient} {w : DigitalWrite} (hstep : c.step outputs w = some c') :
    c.LatchCurrent w ↔ c.StepKeepsLevels outputs w := by
  have hstepKeeps : c.StepKeepsLevels outputs w ↔ c'.KeepsLevels outputs := by
    refine ⟨fun hall => hall c' hstep, fun hc' d hd => ?_⟩
    obtain rfl := Option.some.inj (hstep.symm.trans hd)
    exact hc'
  rw [hstepKeeps]
  rcases step_cases hstep with ⟨rfl, hrefused⟩ | ⟨hknown, hfailure, houtput, hlt, hwritten, hmessage⟩
  · refine ⟨fun _ => hkeeps, fun _ ⟨u, hu⟩ hfailure => ?_⟩
    rcases hrefused with hunknown | hfails
    · exact absurd hu (hunknown u)
    · exact absurd hfailure hfails
  · rcases hmessage with ⟨hmode, -, hsent⟩ | ⟨hmode, -, hsent⟩
    · -- a pin message sets its pin and no other
      refine ⟨fun _ pin value hvalue => ?_, fun _ _ _ hport => by rw [hmode] at hport; cases hport⟩
      rw [levels, hsent, levels_append h, execute_setDigitalPinValue hlt]
      rw [hwritten] at hvalue
      by_cases hpin : pin = w.pin.toNat
      · subst hpin
        rw [Function.update_self] at hvalue
        rw [if_pos ⟨rfl, houtput⟩, hvalue]
      · rw [Function.update_of_ne hpin] at hvalue
        rw [if_neg fun hsame => hpin hsame.1]
        exact hkeeps pin value hvalue
    · have hlevels : ∀ pin, c'.levels outputs pin =
          if pin / 8 = w.pin.toNat / 8 ∧ outputs pin = true then
            some (if pin % 8 = w.pin.toNat % 8 then w.value
              else (c.latched (w.pin.toNat / 8)).testBit (pin % 8))
          else c.levels outputs pin := by
        intro pin
        rw [levels, hsent, levels_append h, execute_digitalPortWrite (by omega) (nextPortValue_lt h _ _),
          testBit_nextPortValue]
      constructor
      · intro hcurrent pin value hvalue
        rw [hlevels]
        rw [hwritten] at hvalue
        by_cases hpin : pin = w.pin.toNat
        · subst hpin
          rw [Function.update_self] at hvalue
          rw [if_pos ⟨rfl, houtput⟩, if_pos rfl, hvalue]
        · rw [Function.update_of_ne hpin] at hvalue
          by_cases hport : pin / 8 = w.pin.toNat / 8
          · have hbit := hcurrent hknown hfailure hmode pin value hport hpin hvalue
            rw [if_pos ⟨hport, h.outputs pin value hvalue⟩, if_neg (by omega), ← hport, hbit]
          · rw [if_neg fun hsame => hport hsame.1]
            exact hkeeps pin value hvalue
      · rintro hkeeps' - - - pin value hport hpin hvalue
        have hkept := hkeeps' pin value (by rw [hwritten, Function.update_of_ne hpin, hvalue])
        rw [hlevels, if_pos ⟨hport, h.outputs pin value hvalue⟩, if_neg (by omega)] at hkept
        rw [hport]
        exact Option.some.inj hkept

end Runs

end FirmataClient

/-- **Digital outputs.** In every run of calls on output pins, after each call every pin is at the level last
written to it, exactly when every port message that is sent finds each other pin of its port that was
written in the latch with the value last written to it. -/
theorem digital_outputs_iff {outputs : Nat → Bool} {capabilities : Option Nat}
    {calls : List DigitalWrite} {c : FirmataClient}
    (hrun : (FirmataClient.machine outputs).run { capabilities } calls = some c) :
    (FirmataClient.machine outputs).Guarded (FirmataClient.StepKeepsLevels outputs) { capabilities }
        calls ↔
      (FirmataClient.machine outputs).Guarded FirmataClient.LatchCurrent { capabilities } calls := by
  refine (Machine.guarded_iff (I := fun c => c.Orderly outputs ∧ c.KeepsLevels outputs)
    (fun c w c' hc hcurrent hstep => ?_) (fun c w c' hc hstep => ?_) ⟨⟨nofun, nofun, fun _ => ?_⟩, nofun⟩
    hrun).symm
  · exact ⟨hc.1.step hstep,
      (FirmataClient.latchCurrent_iff hc.1 hc.2 hstep).mp hcurrent c' hstep⟩
  · exact FirmataClient.latchCurrent_iff hc.1 hc.2 hstep
  · exact Nat.succ_pos 255

/-- Two pins of a port, each set by a port message. -/
theorem digital_outputs_iff_port :
    (FirmataClient.machine fun _ => true).Guarded (FirmataClient.StepKeepsLevels fun _ => true)
      { capabilities := some 20 } [⟨0, true, .port, none⟩, ⟨1, true, .port, none⟩] := by
  refine (@digital_outputs_iff (fun _ => true) (some 20)
    [⟨0, true, .port, none⟩, ⟨1, true, .port, none⟩] _ rfl).mpr ?_
  refine Machine.Guarded.cons (by exact rfl) ?_
    (Machine.Guarded.cons (by exact rfl) ?_ (Machine.guarded_nil _))
  · rintro - - - pin value - - hvalue
    cases hvalue
  · rintro - - - pin value hport hpin hvalue
    by_cases hzero : pin = 0
    · subst hzero
      exact Option.some.inj hvalue
    · have hwritten : Function.update (fun _ => none) 0 (some true) pin = some value := hvalue
      rw [Function.update_of_ne hzero] at hwritten
      cases hwritten

/-- A pin that is set by a message of its own is cleared by a port message for its neighbour. -/
theorem not_digital_outputs :
    (∃ c, (FirmataClient.machine fun _ => true).run {}
        [⟨0, true, .pin, none⟩, ⟨1, true, .port, none⟩] = some c) ∧
      ¬ (FirmataClient.machine fun _ => true).Guarded (FirmataClient.StepKeepsLevels fun _ => true)
        {} [⟨0, true, .pin, none⟩, ⟨1, true, .port, none⟩] := by
  refine ⟨⟨_, rfl⟩, fun h => ?_⟩
  obtain ⟨-, h⟩ := h.of_cons rfl
  have hlast := h.1 _ rfl 0 true rfl
  exact absurd hlast (by decide)

end Pinout.Firmata
