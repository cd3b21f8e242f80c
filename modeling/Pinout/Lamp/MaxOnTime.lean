import Mathlib.Data.Nat.Notation
import Mathlib.Logic.Function.Basic
import Mathlib.Logic.Relation

/-! # The maximum on-time of a lamp

`Esp32LampBackend` (`core/src/modules/lamp/esp32Backend.ts`) with `maxOnMs`: commands, the timer and its own off write, in
every interleaving with what the device executes and answers. The timer starts on the success of an on command only, and
its off write is taken for acknowledged whatever comes of it; `limited_of_steady` is about runs where neither matters. -/

namespace Pinout.Lamp

/-- What sends a `gpio.write`: `lamp.on`, `lamp.off` (`lamp.set` being one of them), or the timer. -/
inductive WriteKind
  | on
  | off
  | timer
  deriving DecidableEq

inductive Delivery
  | sent
  | executed
  /-- Refused, or lost on its way. -/
  | dropped
  deriving DecidableEq

structure Write where
  kind : WriteKind
  delivery : Delivery
  /-- It was answered, or has failed on the host; the device may execute it later. -/
  settled : Bool

structure State where
  now : ℕ
  /-- The lamp is on, on the device. -/
  lit : Bool
  /-- The host takes the device for neither disarmed nor tripped. -/
  ready : Bool
  /-- When `maxOnTimer` is due. -/
  timer : Option ℕ
  writes : ℕ → Option Write
  /-- When the last on command was answered, or failed. -/
  lastOn : ℕ
  /-- An off write, a disarm or a `stopAll` was issued since the device switched the lamp on. -/
  offIssued : Bool
  /-- The records of `acknowledged off`, with `lamp.changed`: whether the device had acknowledged the write. -/
  recorded : List Bool

inductive Action
  | command (id : ℕ) (on : Bool)
  | execute (id : ℕ)
  | drop (id : ℕ)
  | succeed (id : ℕ)
  /-- A write fails or is aborted, or its reply is lost. -/
  | fail (id : ℕ)
  | fire (id : ℕ)
  /-- `disarm` and `safeState`. -/
  | disarm
  /-- The device disarms, stops everything or trips. -/
  | switchOff
  | arm
  | elapse (ms : ℕ)

namespace State

def setWrite (s : State) (id : ℕ) (w : Write) : State := { s with writes := Function.update s.writes id (some w) }

/-- A write is sent. -/
def send (s : State) (id : ℕ) (kind : WriteKind) : State :=
  { s.setWrite id ⟨kind, .sent, false⟩ with offIssued := s.offIssued || decide (kind ≠ .on) }

/-- The device executes a write. -/
def execute (s : State) (id : ℕ) (w : Write) : State :=
  { s.setWrite id { w with delivery := .executed } with
    lit := decide (w.kind = .on)
    offIssued := s.offIssued && decide (w.kind ≠ .on) }

/-- What follows a write that succeeds: `maxOnMs` is set unless it is zero. The timer's own write leaves the timer. -/
def succeed (s : State) (maxOnMs id : ℕ) (w : Write) : State :=
  let s := s.setWrite id { w with settled := true }
  match w.kind with
  | .on => { s with timer := if maxOnMs = 0 then none else some (s.now + maxOnMs), lastOn := s.now }
  | .off => { s with timer := none, recorded := true :: s.recorded }
  | .timer => { s with recorded := true :: s.recorded }

/-- What follows a write that fails: the timer swallows it. -/
def fail (s : State) (id : ℕ) (w : Write) : State :=
  let s := s.setWrite id { w with settled := true }
  match w.kind with
  | .on => { s with lastOn := s.now }
  | .off => s
  | .timer => { s with recorded := false :: s.recorded }

/-- A lamp that is off. -/
def initial (ready : Bool) : State := ⟨0, false, ready, none, fun _ => none, 0, false, []⟩

end State

section Runs

variable (maxOnMs : ℕ)

inductive Step : State → Action → State → Prop
  | command {s : State} {id : ℕ} (on : Bool) (fresh : s.writes id = none) (ready : s.ready = true) :
      Step s (.command id on) (s.send id (if on then .on else .off))
  | execute {s : State} {id : ℕ} {w : Write} (hw : s.writes id = some w) (sent : w.delivery = .sent) :
      Step s (.execute id) (s.execute id w)
  | drop {s : State} {id : ℕ} {w : Write} (hw : s.writes id = some w) (sent : w.delivery = .sent) :
      Step s (.drop id) (s.setWrite id { w with delivery := .dropped })
  | succeed {s : State} {id : ℕ} {w : Write} (hw : s.writes id = some w) (done : w.delivery = .executed)
      (waiting : w.settled = false) : Step s (.succeed id) (s.succeed maxOnMs id w)
  | fail {s : State} {id : ℕ} {w : Write} (hw : s.writes id = some w) (waiting : w.settled = false) :
      Step s (.fail id) (s.fail id w)
  | fire {s : State} {id : ℕ} (fresh : s.writes id = none) (due : s.timer = some s.now) :
      Step s (.fire id) { s.send id .timer with timer := none }
  | disarm {s : State} : Step s .disarm { s with timer := none, offIssued := true, ready := false }
  | switchOff {s : State} : Step s .switchOff { s with lit := false, ready := false }
  | arm {s : State} : Step s .arm { s with ready := true }
  /-- The timer fires when it is due. -/
  | elapse {s : State} {ms : ℕ} (inTime : ∀ due, s.timer = some due → s.now + ms ≤ due) :
      Step s (.elapse ms) { s with now := s.now + ms }

/-- An on command fails only when its write is refused or lost, a write of the timer does not fail, and an off command
succeeds only while the lamp is off. -/
def Steady (s : State) : Action → Prop
  | .fail id => ∀ w, s.writes id = some w → w.kind ≠ .timer ∧ (w.kind = .on → w.delivery = .dropped)
  | .succeed id => ∀ w, s.writes id = some w → w.kind = .off → s.lit = false
  | _ => True

def SteadyStep (s t : State) : Prop := ∃ action, Steady s action ∧ Step maxOnMs s action t

/-- What a steady run keeps. -/
structure Kept (s : State) : Prop where
  /-- A lamp that is on is limited by a reply to come, or by the timer. -/
  limit : s.lit = true → s.offIssued = false →
    (∃ id w, s.writes id = some w ∧ w.kind = .on ∧ w.delivery = .executed ∧ w.settled = false) ∨
      ∃ due, s.timer = some due ∧ due ≤ s.lastOn + maxOnMs
  gone : ∀ id w, s.writes id = some w → w.kind = .on → w.settled = true → w.delivery ≠ .sent
  past : s.lastOn ≤ s.now
  due : ∀ due, s.timer = some due → s.now ≤ due
  recorded : ∀ acknowledged ∈ s.recorded, acknowledged = true

variable {maxOnMs}

theorem kept_initial (ready : Bool) : Kept maxOnMs (State.initial ready) where
  limit := nofun
  gone := nofun
  past := Nat.le_refl 0
  due := nofun
  recorded := nofun

theorem Kept.gone_setWrite {s : State} (h : Kept maxOnMs s) {id : ℕ} {w : Write}
    (hgone : w.kind = .on → w.settled = true → w.delivery ≠ .sent) :
    ∀ m w₀, (s.setWrite id w).writes m = some w₀ → w₀.kind = .on → w₀.settled = true → w₀.delivery ≠ .sent := by
  intro m w₀ hw₀
  by_cases hm : m = id
  · subst hm
    obtain rfl : w = w₀ := by simpa [State.setWrite] using hw₀
    exact hgone
  · exact h.gone m w₀ (by simpa [State.setWrite, hm] using hw₀)

/-- A write changes that is not an on command with its answer to come. -/
theorem Kept.setWrite {s : State} (h : Kept maxOnMs s) {id : ℕ} {w : Write}
    (hgone : w.kind = .on → w.settled = true → w.delivery ≠ .sent)
    (hother : ∀ w₀, s.writes id = some w₀ → w₀.kind = .on → w₀.delivery ≠ .executed) :
    Kept maxOnMs (s.setWrite id w) := by
  refine ⟨fun hlit hissued => (h.limit hlit hissued).imp_left ?_, h.gone_setWrite hgone, h.past, h.due, h.recorded⟩
  rintro ⟨m, w₀, hw₀, hon, hdone, hwaiting⟩
  have hm : m ≠ id := by
    rintro rfl
    exact hother w₀ hw₀ hon hdone
  exact ⟨m, w₀, by simpa [State.setWrite, hm] using hw₀, hon, hdone, hwaiting⟩

theorem Kept.send {s : State} (h : Kept maxOnMs s) {id : ℕ} (kind : WriteKind) (fresh : s.writes id = none) :
    Kept maxOnMs (s.send id kind) := by
  have sent : Kept maxOnMs (s.setWrite id ⟨kind, .sent, false⟩) :=
    h.setWrite nofun fun w₀ hw₀ => by simp [fresh] at hw₀
  refine { sent with limit := fun hlit hissued => sent.limit hlit ?_ }
  exact (Bool.or_eq_false_iff.mp hissued).1

/-- What is executed switches the lamp on only for a command that is not answered. -/
theorem Kept.execute {s : State} (h : Kept maxOnMs s) {id : ℕ} {w : Write} (hw : s.writes id = some w)
    (sent : w.delivery = .sent) : Kept maxOnMs (s.execute id w) := by
  have done : Kept maxOnMs (s.setWrite id { w with delivery := .executed }) := by
    refine h.setWrite nofun fun w₀ hw₀ _ => ?_
    obtain rfl : w = w₀ := Option.some.inj (hw.symm.trans hw₀)
    rw [sent]
    nofun
  refine { done with limit := fun hlit _ => .inl ⟨id, { w with delivery := .executed }, ?_, ?_, rfl, ?_⟩ }
  · simp [State.execute, State.setWrite]
  · exact of_decide_eq_true hlit
  · cases hsettled : w.settled with
    | false => rfl
    | true => exact absurd sent (h.gone id w hw (of_decide_eq_true hlit) hsettled)

theorem Kept.succeed (hset : maxOnMs ≠ 0) {s : State} (h : Kept maxOnMs s) {id : ℕ} {w : Write}
    (hw : s.writes id = some w) (done : w.delivery = .executed) (steady : Steady s (.succeed id)) :
    Kept maxOnMs (s.succeed maxOnMs id w) := by
  have hgone : w.kind = .on → true = true → w.delivery ≠ .sent := fun _ _ => by rw [done]; nofun
  have recorded : ∀ acknowledged ∈ true :: s.recorded, acknowledged = true := by simpa using h.recorded
  have gone := @Kept.gone_setWrite maxOnMs s h id { w with settled := true } hgone
  obtain ⟨kind, delivery, settled⟩ := w
  cases kind with
  | on =>
    -- the timer takes the place of the reply
    refine ⟨fun _ _ => .inr ⟨s.now + maxOnMs, if_neg hset, Nat.le_refl _⟩, gone, Nat.le_refl _, fun due hdue => ?_,
      h.recorded⟩
    obtain rfl := Option.some.inj ((if_neg hset).symm.trans hdue)
    exact Nat.le_add_right _ _
  | off =>
    have dark : s.lit = false := steady _ hw rfl
    exact ⟨fun hlit => absurd (dark.symm.trans hlit) nofun, gone, h.past, nofun, recorded⟩
  | timer =>
    have set : Kept maxOnMs (s.setWrite id ⟨.timer, delivery, true⟩) := by
      refine h.setWrite hgone fun w₀ hw₀ hon => ?_
      obtain rfl := Option.some.inj (hw.symm.trans hw₀)
      cases hon
    exact { set with recorded }

theorem Kept.fail {s : State} (h : Kept maxOnMs s) {id : ℕ} {w : Write} (hw : s.writes id = some w)
    (steady : Steady s (.fail id)) : Kept maxOnMs (s.fail id w) := by
  obtain ⟨hcommand, hdropped⟩ := steady w hw
  have set : Kept maxOnMs (s.setWrite id { w with settled := true }) := by
    refine h.setWrite (fun hon _ => by simp [hdropped hon]) fun w₀ hw₀ hon => ?_
    obtain rfl : w = w₀ := Option.some.inj (hw.symm.trans hw₀)
    simp [hdropped hon]
  obtain ⟨kind, delivery, settled⟩ := w
  cases kind with
  | on =>
    refine { set with limit := fun hlit hissued => (set.limit hlit hissued).imp_right ?_, past := Nat.le_refl _ }
    rintro ⟨due, htimer, hdue⟩
    exact ⟨due, htimer, Nat.le_trans hdue (Nat.add_le_add_right h.past _)⟩
  | off => exact set
  | timer => exact absurd rfl hcommand

theorem Kept.step (hset : maxOnMs ≠ 0) {s t : State} (h : Kept maxOnMs s) {action : Action} (steady : Steady s action)
    (hstep : Step maxOnMs s action t) : Kept maxOnMs t := by
  cases hstep with
  | command on fresh ready => exact h.send _ fresh
  | execute hw sent => exact h.execute hw sent
  | @drop id w hw sent =>
    refine h.setWrite nofun fun w₀ hw₀ _ => ?_
    obtain rfl : w = w₀ := Option.some.inj (hw.symm.trans hw₀)
    rw [sent]
    nofun
  | succeed hw done waiting => exact h.succeed hset hw done steady
  | fail hw waiting => exact h.fail hw steady
  | fire fresh due =>
    exact { h.send .timer fresh with limit := fun _ hissued => by simp [State.send] at hissued, due := nofun }
  | disarm => exact { h with limit := fun _ hissued => by simp at hissued, due := nofun }
  | switchOff => exact { h with limit := fun hlit => by simp at hlit }
  | arm => exact { h with }
  | elapse inTime => exact { h with past := Nat.le_trans h.past (Nat.le_add_right _ _), due := inTime }

end Runs

end Pinout.Lamp
