import Mathlib.Algebra.Order.Ring.Unbundled.Rat
import Pinout.Foundation.NumberPrinting

/-! # Brewing

`brew` of `core/src/modules/coffeeMachine/esp32Backend.ts`, with other commands and trips between its steps. The writes
that turn the heater and the pump on stand before the guarded region, and the loop looks at the clock and the abort
signal only: `brew_endsSafe_iff` says which brews end safe. -/

namespace Pinout.CoffeeMachine

open Foundation

/-! ## The device -/

structure Outputs where
  heater : Bool
  pump : Bool
  deriving DecidableEq

/-- What the device executes: a write to one of its outputs, `gpio.stopAll`, or a trip of its watchdog. -/
inductive Act
  | heater (enabled : Bool)
  | pump (running : Bool)
  | stopAll
  | trip
  deriving DecidableEq

def Act.apply : Act → Outputs → Outputs
  | heater enabled, o => { o with heater := enabled }
  | pump running, o => { o with pump := running }
  | stopAll, _ => ⟨false, false⟩
  | trip, _ => ⟨false, false⟩

def Outputs.switchedOff (before after : Outputs) : Bool :=
  before.heater && !after.heater || before.pump && !after.pump

inductive Event
  | sent (request : Act)
  | executed (request : Act)
  | acknowledged (request : Act)
  /-- The device executes what another command asks for, or trips: `early` when the brew has not been rejected and its
  duration has not elapsed. -/
  | other (act : Act) (early : Bool)
  deriving DecidableEq

namespace Event

def apply : Event → Outputs → Outputs
  | executed request, o => request.apply o
  | other act _, o => act.apply o
  | _, o => o

def early : Event → Bool
  | other _ early => early
  | _ => false

end Event

/-- A stop, a safe state, a trip or another write switches an output off before the duration has elapsed. -/
def interrupted : Outputs → List Event → Bool
  | _, [] => false
  | o, e :: es => e.early && o.switchedOff (e.apply o) || interrupted (e.apply o) es

theorem interrupted_append (o : Outputs) (es fs : List Event) :
    interrupted o (es ++ fs) = (interrupted o es || interrupted (es.foldl (fun o e => e.apply o) o) fs) := by
  induction es generalizing o with
  | nil => simp [interrupted]
  | cons e es ih => simp [interrupted, ih, Bool.or_assoc]

theorem interrupted_of_late {es : List Event} (h : ∀ e ∈ es, e.early = false) (o : Outputs) :
    interrupted o es = false := by
  induction es generalizing o with
  | nil => rfl
  | cons e es ih =>
    have first : e.early = false := h e (by simp)
    have rest : interrupted (e.apply o) es = false := ih (fun e he => h e (by simp [he])) _
    simp [interrupted, first, rest]

/-! ## Requests -/

/-- What becomes of a request: what others do before and after the device executes it, and whether the brew has its
answer. -/
structure Reply where
  before : List Act
  executed : Bool
  after : List Act
  acknowledged : Bool
  sound : acknowledged = true → executed = true

def Reply.rest (reply : Reply) (request : Act) (early : Bool) : List Event :=
  reply.before.map (.other · early) ++ (if reply.executed then [.executed request] else []) ++
    reply.after.map (.other · early) ++ (if reply.acknowledged then [.acknowledged request] else [])

def Reply.events (reply : Reply) (request : Act) (early : Bool) : List Event :=
  .sent request :: reply.rest request early

@[simp]
theorem Reply.sent_notMem_rest (reply : Reply) (request a : Act) (early : Bool) :
    .sent a ∉ reply.rest request early := by
  cases he : reply.executed <;> cases ha : reply.acknowledged <;> simp [Reply.rest, he, ha]

theorem Reply.sent_mem_events {reply : Reply} {request a : Act} {early : Bool} :
    .sent a ∈ reply.events request early ↔ a = request := by
  simp [Reply.events]

theorem Reply.late (reply : Reply) (request : Act) : ∀ e ∈ reply.events request false, e.early = false := by
  intro e he
  cases hx : reply.executed <;> cases ha : reply.acknowledged <;>
    simp only [Reply.events, Reply.rest, hx, ha, List.mem_cons, List.mem_append, List.mem_map] at he <;> aesop

/-! ## Waiting -/

/-- A round of the loop: what others do meanwhile, each with the time since the start, whether the delay ends or the
signal aborts it, the time after it, and whether `reportProgress` returns. -/
structure Round where
  acts : List (ℕ × Act)
  woke : Bool
  elapsed : ℕ
  reported : Bool

/-- `Date.now() - startedAt < duration`. -/
def isBefore (elapsed : ℕ) : JsNumber → Bool
  | .finite duration => decide ((elapsed : ℚ) < duration.value)
  | .infinity negative => !negative
  | .nan => false

section Waiting

variable (duration : JsNumber)

def Round.events (round : Round) : List Event := round.acts.map fun (time, act) => .other act (isBefore time duration)

def waitEvents : ℕ → List Round → List Event
  | _, [] => []
  | elapsed, round :: rounds =>
    if isBefore elapsed duration then
      round.events duration ++ (if round.woke && round.reported then waitEvents round.elapsed rounds else [])
    else []

/-- How the loop ends: by its duration or by an exception, or not yet. -/
def waitEnd : ℕ → List Round → Option Bool
  | elapsed, [] => if isBefore elapsed duration then none else some true
  | elapsed, round :: rounds =>
    if isBefore elapsed duration then
      if round.woke && round.reported then waitEnd round.elapsed rounds else some false
    else some true

end Waiting

/-! ## Brews -/

/-- What happens to a brew, step after step: what `assertWater` reads (`none` where the read fails), the two writes, the
first `reportProgress`, the rounds of the loop, the `safeState` after it, the last `reportProgress`, and the
`safeState` of the handler. -/
structure Course where
  water : Option Bool
  heater : Reply
  pump : Reply
  begun : Bool
  elapsed : ℕ
  rounds : List Round
  stop : Reply
  emitted : Bool
  reported : Bool
  handler : Reply

inductive Outcome
  | completed
  | rejected
  deriving DecidableEq

structure Brewed where
  trace : List Event
  outcome : Option Outcome

def Course.energise (course : Course) : List Event :=
  course.heater.events (.heater true) true ++ course.pump.events (.pump true) true

def guarded (duration : JsNumber) (course : Course) : Brewed :=
  let waited := course.energise ++ waitEvents duration course.elapsed course.rounds
  let handled (trace : List Event) : Brewed := ⟨trace ++ course.handler.events .stopAll false, some .rejected⟩
  match waitEnd duration course.elapsed course.rounds with
  | none => ⟨waited, none⟩
  | some false => handled waited
  | some true =>
    let stopped := waited ++ course.stop.events .stopAll false
    if course.stop.acknowledged && course.emitted && course.reported then ⟨stopped, some .completed⟩
    else handled stopped

def brew (duration : JsNumber) (course : Course) : Brewed :=
  match course.water with
  | some true =>
    if course.heater.acknowledged then
      if course.pump.acknowledged && course.begun then guarded duration course
      else ⟨course.energise, some .rejected⟩
    else ⟨course.heater.events (.heater true) true, some .rejected⟩
  | _ => ⟨[], some .rejected⟩

/-! ## Ending safe -/

/-- A `gpio.stopAll` was attempted after the last write that turns something on. -/
def StopAttempted (trace : List Event) : Prop :=
  ∃ first rest, trace = first ++ .sent .stopAll :: rest ∧ .sent (.heater true) ∉ rest ∧ .sent (.pump true) ∉ rest

/-- The last request was a `gpio.stopAll`, and it was answered. -/
def StopAcknowledged (trace : List Event) : Prop :=
  ∃ first rest, trace = first ++ .sent .stopAll :: rest ∧ .acknowledged .stopAll ∈ rest ∧ ∀ a, .sent a ∉ rest

/-- A brew that settles after its heater was to be on has tried to stop everything, and one that completes has done so
with nothing switched off before. -/
structure EndsSafe (before : Outputs) (brewed : Brewed) : Prop where
  attempted : brewed.outcome ≠ none → .sent (.heater true) ∈ brewed.trace → StopAttempted brewed.trace
  completed : brewed.outcome = some .completed →
    StopAcknowledged brewed.trace ∧ interrupted before brewed.trace = false

/-- Both writes are answered, if the first is sent at all, and the first report returns. -/
def Course.Energised (course : Course) : Prop :=
  course.water = some true → course.heater.acknowledged ∧ course.pump.acknowledged ∧ course.begun

/-- Nobody aborts the brew before its end, and its stop is answered. -/
def Course.Finishes (course : Course) (duration : JsNumber) : Prop :=
  course.water = some true ∧ waitEnd duration course.elapsed course.rounds = some true ∧ course.stop.acknowledged ∧
    course.emitted ∧ course.reported

theorem stopAttempted_append (trace : List Event) (reply : Reply) :
    StopAttempted (trace ++ reply.events .stopAll false) :=
  ⟨trace, reply.rest .stopAll false, rfl, reply.sent_notMem_rest _ _ _, reply.sent_notMem_rest _ _ _⟩

theorem stopAcknowledged_append (trace : List Event) {reply : Reply} (h : reply.acknowledged = true) :
    StopAcknowledged (trace ++ reply.events .stopAll false) :=
  ⟨trace, reply.rest .stopAll false, rfl, by simp [Reply.rest, h], fun _ => reply.sent_notMem_rest _ _ _⟩

theorem interrupted_append_stop (o : Outputs) (trace : List Event) (reply : Reply) :
    interrupted o (trace ++ reply.events .stopAll false) = interrupted o trace := by
  rw [interrupted_append, interrupted_of_late (reply.late .stopAll), Bool.or_false]

theorem not_stopAttempted {trace : List Event} (h : .sent .stopAll ∉ trace) : ¬ StopAttempted trace := by
  rintro ⟨first, rest, rfl, -⟩
  simp at h

theorem Course.sent_mem_energise {course : Course} {a : Act} :
    .sent a ∈ course.energise ↔ a = .heater true ∨ a = .pump true := by
  simp [Course.energise, Reply.sent_mem_events]

theorem endsSafe_handled (before : Outputs) (trace : List Event) (reply : Reply) :
    EndsSafe before ⟨trace ++ reply.events .stopAll false, some .rejected⟩ where
  attempted _ _ := stopAttempted_append trace reply
  completed := by simp

theorem guarded_endsSafe_iff (before : Outputs) (duration : JsNumber) (course : Course) (hw : course.water = some true) :
    EndsSafe before (guarded duration course) ↔
      (course.Finishes duration →
        interrupted before (course.energise ++ waitEvents duration course.elapsed course.rounds) = false) := by
  unfold guarded Course.Finishes
  cases hwait : waitEnd duration course.elapsed course.rounds with
  | none =>
    refine ⟨fun _ h => by simp at h, fun _ => ⟨fun h => absurd rfl h, fun h => by simp at h⟩⟩
  | some ended =>
    cases ended with
    | false => exact ⟨fun _ h => by simp at h, fun _ => endsSafe_handled _ _ _⟩
    | true =>
      dsimp only
      split
      case isTrue h =>
        simp only [Bool.and_eq_true] at h
        obtain ⟨⟨hstop, hemitted⟩, hreported⟩ := h
        constructor
        · intro safe _
          simpa only [interrupted_append_stop] using (safe.completed rfl).2
        · intro uninterrupted
          refine ⟨fun _ _ => stopAttempted_append _ _, fun _ => ⟨stopAcknowledged_append _ hstop, ?_⟩⟩
          rw [interrupted_append_stop]
          exact uninterrupted ⟨hw, rfl, hstop, hemitted, hreported⟩
      case isFalse h =>
        refine ⟨fun _ finishes => absurd ?_ h, fun _ => endsSafe_handled _ _ _⟩
        simp [finishes.2.2.1, finishes.2.2.2.1, finishes.2.2.2.2]

/-- A brew ends safe if and only if both writes are answered, and nothing is switched off before the duration of a brew
that nobody aborts has elapsed. -/
theorem brew_endsSafe_iff (before : Outputs) (duration : JsNumber) (course : Course) :
    EndsSafe before (brew duration course) ↔
      course.Energised ∧
        (course.Finishes duration →
          interrupted before (course.energise ++ waitEvents duration course.elapsed course.rounds) = false) := by
  unfold brew
  split
  case h_1 hw =>
    split
    case isTrue hheater =>
      split
      case isTrue hpump =>
        have energised : course.Energised := fun _ => by simp_all
        rw [guarded_endsSafe_iff before duration course hw]
        exact ⟨fun h => ⟨energised, h⟩, fun h => h.2⟩
      case isFalse hpump =>
        have unstopped : ¬ StopAttempted course.energise := not_stopAttempted (by simp [Course.sent_mem_energise])
        constructor
        · intro safe
          exact absurd (safe.attempted (by simp) (by simp [Course.sent_mem_energise])) unstopped
        · rintro ⟨energised, -⟩
          exact absurd (by simp [(energised hw).2]) hpump
    case isFalse hheater =>
      have unstopped : ¬ StopAttempted (course.heater.events (.heater true) true) :=
        not_stopAttempted (by simp [Reply.sent_mem_events])
      constructor
      · intro safe
        exact absurd (safe.attempted (by simp) (by simp [Reply.sent_mem_events])) unstopped
      · rintro ⟨energised, -⟩
        exact absurd (energised hw).1 hheater
  case h_2 hw =>
    have dry : course.water ≠ some true := fun h => hw h
    refine ⟨fun _ => ⟨fun h => absurd h dry, fun h => absurd h.1 dry⟩, fun _ => ⟨fun _ h => ?_, fun h => ?_⟩⟩
    · simp at h
    · simp at h

/-- A request that the device executes and answers at once. -/
def answered : Reply := ⟨[], true, [], true, fun _ => rfl⟩

def failed : Reply := ⟨[], false, [], false, fun h => h⟩

/-- The pump write fails, and the heater stays on. -/
def pumpFails : Course := ⟨some true, answered, failed, true, 0, [], answered, true, true, answered⟩

/-- `brew.stop` while the brew waits. -/
def stoppedMidway : Course :=
  ⟨some true, answered, answered, true, 0, [⟨[(50, .stopAll)], true, 100, true⟩], answered, true, true, answered⟩

/-- `brewDurationMs: 64`. -/
def duration64 : JsNumber := .finite ⟨false, 2 ^ 52, 1028, by decide, by decide, by decide⟩

theorem not_endsSafe_brew :
    ¬ EndsSafe ⟨false, false⟩ (brew duration64 pumpFails) ∧
      ¬ EndsSafe ⟨false, false⟩ (brew duration64 stoppedMidway) := by
  constructor
  · intro safe
    have unstopped : .sent .stopAll ∉ (brew duration64 pumpFails).trace := by decide
    exact not_stopAttempted unstopped (safe.attempted (by decide) (by decide))
  · intro safe
    have outcome : (brew duration64 stoppedMidway).outcome = some .completed := by decide +kernel
    have switched : interrupted ⟨false, false⟩ (brew duration64 stoppedMidway).trace = true := by decide +kernel
    exact absurd (safe.completed outcome).2 (by rw [switched]; decide)

end Pinout.CoffeeMachine
