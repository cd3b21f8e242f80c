import Pinout.Errors
import Mathlib.Data.List.Basic

/-! # The halt coordinator

`HaltCoordinator` (`packages/core/src/halt/haltCoordinator.ts`): the state name, its reason and the
two independent flags, with every operation that updates them. Listeners run inside `transition`,
after the coordinator has been updated, and may call back; a top-level call is therefore a tree of
calls. `isHistory_callbackStates` flattens such trees: the coordinator goes through the states of the
plain sequence of the calls, in the order in which they take effect. -/

namespace Pinout.Halt

open Foundation

inductive SafetyStateName
  | normal | restricted | halted | estopRequested | faulted
  deriving DecidableEq, Repr

def SafetyStateName.text : SafetyStateName → JsString
  | .normal => js "NORMAL"
  | .restricted => js "RESTRICTED"
  | .halted => js "HALTED"
  | .estopRequested => js "ESTOP_REQUESTED"
  | .faulted => js "FAULTED"

/-- `SafetyStateChange`, the event every transition delivers. -/
structure SafetyStateChange where
  fromState : SafetyStateName
  toState : SafetyStateName
  reason : JsString
  actor : Option JsString
  at_ : Int

structure HaltVerdict where
  allowed : Bool
  code : Option JsString := none
  message : Option JsString := none

/-- The fields of `HaltCoordinator` that its operations read and write. -/
structure HaltCoordinator where
  currentState : SafetyStateName := .normal
  currentReason : JsString := []
  estopRequested : Bool := false
  faulted : Bool := false
  deriving DecidableEq

namespace HaltCoordinator

/-- `text || fallback`. -/
def textOr (text fallback : JsString) : JsString := if text = [] then fallback else text

/-- `gate`: whether an invocation with physical side effects may proceed right now. -/
def gate (c : HaltCoordinator) : HaltVerdict :=
  match c.currentState with
  | .normal => { allowed := true }
  | .restricted => { allowed := true }
  | .halted =>
    { allowed := false, code := js "SAFETY_HALTED",
      message := textOr c.currentReason (js "Runtime is halted.") }
  | .estopRequested =>
    { allowed := false, code := js "SAFETY_ESTOP_REQUESTED",
      message := textOr c.currentReason (js "Emergency stop requested.") }
  | .faulted =>
    { allowed := false, code := js "SAFETY_FAULTED",
      message := textOr c.currentReason (js "Runtime is faulted.") }

/-- `enforceGate`: throw a structured error when gated. -/
def enforceGate (c : HaltCoordinator) : Except StructuredError Unit :=
  let verdict := c.gate
  if verdict.allowed then .ok ()
  else .error
    { pinoutStructuredError (verdict.code.getD (js "SAFETY_HALTED")) .safety
        (verdict.message.getD (js "Physical action rejected by safety state.")) with
      details := [(js "state", .str c.currentState.text)] }

/-- The update `transition` makes before it notifies anyone. -/
def transition (c : HaltCoordinator) (toState : SafetyStateName) (reason : JsString) :
    HaltCoordinator :=
  if c.currentState = toState ∧ c.currentReason = reason then c
  else { c with currentState := toState, currentReason := reason }

/-- Whether `transition` notifies the listeners, and with what. -/
def transitionChange (c : HaltCoordinator) (toState : SafetyStateName) (reason : JsString)
    (actor : Option JsString) (now : Int) : Option SafetyStateChange :=
  if c.currentState = toState ∧ c.currentReason = reason then none
  else some { fromState := c.currentState, toState, reason, actor, at_ := now }

end HaltCoordinator

/-- The operations of the coordinator that change it. -/
inductive Call
  | halt (reason : JsString) (actor : Option JsString)
  | requestEstop (reason : JsString) (actor : Option JsString)
  | clearEstop (actor : Option JsString)
  | fault (reason : JsString) (actor : Option JsString)
  | clearFault (actor : Option JsString)
  /-- `resume(reason, actor)`, `reason` defaulting to `'Resume requested'`. -/
  | resume (reason : Option JsString) (actor : Option JsString)
  | restrict (reason : JsString) (actor : Option JsString)
  deriving DecidableEq

namespace HaltCoordinator

/-- `resume` throws while an estop or a fault is uncleared. -/
def resumeError (c : HaltCoordinator) : Option StructuredError :=
  if c.estopRequested then
    some (pinoutStructuredError (js "SAFETY_ESTOP_STILL_ACTIVE") .safety
      (js "Emergency stop has not been cleared; call clearEstop() first."))
  else if c.faulted then
    some (pinoutStructuredError (js "SAFETY_FAULT_STILL_ACTIVE") .safety
      (js "Fault has not been cleared; call clearFault() first."))
  else none

def thrown (c : HaltCoordinator) : Call → Option StructuredError
  | .resume _ _ => c.resumeError
  | _ => none

/-- What a call does before `transition`: the flags, and the target and reason of the transition it
then makes, if it makes one. -/
def prepare (c : HaltCoordinator) :
    Call → HaltCoordinator × Option (SafetyStateName × JsString × Option JsString)
  | .halt reason actor => (c, some (.halted, reason, actor))
  | .requestEstop reason actor =>
    ({ c with estopRequested := true }, some (.estopRequested, reason, actor))
  | .clearEstop actor =>
    if c.estopRequested then
      ({ c with estopRequested := false },
        if c.currentState = .estopRequested then
          some (.halted, js "Estop cleared; awaiting explicit resume.", actor)
        else none)
    else (c, none)
  | .fault reason actor => ({ c with faulted := true }, some (.faulted, reason, actor))
  | .clearFault actor =>
    if c.faulted then
      ({ c with faulted := false },
        if c.currentState = .faulted then some (.normal, js "Fault cleared.", actor) else none)
    else (c, none)
  | .resume reason actor =>
    match c.resumeError with
    | some _ => (c, none)
    | none =>
      (c, if c.currentState = .halted ∨ c.currentState = .restricted then
        some (.normal, reason.getD (js "Resume requested"), actor) else none)
  | .restrict reason actor =>
    (c, if c.currentState = .normal then some (.restricted, reason, actor) else none)

def apply (c : HaltCoordinator) (call : Call) : HaltCoordinator :=
  match c.prepare call with
  | (c', some (toState, reason, _)) => c'.transition toState reason
  | (c', none) => c'

/-- The change a call delivers to the listeners, if it delivers one. -/
def change (c : HaltCoordinator) (call : Call) (now : Int) : Option SafetyStateChange :=
  match c.prepare call with
  | (c', some (toState, reason, actor)) => c'.transitionChange toState reason actor now
  | (_, none) => none

def notifies (c : HaltCoordinator) (call : Call) : Bool :=
  match c.prepare call with
  | (c', some (toState, reason, _)) => !(c'.currentState = toState ∧ c'.currentReason = reason)
  | (_, none) => false

@[simp] theorem transition_currentState (c : HaltCoordinator) (toState : SafetyStateName)
    (reason : JsString) : (c.transition toState reason).currentState = toState := by
  unfold transition
  split
  · next h => exact h.1
  · rfl

@[simp] theorem transition_estopRequested (c : HaltCoordinator) (toState : SafetyStateName)
    (reason : JsString) : (c.transition toState reason).estopRequested = c.estopRequested := by
  unfold transition
  split <;> rfl

@[simp] theorem transition_faulted (c : HaltCoordinator) (toState : SafetyStateName)
    (reason : JsString) : (c.transition toState reason).faulted = c.faulted := by
  unfold transition
  split <;> rfl

attribute [local simp] apply prepare

theorem apply_currentState (c : HaltCoordinator) (call : Call) :
    (c.apply call).currentState = match call with
      | .halt _ _ => .halted
      | .requestEstop _ _ => .estopRequested
      | .fault _ _ => .faulted
      | .clearEstop _ =>
        if c.estopRequested ∧ c.currentState = .estopRequested then .halted else c.currentState
      | .clearFault _ =>
        if c.faulted ∧ c.currentState = .faulted then .normal else c.currentState
      | .resume _ _ =>
        if c.resumeError = none ∧ (c.currentState = .halted ∨ c.currentState = .restricted)
        then .normal else c.currentState
      | .restrict _ _ => if c.currentState = .normal then .restricted else c.currentState := by
  cases call with
  | clearEstop actor =>
    by_cases hf : c.estopRequested = true <;> by_cases hs : c.currentState = .estopRequested <;>
      simp [hf, hs]
  | clearFault actor =>
    by_cases hf : c.faulted = true <;> by_cases hs : c.currentState = .faulted <;>
      simp [hf, hs]
  | resume reason actor =>
    cases herr : c.resumeError with
    | some error => simp [herr]
    | none =>
      by_cases hs : c.currentState = .halted ∨ c.currentState = .restricted <;>
        simp [herr, hs]
  | restrict reason actor =>
    by_cases hs : c.currentState = .normal <;> simp [hs]
  | _ => simp

/-- The transition a call makes leaves the flags as the call has set them. -/
theorem flags_apply (c : HaltCoordinator) (call : Call) :
    (c.apply call).estopRequested = (c.prepare call).1.estopRequested ∧
      (c.apply call).faulted = (c.prepare call).1.faulted := by
  unfold apply
  rcases c.prepare call with ⟨c', _ | ⟨toState, reason, actor⟩⟩ <;> simp

theorem apply_estopRequested (c : HaltCoordinator) (call : Call) :
    (c.apply call).estopRequested = match call with
      | .requestEstop _ _ => true
      | .clearEstop _ => false
      | _ => c.estopRequested := by
  rw [(flags_apply c call).1]
  cases call with
  | clearEstop actor => cases hf : c.estopRequested <;> simp [hf]
  | clearFault actor => cases hf : c.faulted <;> simp [hf]
  | resume reason actor => cases herr : c.resumeError <;> simp [herr]
  | _ => rfl

theorem apply_faulted (c : HaltCoordinator) (call : Call) :
    (c.apply call).faulted = match call with
      | .fault _ _ => true
      | .clearFault _ => false
      | _ => c.faulted := by
  rw [(flags_apply c call).2]
  cases call with
  | clearEstop actor => cases hf : c.estopRequested <;> simp [hf]
  | clearFault actor => cases hf : c.faulted <;> simp [hf]
  | resume reason actor => cases herr : c.resumeError <;> simp [herr]
  | _ => rfl

theorem resumeError_eq_none_iff {c : HaltCoordinator} :
    c.resumeError = none ↔ c.estopRequested = false ∧ c.faulted = false := by
  unfold resumeError
  cases c.estopRequested <;> cases c.faulted <;> simp

theorem gate_allowed_eq_false_iff {c : HaltCoordinator} :
    c.gate.allowed = false ↔ c.currentState ≠ .normal ∧ c.currentState ≠ .restricted := by
  unfold gate
  cases c.currentState <;> simp

end HaltCoordinator

/-! ## Histories and listeners that call back -/

/-- One call of a history, with the state it took effect in. -/
structure Entry where
  before : HaltCoordinator
  call : Call
  deriving DecidableEq

def Entry.after (e : Entry) : HaltCoordinator := e.before.apply e.call

/-- A top-level call together with the calls the listeners make while the change it caused is being
delivered to them, and so on. -/
inductive CallTree
  | node (call : Call) (callbacks : List CallTree)

/-- The state after a history that started from `c`. -/
def lastState (c : HaltCoordinator) (history : List Entry) : HaltCoordinator :=
  history.getLast?.elim c Entry.after

mutual

/-- The calls of a call tree in the order in which they take effect. A call updates the coordinator
first and notifies afterwards, so its callbacks take effect after it; a call that makes no
transition notifies nobody. -/
def callStates (c : HaltCoordinator) : CallTree → List Entry
  | .node call callbacks =>
    ⟨c, call⟩ :: if c.notifies call then callbackStates (c.apply call) callbacks else []

/-- The calls of a sequence of call trees in the order in which they take effect. -/
def callbackStates (c : HaltCoordinator) : List CallTree → List Entry
  | [] => []
  | t :: ts => callStates c t ++ callbackStates (lastState c (callStates c t)) ts

end

/-- A history is one the coordinator goes through from `c`: every call is made in the state the
calls before it left. -/
def IsHistory (c : HaltCoordinator) : List Entry → Prop
  | [] => True
  | e :: rest => e.before = c ∧ IsHistory e.after rest

theorem isHistory_cons {c : HaltCoordinator} {e : Entry} {rest : List Entry} :
    IsHistory c (e :: rest) ↔ e.before = c ∧ IsHistory e.after rest :=
  Iff.rfl

theorem callbackStates_cons (c : HaltCoordinator) (t : CallTree) (ts : List CallTree) :
    callbackStates c (t :: ts) = callStates c t ++ callbackStates (lastState c (callStates c t)) ts := rfl

@[simp] theorem lastState_nil (c : HaltCoordinator) : lastState c [] = c := rfl

@[simp] theorem lastState_concat (c : HaltCoordinator) (history : List Entry) (e : Entry) :
    lastState c (history ++ [e]) = e.after := by
  simp [lastState]

theorem lastState_cons (c : HaltCoordinator) (e : Entry) (history : List Entry) :
    lastState c (e :: history) = lastState e.after history := by
  cases history with
  | nil => rfl
  | cons e' history => simp [lastState, List.getLast?_cons]

theorem isHistory_append {c : HaltCoordinator} {h₁ h₂ : List Entry} :
    IsHistory c (h₁ ++ h₂) ↔ IsHistory c h₁ ∧ IsHistory (lastState c h₁) h₂ := by
  induction h₁ generalizing c with
  | nil => exact (and_iff_right trivial).symm
  | cons e h₁ ih => rw [List.cons_append, isHistory_cons, isHistory_cons, ih, lastState_cons, and_assoc]

mutual

theorem isHistory_callStates (c : HaltCoordinator) (t : CallTree) :
    IsHistory c (callStates c t) := by
  cases t with
  | node call callbacks =>
    refine ⟨rfl, ?_⟩
    show IsHistory (c.apply call)
      (if c.notifies call then callbackStates (c.apply call) callbacks else [])
    split
    · exact isHistory_callbackStates (c.apply call) callbacks
    · trivial

/-- **Reentrancy flattens.** The calls of a sequence of call trees, callbacks of callbacks
included, form a history of the coordinator. -/
theorem isHistory_callbackStates (c : HaltCoordinator) (ts : List CallTree) :
    IsHistory c (callbackStates c ts) := by
  cases ts with
  | nil => trivial
  | cons t ts =>
    rw [callbackStates_cons, isHistory_append]
    exact ⟨isHistory_callStates c t, isHistory_callbackStates _ ts⟩

end

end Pinout.Halt
