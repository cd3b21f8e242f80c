import Pinout.Halt.Latch

/-! # What a subscriber hears

`transition` makes a change after its target is compared with the state and before anybody is notified, so the first
subscriber hears of the changes in the order in which the calls take effect, also of those that come of its own calls.
What it hears is an unbroken account of the coordinator. -/

namespace Pinout.Halt

open Foundation

/-- The changes of a history, each at the time `now` gives for its call. -/
def changes (now : Entry → Int) (history : List Entry) : List SafetyStateChange :=
  history.filterMap fun e => e.before.change e.call (now e)

/-- A change starts where the one before it ended, the first one in `NORMAL`. -/
def Unbroken (changes : List SafetyStateChange) : Prop :=
  Ordered (fun before (change : SafetyStateChange) =>
    change.fromState = (before.getLast?.map SafetyStateChange.toState).getD .normal) changes

/-- The verdict that the last change calls for. -/
def heardGate (changes : List SafetyStateChange) : HaltVerdict :=
  match changes.getLast? with
  | none => { allowed := true }
  | some change => HaltCoordinator.gate { currentState := change.toState, currentReason := change.reason }

variable {now : Entry → Int}

theorem prepare_current (c : HaltCoordinator) (call : Call) :
    (c.prepare call).1.currentState = c.currentState ∧ (c.prepare call).1.currentReason = c.currentReason := by
  unfold HaltCoordinator.prepare
  split <;> (try split) <;> exact ⟨rfl, rfl⟩

/-- A call makes a change from the state to the new one, or leaves state and reason as they are. -/
theorem change_cases (e : Entry) (at_ : Int) :
    (e.before.change e.call at_ = none ∧ e.after.currentState = e.before.currentState ∧
      e.after.currentReason = e.before.currentReason) ∨
    ∃ change, e.before.change e.call at_ = some change ∧ change.fromState = e.before.currentState ∧
      change.toState = e.after.currentState ∧ change.reason = e.after.currentReason := by
  obtain ⟨hstate, hreason⟩ := prepare_current e.before e.call
  unfold Entry.after HaltCoordinator.apply HaltCoordinator.change
  rcases hprepare : e.before.prepare e.call with ⟨c, _ | ⟨toState, reason, actor⟩⟩
  · rw [hprepare] at hstate hreason
    exact .inl ⟨rfl, hstate, hreason⟩
  · rw [hprepare] at hstate hreason
    dsimp only [HaltCoordinator.transitionChange, HaltCoordinator.transition]
    split
    · exact .inl ⟨rfl, hstate, hreason⟩
    · exact .inr ⟨_, rfl, hstate, rfl, rfl⟩

theorem changes_concat (history : List Entry) (e : Entry) :
    changes now (history ++ [e]) = changes now history ++ (e.before.change e.call (now e)).toList := by
  rw [changes, List.filterMap_append]
  cases hchange : e.before.change e.call (now e) <;> simp [changes, hchange]

/-- **Run lemma.** The changes of a history are unbroken, and the last one has led to the state there is. -/
theorem unbroken_of_history (now : Entry → Int) {history : List Entry} (h : IsHistory {} history) :
    Unbroken (changes now history) ∧
      ((changes now history).getLast?.map SafetyStateChange.toState).getD .normal =
        (lastState {} history).currentState ∧
      ((changes now history).getLast?.map SafetyStateChange.reason).getD [] = (lastState {} history).currentReason := by
  induction history using List.reverseRecOn with
  | nil => exact ⟨ordered_nil, rfl, rfl⟩
  | append_singleton history e ih =>
    obtain ⟨hrest, hbefore⟩ := h.concat
    obtain ⟨hunbroken, hstate, hreason⟩ := ih hrest
    rw [← hbefore] at hstate hreason
    rw [lastState_concat, changes_concat]
    rcases change_cases e (now e) with ⟨hnone, hkept, hkept'⟩ | ⟨change, hsome, hfrom, hto, hwhy⟩
    · rw [hnone, Option.toList_none, List.append_nil, hkept, hkept']
      exact ⟨hunbroken, hstate, hreason⟩
    · rw [hsome, Option.toList_some, List.getLast?_concat]
      exact ⟨ordered_concat.mpr ⟨hunbroken, hfrom.trans hstate.symm⟩, hto, hwhy⟩

/-- **What is heard accounts for the coordinator.** Whatever is called, and whatever the subscribers call back, after
every number of calls the changes so far are unbroken and tell the verdict of the gate. -/
theorem heard_of_calls (now : Entry → Int) (calls : List CallTree) (n : Nat) :
    Unbroken (changes now ((callbackStates {} calls).take n)) ∧
      heardGate (changes now ((callbackStates {} calls).take n)) =
        (lastState {} ((callbackStates {} calls).take n)).gate := by
  have hhistory := isHistory_callbackStates {} calls
  rw [← List.take_append_drop n (callbackStates {} calls)] at hhistory
  obtain ⟨hunbroken, hstate, hreason⟩ := unbroken_of_history now (isHistory_append.mp hhistory).1
  refine ⟨hunbroken, ?_⟩
  unfold heardGate HaltCoordinator.gate
  cases hlast : (changes now ((callbackStates {} calls).take n)).getLast? with
  | none =>
    rw [hlast] at hstate
    rw [← hstate]
    rfl
  | some change =>
    rw [hlast] at hstate hreason
    rw [← hstate, ← hreason]
    rfl

end Pinout.Halt
