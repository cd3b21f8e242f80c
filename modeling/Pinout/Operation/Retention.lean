import Pinout.Operation.Reachable

/-! # How many operations are kept

`retainOperations` runs at every move to a terminal status and at every reconciliation. It never drops an operation
that is not terminal, and it stops at the first of these: what stands behind the oldest operation that is not terminal
is kept, however much there is (`retaining_iff_roomy`). -/

namespace Pinout.Operation

open Foundation

/-! ## Dropping from the front -/

/-- What is left when dropping from the front stops at what may not be dropped: no more than the bound or than may not
be dropped, exactly when that is so of all that stands behind the first of these. -/
theorem length_dropOldest_le_iff {α : Type} (terminal : α → Bool) (maxOperations : Nat) (l : List α) :
    (dropOldest terminal maxOperations l).length ≤
        max maxOperations ((dropOldest terminal maxOperations l).countP fun e => !terminal e) ↔
      (l.dropWhile terminal).length ≤ maxOperations ∨ ∀ e ∈ l.dropWhile terminal, terminal e = false := by
  induction l with
  | nil => simp [dropOldest]
  | cons e rest ih =>
    unfold dropOldest
    cases hterminal : terminal e with
    | true =>
      rw [List.dropWhile_cons_of_pos hterminal]
      split
      · exact ih
      · next hroom =>
        -- There is room for the whole list, so there is for what stands behind.
        have hsuffix := (List.dropWhile_suffix terminal (l := rest)).length_le
        simp only [List.length_cons] at hroom ⊢
        refine iff_of_true (le_max_of_le_left (by omega)) (.inl (by omega))
    | false =>
      have hkept : (if maxOperations < (e :: rest).length then
          if false = true then dropOldest terminal maxOperations rest else e :: rest else e :: rest) = e :: rest := by
        split
        · exact if_neg Bool.false_ne_true
        · rfl
      rw [List.dropWhile_cons_of_neg (by simp [hterminal]), hkept, le_max_iff]
      refine or_congr_right ?_
      have hle : (e :: rest).countP (fun e => !terminal e) ≤ (e :: rest).length := List.countP_le_length
      rw [hle.ge_iff_eq, List.countP_eq_length]
      simp

namespace OperationManager

/-! ## Transitions and reconciliations -/

/-- A step that moves an operation to a terminal status, or reconciles it: the manager as `retainOperations` finds it. -/
inductive Settles (s : OperationManager) : Action → OperationManager → Prop
  | concluded {a address op op' c} (hop : s.heap[address]? = some op) (hc : Concluding s a address op op' c) :
      Settles s a (s.update address (op'.concluded c s.now))
  | reconciled {operationId options address op} (hop : s.heap[address]? = some op)
      (hin : s.operations.get? operationId = some address) (huncertain : op.status.isUncertain = true) :
      Settles s (.reconcile operationId options) (s.update address (reconciledBy op options s.now))

/-- The number of operations that are not terminal. -/
def liveCount (s : OperationManager) : Nat := s.operations.entries.countP fun e => !s.droppable e

/-- What is promised of a step: after a transition or a reconciliation there are at most `maxOperations` operations, or
as many as are not terminal, and an operation that is not terminal is never dropped. -/
structure Retains (s : OperationManager) (a : Action) (t : OperationManager) : Prop where
  bounded : ∀ w, Settles s a w → t.operations.size ≤ max t.maxOperations t.liveCount
  keepsLive : ∀ id address op, s.operations.get? id = some address → t.heap[address]? = some op →
    op.status.isTerminal = false → t.operations.get? id = some address

/-- The operations from the oldest on that is not terminal, without those past their retention: they are within the
bound, or none of them is terminal. -/
def RoomBehindOldest (s : OperationManager) : Prop :=
  ((s.operations.entries.filter fun e => !s.aged e).dropWhile s.droppable).length ≤ s.maxOperations ∨
    ∀ e ∈ (s.operations.entries.filter fun e => !s.aged e).dropWhile s.droppable, s.droppable e = false

/-- The guard: where a step settles an operation, there is room behind the oldest that is not terminal. -/
def Roomy (s : OperationManager) (a : Action) : Prop := ∀ w, Settles s a w → w.RoomBehindOldest

variable {s t w : OperationManager} {a : Action}

/-- Retention meets the bound exactly when there is room behind the oldest operation that is not terminal. -/
theorem size_retainOperations_le_iff :
    s.retainOperations.operations.size ≤ max s.maxOperations s.retainOperations.liveCount ↔ s.RoomBehindOldest :=
  length_dropOldest_le_iff _ _ _

/-- Where a move to a terminal status is due, the step makes it, and answers at most besides. -/
theorem exists_answers_of_concluding {address : Nat} {op op' : LiveOperation} {c : Conclusion}
    (hc : Concluding s a address op op' c) (hstep : s.step a = some t) :
    ∃ answers, t = (s.conclude address op' c).answerAll answers := by
  have hself : ∀ {u : OperationManager}, some u = some t → ∃ answers, t = u.answerAll answers :=
    fun h => ⟨[], by rw [answerAll_nil, Option.some.inj h]⟩
  cases hc with
  | @cancel operationId reason token _ _ hfind hstatus =>
    obtain rfl := Option.some.inj hstep
    have hlive : ¬ op.status.isTerminal = true := by rw [hstatus]; exact Bool.false_ne_true
    rw [OperationManager.cancel, hfind]
    dsimp only
    rw [if_neg hlive, if_pos hstatus]
    split
    · exact ⟨_, rfl⟩
    · exact ⟨[], (answerAll_nil ..).symm⟩
  | @deadline _ _ due hop hdue hstatus =>
    simp only [step, callback, hop, Option.bind_some, OperationManager.deadline, hdue] at hstep
    split at hstep
    · cases hstep
    · exact hself hstep
  | beforeDispatchRejected hop hphase =>
    simp only [step, callback, hop, Option.bind_some, OperationManager.beforeDispatchRejected, hphase] at hstep
    split at hstep
    · exact hself hstep
    · cases hstep
  | runRejected hop hphase hlive =>
    simp only [step, callback, hop, Option.bind_some, OperationManager.runRejected, hphase, hlive] at hstep
    exact hself hstep
  | acknowledged hop hphase =>
    simp only [step, callback, hop, Option.bind_some, OperationManager.acknowledged, hphase] at hstep
    exact hself hstep
  | afterDispatchRejected hop hphase =>
    simp only [step, callback, hop, Option.bind_some, OperationManager.afterDispatchRejected, hphase] at hstep
    split at hstep
    · exact hself hstep
    · cases hstep

/-- A step that settles an operation: the map is what retention leaves. -/
theorem operations_of_settles (h : Settles s a w) (hstep : s.step a = some t) :
    t.operations = w.retainOperations.operations ∧ t.heap = w.heap ∧ t.maxOperations = w.maxOperations := by
  cases h with
  | concluded hop hc =>
    obtain ⟨answers, rfl⟩ := exists_answers_of_concluding hc hstep
    exact ⟨conclude_operations .., conclude_heap .., conclude_maxOperations ..⟩
  | @reconciled operationId options address op hop hin huncertain =>
    have hfind : s.find? operationId = some (address, op) := find?_eq_some_iff.mpr ⟨hin, hop⟩
    have ht : s.reconcile operationId options = t := Option.some.inj hstep
    rw [reconcile, hfind] at ht
    dsimp only at ht
    rw [if_pos huncertain] at ht
    subst ht
    refine ⟨reconcileAt_operations .., reconcileAt_heap .., ?_⟩
    show (OperationManager.settle _ op.id).maxOperations = _
    rw [settle_maxOperations]
    rfl

/-- An operation in the map stays there when another one is put into it. -/
theorem get?_insert_of_get? {id id' : JsString} {address address' : Nat} (hin : s.operations.get? id = some address)
    (hout : s.operations.get? id' = none) : (s.operations.insert id' address').get? id = some address := by
  refine (InsertionMap.get?_insert_of_ne _ _ fun heq => ?_).trans hin
  rw [heq, hout] at hin
  cases hin

theorem keepsLive_of_step (hreg : s.Registry) (hstep : s.step a = some t) {id : JsString} {address : Nat}
    {op : LiveOperation} (hin : s.operations.get? id = some address) (hop : t.heap[address]? = some op)
    (hlive : op.status.isTerminal = false) : t.operations.get? id = some address := by
  cases steps_of_step hstep with
  | tick => exact hin
  | unchanged => exact hin
  | answered hanswer => exact hin
  | lookedUp => exact hin
  | removed => exact hin
  | deduped hkey hlookup hlisted => exact hin
  | restored hkey hlookup hout => exact get?_insert_of_get? hin (InsertionMap.contains_eq_false_iff.mp hout)
  | @opened options randomId store hstore => exact get?_insert_of_get? hin (hreg.get?_operationId randomId)
  | registered hop' hin' hlive' => exact hin
  | cancelling hop' hin' hlive' hstatus => exact hin
  | advanced hop' hadv => exact hin
  | dispatched hop' hphase => exact hin
  | reported hop' hphase hlive' => exact hin
  | concluded hop' hc hanswers =>
    obtain ⟨hoperations, hheap, -⟩ := operations_of_settles (.concluded hop' hc) hstep
    rw [hheap] at hop
    rw [hoperations]
    exact retainOperations_get? (s := s.update _ _) hin hop hlive
  | reconciled hop' hin' huncertain =>
    obtain ⟨hoperations, hheap, -⟩ := operations_of_settles (.reconciled hop' hin' huncertain) hstep
    rw [hheap] at hop
    rw [hoperations]
    exact retainOperations_get? (s := s.update _ _) hin hop hlive

/-- What retention leaves does not depend on the state it is counted in. -/
theorem liveCount_congr (hoperations : t.operations = s.retainOperations.operations) (hheap : t.heap = s.heap) :
    t.liveCount = s.retainOperations.liveCount := by
  unfold liveCount droppable
  rw [hoperations, hheap, retainOperations_heap]

/-- **Step lemma.** A step does what is promised exactly when there is room behind the oldest operation that is not
terminal. -/
theorem retains_iff_roomy (hreg : s.Registry) (hstep : s.step a = some t) : Retains s a t ↔ s.Roomy a := by
  have hsize : ∀ {w}, Settles s a w → (t.operations.size ≤ max t.maxOperations t.liveCount ↔ w.RoomBehindOldest) := by
    intro w h
    obtain ⟨hoperations, hheap, hmax⟩ := operations_of_settles h hstep
    rw [hmax, liveCount_congr hoperations hheap, hoperations]
    exact size_retainOperations_le_iff
  constructor
  · exact fun h w hsettles => (hsize hsettles).mp (h.bounded w hsettles)
  · exact fun h => ⟨fun w hsettles => (hsize hsettles).mpr (h w hsettles),
      fun id address op hin hop hlive => keepsLive_of_step hreg hstep hin hop hlive⟩

/-! ## Runs -/

def Retaining (s : OperationManager) (a : Action) : Prop := ∀ t, s.step a = some t → Retains s a t

/-- **Bounded retention.** In every run from the start, every step does what is promised exactly when at every
transition and reconciliation there is room behind the oldest operation that is not terminal. -/
theorem retaining_iff_roomy {calls : List Action} (hstart : AtStart s) (hrun : machine.run s calls = some t) :
    machine.Guarded Retaining s calls ↔ machine.Guarded Roomy s calls := by
  refine machine.guarded_congr (fun _ _ _ h hs => h.step hs) (fun s a t hreg hstep => ?_) hstart.registry hrun
  exact ⟨fun h => (retains_iff_roomy hreg hstep).mp (h t hstep), fun h u hu => (retains_iff_roomy hreg hu).mpr h⟩

/-- A run in which every step does: an operation is begun and cancelled. -/
theorem retaining_iff_roomy_cancelled :
    ∃ t, machine.run newDefault [.begin_ blink (js "a"), .cancel firstId none 0] = some t ∧
      (machine.Guarded Retaining newDefault [.begin_ blink (js "a"), .cancel firstId none 0] ↔
        machine.Guarded Roomy newDefault [.begin_ blink (js "a"), .cancel firstId none 0]) := by
  have hsome : (machine.run newDefault [.begin_ blink (js "a"), .cancel firstId none 0]).isSome = true := by
    decide +kernel
  obtain ⟨t, ht⟩ := Option.isSome_iff_exists.mp hsome
  exact ⟨t, ht, retaining_iff_roomy (.new ..) ht⟩

def newForOne : OperationManager := new 86400000 1 10000 86400000 0

def otherId : JsString := operationId 2 (js "b")

/-- **Not every step does.** Of two operations the second is cancelled: the first stands in front of it, so both are
kept, although the manager is to keep one and only one of them is not terminal. -/
theorem not_retaining :
    ∃ s t, machine.run newForOne [.begin_ blink (js "a"), .begin_ blink (js "b")] = some s ∧
      s.step (.cancel otherId none 0) = some t ∧ ¬ Retains s (.cancel otherId none 0) t := by
  have hview : ((machine.run newForOne [.begin_ blink (js "a"), .begin_ blink (js "b")]).bind fun s =>
      (s.step (.cancel otherId none 0)).map fun t =>
        ((s.find? otherId).map fun e => e.2.status, t.operations.size, t.maxOperations, t.liveCount)) =
      some (some .queued, 2, 1, 1) := by decide +kernel
  obtain ⟨s, hs, hview⟩ := Option.bind_eq_some_iff.mp hview
  obtain ⟨t, ht, hview⟩ := Option.map_eq_some_iff.mp hview
  simp only [Prod.mk.injEq] at hview
  obtain ⟨hstatus, hsize, hmax, hlive⟩ := hview
  obtain ⟨⟨address, op⟩, hfind, hstatus⟩ := Option.map_eq_some_iff.mp hstatus
  have hsettles : Settles s (.cancel otherId none 0) _ :=
    .concluded (find?_eq_some_iff.mp hfind).2 (.cancel hfind hstatus)
  refine ⟨s, t, hs, ht, fun h => ?_⟩
  have hbounded := h.bounded _ hsettles
  rw [hsize, hmax, hlive] at hbounded
  exact absurd hbounded (by decide)

end OperationManager

end Pinout.Operation
