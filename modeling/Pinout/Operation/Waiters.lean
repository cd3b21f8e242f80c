import Pinout.Operation.Terminal

/-! # Waiters are answered

A caller that waits for an operation is answered by the step that gives the operation its outcome,
and no waiter is left behind (`NoStranded`). `transition` applies retention before `settle` looks the
operation up again, so this holds in the runs in which retention does not delete the very operation
that is concluding while somebody waits for it (`Spared`). -/

namespace Pinout.Operation

open Foundation

/-! ## Retention of one entry -/

section DropOldest

variable {α : Type} {terminal : α → Bool} {maxOperations : Nat}

/-- An entry survives when an older one does, or when there is room from it on. -/
theorem mem_dropOldest_of_append {older rest : List α} {x : α}
    (h : (∃ e ∈ older, terminal e = false) ∨ (x :: rest).length ≤ maxOperations) :
    x ∈ dropOldest terminal maxOperations (older ++ x :: rest) := by
  induction older with
  | nil =>
    rcases h with ⟨e, he, -⟩ | hroom
    · cases he
    · rw [List.nil_append, dropOldest, if_neg (Nat.not_lt.mpr hroom)]
      exact List.mem_cons_self
  | cons y older ih =>
    have hmem : x ∈ y :: older ++ x :: rest :=
      List.mem_append_right _ List.mem_cons_self
    rw [List.cons_append, dropOldest]
    split
    · split
      · next hy =>
        -- The head goes, so it is another one that is live.
        refine ih (h.imp_left ?_)
        rintro ⟨e, he, hlive⟩
        rcases List.mem_cons.mp he with rfl | he
        · rw [hy] at hlive
          cases hlive
        · exact ⟨e, he, hlive⟩
      · exact hmem
    · exact hmem

end DropOldest

namespace OperationManager

def waitersOf (s : OperationManager) (id : JsString) : List Waiter :=
  (s.waiters.get? id).getD []

/-- The address of the operation to which a label gives an outcome. -/
def concludes (s : OperationManager) : Action → Option Nat
  | .cancel id _ _ => (s.find? id).bind fun e => if e.2.status = .queued then some e.1 else none
  | .deadline address => s.heap[address]?.bind fun op =>
      if op.status = .running then some address else none
  | .beforeDispatchRejected address _ | .acknowledged address | .afterDispatchRejected address _ =>
    some address
  | .runRejected address _ => s.heap[address]?.bind fun op =>
      if op.status.isTerminal then none else some address
  | _ => none

/-- Whether retention spares an operation that gets its outcome now: an operation that was inserted
before it and has not expired is still live, or there is room for the unexpired ones from it on. -/
def spares (s : OperationManager) (id : JsString) : Bool :=
  let kept := s.operations.entries.filter fun e => !s.aged e
  (kept.takeWhile fun e => e.1 ≠ id).any (fun e => !s.droppable e) ||
    (kept.dropWhile fun e => e.1 ≠ id).length ≤ s.maxOperations

/-- Retention spares the operation to which the label gives an outcome while somebody waits for
it. -/
def Spared (s : OperationManager) (a : Action) : Prop :=
  ∀ i ∈ s.concludes a, ∀ op ∈ s.heap[i]?, s.waitersOf op.id ≠ [] → s.spares op.id = true

instance (s : OperationManager) : DecidablePred s.Spared := fun _ =>
  inferInstanceAs (Decidable (∀ i ∈ _, ∀ op ∈ _, _))

/-- Who waits, waits for a live operation in the map. -/
def NoStranded (s : OperationManager) : Prop :=
  ∀ id, s.waitersOf id ≠ [] → ∃ i op, s.operations.get? id = some i ∧ s.heap[i]? = some op ∧
    op.status.isTerminal = false

/-- A step that gives an operation its outcome answers everyone who waits for it. -/
def Delivers (s t : OperationManager) : Prop :=
  ∀ (i : Nat) (op op' : LiveOperation), s.heap[i]? = some op → t.heap[i]? = some op' →
    op.status.isTerminal = false → op'.status.isTerminal = true →
    t.waitersOf op.id = [] ∧ ∃ shown, t.trace = s.trace ++ shown ∧
      ∀ waiter ∈ s.waitersOf op.id,
        .answered waiter (answer waiter.kind op'.toOperationSnapshot) ∈ shown

variable {s t : OperationManager}

/-! ## Settling -/

/-- Settling an operation that is found and has an outcome answers everyone who waits for it. -/
theorem settle_of_terminal {id : JsString} {i : Nat} {op : LiveOperation}
    (hfind : s.find? id = some (i, op)) (hterminal : op.status.isTerminal = true) :
    s.settle id = { s with
      waiters := s.waiters.erase id
      trace := s.trace ++ (s.waitersOf id).map fun waiter =>
        .answered waiter (answer waiter.kind op.toOperationSnapshot) } := by
  unfold settle
  simp only [hfind, hterminal, if_true]
  rfl

theorem waitersOf_of_settle {id id' : JsString} (h : (s.settle id).waitersOf id' ≠ []) :
    s.waitersOf id' ≠ [] := by
  unfold settle at h
  split at h
  · exact h
  · split at h
    · intro hnone
      refine h ?_
      unfold waitersOf at hnone ⊢
      rw [InsertionMap.get?_erase]
      split
      · rfl
      · exact hnone
    · exact h

theorem waitersOf_register (id id' : JsString) (waiter : Waiter) :
    (s.register id waiter).waitersOf id' =
      if id' = id then s.waitersOf id ++ [waiter] else s.waitersOf id' := by
  unfold waitersOf register
  dsimp only
  rw [InsertionMap.get?_insert]
  split <;> rfl

theorem Concluding.concludes {a : Action} {i : Nat} {op op' : LiveOperation} {c : Conclusion}
    (h : Concluding s a i op op' c) : s.concludes a = some i := by
  cases h with
  | cancel hfind hstatus => simp [OperationManager.concludes, hfind, hstatus]
  | deadline hop hdue hstatus => simp [OperationManager.concludes, hop, hstatus]
  | beforeDispatchRejected hop hphase => rfl
  | runRejected hop hphase hlive => simp [OperationManager.concludes, hop, hlive]
  | acknowledged hop hphase => rfl
  | afterDispatchRejected hop hphase => rfl

/-! ## Retention of the concluding operation -/

/-- An operation that is spared is still in the map when it is settled. -/
theorem retainOperations_of_spares {id : JsString} {i : Nat} {op : LiveOperation}
    (op' : LiveOperation)
    (hreg : s.Registry) (hretention : 0 ≤ s.retentionMs) (hin : s.operations.get? id = some i)
    (hop : s.heap[i]? = some op) (hlive : op.status.isTerminal = false)
    (hfinished : op'.finishedAt = some s.now) (hspares : s.spares id = true) :
    (s.update i op').retainOperations.operations.get? id = some i := by
  have hilt : i < s.heap.length := (List.getElem?_eq_some_iff.mp hop).1
  -- Only the entry of `id` is at the address `i`.
  have hother : ∀ e ∈ s.operations.entries, e.1 ≠ id → e.2 ≠ i := by
    rintro ⟨id', j⟩ he hne rfl
    obtain ⟨o, ho, hoid, -⟩ := hreg.latest id' j (InsertionMap.get?_eq_some_iff.mpr he)
    obtain ⟨o', ho', hoid', -⟩ := hreg.latest id j hin
    obtain rfl := Option.some.inj (ho.symm.trans ho')
    exact hne (hoid.symm.trans hoid')
  have hsame : ∀ e ∈ s.operations.entries, e.1 ≠ id →
      (s.update i op').heap[e.2]? = s.heap[e.2]? := by
    intro e he hne
    exact List.getElem?_set_ne (Ne.symm (hother e he hne))
  have hnew : (s.update i op').heap[i]? = some op' := List.getElem?_set_self hilt
  -- The verdicts on age are as before: the operation itself is not aged, before or after.
  have haged : ∀ e ∈ s.operations.entries, (s.update i op').aged e = s.aged e := by
    rintro ⟨id', j⟩ he
    by_cases hid : id' = id
    · subst hid
      obtain rfl : j = i := Option.some.inj ((InsertionMap.get?_eq_some_iff.mpr he).symm.trans hin)
      have hnow : (s.update j op').now = s.now := rfl
      have hms : (s.update j op').retentionMs = s.retentionMs := rfl
      simp only [aged, hnew, hop, Option.any_some, hlive, hfinished, hnow, hms, Bool.false_and,
        Bool.and_eq_false_imp, decide_eq_false_iff_not]
      intro _
      omega
    · simp only [aged, hsame (id', j) he hid]
      rfl
  have hkept : s.operations.entries.filter (fun e => !(s.update i op').aged e) =
      s.operations.entries.filter fun e => !s.aged e :=
    List.filter_congr fun e he => by rw [haged e he]
  refine InsertionMap.get?_eq_some_iff.mpr ?_
  show (id, i) ∈ dropOldest (s.update i op').droppable s.maxOperations
    (s.operations.entries.filter fun e => !(s.update i op').aged e)
  rw [hkept]
  -- Split what has not aged at the operation.
  let kept := s.operations.entries.filter fun e => !s.aged e
  have hmem : (id, i) ∈ kept := by
    refine List.mem_filter.mpr ⟨InsertionMap.get?_eq_some_iff.mp hin, ?_⟩
    simp [aged, hop, hlive]
  have hsplit := List.takeWhile_append_dropWhile (p := fun e : JsString × Nat => e.1 ≠ id) (l := kept)
  obtain ⟨rest, hdrop⟩ : ∃ rest, kept.dropWhile (fun e => e.1 ≠ id) = (id, i) :: rest :=
    InsertionMap.dropWhile_ne_key (m := s.operations.filter fun e => !s.aged e) hmem
  show (id, i) ∈ dropOldest (s.update i op').droppable s.maxOperations kept
  rw [← hsplit, hdrop]
  refine mem_dropOldest_of_append ?_
  unfold spares at hspares
  rw [Bool.or_eq_true, List.any_eq_true, decide_eq_true_eq] at hspares
  rcases hspares with ⟨e, he, hlivee⟩ | hroom
  · refine Or.inl ⟨e, he, ?_⟩
    have hene : e.1 ≠ id := by simpa using List.mem_takeWhile_imp he
    have hemem : e ∈ s.operations.entries :=
      List.mem_of_mem_filter ((List.takeWhile_prefix _).subset he)
    simp only [droppable, hsame e hemem hene]
    simpa [droppable] using hlivee
  · rw [← hdrop]
    exact Or.inr hroom

/-! ## A conclusion -/

/-- Nobody waits before a conclusion who is not answered by it. -/
theorem conclude_delivers {a : Action} {i : Nat} {op op' : LiveOperation} {c : Conclusion}
    (hreg : s.Registry) (hns : s.NoStranded) (hretention : 0 ≤ s.retentionMs)
    (hop : s.heap[i]? = some op) (hc : Concluding s a i op op' c) (hspared : s.Spared a) :
    (s.conclude i op' c).waitersOf op.id = [] ∧
      ∃ shown, (s.conclude i op' c).trace = s.trace ++ shown ∧
        ∀ waiter ∈ s.waitersOf op.id, .answered waiter
          (answer waiter.kind (op'.concluded c s.now).toOperationSnapshot) ∈ shown := by
  have hid : op'.id = op.id := (hc.rewrites s.now).id
  -- The state that is settled.
  let u := (s.transition i op' c).emit c.kind op' c.data
  have hu : s.conclude i op' c = u.settle op.id := by rw [← hid]; rfl
  have hwaiters : ∀ id, u.waitersOf id = s.waitersOf id := fun _ => rfl
  by_cases hnone : s.waitersOf op.id = []
  · obtain ⟨answers, htrace, -⟩ := conclude_trace (s := s) i op' c
    refine ⟨?_, _, htrace, fun waiter hmem => ?_⟩
    · by_contra hne
      rw [hu] at hne
      exact waitersOf_of_settle hne ((hwaiters op.id).trans hnone)
    · rw [hnone] at hmem
      cases hmem
  · -- Who waits, waits for this very object, and retention has spared it.
    obtain ⟨i₀, op₀, hin, hop₀, hlive₀⟩ := hns op.id hnone
    obtain rfl : i = i₀ := hreg.live_unique hin hop₀ hlive₀ hop rfl
    obtain rfl := Option.some.inj (hop.symm.trans hop₀)
    have hspares : s.spares op.id = true := hspared i hc.concludes op hop hnone
    have hkept : u.operations.get? op.id = some i :=
      retainOperations_of_spares (op'.concluded c s.now) hreg hretention hin hop hlive₀ rfl
        hspares
    have hnew : u.heap[i]? = some (op'.concluded c s.now) :=
      List.getElem?_set_self (List.getElem?_eq_some_iff.mp hop).1
    have hsettle := settle_of_terminal (find?_eq_some_iff.mpr ⟨hkept, hnew⟩) c.terminal
    rw [hu, hsettle]
    constructor
    · show ((u.waiters.erase op.id).get? op.id).getD [] = []
      rw [InsertionMap.get?_erase_self]
      rfl
    · refine ⟨.event (s.eventOf c.kind op' c.data) :: _, List.append_assoc _ _ _, ?_⟩
      intro waiter hmem
      exact List.mem_cons_of_mem _ (List.mem_map_of_mem hmem)

/-- Nobody is stranded by a write that keeps the other operations, when nobody waits for its own. -/
theorem noStranded_write {i : Nat} {op op' : LiveOperation} (hreg : s.Registry)
    (hns : s.NoStranded) (hop : s.heap[i]? = some op) (hheap : t.heap = s.heap.set i op')
    (hoperations : t.operations = (s.update i op').retainOperations.operations)
    (hdone : t.waitersOf op.id = []) (hwaiters : ∀ id, t.waitersOf id ≠ [] → s.waitersOf id ≠ []) :
    t.NoStranded := by
  intro id hwait
  obtain ⟨j, o, hin, ho, hlive⟩ := hns id (hwaiters id hwait)
  have hji : j ≠ i := by
    rintro rfl
    obtain ⟨o', ho', hid, -⟩ := hreg.latest id j hin
    obtain rfl := Option.some.inj (hop.symm.trans ho')
    rw [← hid] at hwait
    exact hwait hdone
  have ho' : t.heap[j]? = some o := by rw [hheap, List.getElem?_set_ne (Ne.symm hji)]; exact ho
  refine ⟨j, o, ?_, ho', hlive⟩
  rw [hoperations]
  rw [hheap] at ho'
  exact retainOperations_get? (s := s.update i op') hin ho' hlive

/-! ## One step -/

theorem NoStranded.of_keep (hns : s.NoStranded)
    (hwaiters : ∀ id, t.waitersOf id ≠ [] → s.waitersOf id ≠ [])
    (hkeep : ∀ (id : JsString) (i : Nat) (op : LiveOperation), s.operations.get? id = some i →
      s.heap[i]? = some op → op.status.isTerminal = false →
      t.operations.get? id = some i ∧
        ∃ op', t.heap[i]? = some op' ∧ op'.status.isTerminal = false) : t.NoStranded := by
  intro id hwait
  obtain ⟨i, op, hin, hop, hlive⟩ := hns id (hwaiters id hwait)
  obtain ⟨hin', op', hop', hlive'⟩ := hkeep id i op hin hop hlive
  exact ⟨i, op', hin', hop', hlive'⟩

/-- A live object stays live at its place by a write that keeps its object live. -/
theorem keep_write {i : Nat} {op op' : LiveOperation} (hop : s.heap[i]? = some op)
    (hlive : op.status.isTerminal = false → op'.status.isTerminal = false) :
    ∀ (j : Nat) (o : LiveOperation), s.heap[j]? = some o → o.status.isTerminal = false →
      ∃ o', (s.heap.set i op')[j]? = some o' ∧ o'.status.isTerminal = false := by
  intro j o ho holive
  by_cases hij : i = j
  · subst hij
    obtain rfl := Option.some.inj (hop.symm.trans ho)
    exact ⟨op', List.getElem?_set_self (List.getElem?_eq_some_iff.mp hop).1, hlive holive⟩
  · exact ⟨o, by rw [List.getElem?_set_ne hij]; exact ho, holive⟩

/-- An allocation keeps what is waited for, when the new id is not in the map. -/
theorem keep_append (op' : LiveOperation) (hout : s.operations.get? op'.id = none) :
    ∀ (id : JsString) (i : Nat) (op : LiveOperation), s.operations.get? id = some i →
      s.heap[i]? = some op → op.status.isTerminal = false →
      (s.operations.insert op'.id s.heap.length).get? id = some i ∧
        ∃ o, (s.heap ++ [op'])[i]? = some o ∧ o.status.isTerminal = false := by
  intro id i op hin hop hlive
  constructor
  · refine (InsertionMap.get?_insert_of_ne _ _ fun heq => ?_).trans hin
    rw [heq, hout] at hin
    cases hin
  · refine ⟨op, ?_, hlive⟩
    rw [List.getElem?_append_left (List.getElem?_eq_some_iff.mp hop).1]
    exact hop

/-- A caller that starts to wait for a live operation in the map is not stranded. -/
theorem NoStranded.register (hns : s.NoStranded) {id : JsString} {i : Nat} {op : LiveOperation}
    {waiter : Waiter} (hin : s.operations.get? id = some i) (hop : s.heap[i]? = some op)
    (hlive : op.status.isTerminal = false) : (s.register id waiter).NoStranded := by
  intro id' hwait
  rw [waitersOf_register] at hwait
  by_cases hid : id' = id
  · subst hid
    exact ⟨i, op, hin, hop, hlive⟩
  · rw [if_neg hid] at hwait
    exact hns id' hwait

/-- **Step lemma.** A spared step strands nobody. -/
theorem NoStranded.step {a : Action} (hns : s.NoStranded) (hreg : s.Registry)
    (hretention : 0 ≤ s.retentionMs) (hspared : s.Spared a) (hs : s.step a = some t) :
    t.NoStranded := by
  cases steps_of_step hs with
  | tick => exact hns
  | unchanged => exact hns
  | answered hanswer => exact hns
  | lookedUp => exact hns
  | removed => exact hns
  | deduped hkey hlookup hin => exact hns
  | @restored options randomId key store tombstone hkey hlookup hout =>
    exact hns.of_keep (fun _ h => h)
      (keep_append (restoredFrom tombstone) (InsertionMap.contains_eq_false_iff.mp hout))
  | @opened options randomId store hstore =>
    exact hns.of_keep (fun _ h => h)
      (keep_append (s.queued options randomId) (hreg.get?_operationId randomId))
  | @registered _ id address op waiter hop hin hlive =>
    rw [(hreg.latest_of_get? hin hop).id_eq]
    exact hns.register hin hop hlive
  | @cancelling _ id address op waiter hop hin hlive hstatus =>
    rw [(hreg.latest_of_get? hin hop).id_eq]
    have hwrite : (s.update address (cancellingAs op s.now)).NoStranded :=
      hns.of_keep (fun _ h => h) fun id j o hj ho holive =>
        ⟨hj, keep_write hop (fun _ => rfl) j o ho holive⟩
    exact hwrite.register hin (List.getElem?_set_self (List.getElem?_eq_some_iff.mp hop).1) rfl
  | advanced hop hadv =>
    refine hns.of_keep (fun _ h => h) fun id j o hj ho holive => ⟨hj, keep_write hop ?_ j o ho holive⟩
    rw [hadv.snapshot]
    exact fun h => h
  | dispatched hop hphase =>
    exact hns.of_keep (fun _ h => h) fun id j o hj ho holive =>
      ⟨hj, keep_write hop (fun _ => rfl) j o ho holive⟩
  | reported hop hphase hlive =>
    exact hns.of_keep (fun _ h => h) fun id j o hj ho holive =>
      ⟨hj, keep_write hop (fun _ => by exact hlive) j o ho holive⟩
  | @concluded _ i op op' c answers hop hc hanswers =>
    have hdone := (conclude_delivers hreg hns hretention hop hc hspared).1
    have hconclude : (s.conclude i op' c).NoStranded := by
      refine noStranded_write hreg hns hop (conclude_heap _ _ _) (conclude_operations _ _ _) hdone ?_
      intro id hwait
      exact waitersOf_of_settle (s := (s.transition i op' c).emit c.kind op' c.data) hwait
    exact hconclude
  | @reconciled id options i op hop hin huncertain =>
    have hterminal := OperationStatus.isTerminal_of_isUncertain huncertain
    have hwaiters : ∀ id', (s.reconcileAt i op options).waitersOf id' ≠ [] → s.waitersOf id' ≠ [] :=
      fun id' hwait => waitersOf_of_settle
        (s := ((s.update i (reconciledBy op options s.now)).patchStore op
          (reconciledPatch (reconciledBy op options s.now))).emit .reconciled
          (reconciledBy op options s.now) (reconciledData (reconciledBy op options s.now) options))
        hwait
    refine noStranded_write hreg hns hop (reconcileAt_heap _ _ _) (reconcileAt_operations _ _ _) ?_
      hwaiters
    -- Nobody waits for an operation that has an outcome.
    by_contra hwait
    obtain ⟨j, o, hj, ho, hlive⟩ := hns op.id (hwaiters op.id hwait)
    obtain rfl := hreg.live_unique hj ho hlive hop rfl
    obtain rfl := Option.some.inj (hop.symm.trans ho)
    rw [hterminal] at hlive
    cases hlive

/-- **Step lemma.** A spared step answers everyone who waits for the operation it gives an
outcome. -/
theorem delivers_of_step {a : Action} (hns : s.NoStranded) (hreg : s.Registry)
    (hretention : 0 ≤ s.retentionMs) (hspared : s.Spared a) (hs : s.step a = some t) :
    s.Delivers t := by
  -- Where the object at `i` is not changed, or live before and after, there is nothing to answer.
  have hsame : t.heap = s.heap → s.Delivers t := by
    intro hheap i op op' hop hop' hlive hterminal
    rw [hheap, hop] at hop'
    obtain rfl := Option.some.inj hop'
    rw [hterminal] at hlive
    cases hlive
  have hwrite : ∀ {k : Nat} {o o' : LiveOperation}, s.heap[k]? = some o →
      t.heap = s.heap.set k o' → (o.status.isTerminal = false → o'.status.isTerminal = false) →
      s.Delivers t := by
    intro k o o' ho hheap hkeep i op op' hop hop' hlive hterminal
    obtain ⟨op'', hop'', hlive''⟩ := keep_write ho hkeep i op hop hlive
    rw [hheap, hop''] at hop'
    obtain rfl := Option.some.inj hop'
    rw [hterminal] at hlive''
    cases hlive''
  have happend : ∀ {o : LiveOperation}, t.heap = s.heap ++ [o] → s.Delivers t := by
    intro o hheap i op op' hop hop' hlive hterminal
    rw [hheap, List.getElem?_append_left (List.getElem?_eq_some_iff.mp hop).1, hop] at hop'
    obtain rfl := Option.some.inj hop'
    rw [hterminal] at hlive
    cases hlive
  cases steps_of_step hs with
  | tick => exact hsame rfl
  | unchanged => exact hsame rfl
  | answered hanswer => exact hsame rfl
  | lookedUp => exact hsame rfl
  | removed => exact hsame rfl
  | deduped hkey hlookup hin => exact hsame rfl
  | restored hkey hlookup hout => exact happend rfl
  | opened hstore => exact happend rfl
  | registered hop hin hlive => exact hsame rfl
  | cancelling hop hin hlive hstatus => exact hwrite hop rfl fun _ => rfl
  | advanced hop hadv => exact hwrite hop rfl (by rw [hadv.snapshot]; exact fun h => h)
  | dispatched hop hphase => exact hwrite hop rfl fun _ => rfl
  | reported hop hphase hlive => exact hwrite hop rfl fun _ => hlive
  | @concluded _ i op op' c answers hop hc hanswers =>
    intro j o o' ho ho' hlive hterminal
    rw [show ((s.conclude i op' c).answerAll answers).heap = _ from conclude_heap _ _ _] at ho'
    rcases of_getElem?_set hop ho' with ⟨rfl, rfl⟩ | ⟨-, hold⟩
    · obtain rfl := Option.some.inj (hop.symm.trans ho)
      obtain ⟨hdone, shown, htrace, hshown⟩ :=
        conclude_delivers hreg hns hretention hop hc hspared
      refine ⟨hdone, shown ++ answers, ?_, fun waiter hmem =>
        List.mem_append_left _ (hshown waiter hmem)⟩
      rw [answerAll, htrace, List.append_assoc]
    · obtain rfl := Option.some.inj (ho.symm.trans hold)
      rw [hterminal] at hlive
      cases hlive
  | reconciled hop hin huncertain =>
    refine hwrite hop (reconcileAt_heap _ _ _) fun hlive => ?_
    rw [OperationStatus.isTerminal_of_isUncertain huncertain] at hlive
    cases hlive

/-! ## Runs -/

theorem retentionMs_of_step {a : Action} (hs : s.step a = some t) :
    t.retentionMs = s.retentionMs := by
  cases steps_of_step hs with
  | concluded hop hc hanswers => exact conclude_retentionMs _ _ _
  | reconciled hop hin huncertain =>
    simp [reconcileAt, retainOperations, emit, effect, patchStore, update]
  | _ => rfl

structure Attended (s : OperationManager) : Prop where
  registry : s.Registry
  retention : 0 ≤ s.retentionMs
  noStranded : s.NoStranded

/-- **Run lemma.** A spared run strands nobody. -/
theorem attended_of_run {calls : List Action} (h : s.Attended)
    (hrun : machine.run s calls = some t) (hspared : machine.Guarded Spared s calls) :
    t.Attended :=
  Machine.run_guarded_invariant (I := Attended)
    (fun s _ _ h hg (hs : s.step _ = _) => ⟨h.registry.step hs, by rw [retentionMs_of_step hs]; exact h.retention,
      h.noStranded.step h.registry h.retention hg hs⟩) h hspared hrun

/-- **Waiters are answered.** In every spared run of a manager, who waits at any moment waits for a
live operation in the map, and a step that gives an operation its outcome answers everyone who waits
for it with that outcome. -/
theorem delivers_of_spared (retentionMs : Int) (maxOperations maxEntries : Nat)
    (storeRetentionMs now : Int) (calls : List Action) (s : OperationManager)
    (hretention : 0 ≤ retentionMs)
    (hrun : machine.run (new retentionMs maxOperations maxEntries storeRetentionMs now) calls =
      some s)
    (hspared : machine.Guarded Spared
      (new retentionMs maxOperations maxEntries storeRetentionMs now) calls) :
    s.NoStranded ∧ ∀ a t, s.Spared a → s.step a = some t → s.Delivers t := by
  have hnew : (new retentionMs maxOperations maxEntries storeRetentionMs now).Attended :=
    ⟨Registry.new rfl, hretention, fun id hwait => absurd rfl hwait⟩
  obtain ⟨hreg, hretention', hns⟩ := attended_of_run hnew hrun hspared
  exact ⟨hns, fun a t ha hs => delivers_of_step hns hreg hretention' ha hs⟩

def secondId : JsString := operationId 2 (js "b")

/-- A spared run: a caller waits for a running operation, and its completion answers it. -/
theorem delivers_completed :
    ∃ s, machine.run newDefault [.begin_ blink (js "a"), .microtask 0, .dispatched 0,
        .wait .waitFor firstId 7, .runResolved 0 []] = some s ∧
      s.NoStranded ∧ ∀ a t, s.Spared a → s.step a = some t → s.Delivers t := by
  have hsome : (machine.run newDefault [.begin_ blink (js "a"), .microtask 0, .dispatched 0,
      .wait .waitFor firstId 7, .runResolved 0 []]).isSome = true := by decide +kernel
  obtain ⟨s, hs⟩ := Option.isSome_iff_exists.mp hsome
  exact ⟨s, hs, delivers_of_spared _ _ _ _ _ _ s (by decide) hs (by decide +kernel)⟩

/-- **Not every run answers its waiters.** With `maxOperations` 1, an operation that was begun before
another one is deleted by its own completion: its waiter gets no answer and stays, for an operation
that is not in the map. -/
theorem not_delivers_deleted :
    ∃ s t, machine.run (new 86400000 1 10000 86400000 0)
        [.begin_ blink (js "a"), .begin_ blink (js "b"), .microtask 0, .dispatched 0,
          .wait .waitFor firstId 7, .runResolved 0 []] = some s ∧
      s.step (.acknowledged 0) = some t ∧ ¬ s.Delivers t ∧ ¬ t.NoStranded := by
  have hview : ((machine.run (new 86400000 1 10000 86400000 0)
      [.begin_ blink (js "a"), .begin_ blink (js "b"), .microtask 0, .dispatched 0,
        .wait .waitFor firstId 7, .runResolved 0 []]).bind fun s =>
      (s.step (.acknowledged 0)).map fun t =>
        (s.heap.map fun op => (op.id, op.status), t.heap.map fun op => op.status,
          (t.waitersOf firstId).map Waiter.token, t.operations.get? firstId)) =
      some ([(firstId, .running), (secondId, .queued)], [.completed, .queued], [7], none) := by
    decide +kernel
  obtain ⟨s, hs, hview⟩ := Option.bind_eq_some_iff.mp hview
  obtain ⟨t, ht, hview⟩ := Option.map_eq_some_iff.mp hview
  simp only [Prod.mk.injEq] at hview
  obtain ⟨hheap, hheap', hwait, hout⟩ := hview
  obtain ⟨op, rest, hop, hopview, -⟩ := List.map_eq_cons_iff.mp hheap
  obtain ⟨op', rest', hop', hstatus', -⟩ := List.map_eq_cons_iff.mp hheap'
  obtain ⟨hid, hstatus⟩ := Prod.mk.inj hopview
  have hwait' : t.waitersOf firstId ≠ [] := by
    intro hnone
    rw [hnone] at hwait
    cases hwait
  refine ⟨s, t, hs, ht, fun hdelivers => ?_, fun hns => ?_⟩
  · have hget : s.heap[0]? = some op := by rw [hop]; rfl
    have hget' : t.heap[0]? = some op' := by rw [hop']; rfl
    obtain ⟨hdone, -⟩ := hdelivers 0 op op' hget hget' (by rw [hstatus]; rfl) (by rw [hstatus']; rfl)
    rw [hid] at hdone
    exact hwait' hdone
  · obtain ⟨i, o, hin, -⟩ := hns firstId hwait'
    rw [hout] at hin
    cases hin

end OperationManager

end Pinout.Operation
