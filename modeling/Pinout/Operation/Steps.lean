import Pinout.Operation.Manager

/-! # What a step of the operation manager can do

The fields each helper of the manager writes, and the inversion of the step function: a step is one
of a few kinds of changes (`Steps`), a move to a terminal status being one of six
(`Concluding`). Every invariant of the manager is proved by cases on these. -/

namespace Pinout.Operation

open Foundation

/-- An effect that is neither an event nor an invocation. -/
def Effect.isAnswer : Effect → Bool
  | .event _ | .invoked _ _ => false
  | _ => true

theorem mem_dropOldest {α : Type} {terminal : α → Bool} {maxOperations : Nat} {l : List α} {e : α}
    (he : e ∈ l) (hlive : terminal e = false) : e ∈ dropOldest terminal maxOperations l := by
  induction l with
  | nil => exact he
  | cons x rest ih =>
    unfold dropOldest
    split
    · split
      · next hx =>
        rcases List.mem_cons.mp he with rfl | hrest
        · rw [hlive] at hx
          cases hx
        · exact ih hrest
      · exact he
    · exact he

namespace OperationManager

variable {s : OperationManager}

/-! ## Reading the map -/

theorem find?_eq_some_iff {operationId : JsString} {address : Nat} {op : LiveOperation} :
    s.find? operationId = some (address, op) ↔
      s.operations.get? operationId = some address ∧ s.heap[address]? = some op := by
  unfold find?
  cases s.operations.get? operationId with
  | none => simp
  | some a =>
    cases h : s.heap[a]? with
    | none =>
      simp only [Option.bind_some, h, Option.map_none, reduceCtorEq, Option.some.injEq, false_iff,
        not_and]
      rintro rfl
      simp [h]
    | some o =>
      simp only [Option.bind_some, h, Option.map_some, Option.some.injEq, Prod.mk.injEq]
      constructor
      · rintro ⟨rfl, rfl⟩
        exact ⟨rfl, h⟩
      · rintro ⟨rfl, h'⟩
        exact ⟨rfl, Option.some.inj (h.symm.trans h')⟩

/-! ## Fields -/

section Fields

variable (address : Nat) (op : LiveOperation) (c : Conclusion) (patch : TombstonePatch)
  (operationId : JsString) (waiter : Waiter)

@[simp] theorem retainOperations_heap : s.retainOperations.heap = s.heap := rfl
@[simp] theorem retainOperations_waiters : s.retainOperations.waiters = s.waiters := rfl
@[simp] theorem retainOperations_sequence : s.retainOperations.sequence = s.sequence := rfl
@[simp] theorem retainOperations_store :
    s.retainOperations.idempotencyStore = s.idempotencyStore := rfl
@[simp] theorem retainOperations_now : s.retainOperations.now = s.now := rfl
@[simp] theorem retainOperations_trace : s.retainOperations.trace = s.trace := rfl

@[simp] theorem settle_heap : (s.settle operationId).heap = s.heap := by
  unfold settle; split <;> [rfl; split <;> rfl]
@[simp] theorem settle_operations : (s.settle operationId).operations = s.operations := by
  unfold settle; split <;> [rfl; split <;> rfl]
@[simp] theorem settle_sequence : (s.settle operationId).sequence = s.sequence := by
  unfold settle; split <;> [rfl; split <;> rfl]
@[simp] theorem settle_store :
    (s.settle operationId).idempotencyStore = s.idempotencyStore := by
  unfold settle; split <;> [rfl; split <;> rfl]
@[simp] theorem settle_now : (s.settle operationId).now = s.now := by
  unfold settle; split <;> [rfl; split <;> rfl]
@[simp] theorem settle_maxOperations :
    (s.settle operationId).maxOperations = s.maxOperations := by
  unfold settle; split <;> [rfl; split <;> rfl]
@[simp] theorem settle_retentionMs : (s.settle operationId).retentionMs = s.retentionMs := by
  unfold settle; split <;> [rfl; split <;> rfl]

@[simp] theorem conclude_heap :
    (s.conclude address op c).heap = s.heap.set address (op.concluded c s.now) := by
  simp [conclude, transition, emit, effect, patchStore, update]
@[simp] theorem conclude_sequence : (s.conclude address op c).sequence = s.sequence := by
  simp [conclude, transition, emit, effect, patchStore, update]
@[simp] theorem conclude_now : (s.conclude address op c).now = s.now := by
  simp [conclude, transition, emit, effect, patchStore, update]
@[simp] theorem conclude_maxOperations :
    (s.conclude address op c).maxOperations = s.maxOperations := by
  simp [conclude, transition, emit, effect, patchStore, update, retainOperations]
@[simp] theorem conclude_retentionMs :
    (s.conclude address op c).retentionMs = s.retentionMs := by
  simp [conclude, transition, emit, effect, patchStore, update, retainOperations]
@[simp] theorem conclude_store :
    (s.conclude address op c).idempotencyStore =
      (s.patchStore op c.patch).idempotencyStore := by
  simp [conclude, transition, emit, effect, patchStore, update]

/-- The map after a conclusion is what retention leaves of it. -/
theorem conclude_operations :
    (s.conclude address op c).operations =
      (s.update address (op.concluded c s.now)).retainOperations.operations := by
  simp only [conclude, settle_operations, emit, effect, transition, patchStore]
  rfl

end Fields

/-- Retention looks at the heap, the map, the clock and the two bounds. -/
theorem retainOperations_congr {t : OperationManager} (hheap : t.heap = s.heap)
    (hoperations : t.operations = s.operations) (hnow : t.now = s.now)
    (hretention : t.retentionMs = s.retentionMs) (hmax : t.maxOperations = s.maxOperations) :
    t.retainOperations.operations = s.retainOperations.operations := by
  cases s
  cases t
  dsimp only at hheap hoperations hnow hretention hmax
  subst hheap hoperations hnow hretention hmax
  rfl

/-- A patch is made to the tombstone under the operation's scoped key. -/
theorem get?_patchStore (op : LiveOperation) (patch : TombstonePatch) (k : JsString) :
    (s.patchStore op patch).idempotencyStore.tombstones.get? k =
      if op.scopedKey? = some k then
        (s.idempotencyStore.tombstones.get? k).map (IdempotencyStore.patched · patch s.now)
      else s.idempotencyStore.tombstones.get? k := by
  unfold patchStore
  cases hkey : op.scopedKey? with
  | none => simp
  | some scopedKey =>
    simp only [Option.elim_some, IdempotencyStore.get?_updateUnder, Option.some.injEq]
    by_cases hk : k = scopedKey
    · subst hk
      rfl
    · rw [if_neg hk, if_neg (Ne.symm hk)]

theorem settle_trace (operationId : JsString) :
    ∃ answers, (s.settle operationId).trace = s.trace ++ answers ∧
      ∀ e ∈ answers, e.isAnswer = true := by
  unfold settle
  split
  · exact ⟨[.typeError operationId], rfl, by simp [Effect.isAnswer]⟩
  · split
    · refine ⟨_, rfl, ?_⟩
      intro e he
      obtain ⟨waiter, -, rfl⟩ := List.mem_map.mp he
      rfl
    · exact ⟨[], (List.append_nil _).symm, by simp⟩

theorem conclude_trace (address : Nat) (op : LiveOperation) (c : Conclusion) :
    ∃ answers, (s.conclude address op c).trace =
        s.trace ++ .event (s.eventOf c.kind op c.data) :: answers ∧
      ∀ e ∈ answers, e.isAnswer = true := by
  obtain ⟨answers, htrace, hanswers⟩ :=
    settle_trace (s := (s.transition address op c).emit c.kind op c.data) op.id
  refine ⟨answers, ?_, hanswers⟩
  rw [conclude, htrace]
  simp [emit, effect, transition, patchStore, update, eventOf]

/-! ## Retention -/

theorem get?_of_retainOperations {operationId : JsString} {address : Nat}
    (h : s.retainOperations.operations.get? operationId = some address) :
    s.operations.get? operationId = some address := by
  rw [InsertionMap.get?_eq_some_iff] at h ⊢
  have hkept : (operationId, address) ∈ s.operations.entries.filter fun e => !s.aged e :=
    (dropOldest_suffix _ _ _).subset h
  exact List.mem_of_mem_filter hkept

theorem retainOperations_get? {operationId : JsString} {address : Nat} {op : LiveOperation}
    (h : s.operations.get? operationId = some address) (hop : s.heap[address]? = some op)
    (hlive : op.status.isTerminal = false) :
    s.retainOperations.operations.get? operationId = some address := by
  have haged : s.aged (operationId, address) = false := by simp [aged, hop, hlive]
  have hdrop : s.droppable (operationId, address) = false := by simp [droppable, hop, hlive]
  refine InsertionMap.get?_eq_some_iff.mpr (mem_dropOldest ?_ hdrop)
  refine List.mem_filter.mpr ⟨InsertionMap.get?_eq_some_iff.mp h, ?_⟩
  rw [haged]
  rfl

/-! ## Kinds of steps -/

/-- The moves to a terminal status: the label, the address, the object before, the object as the
caller has it, and the conclusion. -/
inductive Concluding (s : OperationManager) :
    Action → Nat → LiveOperation → LiveOperation → Conclusion → Prop
  | cancel {operationId reason token address op} (hfind : s.find? operationId = some (address, op))
      (hstatus : op.status = .queued) :
      Concluding s (.cancel operationId reason token) address op op (.cancelledBeforeStart reason)
  | deadline {address op due} (hop : s.heap[address]? = some op)
      (hdue : op.deadlineTimer = some due) (hstatus : op.status = .running) :
      Concluding s (.deadline address) address op
        { op with aborted := op.aborted.map fun _ => true, deadlineTimer := none } .timedOut
  | beforeDispatchRejected {address op thrown} (hop : s.heap[address]? = some op)
      (hphase : op.phase = .beforeDispatch) :
      Concluding s (.beforeDispatchRejected address thrown) address op (finish op)
        (.abortedBeforeDispatch thrown)
  | runRejected {address op thrown} (hop : s.heap[address]? = some op)
      (hphase : op.phase = .running) (hlive : op.status.isTerminal = false) :
      Concluding s (.runRejected address thrown) address op (finish op) (op.rejection thrown)
  | acknowledged {address op result} (hop : s.heap[address]? = some op)
      (hphase : op.phase = .afterRun result) :
      Concluding s (.acknowledged address) address op (finish op) (.completed result)
  | afterDispatchRejected {address op thrown result} (hop : s.heap[address]? = some op)
      (hphase : op.phase = .afterRun result) :
      Concluding s (.afterDispatchRejected address thrown) address op (finish op)
        (.requiresReconciliation thrown)

/-- What the microtask of `start` and the deadline timer do besides: the address, the object before
and the object after. -/
inductive Advancing (s : OperationManager) : Action → LiveOperation → LiveOperation → Prop
  | expired {address op due} (hdue : op.deadlineTimer = some due) (hstatus : op.status ≠ .running) :
      Advancing s (.deadline address) op { op with deadlineTimer := none }
  | skipped {address op} (hphase : op.phase = .microtask) (hterminal : op.status.isTerminal = true) :
      Advancing s (.microtask address) op (finish op)
  | suspended {address op} (hphase : op.phase = .microtask)
      (hlive : op.status.isTerminal = false) :
      Advancing s (.microtask address) op { op with phase := .beforeDispatch }
  | resolved {address op result} (hphase : op.phase = .running)
      (hlive : op.status.isTerminal = false) :
      Advancing s (.runResolved address result) op { op with phase := .afterRun result }
  | ignoredResult {address op result} (hphase : op.phase = .running)
      (hterminal : op.status.isTerminal = true) :
      Advancing s (.runResolved address result) op (finish op)
  | ignoredError {address op thrown} (hphase : op.phase = .running)
      (hterminal : op.status.isTerminal = true) :
      Advancing s (.runRejected address thrown) op (finish op)

/-- The object an operation is begun with as running. -/
def startedAs (op : LiveOperation) (now : Int) : LiveOperation :=
  { op with status := .running, startedAt := some now, phase := .running }

/-- The object of a running operation whose cancellation is requested. -/
def cancellingAs (op : LiveOperation) (now : Int) : LiveOperation :=
  { op with
    status := .cancelling
    cancelRequestedAt := some now
    aborted := op.aborted.map fun _ => true }

def answerAll (s : OperationManager) (answers : List Effect) : OperationManager :=
  { s with trace := s.trace ++ answers }

/-- A conclusion shows its event and then answers, also those that follow it. -/
theorem answerAll_conclude_trace (address : Nat) (op : LiveOperation) (c : Conclusion) {answers : List Effect}
    (hanswers : ∀ e ∈ answers, e.isAnswer = true) :
    ∃ more, ((s.conclude address op c).answerAll answers).trace =
        s.trace ++ .event (s.eventOf c.kind op c.data) :: more ∧ ∀ e ∈ more, e.isAnswer = true := by
  obtain ⟨more, htrace, hmore⟩ := conclude_trace (s := s) address op c
  refine ⟨more ++ answers, ?_, fun e he => (List.mem_append.mp he).elim (hmore e) (hanswers e)⟩
  rw [answerAll, htrace, List.append_assoc, List.cons_append]

theorem answerAll_nil : s.answerAll [] = s := by
  unfold answerAll
  rw [List.append_nil]

inductive Steps (s : OperationManager) : Action → OperationManager → Prop
  | tick {ms} : Steps s (.tick ms) { s with now := s.now + ms }
  | unchanged {address fraction message} : Steps s (.report address fraction message) s
  | answered {a e} (hanswer : e.isAnswer = true) : Steps s a (s.effect e)
  | lookedUp {deviceId capability owner key} :
      Steps s (.lookupKey deviceId capability owner key)
        { s with
          idempotencyStore := (s.idempotencyStore.lookup
            (IdempotencyStore.keyFor deviceId capability owner key) s.now).1 }
  | removed {deviceId capability owner key} :
      Steps s (.removeKey deviceId capability owner key)
        { s with
          idempotencyStore :=
            s.idempotencyStore.remove (IdempotencyStore.keyFor deviceId capability owner key) }
  | deduped {options randomId key store tombstone} (hkey : options.key? = some key)
      (hlookup : s.idempotencyStore.lookup (scopedKeyFor options key) s.now =
        (store, some tombstone))
      (hin : s.operations.contains tombstone.operationId = true) :
      Steps s (.begin_ options randomId)
        ({ s with idempotencyStore := store }.effect (.began true tombstone.operationId))
  | restored {options randomId key store tombstone} (hkey : options.key? = some key)
      (hlookup : s.idempotencyStore.lookup (scopedKeyFor options key) s.now =
        (store, some tombstone))
      (hout : s.operations.contains tombstone.operationId = false) :
      Steps s (.begin_ options randomId)
        ({ s with
          idempotencyStore := store
          heap := s.heap ++ [restoredFrom tombstone]
          operations := s.operations.insert tombstone.operationId s.heap.length }
          |>.effect (.began true tombstone.operationId))
  | opened {options randomId store}
      (hstore : (options.key? = none ∧ store = s.idempotencyStore) ∨
        ∃ key, options.key? = some key ∧
          s.idempotencyStore.lookup (scopedKeyFor options key) s.now = (store, none)) :
      Steps s (.begin_ options randomId)
        ({ s with idempotencyStore := store }.openNew options randomId)
  | registered {a operationId address op waiter} (hop : s.heap[address]? = some op)
      (hin : s.operations.get? operationId = some address) (hlive : op.status.isTerminal = false) :
      Steps s a (s.register op.id waiter)
  | cancelling {a operationId address op waiter} (hop : s.heap[address]? = some op)
      (hin : s.operations.get? operationId = some address) (hlive : op.status.isTerminal = false)
      (hstatus : op.status ≠ .queued) :
      Steps s a ((s.update address (cancellingAs op s.now)).register op.id waiter)
  | advanced {a address op op'} (hop : s.heap[address]? = some op) (hadv : Advancing s a op op') :
      Steps s a (s.update address op')
  | dispatched {address op} (hop : s.heap[address]? = some op)
      (hphase : op.phase = .beforeDispatch) :
      Steps s (.dispatched address)
        ((s.update address (startedAs op s.now)).emit .started (startedAs op s.now) []
          |>.effect (.invoked op.id address))
  | reported {address op fraction message} (hop : s.heap[address]? = some op)
      (hphase : op.phase.isDispatched = true) (hlive : op.status.isTerminal = false) :
      Steps s (.report address fraction message)
        ((s.update address { op with progress := some ⟨fraction, message, s.now⟩ }).emit .progress
          { op with progress := some ⟨fraction, message, s.now⟩ }
          ((js "fraction", fraction.elim .null .num) :: field? (js "message") (message.map .str)))
  | concluded {a address op op' c answers} (hop : s.heap[address]? = some op)
      (hc : Concluding s a address op op' c) (hanswers : ∀ e ∈ answers, e.isAnswer = true) :
      Steps s a
        ((s.conclude address op' c).answerAll answers)
  | reconciled {operationId options address op} (hop : s.heap[address]? = some op)
      (hin : s.operations.get? operationId = some address)
      (huncertain : op.status.isUncertain = true) :
      Steps s (.reconcile operationId options) (s.reconcileAt address op options)

/-! ## Opening -/

theorem openNew_store_of_none {options : BeginOperationOptions} (hkey : options.key? = none)
    (randomId : JsString) : (s.openNew options randomId).idempotencyStore = s.idempotencyStore := by
  show options.key?.elim s.idempotencyStore _ = s.idempotencyStore
  rw [hkey, Option.elim_none]

theorem openNew_store_of_some {options : BeginOperationOptions} {key : JsString}
    (hkey : options.key? = some key) (randomId : JsString) :
    (s.openNew options randomId).idempotencyStore =
      s.idempotencyStore.recordUnder (scopedKeyFor options key)
        (tombstoneOf (s.queued options randomId) key) s.now := by
  show options.key?.elim s.idempotencyStore _ = _
  rw [hkey, Option.elim_some]

/-! ## Reconciling -/

section Reconcile

variable (address : Nat) (op : LiveOperation) (options : ReconcileOptions)

@[simp] theorem reconcileAt_heap :
    (s.reconcileAt address op options).heap = s.heap.set address (reconciledBy op options s.now) := by
  simp [reconcileAt, emit, effect, patchStore, update]
@[simp] theorem reconcileAt_sequence :
    (s.reconcileAt address op options).sequence = s.sequence := by
  simp [reconcileAt, emit, effect, patchStore, update]
@[simp] theorem reconcileAt_now : (s.reconcileAt address op options).now = s.now := by
  simp [reconcileAt, emit, effect, patchStore, update]

/-- The patch `reconcile` makes to the tombstone. -/
def reconciledPatch (op : LiveOperation) : TombstonePatch :=
  ⟨op.status, op.result.filter Json.truthy, op.error⟩

theorem reconcileAt_store :
    (s.reconcileAt address op options).idempotencyStore =
      (s.patchStore op (reconciledPatch (reconciledBy op options s.now))).idempotencyStore := by
  simp [reconcileAt, emit, effect, patchStore, update, reconciledPatch]

theorem reconcileAt_operations :
    (s.reconcileAt address op options).operations =
      (s.update address (reconciledBy op options s.now)).retainOperations.operations := by
  refine retainOperations_congr ?_ ?_ ?_ ?_ ?_ <;> simp [emit, effect, patchStore, update]

theorem reconcileAt_trace :
    ∃ answers, (s.reconcileAt address op options).trace =
        s.trace ++ .event (s.eventOf .reconciled (reconciledBy op options s.now)
          (reconciledData (reconciledBy op options s.now) options)) :: answers ∧
      ∀ e ∈ answers, e.isAnswer = true := by
  obtain ⟨answers, htrace, hanswers⟩ :=
    settle_trace (s := ((s.update address (reconciledBy op options s.now)).patchStore op
      (reconciledPatch (reconciledBy op options s.now))).emit .reconciled
      (reconciledBy op options s.now) (reconciledData (reconciledBy op options s.now) options)) op.id
  refine ⟨answers, ?_, hanswers⟩
  refine htrace.trans ?_
  simp [emit, effect, patchStore, update, eventOf]

end Reconcile

/-! ## Inversion -/

theorem Steps.of_concluding {a : Action} {address : Nat} {op op' : LiveOperation} {c : Conclusion}
    (hop : s.heap[address]? = some op) (hc : Concluding s a address op op' c) :
    Steps s a (s.conclude address op' c) := by
  have hsteps : Steps s a ((s.conclude address op' c).answerAll []) :=
    Steps.concluded hop hc (by simp)
  rwa [answerAll_nil] at hsteps

theorem begin_steps (options : BeginOperationOptions) (randomId : JsString) :
    Steps s (.begin_ options randomId) (s.begin_ options randomId) := by
  unfold begin_
  split
  · next hkey => exact Steps.opened (Or.inl ⟨hkey, rfl⟩)
  · next key hkey =>
    split
    · next store tombstone hlookup =>
      unfold dedupe
      split
      · next hin => exact Steps.deduped hkey hlookup hin
      · next hout => exact Steps.restored hkey hlookup (by simpa using hout)
    · next store hlookup => exact Steps.opened (Or.inr ⟨key, hkey, hlookup⟩)

theorem cancel_steps (operationId : JsString) (reason : Option JsString) (token : Nat) :
    Steps s (.cancel operationId reason token) (s.cancel operationId reason token) := by
  unfold cancel
  split
  · exact Steps.answered rfl
  · next address op hfind =>
    obtain ⟨hin, hop⟩ := find?_eq_some_iff.mp hfind
    split
    · exact Steps.answered rfl
    · next hlive =>
      have hlive : op.status.isTerminal = false := by simpa using hlive
      split
      · next hstatus =>
        have hc : Concluding s (.cancel operationId reason token) address op op
            (.cancelledBeforeStart reason) := .cancel hfind hstatus
        dsimp only
        split
        · refine Steps.concluded hop hc fun e he => ?_
          rw [List.mem_singleton.mp he]
          rfl
        · exact Steps.of_concluding hop hc
      · next hstatus => exact Steps.cancelling hop hin hlive hstatus

theorem wait_steps (kind : WaiterKind) (operationId : JsString) (token : Nat) :
    Steps s (.wait kind operationId token) (s.wait kind operationId token) := by
  unfold wait
  split
  · split <;> exact Steps.answered rfl
  · next address op hfind =>
    obtain ⟨hin, hop⟩ := find?_eq_some_iff.mp hfind
    split
    · exact Steps.answered rfl
    · next hlive => exact Steps.registered hop hin (by simpa using hlive)

theorem reconcile_steps (operationId : JsString) (options : ReconcileOptions) :
    Steps s (.reconcile operationId options) (s.reconcile operationId options) := by
  unfold reconcile
  split
  · exact Steps.answered rfl
  · next address op hfind =>
    obtain ⟨hin, hop⟩ := find?_eq_some_iff.mp hfind
    split
    · next huncertain => exact Steps.reconciled hop hin huncertain
    · exact Steps.answered rfl

/-- **Inversion.** Every step is one of the kinds. -/
theorem steps_of_step {a : Action} {t : OperationManager} (h : s.step a = some t) :
    Steps s a t := by
  cases a with
  | tick ms => exact Option.some.inj h ▸ Steps.tick
  | begin_ options randomId => exact Option.some.inj h ▸ begin_steps options randomId
  | cancel operationId reason token =>
    exact Option.some.inj h ▸ cancel_steps operationId reason token
  | reconcile operationId options => exact Option.some.inj h ▸ reconcile_steps operationId options
  | wait kind operationId token => exact Option.some.inj h ▸ wait_steps kind operationId token
  | lookupKey deviceId capability owner key => exact Option.some.inj h ▸ Steps.lookedUp
  | removeKey deviceId capability owner key => exact Option.some.inj h ▸ Steps.removed
  | deadline address =>
    obtain ⟨op, hop, hf⟩ := Option.bind_eq_some_iff.mp h
    obtain ⟨due, hdue, hf⟩ := Option.bind_eq_some_iff.mp hf
    split at hf
    · cases hf
    · split at hf
      · next hstatus =>
        exact Option.some.inj hf ▸ Steps.of_concluding hop (.deadline hop hdue hstatus)
      · next hstatus => exact Option.some.inj hf ▸ Steps.advanced hop (.expired hdue hstatus)
  | microtask address =>
    obtain ⟨op, hop, hf⟩ := Option.bind_eq_some_iff.mp h
    unfold microtask at hf
    split at hf
    · next hphase =>
      split at hf
      · next hterminal =>
        exact Option.some.inj hf ▸ Steps.advanced hop (.skipped hphase hterminal)
      · next hlive =>
        exact Option.some.inj hf ▸ Steps.advanced hop (.suspended hphase (by simpa using hlive))
    · cases hf
  | dispatched address =>
    obtain ⟨op, hop, hf⟩ := Option.bind_eq_some_iff.mp h
    unfold OperationManager.dispatched at hf
    split at hf
    · next hphase => exact Option.some.inj hf ▸ Steps.dispatched hop hphase
    · cases hf
  | beforeDispatchRejected address thrown =>
    obtain ⟨op, hop, hf⟩ := Option.bind_eq_some_iff.mp h
    replace hf : s.beforeDispatchRejected address op thrown = some t := hf
    unfold OperationManager.beforeDispatchRejected at hf
    split at hf
    · next hphase =>
      split at hf
      · exact Option.some.inj hf ▸ Steps.of_concluding hop (.beforeDispatchRejected hop hphase)
      · cases hf
    · cases hf
  | report address fraction message =>
    obtain ⟨op, hop, hf⟩ := Option.bind_eq_some_iff.mp h
    replace hf : s.report address op fraction message = some t := hf
    unfold OperationManager.report at hf
    split at hf
    · next hphase =>
      split at hf
      · exact Option.some.inj hf ▸ Steps.unchanged
      · next hlive =>
        split at hf
        · exact Option.some.inj hf ▸ Steps.answered rfl
        · exact Option.some.inj hf ▸ Steps.reported hop hphase (by simpa using hlive)
    · cases hf
  | runResolved address result =>
    obtain ⟨op, hop, hf⟩ := Option.bind_eq_some_iff.mp h
    replace hf : s.runResolved address op result = some t := hf
    unfold OperationManager.runResolved at hf
    split at hf
    · next hphase =>
      split at hf
      · next hterminal =>
        exact Option.some.inj hf ▸ Steps.advanced hop (.ignoredResult hphase hterminal)
      · next hlive =>
        exact Option.some.inj hf ▸ Steps.advanced hop (.resolved hphase (by simpa using hlive))
    · cases hf
  | runRejected address thrown =>
    obtain ⟨op, hop, hf⟩ := Option.bind_eq_some_iff.mp h
    replace hf : s.runRejected address op thrown = some t := hf
    unfold OperationManager.runRejected at hf
    split at hf
    · next hphase =>
      split at hf
      · next hterminal =>
        exact Option.some.inj hf ▸ Steps.advanced hop (.ignoredError hphase hterminal)
      · next hlive =>
        exact Option.some.inj hf ▸
          Steps.of_concluding hop (.runRejected hop hphase (by simpa using hlive))
    · cases hf
  | acknowledged address =>
    obtain ⟨op, hop, hf⟩ := Option.bind_eq_some_iff.mp h
    unfold OperationManager.acknowledged at hf
    split at hf
    · next hphase => exact Option.some.inj hf ▸ Steps.of_concluding hop (.acknowledged hop hphase)
    · cases hf
  | afterDispatchRejected address thrown =>
    obtain ⟨op, hop, hf⟩ := Option.bind_eq_some_iff.mp h
    replace hf : s.afterDispatchRejected address op thrown = some t := hf
    unfold OperationManager.afterDispatchRejected at hf
    split at hf
    · next hphase =>
      split at hf
      · exact Option.some.inj hf ▸ Steps.of_concluding hop (.afterDispatchRejected hop hphase)
      · cases hf
    · cases hf

/-! ## What a step shows -/

inductive Shows (s : OperationManager) : Action → List Effect → Prop
  | answers {a shown} (hanswers : ∀ e ∈ shown, e.isAnswer = true) : Shows s a shown
  | requested {options randomId} :
      Shows s (.begin_ options randomId)
        [.event (s.eventOf .requested (s.queued options randomId) (requestedData options)),
          .began false (s.queued options randomId).id]
  | started {address op} (hop : s.heap[address]? = some op) (hphase : op.phase = .beforeDispatch) :
      Shows s (.dispatched address)
        [.event (s.eventOf .started op []), .invoked op.id address]
  | progress {address op fraction message data} (hop : s.heap[address]? = some op)
      (hphase : op.phase.isDispatched = true) (hlive : op.status.isTerminal = false) :
      Shows s (.report address fraction message) [.event (s.eventOf .progress op data)]
  | concluded {a address op op' c answers} (hop : s.heap[address]? = some op)
      (hc : Concluding s a address op op' c) (hanswers : ∀ e ∈ answers, e.isAnswer = true) :
      Shows s a (.event (s.eventOf c.kind op' c.data) :: answers)
  | reconciled {operationId options address op answers} (hop : s.heap[address]? = some op)
      (hin : s.operations.get? operationId = some address)
      (huncertain : op.status.isUncertain = true)
      (hanswers : ∀ e ∈ answers, e.isAnswer = true) :
      Shows s (.reconcile operationId options)
        (.event (s.eventOf .reconciled (reconciledBy op options s.now)
          (reconciledData (reconciledBy op options s.now) options)) :: answers)

theorem Shows.answer {a : Action} {e : Effect} (h : e.isAnswer = true) : Shows s a [e] :=
  .answers fun e' he => by rw [List.mem_singleton.mp he]; exact h

theorem Steps.shows {a : Action} {t : OperationManager} (h : Steps s a t) :
    ∃ shown, t.trace = s.trace ++ shown ∧ Shows s a shown := by
  have hnone : ∀ {b : Action}, Shows s b [] := Shows.answers (by simp)
  cases h with
  | tick => exact ⟨[], (List.append_nil _).symm, hnone⟩
  | unchanged => exact ⟨[], (List.append_nil _).symm, hnone⟩
  | answered hanswer => exact ⟨_, rfl, Shows.answer hanswer⟩
  | lookedUp => exact ⟨[], (List.append_nil _).symm, hnone⟩
  | removed => exact ⟨[], (List.append_nil _).symm, hnone⟩
  | deduped hkey hlookup hin => exact ⟨_, rfl, Shows.answer rfl⟩
  | restored hkey hlookup hout => exact ⟨_, rfl, Shows.answer rfl⟩
  | @opened options randomId store hstore =>
    exact ⟨_, List.append_assoc _ _ _, @Shows.requested s options randomId⟩
  | registered hop hin hlive => exact ⟨[], (List.append_nil _).symm, hnone⟩
  | cancelling hop hin hlive hstatus => exact ⟨[], (List.append_nil _).symm, hnone⟩
  | advanced hop hadv => exact ⟨[], (List.append_nil _).symm, hnone⟩
  | @dispatched address op hop hphase =>
    exact ⟨[.event (s.eventOf .started op []), .invoked op.id address], List.append_assoc _ _ _,
      Shows.started hop hphase⟩
  | @reported address op fraction message hop hphase hlive =>
    exact ⟨[.event (s.eventOf .progress op _)], rfl, Shows.progress hop hphase hlive⟩
  | @concluded _ address _ op' c answers hop hc hanswers =>
    obtain ⟨more, htrace, hmore⟩ := answerAll_conclude_trace (s := s) address op' c hanswers
    exact ⟨.event (s.eventOf c.kind op' c.data) :: more, htrace, Shows.concluded hop hc hmore⟩
  | @reconciled _ options address op hop hin huncertain =>
    obtain ⟨more, htrace, hmore⟩ := reconcileAt_trace (s := s) address op options
    exact ⟨_, htrace, Shows.reconciled hop hin huncertain hmore⟩

/-- Only `dispatched` shows an invocation, of the object it is about. -/
theorem Shows.invoked {a : Action} {shown : List Effect} (h : Shows s a shown)
    {operationId : JsString} {address : Nat} (hmem : .invoked operationId address ∈ shown) :
    a = .dispatched address ∧ ∃ op, s.heap[address]? = some op ∧ op.id = operationId := by
  have hanswer : ∀ {answers : List Effect}, (∀ e ∈ answers, e.isAnswer = true) →
      Effect.invoked operationId address ∉ answers := by
    intro answers hanswers hmem
    cases hanswers _ hmem
  cases h with
  | answers hanswers => exact absurd hmem (hanswer hanswers)
  | requested => simp at hmem
  | started hop hphase =>
    simp only [List.mem_cons, reduceCtorEq, Effect.invoked.injEq, List.not_mem_nil, or_false,
      false_or] at hmem
    obtain ⟨rfl, rfl⟩ := hmem
    exact ⟨rfl, _, hop, rfl⟩
  | progress hop hphase hlive => simp at hmem
  | concluded hop hc hanswers =>
    rcases List.mem_cons.mp hmem with heq | hmem
    · cases heq
    · exact absurd hmem (hanswer hanswers)
  | reconciled hop hin huncertain hanswers =>
    rcases List.mem_cons.mp hmem with heq | hmem
    · cases heq
    · exact absurd hmem (hanswer hanswers)

end OperationManager

end Pinout.Operation
