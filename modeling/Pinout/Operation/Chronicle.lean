import Pinout.Foundation.History
import Pinout.Operation.Registry

/-! # What the trace says about the operations

The order of the effects in the trace of any run (`Effect.Follows`), and what the trace says about
the objects of the heap (`Chronicled`): an operation is **requested** once, before anything else of
it is shown, by an event that has all the request had; its run is **invoked** after
`operation.started`, and never together with `operation.aborted`; time goes forward. -/

namespace Pinout.Operation

open Foundation

def Effect.event? : Effect → Option OperationEvent
  | .event e => some e
  | _ => none

def eventsOf (trace : List Effect) : List OperationEvent := trace.filterMap Effect.event?

@[simp] theorem eventsOf_nil : eventsOf [] = [] := rfl

@[simp] theorem eventsOf_append (trace shown : List Effect) :
    eventsOf (trace ++ shown) = eventsOf trace ++ eventsOf shown := List.filterMap_append

@[simp] theorem eventsOf_cons_event (e : OperationEvent) (trace : List Effect) :
    eventsOf (.event e :: trace) = e :: eventsOf trace := rfl

@[simp] theorem eventsOf_cons_invoked (id : JsString) (i : Nat) (trace : List Effect) :
    eventsOf (.invoked id i :: trace) = eventsOf trace := rfl

theorem eventsOf_singleton_of_none {effect : Effect} (h : effect.event? = none) :
    eventsOf [effect] = [] := by
  rw [eventsOf, List.filterMap_cons_none h, List.filterMap_nil]

theorem mem_eventsOf {e : OperationEvent} {trace : List Effect} :
    e ∈ eventsOf trace ↔ Effect.event e ∈ trace := by
  constructor
  · intro h
    obtain ⟨effect, heffect, he⟩ := List.mem_filterMap.mp h
    cases effect <;> cases he
    exact heffect
  · exact fun h => List.mem_filterMap.mpr ⟨.event e, h, rfl⟩

theorem eventsOf_eq_nil {answers : List Effect} (h : ∀ e ∈ answers, e.isAnswer = true) :
    eventsOf answers = [] := by
  refine List.eq_nil_iff_forall_not_mem.mpr fun e he => ?_
  cases h _ (mem_eventsOf.mp he)

def Invoked (trace : List Effect) (id : JsString) : Prop := ∃ i, Effect.invoked id i ∈ trace

theorem not_invoked_of_answers {answers : List Effect} (h : ∀ e ∈ answers, e.isAnswer = true)
    (id : JsString) : ¬ Invoked answers id := by
  rintro ⟨i, hi⟩
  cases h _ hi

theorem invoked_append {trace shown : List Effect} {id : JsString} :
    Invoked (trace ++ shown) id ↔ Invoked trace id ∨ Invoked shown id := by
  simp only [Invoked, List.mem_append, exists_or]

/-- An event of a kind was shown for an operation. -/
def Shown (trace : List Effect) (id : JsString) (kind : OperationEventKind) : Prop :=
  ∃ e ∈ eventsOf trace, e.operationId = id ∧ e.kind = kind

theorem shown_append {trace shown : List Effect} {id : JsString} {kind : OperationEventKind} :
    Shown (trace ++ shown) id kind ↔ Shown trace id kind ∨ Shown shown id kind := by
  simp only [Shown, eventsOf_append, List.mem_append, or_and_right, exists_or]

/-! ## Requests -/

/-- The fields in which `operation.requested` journals the request. -/
def requestFields : List JsString := [js "capability", js "owner", js "idempotencyKey"]

/-- The data of an event has none of the fields of a request. -/
def OperationEvent.Silent (e : OperationEvent) : Prop := ∀ f ∈ e.data, f.1 ∉ requestFields

structure OperationEvent.Requests (e : OperationEvent) (options : BeginOperationOptions) : Prop where
  kind : e.kind = .requested
  deviceId : e.deviceId = options.deviceId
  data : e.data = OperationManager.requestedData options

/-- The scope of the operation that a request opens. -/
def OperationEvent.scope (e : OperationEvent) (options : BeginOperationOptions) :
    JsString × JsString × JsString × Option JsString × Option JsString × Int :=
  (e.operationId, options.deviceId, options.capability, options.owner, options.key?, e.at_)

/-! ## The order of effects -/

/-- How an event stands to what was shown before. -/
structure OperationEvent.Follows (e : OperationEvent) (before : List Effect) : Prop where
  later : ∀ e' ∈ eventsOf before, e'.at_ ≤ e.at_
  first : e.kind = .requested → ∀ e' ∈ eventsOf before, e'.operationId ≠ e.operationId
  requests : e.kind = .requested → ∃ options, e.Requests options
  silent : e.kind ≠ .requested → e.Silent
  started : e.kind = .uncertain → Shown before e.operationId .started
  uninvoked : e.kind = .aborted → ¬ Invoked before e.operationId

/-- How an effect stands to what was shown before. -/
def Effect.Follows (before : List Effect) : Effect → Prop
  | .event e => e.Follows before
  | .invoked id _ => Shown before id .started ∧ ¬ Shown before id .aborted
  | _ => True

theorem Effect.follows_of_isAnswer {e : Effect} (h : e.isAnswer = true) (before : List Effect) :
    e.Follows before := by
  cases e <;> trivial

abbrev InOrder (trace : List Effect) : Prop := Ordered Effect.Follows trace

theorem InOrder.requested_unique {trace : List Effect} (h : InOrder trace) {e e' : OperationEvent}
    (he : e ∈ eventsOf trace) (he' : e' ∈ eventsOf trace) (hkind : e.kind = .requested)
    (hkind' : e'.kind = .requested) (hid : e.operationId = e'.operationId) : e = e' := by
  rcases h.trichotomy (mem_eventsOf.mp he) (mem_eventsOf.mp he') with
    heq | ⟨before, hmem, hR⟩ | ⟨before, hmem, hR⟩
  · exact Effect.event.inj heq
  · exact absurd hid.symm (hR.first hkind e' (mem_eventsOf.mpr hmem))
  · exact absurd hid (hR.first hkind' e (mem_eventsOf.mpr hmem))

/-- **Aborted operations were not invoked**, at any time. -/
theorem InOrder.not_aborted {trace : List Effect} (h : InOrder trace) {id : JsString}
    (hinvoked : Invoked trace id) : ¬ Shown trace id .aborted := by
  rintro ⟨e, he, rfl, hkind⟩
  obtain ⟨i, hi⟩ := hinvoked
  rcases h.trichotomy hi (mem_eventsOf.mp he) with heq | ⟨before, hmem, hR⟩ | ⟨before, hmem, hR⟩
  · cases heq
  · exact hR.2 ⟨e, mem_eventsOf.mpr hmem, rfl, hkind⟩
  · exact hR.uninvoked hkind ⟨i, hmem⟩

theorem InOrder.started {trace : List Effect} (h : InOrder trace) {id : JsString}
    (hinvoked : Invoked trace id) : Shown trace id .started := by
  obtain ⟨i, hi⟩ := hinvoked
  obtain ⟨before, after, rfl, hR⟩ := h.of_mem hi
  exact shown_append.mpr (Or.inl hR.1)

/-! ## The invariant -/

/-- Whether the microtask of `start` has not come to the run yet. -/
def Phase.isUndispatched : Phase → Bool
  | .microtask | .beforeDispatch => true
  | _ => false

/-- Whether the microtask of `start` is at the run or past it. -/
def Phase.isAcknowledging : Phase → Bool
  | .running | .afterRun _ => true
  | _ => false

namespace OperationManager

structure Chronicled (s : OperationManager) : Prop where
  inOrder : InOrder s.trace
  past : ∀ e ∈ eventsOf s.trace, e.at_ ≤ s.now
  known : ∀ e ∈ eventsOf s.trace, ∃ o ∈ s.heap, o.id = e.operationId ∧ o.deviceId = e.deviceId
  origin : ∀ o ∈ s.heap, ∃ e ∈ eventsOf s.trace, ∃ options, e.Requests options ∧
    o.scope = e.scope options
  named : ∀ o ∈ s.heap, o.id ≠ []
  scope : ∀ o ∈ s.heap, ∀ o' ∈ s.heap, o.id = o'.id → o.scope = o'.scope
  owned : ∀ k τ, s.idempotencyStore.tombstones.get? k = some τ →
    ∃ o ∈ s.heap, (restoredFrom τ).scope = o.scope
  /-- What has not been dispatched was neither invoked nor aborted. -/
  undispatched : ∀ o ∈ s.heap, o.phase.isUndispatched = true →
    ¬ Invoked s.trace o.id ∧ ¬ Shown s.trace o.id .aborted
  started : ∀ o ∈ s.heap, o.phase.isAcknowledging = true → Shown s.trace o.id .started

variable {s t : OperationManager}

/-- An object whose microtask was queued is the only one of its id with a phase. -/
theorem Registry.idle_of_ne (h : s.Registry) {i j : Nat} {op o : LiveOperation}
    (hop : s.heap[i]? = some op) (hphase : op.phase ≠ .idle) (ho : s.heap[j]? = some o)
    (hid : o.id = op.id) (hne : j ≠ i) : o.phase = .idle := by
  rcases Nat.lt_or_gt_of_ne hne with hlt | hgt
  · exact absurd (h.inert j i o op hlt ho hop hid).idle hphase
  · exact (h.inert i j op o hgt hop ho hid.symm).idle

/-! ## Data of the events -/

theorem name_of_mem_field? {name : JsString} {v : Option Json} {f : JsString × Json}
    (h : f ∈ field? name v) : f.1 = name := by
  cases v with
  | none => cases h
  | some v => rw [List.mem_singleton.mp h]

theorem Concluding.silent {a : Action} {i : Nat} {op op' : LiveOperation} {c : Conclusion}
    (h : Concluding s a i op op' c) : ∀ f ∈ c.data, f.1 ∉ requestFields := by
  cases h with
  | @cancel _ reason _ _ _ _ _ =>
    intro f hf
    rcases List.mem_append.mp hf with hf | hf
    · rw [name_of_mem_field? hf]
      decide
    · rw [List.mem_singleton.mp hf]
      decide
  | deadline _ _ _ =>
    intro f hf
    rw [List.mem_singleton.mp hf]
    show js "error" ∉ requestFields
    decide
  | beforeDispatchRejected _ _ => intro f hf; cases hf
  | @runRejected _ op thrown _ _ _ =>
    -- Whatever the rejection is, its data are a reason or a code, and an error.
    have hnames : ∀ name ∈ (op.rejection thrown).data.map Prod.fst, name ∉ requestFields := by
      unfold LiveOperation.rejection
      dsimp only
      split
      · split
        · show ∀ name ∈ [js "reason", js "error"], name ∉ requestFields
          decide
        · split
          · show ∀ name ∈ [js "reason", js "error"], name ∉ requestFields
            decide
          · show ∀ name ∈ [js "code", js "error"], name ∉ requestFields
            decide
      · show ∀ name ∈ [js "code", js "error"], name ∉ requestFields
        decide
    exact fun f hf => hnames f.1 (List.mem_map_of_mem hf)
  | acknowledged _ _ =>
    intro f hf
    rw [List.mem_singleton.mp hf]
    show js "result" ∉ requestFields
    decide
  | afterDispatchRejected _ _ => intro f hf; cases hf

theorem silent_progress (fraction : Json) (message : Option JsString) :
    ∀ f ∈ (js "fraction", fraction) :: field? (js "message") (message.map Json.str),
      f.1 ∉ requestFields := by
  intro f hf
  rcases List.mem_cons.mp hf with rfl | hf
  · show js "fraction" ∉ requestFields
    decide
  · rw [name_of_mem_field? hf]
    decide

theorem silent_reconciled (op : LiveOperation) (options : ReconcileOptions) :
    ∀ f ∈ reconciledData op options, f.1 ∉ requestFields := by
  intro f hf
  simp only [reconciledData, List.mem_cons, List.mem_append] at hf
  rcases hf with rfl | (hf | hf) | rfl | hf | hf
  · show js "resolution" ∉ requestFields
    decide
  · rw [name_of_mem_field? hf]
    decide
  · rw [name_of_mem_field? hf]
    decide
  · show js "status" ∉ requestFields
    decide
  · rw [name_of_mem_field? hf]
    decide
  · rw [name_of_mem_field? hf]
    decide

/-! ## Phases -/

theorem Advancing.undispatched {a : Action} {op op' : LiveOperation} (h : Advancing s a op op')
    (hphase : op'.phase.isUndispatched = true) : op.phase.isUndispatched = true := by
  cases h with
  | expired _ _ => exact hphase
  | skipped _ _ => cases hphase
  | suspended h _ => rw [h]; rfl
  | resolved _ _ => cases hphase
  | ignoredResult _ _ => cases hphase
  | ignoredError _ _ => cases hphase

theorem Advancing.acknowledging {a : Action} {op op' : LiveOperation} (h : Advancing s a op op')
    (hphase : op'.phase.isAcknowledging = true) : op.phase.isAcknowledging = true := by
  cases h with
  | expired _ _ => exact hphase
  | skipped _ _ => cases hphase
  | suspended _ _ => cases hphase
  | resolved h _ => rw [h]; rfl
  | ignoredResult _ _ => cases hphase
  | ignoredError _ _ => cases hphase

namespace Concluding

variable {a : Action} {i : Nat} {op op' : LiveOperation} {c : Conclusion}

theorem undispatched (h : Concluding s a i op op' c) (hphase : op'.phase.isUndispatched = true) :
    op.phase.isUndispatched = true := by
  cases h with
  | cancel _ _ => exact hphase
  | deadline _ _ _ => exact hphase
  | _ => cases hphase

theorem acknowledging (h : Concluding s a i op op' c) (hphase : op'.phase.isAcknowledging = true) :
    op.phase.isAcknowledging = true := by
  cases h with
  | cancel _ _ => exact hphase
  | deadline _ _ _ => exact hphase
  | _ => cases hphase

theorem kind_rejection (op : LiveOperation) (thrown : Thrown) :
    (op.rejection thrown).kind ∈ [.stopUnconfirmed, .cancelled, .failed] := by
  unfold LiveOperation.rejection
  dsimp only
  split
  · split
    · exact List.mem_cons_self
    · split
      · exact List.mem_cons_of_mem _ List.mem_cons_self
      · exact List.mem_cons_self
  · exact List.mem_cons_of_mem _ (List.mem_cons_of_mem _ List.mem_cons_self)

theorem kind_ne_requested (h : Concluding s a i op op' c) : c.kind ≠ .requested := by
  cases h with
  | runRejected _ _ _ =>
    intro heq
    have hmem := kind_rejection op ‹Thrown›
    rw [heq] at hmem
    simp at hmem
  | _ => nofun

theorem acknowledging_of_uncertain (h : Concluding s a i op op' c) (hkind : c.kind = .uncertain) :
    op.phase.isAcknowledging = true := by
  cases h with
  | runRejected _ hphase _ => rw [hphase]; rfl
  | afterDispatchRejected _ hphase => rw [hphase]; rfl
  | _ => cases hkind

/-- Only what waits to be dispatched is aborted, and it waits no more. -/
theorem undispatched_of_aborted (h : Concluding s a i op op' c) (hkind : c.kind = .aborted) :
    op.phase.isUndispatched = true ∧ (op'.concluded c s.now).phase.isUndispatched = false := by
  cases h with
  | beforeDispatchRejected _ hphase => rw [hphase]; exact ⟨rfl, rfl⟩
  | runRejected _ _ _ =>
    have hmem := kind_rejection op ‹Thrown›
    rw [hkind] at hmem
    simp at hmem
  | _ => cases hkind

end Concluding

/-! ## One step -/

/-- An event and the answers after it are in order when the event is. -/
theorem inOrder_event {trace answers : List Effect} {e : OperationEvent} (h : InOrder trace)
    (he : e.Follows trace) (hanswers : ∀ a ∈ answers, a.isAnswer = true) :
    InOrder (trace ++ .event e :: answers) := by
  have hconcat : InOrder (trace ++ [.event e]) := ordered_concat.mpr ⟨h, he⟩
  have happend := hconcat.append_of_forall fun a ha before =>
    Effect.follows_of_isAnswer (hanswers a ha) before
  rwa [List.append_assoc] at happend

theorem shown_event {e : OperationEvent} {answers : List Effect} {id : JsString}
    {kind : OperationEventKind} (hanswers : ∀ a ∈ answers, a.isAnswer = true) :
    Shown (.event e :: answers) id kind ↔ e.operationId = id ∧ e.kind = kind := by
  simp [Shown, eventsOf_eq_nil hanswers]

theorem not_invoked_event {e : OperationEvent} {answers : List Effect}
    (hanswers : ∀ a ∈ answers, a.isAnswer = true) (id : JsString) :
    ¬ Invoked (.event e :: answers) id := by
  rintro ⟨i, hi⟩
  rcases List.mem_cons.mp hi with heq | hi
  · cases heq
  · exact not_invoked_of_answers hanswers id ⟨i, hi⟩

/-- The tombstones of `t` are of operations of the tombstones of `s`. -/
def StoreFrom (s t : OperationManager) : Prop :=
  ∀ k τ', t.idempotencyStore.tombstones.get? k = some τ' → ∃ k' τ,
    s.idempotencyStore.tombstones.get? k' = some τ ∧
      (restoredFrom τ').scope = (restoredFrom τ).scope

theorem storeFrom_of_eq (h : t.idempotencyStore = s.idempotencyStore) : s.StoreFrom t :=
  fun k τ hτ => ⟨k, τ, h ▸ hτ, rfl⟩

theorem storeFrom_of_lookup {scopedKey : JsString} {r : Option IdempotencyTombstone}
    (h : s.idempotencyStore.lookup scopedKey s.now = (t.idempotencyStore, r)) : s.StoreFrom t := by
  intro k τ' hτ'
  obtain ⟨τ, lastUsedAt, hτ, rfl⟩ := IdempotencyStore.of_get?_lookup h hτ'
  exact ⟨k, τ, hτ, rfl⟩

theorem storeFrom_of_patch {op : LiveOperation} {patch : TombstonePatch}
    (h : t.idempotencyStore = (s.patchStore op patch).idempotencyStore) : s.StoreFrom t := by
  intro k τ' hτ'
  rw [h, get?_patchStore] at hτ'
  split at hτ'
  · obtain ⟨τ, hτ, rfl⟩ := Option.map_eq_some_iff.mp hτ'
    exact ⟨k, τ, hτ, rfl⟩
  · exact ⟨k, τ', hτ', rfl⟩

/-- Past the objects that were dispatched, only the first object of another id waits for it. -/
theorem Registry.ne_of_undispatched (h : s.Registry) {i : Nat} {op op' : LiveOperation}
    (hop : s.heap[i]? = some op) (hphase : op.phase ≠ .idle)
    (hphase' : op'.phase.isUndispatched = false) {o : LiveOperation} (ho : o ∈ s.heap.set i op')
    (hundispatched : o.phase.isUndispatched = true) : o.id ≠ op.id := by
  intro hid
  obtain ⟨j, hj⟩ := List.mem_iff_getElem?.mp ho
  rcases of_getElem?_set hop hj with ⟨-, rfl⟩ | ⟨hne, hj⟩
  · rw [hphase'] at hundispatched
    cases hundispatched
  · rw [h.idle_of_ne hop hphase hj hid hne] at hundispatched
    cases hundispatched

namespace Chronicled

/-- An event of an operation that was requested before is in order. -/
theorem follows (h : s.Chronicled) {kind : OperationEventKind} {op : LiveOperation}
    {data : JsonObject} (hkind : kind ≠ .requested) (hsilent : ∀ f ∈ data, f.1 ∉ requestFields)
    (hstarted : kind = .uncertain → Shown s.trace op.id .started)
    (huninvoked : kind = .aborted → ¬ Invoked s.trace op.id) :
    (s.eventOf kind op data).Follows s.trace where
  later := h.past
  first heq := absurd heq hkind
  requests heq := absurd heq hkind
  silent _ := hsilent
  started := hstarted
  uninvoked := huninvoked

/-- A step that opens nothing keeps the invariant when what it shows is in order, is about objects of
the heap, and is not about those that wait to be dispatched. -/
theorem extend (h : s.Chronicled) {shown : List Effect} (htrace : t.trace = s.trace ++ shown)
    (horder : InOrder t.trace) (hnow : s.now ≤ t.now)
    (hevents : ∀ e ∈ eventsOf shown, e.at_ = s.now ∧
      ∃ o ∈ s.heap, o.id = e.operationId ∧ o.deviceId = e.deviceId)
    (hold : ∀ o ∈ s.heap, ∃ o' ∈ t.heap, o'.scope = o.scope)
    (hnew : ∀ o' ∈ t.heap, ∃ o ∈ s.heap, o'.scope = o.scope ∧
      (o'.phase.isUndispatched = true → o.phase.isUndispatched = true) ∧
      (o'.phase.isAcknowledging = true →
        o.phase.isAcknowledging = true ∨ Shown shown o'.id .started))
    (hquiet : ∀ o' ∈ t.heap, o'.phase.isUndispatched = true →
      ¬ Invoked shown o'.id ∧ ¬ Shown shown o'.id .aborted)
    (hstore : s.StoreFrom t) : t.Chronicled where
  inOrder := horder
  past e he := by
    rw [htrace, eventsOf_append] at he
    rcases List.mem_append.mp he with he | he
    · exact (h.past e he).trans hnow
    · rw [(hevents e he).1]
      exact hnow
  known e he := by
    have hknown : ∃ o ∈ s.heap, o.id = e.operationId ∧ o.deviceId = e.deviceId := by
      rw [htrace, eventsOf_append] at he
      rcases List.mem_append.mp he with he | he
      · exact h.known e he
      · exact (hevents e he).2
    obtain ⟨o, ho, hid, hdevice⟩ := hknown
    obtain ⟨o', ho', hscope⟩ := hold o ho
    exact ⟨o', ho', (congrArg Prod.fst hscope).trans hid,
      (congrArg (·.2.1) hscope).trans hdevice⟩
  origin o' ho' := by
    obtain ⟨o, ho, hscope, -⟩ := hnew o' ho'
    obtain ⟨e, he, options, hrequests, hes⟩ := h.origin o ho
    refine ⟨e, ?_, options, hrequests, hscope.trans hes⟩
    rw [htrace, eventsOf_append]
    exact List.mem_append_left _ he
  named o' ho' := by
    obtain ⟨o, ho, hscope, -⟩ := hnew o' ho'
    rw [show o'.id = o.id from congrArg Prod.fst hscope]
    exact h.named o ho
  scope o ho o' ho' hid := by
    obtain ⟨p, hp, hscope, -⟩ := hnew o ho
    obtain ⟨p', hp', hscope', -⟩ := hnew o' ho'
    rw [hscope, hscope']
    refine h.scope p hp p' hp' ?_
    exact (congrArg Prod.fst hscope).symm.trans (hid.trans (congrArg Prod.fst hscope'))
  owned k τ' hτ' := by
    obtain ⟨k', τ, hτ, heq⟩ := hstore k τ' hτ'
    obtain ⟨o, ho, hscope⟩ := h.owned k' τ hτ
    obtain ⟨o', ho', hscope'⟩ := hold o ho
    exact ⟨o', ho', heq.trans (hscope.trans hscope'.symm)⟩
  undispatched o' ho' hphase := by
    obtain ⟨o, ho, hscope, hundispatched, -⟩ := hnew o' ho'
    obtain ⟨hinvoked, haborted⟩ := h.undispatched o ho (hundispatched hphase)
    obtain ⟨hinvoked', haborted'⟩ := hquiet o' ho' hphase
    rw [← show o'.id = o.id from congrArg Prod.fst hscope] at hinvoked haborted
    rw [htrace, invoked_append, shown_append]
    exact ⟨not_or.mpr ⟨hinvoked, hinvoked'⟩, not_or.mpr ⟨haborted, haborted'⟩⟩
  started o' ho' hphase := by
    obtain ⟨o, ho, hscope, -, hacknowledging⟩ := hnew o' ho'
    rw [htrace, shown_append]
    rcases hacknowledging hphase with hphase | hshown
    · rw [show o'.id = o.id from congrArg Prod.fst hscope]
      exact Or.inl (h.started o ho hphase)
    · exact Or.inr hshown

/-- The same, for a step that leaves the heap as it is and shows answers. -/
theorem answer (h : s.Chronicled) {answers : List Effect} (htrace : t.trace = s.trace ++ answers)
    (hanswers : ∀ e ∈ answers, e.isAnswer = true) (hnow : s.now ≤ t.now)
    (hheap : t.heap = s.heap) (hstore : s.StoreFrom t) : t.Chronicled := by
  refine h.extend htrace ?_ hnow ?_ ?_ ?_ ?_ hstore
  · rw [htrace]
    exact h.inOrder.append_of_forall fun e he => Effect.follows_of_isAnswer (hanswers e he)
  · rw [eventsOf_eq_nil hanswers]
    exact fun e he => absurd he List.not_mem_nil
  · exact fun o ho => ⟨o, hheap ▸ ho, rfl⟩
  · exact fun o ho => ⟨o, hheap ▸ ho, rfl, fun hp => hp, Or.inl⟩
  · intro o ho hphase
    refine ⟨not_invoked_of_answers hanswers o.id, ?_⟩
    rintro ⟨e, he, -⟩
    rw [eventsOf_eq_nil hanswers] at he
    cases he

theorem write (h : s.Chronicled) {shown : List Effect} {i : Nat} {op op' : LiveOperation}
    (hop : s.heap[i]? = some op) (hheap : t.heap = s.heap.set i op') (hrw : Rewrites op op')
    (htrace : t.trace = s.trace ++ shown) (horder : InOrder (s.trace ++ shown))
    (hnow : t.now = s.now)
    (hevents : ∀ e ∈ eventsOf shown, e.at_ = s.now ∧ e.operationId = op.id ∧
      e.deviceId = op.deviceId)
    (hundispatched : op'.phase.isUndispatched = true → op.phase.isUndispatched = true)
    (hstarted : op'.phase.isAcknowledging = true →
      op.phase.isAcknowledging = true ∨ Shown shown op.id .started)
    (hquiet : ∀ o' ∈ t.heap, o'.phase.isUndispatched = true →
      ¬ Invoked shown o'.id ∧ ¬ Shown shown o'.id .aborted)
    (hstore : s.StoreFrom t) : t.Chronicled := by
  have hilt : i < s.heap.length := (List.getElem?_eq_some_iff.mp hop).1
  refine h.extend htrace (htrace ▸ horder) (le_of_eq hnow.symm) ?_ ?_ ?_ hquiet hstore
  · intro e he
    obtain ⟨hat, hid, hdevice⟩ := hevents e he
    exact ⟨hat, op, List.mem_of_getElem? hop, hid.symm, hdevice.symm⟩
  · intro o ho
    obtain ⟨j, hj⟩ := List.mem_iff_getElem?.mp ho
    rw [hheap]
    by_cases hji : i = j
    · subst hji
      obtain rfl := Option.some.inj (hop.symm.trans hj)
      exact ⟨op', List.mem_of_getElem? (List.getElem?_set_self hilt), hrw.scope⟩
    · exact ⟨o, List.mem_of_getElem? ((List.getElem?_set_ne hji).trans hj), rfl⟩
  · intro o ho
    obtain ⟨j, hj⟩ := List.mem_iff_getElem?.mp ho
    rw [hheap] at hj
    rcases of_getElem?_set hop hj with ⟨-, rfl⟩ | ⟨-, hj⟩
    · refine ⟨op, List.mem_of_getElem? hop, hrw.scope, hundispatched, ?_⟩
      rw [hrw.id]
      exact hstarted
    · exact ⟨o, List.mem_of_getElem? hj, rfl, fun hp => hp, Or.inl⟩

/-- The same, for a step that writes to one object and shows nothing. -/
theorem rewrite (h : s.Chronicled) {i : Nat} {op op' : LiveOperation} (hop : s.heap[i]? = some op)
    (hheap : t.heap = s.heap.set i op') (hrw : Rewrites op op') (htrace : t.trace = s.trace)
    (hnow : t.now = s.now)
    (hundispatched : op'.phase.isUndispatched = true → op.phase.isUndispatched = true)
    (hstarted : op'.phase.isAcknowledging = true → op.phase.isAcknowledging = true)
    (hstore : t.idempotencyStore = s.idempotencyStore) : t.Chronicled := by
  refine h.write hop hheap hrw (htrace.trans (List.append_nil _).symm) ?_ hnow nofun hundispatched
    (fun hphase => Or.inl (hstarted hphase)) ?_ (storeFrom_of_eq hstore)
  · rw [List.append_nil]
    exact h.inOrder
  · intro o _ _
    simp [Invoked, Shown]

/-- The same, for a step that writes to one object and shows one event of it. -/
theorem writeEvent (h : s.Chronicled) {answers : List Effect} {i : Nat} {op op' : LiveOperation}
    {e : OperationEvent} (hop : s.heap[i]? = some op) (hheap : t.heap = s.heap.set i op')
    (hrw : Rewrites op op') (htrace : t.trace = s.trace ++ .event e :: answers)
    (hanswers : ∀ a ∈ answers, a.isAnswer = true) (hnow : t.now = s.now) (hat : e.at_ = s.now)
    (hid : e.operationId = op.id) (hdevice : e.deviceId = op.deviceId) (he : e.Follows s.trace)
    (hundispatched : op'.phase.isUndispatched = true → op.phase.isUndispatched = true)
    (hstarted : op'.phase.isAcknowledging = true → op.phase.isAcknowledging = true)
    (hquiet : e.kind = .aborted → ∀ o' ∈ t.heap, o'.phase.isUndispatched = true → o'.id ≠ op.id)
    (hstore : s.StoreFrom t) : t.Chronicled := by
  refine h.write hop hheap hrw htrace (inOrder_event h.inOrder he hanswers) hnow ?_ hundispatched
    (fun hphase => Or.inl (hstarted hphase)) ?_ hstore
  · intro e' he'
    rw [eventsOf_cons_event, eventsOf_eq_nil hanswers, List.mem_singleton] at he'
    subst he'
    exact ⟨hat, hid, hdevice⟩
  · intro o ho hphase
    refine ⟨not_invoked_event hanswers o.id, fun hshown => ?_⟩
    obtain ⟨hoid, hkind⟩ := (shown_event hanswers).mp hshown
    exact hquiet hkind o ho hphase (hoid.symm.trans hid)

theorem new {retentionMs : Int} {maxOperations : Nat} {store : IdempotencyStore} {now : Int}
    (hstore : store.tombstones = .empty) :
    ({ retentionMs, maxOperations, idempotencyStore := store, now } : OperationManager).Chronicled where
  inOrder := ordered_nil
  past := by simp
  known := by simp
  origin := by simp
  named := by simp
  scope := by simp
  owned := by simp [hstore]
  undispatched := by simp
  started := by simp

theorem opened (h : s.Chronicled) (hreg : s.Registry) {options : BeginOperationOptions}
    {randomId : JsString} (hheap : t.heap = s.heap ++ [s.queued options randomId])
    (htrace : t.trace = s.trace ++ [.event (s.eventOf .requested (s.queued options randomId)
      (requestedData options)), .began false (s.queued options randomId).id])
    (hnow : t.now = s.now)
    (hstore : ∀ k τ', t.idempotencyStore.tombstones.get? k = some τ' →
      (restoredFrom τ').scope = (s.queued options randomId).scope ∨ ∃ k' τ,
        s.idempotencyStore.tombstones.get? k' = some τ ∧
          (restoredFrom τ').scope = (restoredFrom τ).scope) : t.Chronicled := by
  let op := s.queued options randomId
  let e := s.eventOf .requested op (requestedData options)
  have hanswers : ∀ a ∈ [Effect.began false op.id], a.isAnswer = true := by
    intro a ha
    rw [List.mem_singleton.mp ha]
    rfl
  have hevents : eventsOf t.trace = eventsOf s.trace ++ [e] := by rw [htrace, eventsOf_append]; rfl
  have hmem : ∀ {o : LiveOperation}, o ∈ t.heap ↔ o ∈ s.heap ∨ o = op := by
    intro o
    rw [hheap, List.mem_append, List.mem_singleton]
  -- No object and no event is of the new id.
  have hfresh : ∀ o ∈ s.heap, o.id ≠ op.id := hreg.ne_operationId randomId
  have hfresh' : ∀ e' ∈ eventsOf s.trace, e'.operationId ≠ op.id := by
    intro e' he' heq
    obtain ⟨o, ho, hid, -⟩ := h.known e' he'
    exact hfresh o ho (hid.trans heq)
  have hrequests : e.Requests options := ⟨rfl, rfl, rfl⟩
  have hshown : ∀ {kind : OperationEventKind}, kind ≠ .requested → ∀ id,
      Shown t.trace id kind → Shown s.trace id kind := by
    intro kind hkind id hshown
    rw [htrace, shown_append, shown_event hanswers] at hshown
    rcases hshown with hshown | ⟨-, heq⟩
    · exact hshown
    · exact absurd heq.symm hkind
  have hinvoked : ∀ id, Invoked t.trace id → Invoked s.trace id := by
    intro id hinvoked
    rw [htrace, invoked_append] at hinvoked
    exact hinvoked.resolve_right (not_invoked_event hanswers id)
  constructor
  · rw [htrace]
    refine inOrder_event h.inOrder ?_ hanswers
    refine ⟨h.past, fun _ => hfresh', fun _ => ⟨options, hrequests⟩, fun hne => absurd rfl hne,
      fun heq => ?_, fun heq => ?_⟩
    · cases heq
    · cases heq
  · intro e' he'
    rw [hevents] at he'
    rw [hnow]
    rcases List.mem_append.mp he' with he' | he'
    · exact h.past e' he'
    · rw [List.mem_singleton.mp he']
      exact le_refl s.now
  · intro e' he'
    rw [hevents] at he'
    rcases List.mem_append.mp he' with he' | he'
    · obtain ⟨o, ho, hid⟩ := h.known e' he'
      exact ⟨o, hmem.mpr (Or.inl ho), hid⟩
    · rw [List.mem_singleton.mp he']
      exact ⟨op, hmem.mpr (Or.inr rfl), rfl, rfl⟩
  · intro o ho
    rw [hevents]
    rcases hmem.mp ho with ho | rfl
    · obtain ⟨e', he', horigin⟩ := h.origin o ho
      exact ⟨e', List.mem_append_left _ he', horigin⟩
    · exact ⟨e, by simp, options, hrequests, rfl⟩
  · intro o ho
    rcases hmem.mp ho with ho | rfl
    · exact h.named o ho
    · show operationId (s.sequence + 1) randomId ≠ []
      simp [operationId]
  · intro o ho o' ho' hid
    rcases hmem.mp ho with ho | rfl
    · rcases hmem.mp ho' with ho' | rfl
      · exact h.scope o ho o' ho' hid
      · exact absurd hid (hfresh o ho)
    · rcases hmem.mp ho' with ho' | rfl
      · exact absurd hid.symm (hfresh o' ho')
      · rfl
  · intro k τ' hτ'
    rcases hstore k τ' hτ' with hscope | ⟨k', τ, hτ, hscope⟩
    · exact ⟨op, hmem.mpr (Or.inr rfl), hscope⟩
    · obtain ⟨o, ho, hscope'⟩ := h.owned k' τ hτ
      exact ⟨o, hmem.mpr (Or.inl ho), hscope.trans hscope'⟩
  · intro o ho hphase
    have hold : ¬ Invoked s.trace o.id ∧ ¬ Shown s.trace o.id .aborted := by
      rcases hmem.mp ho with ho | rfl
      · exact h.undispatched o ho hphase
      · -- What was invoked was started, and nothing was shown for the new id.
        have hnone : ∀ kind, ¬ Shown s.trace op.id kind := by
          rintro kind ⟨e', he', hid, -⟩
          exact hfresh' e' he' hid
        exact ⟨fun hinv => hnone .started (h.inOrder.started hinv), hnone .aborted⟩
    exact ⟨fun hinv => hold.1 (hinvoked o.id hinv),
      fun hab => hold.2 (hshown (by simp) o.id hab)⟩
  · intro o ho hphase
    rw [htrace, shown_append]
    rcases hmem.mp ho with ho | rfl
    · exact Or.inl (h.started o ho hphase)
    · cases hphase

theorem owned_of_lookup (h : s.Chronicled) {scopedKey : JsString} {store : IdempotencyStore}
    {tombstone : IdempotencyTombstone}
    (hlookup : s.idempotencyStore.lookup scopedKey s.now = (store, some tombstone)) :
    ∃ o ∈ s.heap, (restoredFrom tombstone).scope = o.scope := by
  have hhit : store.tombstones.get? scopedKey = some tombstone := by
    have hself := @IdempotencyStore.get?_lookup_self s.idempotencyStore scopedKey s.now
    rwa [hlookup] at hself
  obtain ⟨τ, lastUsedAt, hτ, rfl⟩ := IdempotencyStore.of_get?_lookup hlookup hhit
  exact h.owned _ τ hτ

/-- An operation is dispatched: it has started, and is invoked. -/
theorem dispatched (h : s.Chronicled) (hreg : s.Registry) {address : Nat} {op : LiveOperation}
    (hop : s.heap[address]? = some op) (hphase : op.phase = .beforeDispatch) :
    ((s.update address (startedAs op s.now)).emit .started (startedAs op s.now) []
      |>.effect (.invoked op.id address)).Chronicled := by
  have hop' := List.mem_of_getElem? hop
  obtain ⟨hinvoked, haborted⟩ := h.undispatched op hop' (by rw [hphase]; rfl)
  have hne : op.phase ≠ .idle := by rw [hphase]; nofun
  let e := s.eventOf .started (startedAs op s.now) []
  have hstarted : Shown (s.trace ++ [.event e]) op.id .started :=
    shown_append.mpr (Or.inr ⟨e, by simp, rfl, rfl⟩)
  have hquiet : ¬ Shown (s.trace ++ [.event e]) op.id .aborted := by
    rw [shown_append, not_or]
    refine ⟨haborted, ?_⟩
    rintro ⟨e', he', -, hkind⟩
    rw [List.mem_singleton.mp he'] at hkind
    cases hkind
  have he : e.Follows s.trace := h.follows (by nofun) (by simp) (by nofun) (by nofun)
  refine h.write hop rfl (Rewrites.of_phase rfl hne)
    (show _ = s.trace ++ [.event e, .invoked op.id address] from List.append_assoc _ _ _) ?_ rfl
    ?_ nofun (fun _ => Or.inr ⟨e, by simp, rfl, rfl⟩) ?_
    (storeFrom_of_eq rfl)
  · have hevent : InOrder (s.trace ++ [.event e]) := ordered_concat.mpr ⟨h.inOrder, he⟩
    have hboth : InOrder ((s.trace ++ [.event e]) ++ [.invoked op.id address]) :=
      ordered_concat.mpr ⟨hevent, hstarted, hquiet⟩
    rwa [List.append_assoc] at hboth
  · intro e' he'
    rw [show eventsOf [Effect.event e, .invoked op.id address] = [e] from rfl,
      List.mem_singleton] at he'
    subst he'
    exact ⟨rfl, rfl, rfl⟩
  · intro o ho hundispatched
    have hid := hreg.ne_of_undispatched hop hne rfl ho hundispatched
    constructor
    · rintro ⟨i, hi⟩
      simp only [List.mem_cons, reduceCtorEq, Effect.invoked.injEq, List.not_mem_nil, or_false,
        false_or] at hi
      exact hid hi.1
    · rintro ⟨e', he', -, hkind⟩
      rw [show eventsOf [Effect.event e, .invoked op.id address] = [e] from rfl,
        List.mem_singleton] at he'
      rw [he'] at hkind
      cases hkind

/-- **Step lemma.** Every step keeps the trace invariant. -/
theorem step {a : Action} (h : s.Chronicled) (hreg : s.Registry) (hs : s.step a = some t) :
    t.Chronicled := by
  have hnil : ∀ e ∈ ([] : List Effect), e.isAnswer = true := by simp
  have hsingle : ∀ {e : Effect}, e.isAnswer = true → ∀ e' ∈ [e], e'.isAnswer = true := by
    intro e he e' he'
    rw [List.mem_singleton.mp he']
    exact he
  cases steps_of_step hs with
  | @tick ms =>
    exact h.answer (List.append_nil _).symm hnil (Int.le_add_of_nonneg_right (Int.natCast_nonneg ms))
      rfl (storeFrom_of_eq rfl)
  | unchanged => exact h
  | answered hanswer =>
    exact h.answer rfl (hsingle hanswer) (le_refl _) rfl (storeFrom_of_eq rfl)
  | lookedUp =>
    exact h.answer (List.append_nil _).symm hnil (le_refl _) rfl (storeFrom_of_lookup rfl)
  | removed =>
    refine h.answer (List.append_nil _).symm hnil (le_refl _) rfl fun k τ' hτ' => ?_
    exact ⟨k, τ', (InsertionMap.get?_filter_eq_some_iff.mp hτ').1, rfl⟩
  | deduped hkey hlookup hin =>
    exact h.answer rfl (hsingle rfl) (le_refl _) rfl (storeFrom_of_lookup hlookup)
  | @restored options randomId key store tombstone hkey hlookup hout =>
    -- The object a tombstone restores has the scope of the object it is a tombstone of.
    obtain ⟨o, ho, hscope⟩ := h.owned_of_lookup hlookup
    have hanswers := hsingle (e := .began true tombstone.operationId) rfl
    refine h.extend rfl (h.inOrder.append_of_forall fun e he =>
        Effect.follows_of_isAnswer (hanswers e he)) (le_refl _) ?_ ?_ ?_ ?_
      (storeFrom_of_lookup hlookup)
    · rw [eventsOf_eq_nil hanswers]
      exact fun e he => absurd he List.not_mem_nil
    · exact fun o ho => ⟨o, List.mem_append_left _ ho, rfl⟩
    · intro o' ho'
      rcases List.mem_append.mp ho' with ho' | ho'
      · exact ⟨o', ho', rfl, fun hp => hp, Or.inl⟩
      · rw [List.mem_singleton.mp ho']
        exact ⟨o, ho, hscope, by rintro ⟨⟩, by rintro ⟨⟩⟩
    · intro o' ho' hphase
      refine ⟨not_invoked_of_answers hanswers o'.id, ?_⟩
      rintro ⟨e, he, -⟩
      rw [eventsOf_eq_nil hanswers] at he
      cases he
  | @opened options randomId store hstore =>
    refine h.opened hreg rfl (List.append_assoc _ _ _) rfl fun k τ' hτ' => ?_
    rcases hstore with ⟨hkey, rfl⟩ | ⟨key, hkey, hlookup⟩
    · rw [openNew_store_of_none hkey] at hτ'
      exact Or.inr ⟨k, τ', hτ', rfl⟩
    · rw [openNew_store_of_some hkey] at hτ'
      rcases IdempotencyStore.of_get?_recordUnder hτ' with ⟨-, rfl⟩ | ⟨-, hold⟩
      · refine Or.inl ?_
        simp [LiveOperation.scope, restoredFrom, tombstoneOf, queued, hkey]
      · obtain ⟨τ, lastUsedAt, hτ, rfl⟩ := IdempotencyStore.of_get?_lookup hlookup hold
        exact Or.inr ⟨k, τ, hτ, rfl⟩
  | registered hop hin hlive =>
    exact h.answer (List.append_nil _).symm hnil (le_refl _) rfl (storeFrom_of_eq rfl)
  | @cancelling _ _ address op _ hop hin hlive hstatus =>
    exact h.rewrite hop rfl (Rewrites.of_live rfl hlive) rfl rfl (fun hp => hp) (fun hp => hp) rfl
  | advanced hop hadv =>
    exact h.rewrite hop rfl hadv.rewrites rfl rfl hadv.undispatched hadv.acknowledging rfl
  | dispatched hop hphase => exact h.dispatched hreg hop hphase
  | @reported address op fraction message hop hphase hlive =>
    refine h.writeEvent hop rfl (Rewrites.of_live rfl hlive) rfl hnil rfl rfl rfl rfl ?_
      (fun hp => hp) (fun hp => hp) (by rintro ⟨⟩) (storeFrom_of_eq rfl)
    exact h.follows (by rintro ⟨⟩) (silent_progress _ _) (by rintro ⟨⟩) (by rintro ⟨⟩)
  | @concluded _ address op op' c answers hop hc hanswers =>
    have hid : op'.id = op.id := (hc.rewrites s.now).id
    obtain ⟨more, htrace, hmore⟩ := answerAll_conclude_trace (s := s) address op' c hanswers
    have hdevice : op'.deviceId = op.deviceId := congrArg (·.2.1) (hc.rewrites s.now).scope
    refine h.writeEvent hop (conclude_heap _ _ _) (hc.rewrites s.now) htrace hmore (conclude_now _ _ _) rfl hid
      hdevice ?_ hc.undispatched hc.acknowledging ?_ (storeFrom_of_patch (conclude_store _ _ _))
    · refine h.follows hc.kind_ne_requested hc.silent (fun hkind => ?_) fun hkind => ?_
      · rw [hid]
        exact h.started op (List.mem_of_getElem? hop) (hc.acknowledging_of_uncertain hkind)
      · rw [hid]
        exact (h.undispatched op (List.mem_of_getElem? hop)
          (hc.undispatched_of_aborted hkind).1).1
    · intro hkind o ho hundispatched
      obtain ⟨hphase, hphase'⟩ := hc.undispatched_of_aborted hkind
      refine hreg.ne_of_undispatched hop ?_ hphase' ?_ hundispatched
      · intro hidle
        rw [hidle] at hphase
        cases hphase
      · rw [show ((s.conclude address op' c).answerAll answers).heap = _ from
          conclude_heap _ _ _] at ho
        exact ho
  | @reconciled _ options address op hop hin huncertain =>
    obtain ⟨more, htrace, hmore⟩ := reconcileAt_trace (s := s) address op options
    have hrw : Rewrites op (reconciledBy op options s.now) := reconciledBy_rewrites options s.now
    have hphase : (reconciledBy op options s.now).phase = op.phase := by
      unfold reconciledBy
      cases options.resolution <;> rfl
    refine h.writeEvent hop (reconcileAt_heap _ _ _) hrw htrace hmore (reconcileAt_now _ _ _) rfl
      hrw.id (congrArg (·.2.1) hrw.scope) ?_ ?_ ?_ (by rintro ⟨⟩)
      (storeFrom_of_patch (reconcileAt_store _ _ _))
    · exact h.follows (by rintro ⟨⟩) (silent_reconciled _ _) (by rintro ⟨⟩) (by rintro ⟨⟩)
    · rw [hphase]
      exact fun hp => hp
    · rw [hphase]
      exact fun hp => hp

/-- **Run lemma.** The registry and the trace invariant hold after any run. -/
theorem of_run {calls : List Action} (hreg : s.Registry) (h : s.Chronicled)
    (hrun : machine.run s calls = some t) : t.Registry ∧ t.Chronicled :=
  Machine.run_invariant (I := fun s => s.Registry ∧ s.Chronicled)
    (fun _ _ _ h hs => ⟨h.1.step hs, h.2.step h.1 hs⟩) ⟨hreg, h⟩ hrun

end Chronicled

end OperationManager

end Pinout.Operation
