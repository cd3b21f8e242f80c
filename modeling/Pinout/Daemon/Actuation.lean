import Pinout.Daemon.InvokeRoute

/-! # What a completed invocation actuates

A request for a physical output that carries no idempotency key gets one that is made from what it
asks for. As long as the daemon holds an operation under that key that has not failed, it takes the
request for a retry and answers from the operation, also when other actions were executed in between.
Of requests that are all answered with a completed result, the backend executes exactly those that are
not taken for a retry, in their order (`executed_of_completed`). -/

namespace Pinout.Daemon

open Foundation Operation Policy Pinout.Runtime

variable {numText : ℚ → JsString} {digest : JsString → JsString}

/-! ## Operations of the route -/

section Manager

variable {m : OperationManager} {n : Nat}

theorem takeAll_cons (m : OperationManager) (label : OperationManager.Action)
    (labels : List OperationManager.Action) :
    takeAll m (label :: labels) = takeAll ((m.step label).getD m) labels := rfl

/-- What every enabled label keeps, a list of labels keeps. -/
theorem takeAll_invariant {I : OperationManager → Prop} {labels : List OperationManager.Action}
    (hstep : ∀ m label t, label ∈ labels → I m → m.step label = some t → I t) (h : I m) :
    I (takeAll m labels) := by
  induction labels generalizing m with
  | nil => exact h
  | cons label labels ih =>
    rw [takeAll_cons]
    refine ih (fun m' label' t hmem => hstep m' label' t (List.mem_cons_of_mem _ hmem)) ?_
    cases hlabel : m.step label with
    | none => exact h
    | some t => exact hstep m label t List.mem_cons_self h hlabel

/-- The object at an address is running, and nobody has asked it to stop. -/
def RunningAt (m : OperationManager) (n : Nat) : Prop :=
  ∃ op, m.heap[n]? = some op ∧ op.phase = .running ∧ op.status = .running

/-- The object at an address is not completed, and its run has not returned. -/
def OpenAt (m : OperationManager) (n : Nat) : Prop :=
  ∃ op, m.heap[n]? = some op ∧ op.status ≠ .completed ∧
    (op.phase = .running ∨ op.phase = .finished)

theorem RunningAt.openAt (h : RunningAt m n) : OpenAt m n := by
  obtain ⟨op, hop, hphase, hstatus⟩ := h
  exact ⟨op, hop, by rw [hstatus]; exact OperationStatus.noConfusion, Or.inl hphase⟩

theorem wait_heap (m : OperationManager) (kind : WaiterKind) (operationId : JsString)
    (token : Nat) : (m.wait kind operationId token).heap = m.heap := by
  unfold OperationManager.wait
  split
  · split <;> rfl
  · split <;> rfl

/-- A new operation, and the handle `begin` returns for it. -/
theorem handle?_openNew (m : OperationManager) (options : BeginOperationOptions)
    (randomId : JsString) :
    handle? (m.openNew options randomId) =
      some (false, m.heap.length, m.queued options randomId) := by
  have htrace : (m.openNew options randomId).trace.getLast? =
      some (.began false (m.queued options randomId).id) := List.getLast?_concat
  have hfind : (m.openNew options randomId).find? (m.queued options randomId).id =
      some (m.heap.length, m.queued options randomId) :=
    OperationManager.find?_eq_some_iff.mpr
      ⟨InsertionMap.get?_insert_self _ _ _, List.getElem?_concat_length⟩
  unfold handle?
  rw [htrace]
  dsimp only
  rw [hfind]
  rfl

/-- A new operation whose microtask has run up to the run is running. -/
theorem runningAt_started {options : BeginOperationOptions} {randomId operationId : JsString}
    {token : Nat} : RunningAt
      (takeAll (m.openNew options randomId)
        [.wait .waitForResult operationId token, .microtask m.heap.length,
          .dispatched m.heap.length]) m.heap.length := by
  obtain ⟨waited, hwaited⟩ : ∃ waited,
      (m.openNew options randomId).wait .waitForResult operationId token = waited := ⟨_, rfl⟩
  have hop : waited.heap[m.heap.length]? = some (m.queued options randomId) := by
    rw [← hwaited, wait_heap]
    exact List.getElem?_concat_length
  have hlen : m.heap.length < waited.heap.length := (List.getElem?_eq_some_iff.mp hop).1
  let suspended : LiveOperation := { m.queued options randomId with phase := .beforeDispatch }
  have hmicrotask : waited.step (.microtask m.heap.length) =
      some (waited.update m.heap.length suspended) := by
    show (waited.heap[m.heap.length]?).bind _ = _
    rw [hop]
    rfl
  have hsuspended : (waited.update m.heap.length suspended).heap[m.heap.length]? =
      some suspended := List.getElem?_set_self hlen
  have hdispatched : (waited.update m.heap.length suspended).callback m.heap.length
      OperationManager.dispatched = OperationManager.dispatched
        (waited.update m.heap.length suspended) m.heap.length suspended := by
    rw [OperationManager.callback, hsuspended]
    rfl
  have htaken : takeAll (m.openNew options randomId)
      [.wait .waitForResult operationId token, .microtask m.heap.length,
        .dispatched m.heap.length] =
      ((waited.update m.heap.length suspended).callback m.heap.length
        OperationManager.dispatched).getD (waited.update m.heap.length suspended) := by
    rw [takeAll_cons]
    show takeAll ((m.openNew options randomId).wait .waitForResult operationId token) _ = _
    rw [hwaited, takeAll_cons, hmicrotask]
    rfl
  rw [htaken, hdispatched]
  refine ⟨OperationManager.startedAs suspended waited.now, ?_, rfl, rfl⟩
  show ((waited.heap.set m.heap.length suspended).set m.heap.length _)[m.heap.length]? = _
  rw [List.set_set]
  exact List.getElem?_set_self hlen

theorem rejection_ne_completed (op : LiveOperation) (thrown : Thrown) :
    (op.rejection thrown).status ≠ .completed := by
  unfold LiveOperation.rejection
  split
  · split
    · exact OperationStatus.noConfusion
    · split <;> exact OperationStatus.noConfusion
  · exact OperationStatus.noConfusion

theorem openAt_of_set {t : OperationManager} {op : LiveOperation} (hlen : n < m.heap.length)
    (hheap : t.heap = m.heap.set n op) (hne : op.status ≠ .completed)
    (hphase : op.phase = .running ∨ op.phase = .finished) : OpenAt t n := by
  refine ⟨op, ?_, hne, hphase⟩
  rw [hheap]
  exact List.getElem?_set_self hlen

/-- Time, the deadline and a rejected run do not complete an operation. -/
theorem OpenAt.step {label : OperationManager.Action} {t : OperationManager} (h : OpenAt m n)
    (hlabel : (∃ ms, label = .tick ms) ∨ label = .deadline n ∨ ∃ thrown, label = .runRejected n thrown)
    (hs : m.step label = some t) : OpenAt t n := by
  obtain ⟨op, hop, hne, hphase⟩ := h
  have hlen : n < m.heap.length := (List.getElem?_eq_some_iff.mp hop).1
  rcases hlabel with ⟨ms, rfl⟩ | rfl | ⟨thrown, rfl⟩
  · obtain rfl := Option.some.inj hs
    exact ⟨op, hop, hne, hphase⟩
  · obtain ⟨op', hop', hf⟩ := Option.bind_eq_some_iff.mp hs
    obtain rfl := Option.some.inj (hop.symm.trans hop')
    obtain ⟨due, -, hf⟩ := Option.bind_eq_some_iff.mp hf
    split at hf
    · cases hf
    · split at hf
      · obtain rfl := Option.some.inj hf
        refine openAt_of_set hlen (OperationManager.conclude_heap _ _ _) ?_ hphase
        exact OperationStatus.noConfusion
      · obtain rfl := Option.some.inj hf
        exact openAt_of_set hlen rfl hne hphase
  · obtain ⟨op', hop', hf⟩ := Option.bind_eq_some_iff.mp hs
    obtain rfl := Option.some.inj (hop.symm.trans hop')
    replace hf : m.runRejected n op thrown = some t := hf
    unfold OperationManager.runRejected at hf
    split at hf
    · split at hf
      · obtain rfl := Option.some.inj hf
        exact openAt_of_set hlen rfl hne (Or.inr rfl)
      · obtain rfl := Option.some.inj hf
        refine openAt_of_set hlen (OperationManager.conclude_heap _ _ _) ?_ (Or.inr rfl)
        exact rejection_ne_completed op thrown
    · cases hf

/-- An operation that is not completed is not answered with a result. -/
theorem respond_of_ne_completed {operation : OperationSnapshot}
    (h : operation.status ≠ .completed) (deduped : Bool) :
    (respond operation deduped).isResult = false := by
  have hdeliver : ∀ result, deliver operation ≠ .result result := by
    intro result
    unfold deliver
    split <;> first | exact Answer.noConfusion | exact absurd ‹_› h
  unfold respond
  split
  · split
    · next heq => exact absurd heq (hdeliver _)
    · rfl
    · rfl
  · rfl

/-! ## Keys -/

theorem held_of_lookup {store store' : IdempotencyStore} {scopedKey k : JsString} {now : Int}
    {r : Option IdempotencyTombstone} (hlookup : store.lookup scopedKey now = (store', r))
    (hheld : store'.tombstones.contains k = true) : store.tombstones.contains k = true := by
  obtain ⟨τ, hτ⟩ := InsertionMap.contains_iff.mp hheld
  obtain ⟨tombstone, -, hget, -⟩ := IdempotencyStore.of_get?_lookup hlookup hτ
  exact InsertionMap.contains_iff.mpr ⟨tombstone, hget⟩

theorem held_of_remove {store : IdempotencyStore} {scopedKey k : JsString}
    (hheld : (store.remove scopedKey).tombstones.contains k = true) :
    store.tombstones.contains k = true := by
  obtain ⟨τ, hτ⟩ := InsertionMap.contains_iff.mp hheld
  rw [show (store.remove scopedKey).tombstones.get? k = _ from
    InsertionMap.get?_erase _ _ _] at hτ
  split at hτ
  · cases hτ
  · exact InsertionMap.contains_iff.mpr ⟨τ, hτ⟩

theorem held_of_patchStore {op : LiveOperation} {patch : TombstonePatch} {k : JsString}
    (hheld : (m.patchStore op patch).idempotencyStore.tombstones.contains k = true) :
    m.idempotencyStore.tombstones.contains k = true := by
  unfold InsertionMap.contains at hheld ⊢
  rw [OperationManager.get?_patchStore] at hheld
  split at hheld
  · simpa using hheld
  · exact hheld

/-- The keys a store holds after a step were held before it, or the step began an operation under
them. -/
theorem held_of_step {label : OperationManager.Action} {t : OperationManager}
    (hs : m.step label = some t) {k : JsString}
    (hheld : t.idempotencyStore.tombstones.contains k = true) :
    m.idempotencyStore.tombstones.contains k = true ∨
      ∃ options randomId, label = .begin_ options randomId ∧
        ∃ key, options.key? = some key ∧ k = OperationManager.scopedKeyFor options key := by
  cases OperationManager.steps_of_step hs with
  | lookedUp => exact Or.inl (held_of_lookup rfl hheld)
  | removed => exact Or.inl (held_of_remove hheld)
  | deduped hkey hstore hin => exact Or.inl (held_of_lookup hstore hheld)
  | restored hkey hstore hout => exact Or.inl (held_of_lookup hstore hheld)
  | @opened options randomId store hstore =>
    rcases hstore with ⟨hkey, rfl⟩ | ⟨key, hkey, hstore⟩
    · rw [OperationManager.openNew_store_of_none hkey] at hheld
      exact Or.inl hheld
    · rw [OperationManager.openNew_store_of_some hkey] at hheld
      obtain ⟨τ, hτ⟩ := InsertionMap.contains_iff.mp hheld
      rcases IdempotencyStore.of_get?_recordUnder hτ with ⟨hk, -⟩ | ⟨-, hget⟩
      · exact Or.inr ⟨options, randomId, rfl, key, hkey, hk⟩
      · exact Or.inl (held_of_lookup hstore (InsertionMap.contains_iff.mpr ⟨τ, hget⟩))
  | @concluded _ address _ op' c answers hop hc hanswers =>
    rw [show ((m.conclude address op' c).answerAll answers).idempotencyStore = _ from
      OperationManager.conclude_store _ _ _] at hheld
    exact Or.inl (held_of_patchStore hheld)
  | reconciled hop hin huncertain =>
    rw [OperationManager.reconcileAt_store] at hheld
    exact Or.inl (held_of_patchStore hheld)
  | _ => exact Or.inl hheld

theorem held_of_takeAll {labels : List OperationManager.Action}
    (hbegin : ∀ options randomId, .begin_ options randomId ∉ labels) {k : JsString}
    (hheld : (takeAll m labels).idempotencyStore.tombstones.contains k = true) :
    m.idempotencyStore.tombstones.contains k = true := by
  have hinvariant : (takeAll m labels).idempotencyStore.tombstones.contains k = true →
      m.idempotencyStore.tombstones.contains k = true := by
    refine takeAll_invariant (I := fun t => t.idempotencyStore.tombstones.contains k = true →
      m.idempotencyStore.tombstones.contains k = true) ?_ fun h => h
    intro t label t' hmem ih hs hheld'
    rcases held_of_step hs hheld' with hbefore | ⟨options, randomId, rfl, -⟩
    · exact ih hbefore
    · exact absurd hmem (hbegin options randomId)
  exact hinvariant hheld

end Manager

/-! ## Retries -/

variable (numText digest) in
def InvokeRequest.generatedKey (request : InvokeRequest) : JsString :=
  deterministicIdempotencyKey numText digest request.deviceId request.capability
    (.obj request.args) request.owner

variable (numText digest) in
/-- The scoped key an operation is held under that was begun with the generated key of a request. -/
def InvokeRequest.scope (request : InvokeRequest) : JsString :=
  IdempotencyStore.keyFor request.deviceId request.capability request.owner
    (request.generatedKey numText digest)

namespace Serving

variable {s t : Serving} {request : InvokeRequest} {handling : Handling}

variable (numText digest) in
/-- The daemon takes a request for a retry: it holds an operation under the key generated for it, and
does not know the operation to have failed. -/
def retried (s : Serving) (request : InvokeRequest) : Bool :=
  match (s.operations.idempotencyStore.lookup (request.scope numText digest) s.operations.now).2 with
  | none => false
  | some tombstone =>
    match s.operations.get? tombstone.operationId with
    | none => true
    | some operation => !failedTerminal operation.status

/-- A request for a physical output of a device, by an owner, without an idempotency key. -/
structure Plain (s : Serving) (deviceId : JsString) (owner : Option JsString)
    (request : InvokeRequest) : Prop where
  deviceId : request.deviceId = deviceId
  owner : request.owner = owner
  idempotencyKey : request.idempotencyKey.getD [] = []
  dryRun : request.dryRun = false
  physicalOutput : ∃ device descriptor, s.runtime.deviceMap.get? request.deviceId = some device ∧
    device.resolveCapability request.capability = some descriptor ∧ descriptor.physicalOutput = true

instance (s : Serving) (deviceId : JsString) (owner : Option JsString) (request : InvokeRequest) :
    Decidable (s.Plain deviceId owner request) :=
  decidable_of_iff
    (request.deviceId = deviceId ∧ request.owner = owner ∧
      request.idempotencyKey.getD [] = [] ∧ request.dryRun = false ∧
      ((s.runtime.deviceMap.get? request.deviceId).any fun device =>
        (device.resolveCapability request.capability).any CapabilityDescriptor.physicalOutput) = true)
    ⟨fun ⟨hdevice, howner, hkey, hdry, hphysical⟩ => by
        obtain ⟨device, hget, hdescriptor⟩ := (Option.any_eq_true _ _).mp hphysical
        obtain ⟨descriptor, hresolve, hphysical⟩ := (Option.any_eq_true _ _).mp hdescriptor
        exact ⟨hdevice, howner, hkey, hdry, device, descriptor, hget, hresolve, hphysical⟩,
      fun h => by
        obtain ⟨device, descriptor, hget, hresolve, hphysical⟩ := h.physicalOutput
        refine ⟨h.deviceId, h.owner, h.idempotencyKey, h.dryRun, ?_⟩
        rw [hget, Option.any_some, hresolve]
        exact hphysical⟩

variable (numText digest) in
/-- The step handles a request for a physical output of the device, by the owner and without an
idempotency key, which is answered with a completed result; or it is none of a request, and does not
call the runtime past the daemon. -/
def Completed (deviceId : JsString) (owner : Option JsString) (s : Serving) : Action → Prop
  | .invoke request handling => s.Plain deviceId owner request ∧
      (s.invoke numText digest request handling).2.isResult = true
  | .runtime (.invoke _ _ _ _ _) => False
  | _ => True

instance (deviceId : JsString) (owner : Option JsString) (s : Serving) :
    DecidablePred (s.Completed numText digest deviceId owner) := fun a => by
  unfold Completed
  split <;> infer_instance

variable (numText digest) in
/-- What an action commands: what its request does, unless it is taken for a retry. -/
def commanded (s : Serving) : Action → List Execution
  | .invoke request _ => if s.retried numText digest request then [] else [request.execution]
  | _ => []

variable (numText digest) in
/-- What the requests of a history command that are not taken for retries, in order. -/
def performed (s : Serving) : List Action → List Execution
  | [] => []
  | a :: actions => s.commanded numText digest a ++
    match step numText digest s a with
    | some t => performed t actions
    | none => []

/-! ## The search -/

theorem idempotencyKeyOf_plain {deviceId : JsString} {owner : Option JsString}
    (h : s.Plain deviceId owner request) :
    idempotencyKeyOf numText digest request true =
      (some (request.generatedKey numText digest), true) := by
  unfold idempotencyKeyOf
  rw [if_pos]
  · rfl
  · rw [h.dryRun, h.idempotencyKey]
    rfl

variable (numText digest) in
theorem findExisting_generated (m : OperationManager) (hdry : request.dryRun = false) :
    findExisting m request (some (request.generatedKey numText digest)) true =
      (match m.idempotencyStore.lookup (request.scope numText digest) m.now with
      | (idempotencyStore, hit) =>
        match hit.bind fun tombstone => m.get? tombstone.operationId with
        | none => ({ m with idempotencyStore }, none)
        | some snapshot =>
          if failedTerminal snapshot.status then
            ({ m with
              idempotencyStore := idempotencyStore.remove (request.scope numText digest) }, none)
          else ({ m with idempotencyStore }, some snapshot)) := by
  have hkey : (some (request.generatedKey numText digest)).filter (fun key => key ≠ []) =
      some (request.generatedKey numText digest) := rfl
  unfold findExisting
  rw [hkey]
  simp only [hdry, Bool.false_eq_true, if_false, Bool.and_true]
  rfl

/-- What is not taken for a retry is not found, and its key is not held when the search is over. -/
theorem findExisting_of_not_retried (hdry : request.dryRun = false)
    (hretried : s.retried numText digest request = false) :
    ∃ m, findExisting s.operations request (some (request.generatedKey numText digest)) true =
        (m, none) ∧
      m.idempotencyStore.tombstones.get? (request.scope numText digest) = none := by
  rw [findExisting_generated numText digest _ hdry]
  have hself := @IdempotencyStore.get?_lookup_self s.operations.idempotencyStore
    (request.scope numText digest) s.operations.now
  unfold retried at hretried
  cases hlookup : s.operations.idempotencyStore.lookup (request.scope numText digest)
      s.operations.now with
  | mk store hit =>
    rw [hlookup] at hretried hself
    cases hit with
    | none => exact ⟨_, rfl, hself⟩
    | some tombstone =>
      dsimp only [Option.bind_some] at hretried ⊢
      cases hget : s.operations.get? tombstone.operationId with
      | none =>
        rw [hget] at hretried
        cases hretried
      | some operation =>
        rw [hget] at hretried
        dsimp only at hretried ⊢
        rw [if_pos (by simpa using hretried)]
        exact ⟨_, rfl, InsertionMap.get?_erase_self _ _⟩

/-- What is taken for a retry is found, or its key is still held when the search is over. -/
theorem findExisting_of_retried (hdry : request.dryRun = false)
    (hretried : s.retried numText digest request = true) :
    (∃ m snapshot, findExisting s.operations request
        (some (request.generatedKey numText digest)) true = (m, some snapshot)) ∨
      ∃ m, findExisting s.operations request (some (request.generatedKey numText digest)) true =
          (m, none) ∧
        (m.idempotencyStore.lookup (request.scope numText digest) m.now).2.isSome = true := by
  rw [findExisting_generated numText digest _ hdry]
  have hself := @IdempotencyStore.get?_lookup_self s.operations.idempotencyStore
    (request.scope numText digest) s.operations.now
  unfold retried at hretried
  cases hlookup : s.operations.idempotencyStore.lookup (request.scope numText digest)
      s.operations.now with
  | mk store hit =>
    rw [hlookup] at hretried hself
    cases hit with
    | none => cases hretried
    | some tombstone =>
      dsimp only [Option.bind_some] at hretried ⊢
      cases hget : s.operations.get? tombstone.operationId with
      | none =>
        refine Or.inr ⟨_, rfl, ?_⟩
        -- The search has just touched the tombstone, so it has not expired.
        have hfresh : store.expired tombstone s.operations.now = false := by
          have hhit : (s.operations.idempotencyStore.lookup (request.scope numText digest)
              s.operations.now).2 = some tombstone := by rw [hlookup]
          obtain ⟨old, -, hexpired, rfl⟩ := IdempotencyStore.lookup_eq_some.mp hhit
          have hbounds : store.retentionMs = s.operations.idempotencyStore.retentionMs := by
            have := IdempotencyStore.lookup_retentionMs s.operations.idempotencyStore
              (request.scope numText digest) s.operations.now
            rwa [hlookup] at this
          unfold IdempotencyStore.expired at hexpired ⊢
          rw [hbounds]
          exact hexpired
        rw [IdempotencyStore.lookup_eq_some.mpr ⟨tombstone, hself, hfresh, rfl⟩]
        rfl
      | some operation =>
        rw [hget] at hretried
        dsimp only at hretried ⊢
        rw [if_neg (by simpa using hretried)]
        exact Or.inl ⟨_, _, rfl⟩

/-! ## The run -/

/-- An invocation that is not a dry run and is not rejected calls the backend, with its input. -/
theorem dispatched_of_invoke {r r' : PinoutRuntime} {deviceId capability : JsString}
    {input : JsonObject} {options : InvokeOptions} {reading : Reading} {outcome : InvokeOutcome}
    (hdry : options.dryRun = false)
    (h : r.invoke numText deviceId capability input options reading = (r', .ok outcome)) :
    outcome = .dispatched input := by
  have hdevice : ∀ (device : DeviceInstance) (governance : Option Governance)
      (engine : Option SafetyEngine), device.invoke numText governance capability input options
        reading = (engine, .ok outcome) → outcome = .dispatched input := by
    intro device governance engine h
    unfold DeviceInstance.invoke at h
    rw [hdry] at h
    split at h
    · cases h
    · split at h
      · cases h
        rfl
      · dsimp only at h
        rw [if_neg Bool.false_ne_true] at h
        split at h
        · cases h
        · cases h
          rfl
  unfold PinoutRuntime.invoke at h
  split at h
  · cases h
  · split at h
    · next heq =>
      obtain ⟨-, rfl⟩ := Prod.mk.inj h
      exact hdevice _ _ _ heq
    · next heq =>
      obtain ⟨-, rfl⟩ := Prod.mk.inj h
      exact hdevice _ _ _ heq

variable (numText) in
/-- The run of a request calls the backend to execute what the request commands, or it throws and the
backend is not called. -/
theorem runBody_executed (s : Serving) (request : InvokeRequest) (handling : Handling) :
    (s.runBody numText request handling).1.operations = s.operations ∧
      ((s.runBody numText request handling).1.executed = s.executed ++ [request.execution] ∨
        ((s.runBody numText request handling).1.executed = s.executed ∧
          ∃ thrown, (s.runBody numText request handling).2 = .error thrown)) := by
  unfold runBody
  split
  · next thrown _ => exact ⟨rfl, Or.inr ⟨rfl, thrown, rfl⟩⟩
  · split
    · next thrown _ => exact ⟨rfl, Or.inr ⟨rfl, thrown, rfl⟩⟩
    · next heq => cases dispatched_of_invoke rfl heq
    · next heq =>
      cases dispatched_of_invoke rfl heq
      exact ⟨rfl, Or.inl rfl⟩

/-- A new operation is completed only if its run called the backend. -/
theorem perform_executed {m : OperationManager} {options : BeginOperationOptions}
    {randomId operationId : JsString} (hoperations : s.operations = m.openNew options randomId)
    {operation : LiveOperation}
    (hresult : (respond ((s.perform numText request handling operationId
      m.heap.length).operations.heap[m.heap.length]?.getD operation).toOperationSnapshot
        false).isResult = true) :
    (s.perform numText request handling operationId m.heap.length).executed =
      s.executed ++ [request.execution] := by
  obtain ⟨started, hstarted⟩ : ∃ started, takeAll s.operations
      [.wait .waitForResult operationId handling.token, .microtask m.heap.length,
        .dispatched m.heap.length] = started := ⟨_, rfl⟩
  have hrunning : RunningAt started m.heap.length := by
    rw [← hstarted, hoperations]
    exact runningAt_started
  unfold perform at hresult ⊢
  rw [hstarted] at hresult ⊢
  obtain ⟨hsame, hexecuted | ⟨-, thrown, hthrown⟩⟩ :=
    runBody_executed numText { s with operations := started } request handling
  · exact hexecuted
  · exfalso
    dsimp only at hresult
    rw [hsame, hthrown] at hresult
    have hended : OpenAt (takeAll started [.tick handling.elapsed]) m.heap.length := by
      refine takeAll_invariant (I := fun t => OpenAt t m.heap.length) ?_ hrunning.openAt
      intro t label t' hmem hopen hs
      exact hopen.step (Or.inl ⟨handling.elapsed, List.mem_singleton.mp hmem⟩) hs
    have hopen : OpenAt (takeAll (takeAll started [.tick handling.elapsed])
        (outcomeLabels m.heap.length (.error thrown))) m.heap.length := by
      refine takeAll_invariant (I := fun t => OpenAt t m.heap.length) ?_ hended
      intro t label t' hmem hopen hs
      simp only [outcomeLabels, List.mem_cons, List.not_mem_nil, or_false] at hmem
      rcases hmem with rfl | rfl
      · exact hopen.step (Or.inr (Or.inl rfl)) hs
      · exact hopen.step (Or.inr (Or.inr ⟨thrown, rfl⟩)) hs
    obtain ⟨op, hop, hne, -⟩ := hopen
    rw [hop, Option.getD_some, respond_of_ne_completed hne] at hresult
    cases hresult

/-! ## The route -/

/-- A lookup that hits makes `begin` return an operation that is held. -/
theorem handle?_begin_of_hit {m : OperationManager} {options : BeginOperationOptions}
    {key randomId : JsString} (hkey : options.key? = some key)
    (hhit : (m.idempotencyStore.lookup (OperationManager.scopedKeyFor options key) m.now).2.isSome =
      true) (address : Nat) (op : LiveOperation) :
    handle? (m.begin_ options randomId) ≠ some (false, address, op) := by
  have hdedupe : ∀ (m : OperationManager) (tombstone : IdempotencyTombstone),
      handle? (m.dedupe tombstone) ≠ some (false, address, op) := by
    intro m tombstone
    have htrace : (m.dedupe tombstone).trace.getLast? =
        some (.began true tombstone.operationId) := by
      unfold OperationManager.dedupe
      split <;> exact List.getLast?_concat
    unfold handle?
    rw [htrace]
    dsimp only
    intro h
    obtain ⟨e, -, he⟩ := Option.map_eq_some_iff.mp h
    cases he
  unfold OperationManager.begin_
  rw [hkey]
  dsimp only
  split
  · exact hdedupe _ _
  · next heq =>
    rw [heq] at hhit
    cases hhit

theorem begin_of_miss {m : OperationManager} {options : BeginOperationOptions} {key : JsString}
    (hkey : options.key? = some key)
    (hmiss : m.idempotencyStore.tombstones.get? (OperationManager.scopedKeyFor options key) = none)
    (randomId : JsString) : m.begin_ options randomId = m.openNew options randomId := by
  have hlookup : m.idempotencyStore.lookup (OperationManager.scopedKeyFor options key) m.now =
      (m.idempotencyStore, none) := by
    unfold IdempotencyStore.lookup
    rw [hmiss]
  unfold OperationManager.begin_
  rw [hkey]
  dsimp only
  rw [hlookup]

theorem execute_of_hit {descriptor : CapabilityDescriptor} {key : JsString} (hkey : key ≠ [])
    (hhit : (s.operations.idempotencyStore.lookup (IdempotencyStore.keyFor request.deviceId
      request.capability request.owner key) s.operations.now).2.isSome = true) :
    (s.execute numText request handling descriptor (some key)).1.executed = s.executed := by
  have hcounts : (beginOptions request (some key)).key? = some key := by
    simp [BeginOperationOptions.key?, beginOptions, Option.filter, hkey]
  unfold execute
  split
  · rfl
  · split
    · rfl
    · split
      · rfl
      · split
        · rfl
        · dsimp only
          split
          · rfl
          · rfl
          · next heq => exact absurd heq (handle?_begin_of_hit hcounts hhit _ _)

/-- Past a search that leaves the key free, a request that is answered with a result is executed. -/
theorem execute_of_miss {descriptor : CapabilityDescriptor} {key : JsString} (hkey : key ≠ [])
    (hmiss : s.operations.idempotencyStore.tombstones.get? (IdempotencyStore.keyFor
      request.deviceId request.capability request.owner key) = none)
    (hresult : (s.execute numText request handling descriptor (some key)).2.isResult = true) :
    (s.execute numText request handling descriptor (some key)).1.executed =
      s.executed ++ [request.execution] := by
  have hcounts : (beginOptions request (some key)).key? = some key := by
    simp [BeginOperationOptions.key?, beginOptions, Option.filter, hkey]
  have hbegin := begin_of_miss hcounts hmiss handling.randomId
  unfold execute at hresult ⊢
  split at hresult
  · cases hresult
  · split at hresult
    · cases hresult
    · split at hresult
      · cases hresult
      · split at hresult
        · cases hresult
        · next hdry =>
          rw [if_neg hdry]
          dsimp only at hresult ⊢
          rw [hbegin, handle?_openNew] at hresult ⊢
          exact perform_executed rfl hresult

variable (numText digest handling) in
/-- A plain request goes to the search under its generated key. -/
theorem invoke_plain {deviceId : JsString} {owner : Option JsString}
    (h : s.Plain deviceId owner request) :
    (s.invoke numText digest request handling = (s, .error (fieldRequired (js "capability")))) ∨
      ∃ descriptor, s.invoke numText digest request handling =
        s.proceed numText request handling descriptor (some (request.generatedKey numText digest))
          (findExisting s.operations request (some (request.generatedKey numText digest)) true) := by
  obtain ⟨device, descriptor, hdevice, hdescriptor, hphysical⟩ := h.physicalOutput
  unfold invoke
  rw [hdevice]
  dsimp only
  split
  · exact Or.inl rfl
  · rw [hdescriptor]
    refine Or.inr ⟨descriptor, ?_⟩
    dsimp only
    rw [hphysical, idempotencyKeyOf_plain h]

theorem generatedKey_ne_nil : request.generatedKey numText digest ≠ [] := List.cons_ne_nil _ _

theorem executed_of_found (descriptor : CapabilityDescriptor) (key : Option JsString)
    (m : OperationManager) (snapshot : OperationSnapshot) :
    (s.proceed numText request handling descriptor key (m, some snapshot)).1.executed =
      s.executed := by
  rw [proceed]
  split <;> rfl

theorem commanded_of_retried (h : s.retried numText digest request = true) :
    s.commanded numText digest (.invoke request handling) = [] := if_pos h

theorem commanded_of_not_retried (h : s.retried numText digest request = false) :
    s.commanded numText digest (.invoke request handling) = [request.execution] :=
  if_neg (by rw [h]; exact Bool.false_ne_true)

/-- **Step lemma.** The backend executes what an action commands. -/
theorem executed_of_step {deviceId : JsString} {owner : Option JsString} {a : Action}
    (hcompleted : s.Completed numText digest deviceId owner a)
    (hs : s.step numText digest a = some t) :
    t.executed = s.executed ++ s.commanded numText digest a := by
  cases a with
  | runtime action =>
    obtain ⟨runtime, -, rfl⟩ := Option.map_eq_some_iff.mp hs
    exact (List.append_nil _).symm
  | tick ms =>
    obtain rfl := Option.some.inj hs
    exact (List.append_nil _).symm
  | invoke request handling =>
    obtain ⟨hplain, hresult⟩ := hcompleted
    obtain rfl := Option.some.inj hs
    have hdry := hplain.dryRun
    rcases invoke_plain numText digest handling hplain with hinvoke | ⟨descriptor, hinvoke⟩
    · rw [hinvoke] at hresult
      cases hresult
    · rw [hinvoke] at hresult ⊢
      cases hretried : s.retried numText digest request with
      | false =>
        obtain ⟨m, hfind, hmiss⟩ := findExisting_of_not_retried hdry hretried
        rw [hfind] at hresult ⊢
        rw [commanded_of_not_retried hretried]
        exact execute_of_miss generatedKey_ne_nil hmiss hresult
      | true =>
        rw [commanded_of_retried hretried, List.append_nil]
        rcases findExisting_of_retried hdry hretried with ⟨m, snapshot, hfind⟩ | ⟨m, hfind, hhit⟩
        · rw [hfind, executed_of_found]
        · rw [hfind]
          exact execute_of_hit generatedKey_ne_nil hhit

/-- **Run lemma.** The backend executes what the requests of a history command that are not taken for
retries, in order. -/
theorem executed_of_completed {deviceId : JsString} {owner : Option JsString}
    {actions : List Action} (hrun : (machine numText digest).run s actions = some t)
    (hcompleted : (machine numText digest).Guarded (Completed numText digest deviceId owner) s
      actions) :
    t.executed = s.executed ++ s.performed numText digest actions := by
  induction actions generalizing s with
  | nil =>
    obtain rfl : s = t := by simpa using hrun
    exact (List.append_nil _).symm
  | cons a actions ih =>
    obtain ⟨m, hm, hrest⟩ := (machine numText digest).run_cons_eq_some.mp hrun
    obtain ⟨hfirst, hothers⟩ := Machine.Guarded.of_cons hcompleted hm
    have hstep : step numText digest s a = some m := hm
    rw [ih hrest hothers, executed_of_step hfirst hm, performed, hstep, List.append_assoc]

/-! ## Where a retry comes from -/

theorem begin_not_mem_outcomeLabels (address : Nat) (outcome : Except Thrown JsonObject)
    (options : BeginOperationOptions) (randomId : JsString) :
    .begin_ options randomId ∉ outcomeLabels address outcome := by
  cases outcome <;> simp [outcomeLabels]

/-- What is held past the search was held, or is the key of the request. -/
theorem held_of_execute {descriptor : CapabilityDescriptor} {key k : JsString}
    (hheld : (s.execute numText request handling descriptor (some
      key)).1.operations.idempotencyStore.tombstones.contains k = true) :
    s.operations.idempotencyStore.tombstones.contains k = true ∨
      k = IdempotencyStore.keyFor request.deviceId request.capability request.owner key := by
  have hbegin : (s.operations.begin_ (beginOptions request (some key))
      handling.randomId).idempotencyStore.tombstones.contains k = true →
      s.operations.idempotencyStore.tombstones.contains k = true ∨
        k = IdempotencyStore.keyFor request.deviceId request.capability request.owner key := by
    intro hheld
    have hs : s.operations.step (.begin_ (beginOptions request (some key)) handling.randomId) =
        some (s.operations.begin_ (beginOptions request (some key)) handling.randomId) := rfl
    rcases held_of_step hs hheld with hbefore | ⟨options, randomId, heq, key', hkey', rfl⟩
    · exact Or.inl hbefore
    · obtain ⟨rfl, -⟩ := OperationManager.Action.begin_.inj heq
      obtain ⟨hsome, -⟩ := Option.filter_eq_some_iff.mp hkey'
      obtain rfl := Option.some.inj hsome
      exact Or.inr rfl
  unfold execute at hheld
  split at hheld
  · exact Or.inl hheld
  · split at hheld
    · exact Or.inl hheld
    · split at hheld
      · exact Or.inl hheld
      · split at hheld
        · exact Or.inl hheld
        · dsimp only at hheld
          split at hheld
          · exact hbegin hheld
          · exact hbegin (held_of_takeAll (by simp) hheld)
          · refine hbegin ?_
            unfold perform at hheld
            have hended := held_of_takeAll (begin_not_mem_outcomeLabels _ _) hheld
            have hran := held_of_takeAll (by simp) hended
            rw [(runBody_executed numText _ _ _).1] at hran
            exact held_of_takeAll (by simp) hran

variable (request) in
theorem held_of_findExisting (m : OperationManager) (key : Option JsString) (generated : Bool)
    {k : JsString} (hheld : (findExisting m request key
      generated).1.idempotencyStore.tombstones.contains k = true) :
    m.idempotencyStore.tombstones.contains k = true := by
  unfold findExisting at hheld
  split at hheld
  · exact hheld
  · split at hheld
    · exact hheld
    · dsimp only at hheld
      split at hheld
      · exact held_of_lookup rfl hheld
      · split at hheld
        · exact held_of_lookup rfl (held_of_remove hheld)
        · exact held_of_lookup rfl hheld

/-- The keys held after a step were held before it, or the step handled a request with that key. -/
theorem held_of_completed {deviceId : JsString} {owner : Option JsString} {a : Action}
    (hcompleted : s.Completed numText digest deviceId owner a)
    (hs : s.step numText digest a = some t) {k : JsString}
    (hheld : t.operations.idempotencyStore.tombstones.contains k = true) :
    s.operations.idempotencyStore.tombstones.contains k = true ∨
      ∃ request handling, a = .invoke request handling ∧ request.scope numText digest = k := by
  cases a with
  | runtime action =>
    obtain ⟨runtime, -, rfl⟩ := Option.map_eq_some_iff.mp hs
    exact Or.inl hheld
  | tick ms =>
    obtain rfl := Option.some.inj hs
    exact Or.inl hheld
  | invoke request handling =>
    obtain ⟨hplain, -⟩ := hcompleted
    obtain rfl := Option.some.inj hs
    rcases invoke_plain numText digest handling hplain with hinvoke | ⟨descriptor, hinvoke⟩
    · rw [hinvoke] at hheld
      exact Or.inl hheld
    · rw [hinvoke] at hheld
      obtain ⟨⟨m, found⟩, hfind⟩ : ∃ found, findExisting s.operations request
          (some (request.generatedKey numText digest)) true = found := ⟨_, rfl⟩
      have hsearch : m.idempotencyStore.tombstones.contains k = true →
          s.operations.idempotencyStore.tombstones.contains k = true := by
        intro hm
        refine held_of_findExisting request s.operations
          (some (request.generatedKey numText digest)) true ?_
        rw [hfind]
        exact hm
      rw [hfind] at hheld
      cases found with
      | none =>
        rcases held_of_execute hheld with hm | rfl
        · exact Or.inl (hsearch hm)
        · exact Or.inr ⟨request, handling, rfl, rfl⟩
      | some snapshot =>
        rw [proceed] at hheld
        split at hheld
        · exact Or.inl (hsearch hheld)
        · exact Or.inl (hsearch (held_of_takeAll (by simp) hheld))

/-- The keys held after a history were held before it, or it handled a request with that key. -/
theorem held_of_run {deviceId : JsString} {owner : Option JsString} {actions : List Action}
    (hrun : (machine numText digest).run s actions = some t)
    (hcompleted : (machine numText digest).Guarded (Completed numText digest deviceId owner) s
      actions) {k : JsString}
    (hheld : t.operations.idempotencyStore.tombstones.contains k = true) :
    s.operations.idempotencyStore.tombstones.contains k = true ∨
      ∃ request handling, .invoke request handling ∈ actions ∧ request.scope numText digest = k := by
  induction actions generalizing s with
  | nil =>
    obtain rfl : s = t := by simpa using hrun
    exact Or.inl hheld
  | cons a actions ih =>
    obtain ⟨m, hm, hrest⟩ := (machine numText digest).run_cons_eq_some.mp hrun
    obtain ⟨hfirst, hothers⟩ := Machine.Guarded.of_cons hcompleted hm
    rcases ih hrest hothers with hheld | ⟨request, handling, hmem, hscope⟩
    · rcases held_of_completed hfirst hm hheld with hs | ⟨request, handling, rfl, hscope⟩
      · exact Or.inl hs
      · exact Or.inr ⟨request, handling, List.mem_cons_self, hscope⟩
    · exact Or.inr ⟨request, handling, List.mem_cons_of_mem _ hmem, hscope⟩

theorem held_of_retried (h : s.retried numText digest request = true) :
    s.operations.idempotencyStore.tombstones.contains (request.scope numText digest) = true := by
  unfold retried at h
  split at h
  · cases h
  · next tombstone hhit =>
    obtain ⟨held, hget, -⟩ := IdempotencyStore.lookup_eq_some.mp hhit
    exact InsertionMap.contains_iff.mpr ⟨held, hget⟩

/-! ## Last actions -/

/-- The arguments of the last action for a capability of a device. -/
def lastArgs? (deviceId capability : JsString) (log : List Execution) : Option JsonObject :=
  ((log.filter fun e => e.deviceId = deviceId ∧ e.capability = capability).getLast?).map
    Execution.args

theorem lastArgs?_append (deviceId capability : JsString) (log log' : List Execution) :
    lastArgs? deviceId capability (log ++ log') =
      (lastArgs? deviceId capability log').or (lastArgs? deviceId capability log) := by
  simp only [lastArgs?, List.filter_append, List.getLast?_append, Option.map_or]

/-- **Completed requests.** Of requests for physical outputs of a device, by an owner and without
idempotency keys, that are all answered with a completed result: the last action executed for a
capability is the one commanded by the last of them for it that the daemon did not take for a retry;
and the key of one it took for a retry was held before, or is the key of an earlier one of them, for
the same capability. -/
theorem lastArgs?_of_completed {deviceId : JsString} {owner : Option JsString}
    {actions : List Action} (hrun : (machine numText digest).run s actions = some t)
    (hcompleted : (machine numText digest).Guarded (Completed numText digest deviceId owner) s
      actions) :
    (∀ capability, lastArgs? deviceId capability t.executed =
      (lastArgs? deviceId capability (s.performed numText digest actions)).or
        (lastArgs? deviceId capability s.executed)) ∧
      ∀ before request handling after m, actions = before ++ .invoke request handling :: after →
        (machine numText digest).run s before = some m → m.retried numText digest request = true →
        s.operations.idempotencyStore.tombstones.contains (request.scope numText digest) = true ∨
          ∃ earlier handling', .invoke earlier handling' ∈ before ∧
            earlier.capability = request.capability ∧
            earlier.generatedKey numText digest = request.generatedKey numText digest := by
  constructor
  · intro capability
    rw [executed_of_completed hrun hcompleted, lastArgs?_append]
  · rintro before request handling after m rfl hm hretried
    obtain ⟨hbefore, -⟩ := Machine.Guarded.of_append hcompleted hm
    rcases held_of_run hm hbefore (held_of_retried hretried) with hs | ⟨earlier, handling', hmem, hscope⟩
    · exact Or.inl hs
    · obtain ⟨-, hcapability, -, hkey⟩ := IdempotencyStore.keyFor_inj hscope
      exact Or.inr ⟨earlier, handling', hmem, hcapability, hkey⟩

/-! ## A lamp -/

def withLamp : Serving :=
  { runtime := (PinoutRuntime.new { safetyEngine := { rules := [] } }).register
      { id := js "lamp", capabilities := [{ name := js "gpio.write", physicalOutput := true }] } }

/-- The agent asks for the lamp to be switched, waits for the result, and the backend succeeds. -/
def writeLamp (on : Bool) : Action :=
  .invoke
    { deviceId := js "lamp", capability := js "gpio.write", args := [(js "on", .bool on)]
      owner := some (js "agent") }
    { randomId := js "a", token := 0, planning := { now := 0 }, running := { now := 0 }
      backend := .ok [] }

/-- The text of which the key of such a request is a digest. -/
def lampText (on : JsString) : JsString :=
  js "\x7b\"args\":\x7b\"on\":" ++ on ++
    js "\x7d,\"capability\":\"gpio.write\",\"deviceId\":\"lamp\",\"owner\":\"agent\"\x7d"

/-- The first halves of the SHA-256 digests of the two texts. -/
def lampDigest (text : JsString) : JsString :=
  if text = lampText (js "true") then js "34a6139214653f58fe33a8c07fe72447"
  else if text = lampText (js "false") then js "d3455e381f6edc3bdc91534e75881ecb"
  else []

def lampWrites : List Action := [writeLamp true, writeLamp false, writeLamp true]

def lastSwitched (log : List Execution) : Option Bool :=
  (lastArgs? (js "lamp") (js "gpio.write") log).bind fun args =>
    Json.boolean? (JsonObject.get? args (js "on"))

/-- The three requests are answered with completed results. -/
theorem completed_lampWrites :
    (machine (fun _ => []) lampDigest).Guarded
      (Completed (fun _ => []) lampDigest (js "lamp") (some (js "agent"))) withLamp lampWrites := by
  decide +kernel

theorem exists_lampWrites :
    ∃ t, (machine (fun _ => []) lampDigest).run withLamp lampWrites = some t ∧
      lastSwitched t.executed = some false := by
  have hrun : ((machine (fun _ => []) lampDigest).run withLamp lampWrites).map
      (fun t => lastSwitched t.executed) = some (some false) := by decide +kernel
  exact Option.map_eq_some_iff.mp hrun

/-- The third of them is taken for a retry of the first, so that the lamp is off. -/
theorem lastArgs?_of_completed_lampWrites :
    ∃ t, (machine (fun _ => []) lampDigest).run withLamp lampWrites = some t ∧
      lastSwitched t.executed = some false := by
  obtain ⟨t, hrun, -⟩ := exists_lampWrites
  refine ⟨t, hrun, ?_⟩
  rw [lastSwitched, (lastArgs?_of_completed hrun completed_lampWrites).1 (js "gpio.write")]
  decide +kernel

def requested (actions : List Action) : List Execution :=
  actions.filterMap fun
    | .invoke request _ => some request.execution
    | _ => none

/-- **On, off, on.** The last action executed is not the one commanded by the last request. -/
theorem not_lastRequested_lampWrites :
    ¬ ∀ (numText : ℚ → JsString) (digest : JsString → JsString) (s t : Serving)
      (deviceId : JsString) (owner : Option JsString) (actions : List Action),
      (machine numText digest).run s actions = some t →
      (machine numText digest).Guarded (Completed numText digest deviceId owner) s actions →
      ∀ capability args, lastArgs? deviceId capability (requested actions) = some args →
        lastArgs? deviceId capability t.executed = some args := by
  intro h
  obtain ⟨t, hrun, hoff⟩ := exists_lampWrites
  have hon : lastArgs? (js "lamp") (js "gpio.write") t.executed = some [(js "on", .bool true)] :=
    h _ _ _ _ _ _ _ hrun completed_lampWrites _ _ rfl
  rw [lastSwitched, hon] at hoff
  cases hoff

end Serving

end Pinout.Daemon
