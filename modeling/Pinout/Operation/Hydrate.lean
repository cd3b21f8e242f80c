import Pinout.Operation.Registry

/-! # Hydration

`OperationManager.hydrate` restores operations and tombstones from the journal: a fold over the
operation entries, in the order of their numbers, keeps a state for each operation id
(`OpState.receive`); an operation without a terminal entry was interrupted (`OpState.close`); and
every operation becomes an object of the map, and a tombstone when it has a key. -/

namespace Pinout.Operation

open Foundation

/-- `OpState`: what the fold knows about an operation. -/
structure OpState where
  operationId : JsString
  deviceId : JsString
  capability : JsString
  owner : Option JsString := none
  idempotencyKey : Option JsString := none
  createdAt : Int
  startedAt : Option Int := none
  finishedAt : Option Int := none
  progress : Option OperationProgress := none
  status : OperationStatus := .queued
  result : Option Json := none
  error : Option OperationError := none
  reconciled : Bool := false
  reconciliation : Option ReconciliationRecord := none
  hasRequested : Bool := false
  hasStarted : Bool := false
  hasTerminal : Bool := false

/-- The resolution a payload names, if it names one. -/
def resolution? (payload : JsonObject) : Option ReconciliationResolution :=
  let text := Json.string? (payload.get? (js "resolution"))
  if text = some (js "observedComplete") then some .observedComplete
  else if text = some (js "observedNotDone") then some .observedNotDone
  else if text = some (js "abandoned") then some .abandoned
  else none

/-- The `error` a payload carries, when it has a code and a message. -/
def payloadError? (payload : JsonObject) : Option OperationError :=
  (Json.fields? (payload.get? (js "error"))).bind fun err =>
    (Json.string? (err.get? (js "code"))).bind fun code =>
      (Json.string? (err.get? (js "message"))).map fun message =>
        { code, message
          retryable := (Json.boolean? (err.get? (js "retryable"))).getD false
          details := Json.object? (err.get? (js "details")) }

/-- A value that is not `null`. -/
def notNull : Option Json → Option Json
  | some .null => none
  | v => v

namespace OpState

def identify (op : OpState) (payload : JsonObject) : OpState :=
  { op with
    capability := (Json.string? (payload.get? (js "capability"))).getD op.capability
    owner := (Json.string? (payload.get? (js "owner"))).or op.owner
    idempotencyKey := (Json.string? (payload.get? (js "idempotencyKey"))).or op.idempotencyKey }

/-- What an `operation.reconciled` entry writes. -/
def reconcile (op : OpState) (at_ : Int) (payload : JsonObject) : OpState :=
  let resolution := resolution? payload
  let op := { op with
    hasTerminal := true
    reconciled := true
    reconciliation := some
      { resolution, note := Json.string? (payload.get? (js "note"))
        actor := Json.string? (payload.get? (js "actor")), reconciledAt := at_ }
    finishedAt := some at_ }
  match resolution with
  | some .observedComplete =>
    { op with
      status := .completed
      result := (notNull (payload.get? (js "result"))).or (some (.obj
        [(js "reconciled", .bool true), (js "resolution", .str (js "observedComplete"))]))
      error := none }
  | some .observedNotDone =>
    { op with
      status := .cancelled
      error := some
        { code := js "OPERATION_RECONCILED_NOT_DONE", message := js "Reconciled as not done."
          retryable := false } }
  | _ =>
    { op with
      status := .failed
      error := some
        { code := js "OPERATION_ABANDONED"
          message := js "Operation abandoned during reconciliation.", retryable := false } }

def receive (op : OpState) (kind : OperationEventKind) (at_ : Int) (payload : JsonObject) :
    OpState :=
  match kind with
  | .requested => { op with hasRequested := true, createdAt := at_, status := .queued }
  | .started => { op with hasStarted := true, startedAt := some at_, status := .running }
  | .progress =>
    { op with
      progress := some
        { fraction := Json.number? (payload.get? (js "fraction"))
          message := Json.string? (payload.get? (js "message")), at_ } }
  | .completed =>
    { op with
      hasTerminal := true, status := .completed, finishedAt := some at_
      result := (Json.object? (payload.get? (js "result"))).or op.result }
  | .failed =>
    { op with
      hasTerminal := true, status := .failed, finishedAt := some at_
      error := (payloadError? payload).or op.error }
  | .cancelled =>
    { op with
      hasTerminal := true, status := .cancelled, finishedAt := some at_
      error := some
        { code := js "OPERATION_CANCELLED"
          message := (Json.string? (payload.get? (js "reason"))).getD (js "Operation cancelled.")
          retryable := true } }
  | .timedOut =>
    { op with
      hasTerminal := true, status := .timedOut, finishedAt := some at_
      error := some
        { code := js "OPERATION_TIMEOUT", message := js "Operation exceeded its deadline."
          retryable := true } }
  | .rejected => { op with hasTerminal := true, status := .rejected, finishedAt := some at_ }
  | .reconciled => op.reconcile at_ payload
  | .aborted =>
    { op with
      hasTerminal := true, status := .aborted, finishedAt := some at_
      error := some
        { code := js "OPERATION_ABORTED_BEFORE_DISPATCH"
          message := js "Operation was accepted but not dispatched before restart."
          retryable := false } }
  | .stopUnconfirmed =>
    { op with
      hasTerminal := true, status := .stopUnconfirmed, finishedAt := some at_
      error := some
        { code := js "OPERATION_STOP_UNCONFIRMED"
          message := js "Cancellation was requested but device stop was unconfirmed."
          retryable := false } }
  -- the loop has no branch for `operation.uncertain`
  | .uncertain => op

/-- What becomes of an operation without a terminal entry. -/
def close (op : OpState) (now : Int) : OpState :=
  if op.hasTerminal then op
  else if op.hasStarted then
    { op with
      status := .requiresReconciliation
      finishedAt := some now
      error := some
        { code := js "OPERATION_REQUIRES_RECONCILIATION"
          message := js "Process restarted while operation was in flight. " ++
            js "Physical outcome is uncertain and requires reconciliation."
          retryable := false
          details := some (.obj ((js "crashWindow", .str (js "after_dispatch_before_ack")) ::
            field? (js "startedAt") (op.startedAt.map timeJson))) } }
  else
    { op with
      status := .aborted
      finishedAt := some now
      error := some
        { code := js "OPERATION_ABORTED_BEFORE_DISPATCH"
          message := js "Operation was accepted but not dispatched before process restart."
          retryable := false
          details := some (.obj [(js "crashWindow", .str (js "before_dispatch")),
            (js "createdAt", timeJson op.createdAt)]) } }

def snapshot (op : OpState) : OperationSnapshot :=
  { id := op.operationId
    deviceId := op.deviceId
    capability := op.capability
    status := op.status
    idempotencyKey := op.idempotencyKey.filter fun key => key ≠ []
    owner := op.owner
    createdAt := op.createdAt
    startedAt := op.startedAt
    finishedAt := op.finishedAt
    progress := op.progress
    result := op.result
    error := op.error
    reconciled := op.reconciled
    reconciliation := op.reconciliation }

/-- The tombstone it is restored with, when it has a key. -/
def tombstone? (op : OpState) : Option IdempotencyTombstone :=
  (op.idempotencyKey.filter fun key => key ≠ []).map fun key =>
    { operationId := op.operationId
      deviceId := op.deviceId
      capability := op.capability
      owner := op.owner
      idempotencyKey := key
      status := op.status
      createdAt := op.createdAt
      result := op.result.filter Json.truthy
      error := op.error
      lastUsedAt := op.finishedAt.getD op.createdAt }

end OpState

/-! ## The fold -/

/-- The operation, the device and the kind of an entry the fold does not skip. -/
def hydrated? (entry : JournalEntry) : Option (JsString × JsString × OperationEventKind) :=
  (entry.operationId.filter (· ≠ [])).bind fun operationId =>
    (entry.deviceId.filter (· ≠ [])).bind fun deviceId =>
      entry.kind.operation?.map fun kind => (operationId, deviceId, kind)

/-- The state the fold starts with at the first entry of an operation. -/
def newOpState (operationId deviceId : JsString) (entry : JournalEntry) : OpState :=
  { operationId, deviceId, capability := js "unknown", createdAt := entry.at_ }

def OpState.read (op : OpState) (kind : OperationEventKind) (entry : JournalEntry) : OpState :=
  (op.identify (entry.payload.getD [])).receive kind entry.at_ (entry.payload.getD [])

def hydrateEntry (ops : InsertionMap JsString OpState) (entry : JournalEntry) :
    InsertionMap JsString OpState :=
  match hydrated? entry with
  | some (operationId, deviceId, kind) =>
    ops.insert operationId
      (((ops.get? operationId).getD (newOpState operationId deviceId entry)).read kind entry)
  | none => ops

def hydrateEntries (entries : List JournalEntry) : InsertionMap JsString OpState :=
  entries.foldl hydrateEntry .empty

/-- The kinds `hydrate` asks the journal for. -/
def hydrateKinds : List JournalEntryKind :=
  [.operation .requested, .operation .started, .operation .progress, .operation .completed,
    .operation .failed, .operation .cancelled, .operation .timedOut, .operation .rejected,
    .operation .reconciled, .operation .uncertain, .operation .aborted,
    .operation .stopUnconfirmed]

namespace OperationManager

def restoreOperation (s : OperationManager) (op : OpState) : OperationManager :=
  { s with
    heap := s.heap ++ [{ toOperationSnapshot := op.snapshot }]
    operations := s.operations.insert op.operationId s.heap.length
    sequence := max s.sequence ((sequenceOf? op.operationId).getD 0) }

/-- `hydrate` from the entries the journal answers with. -/
def hydrate (s : OperationManager) (entries : List JournalEntry) : OperationManager :=
  let ops := (hydrateEntries entries).entries.map fun e => e.2.close s.now
  let restored := ops.foldl restoreOperation s
  { restored with
    idempotencyStore := restored.idempotencyStore.hydrate (ops.filterMap OpState.tombstone?) s.now }

/-- `hydrate`, from what the storage of the journal holds. -/
def hydrateFrom (s : OperationManager) (stored : List JournalEntry) : OperationManager :=
  s.hydrate (Journal.query stored { kinds := some hydrateKinds })

end OperationManager

/-! ## The state of one operation -/

@[simp] theorem read_operationId (op : OpState) (kind : OperationEventKind) (entry : JournalEntry) :
    (op.read kind entry).operationId = op.operationId := by
  unfold OpState.read OpState.receive
  cases kind <;> try rfl
  unfold OpState.reconcile
  dsimp only
  split <;> rfl

@[simp] theorem close_operationId (op : OpState) (now : Int) :
    (op.close now).operationId = op.operationId := by
  unfold OpState.close
  split
  · rfl
  · split <;> rfl

theorem get?_hydrateEntry (ops : InsertionMap JsString OpState) (entry : JournalEntry)
    (id : JsString) :
    (hydrateEntry ops entry).get? id =
      match hydrated? entry with
      | some (operationId, deviceId, kind) =>
        if id = operationId then
          some (((ops.get? id).getD (newOpState id deviceId entry)).read kind entry)
        else ops.get? id
      | none => ops.get? id := by
  unfold hydrateEntry
  split
  · next operationId deviceId kind h =>
    rw [InsertionMap.get?_insert]
    by_cases hid : id = operationId
    · subst hid
      rfl
    · simp [hid]
  · rfl

theorem hydrateEntries_concat (entries : List JournalEntry) (entry : JournalEntry) :
    hydrateEntries (entries ++ [entry]) = hydrateEntry (hydrateEntries entries) entry := by
  rw [hydrateEntries, List.foldl_append]
  rfl

/-- The fold keeps every state under the id of its operation. -/
theorem hydrateEntries_operationId {entries : List JournalEntry} {id : JsString} {op : OpState}
    (h : (hydrateEntries entries).get? id = some op) : op.operationId = id := by
  induction entries using List.reverseRecOn generalizing op with
  | nil => cases h
  | append_singleton entries entry ih =>
    rw [hydrateEntries_concat, get?_hydrateEntry] at h
    split at h
    · split at h
      · next hid =>
        obtain rfl := Option.some.inj h
        rw [read_operationId]
        cases hop : (hydrateEntries entries).get? id with
        | none => rfl
        | some op => exact ih hop
      · exact ih h
    · exact ih h

/-! ## Putting the operations into the map -/

namespace OperationManager

/-- The operations restored before are found at their places, in order. -/
theorem foldl_restoreOperation (l : List OpState) (s : OperationManager)
    (hnodup : (l.map OpState.operationId).Nodup) :
    (l.foldl restoreOperation s).heap =
        s.heap ++ l.map (fun op => { toOperationSnapshot := op.snapshot }) ∧
      (∀ (i : Nat) (op : OpState), l[i]? = some op →
        (l.foldl restoreOperation s).operations.get? op.operationId = some (s.heap.length + i)) ∧
      ∀ id, id ∉ l.map OpState.operationId →
        (l.foldl restoreOperation s).operations.get? id = s.operations.get? id := by
  induction l generalizing s with
  | nil => exact ⟨by simp, by simp, fun _ _ => rfl⟩
  | cons op l ih =>
    rw [List.map_cons, List.nodup_cons] at hnodup
    obtain ⟨hnot, hnodup⟩ := hnodup
    obtain ⟨hheap, hget, hother⟩ := ih (s.restoreOperation op) hnodup
    rw [List.foldl_cons]
    refine ⟨?_, ?_, ?_⟩
    · rw [hheap]
      simp [restoreOperation]
    · intro i op' hop'
      cases i with
      | zero =>
        obtain rfl : op = op' := by simpa using hop'
        rw [hother _ hnot]
        exact InsertionMap.get?_insert_self _ _ _
      | succ i =>
        rw [hget i op' (by simpa using hop')]
        simp only [restoreOperation, List.length_append, List.length_singleton, Option.some.injEq]
        omega
    · intro id hid
      rw [List.map_cons, List.mem_cons, not_or] at hid
      rw [hother id hid.2]
      exact InsertionMap.get?_insert_of_ne _ _ hid.1

/-- A manager without operations finds after `hydrate` exactly what the fold knows, closed. -/
theorem get?_hydrate {s : OperationManager} (hheap : s.heap = []) (hmap : s.operations = .empty)
    (entries : List JournalEntry) (id : JsString) :
    (s.hydrate entries).get? id =
      ((hydrateEntries entries).get? id).map fun op => (op.close s.now).snapshot := by
  let states := hydrateEntries entries
  let l := states.entries.map fun e => e.2.close s.now
  have hids : l.map OpState.operationId = states.entries.map Prod.fst := by
    rw [List.map_map]
    refine List.map_congr_left fun e he => ?_
    show (e.2.close s.now).operationId = e.1
    rw [close_operationId]
    exact hydrateEntries_operationId (InsertionMap.get?_eq_some_iff.mpr he)
  obtain ⟨hheap', hget, hother⟩ := foldl_restoreOperation l s (hids ▸ states.nodup)
  rw [hheap, List.nil_append] at hheap'
  have hoperations : (s.hydrate entries).operations = (l.foldl restoreOperation s).operations := rfl
  have hobjects : (s.hydrate entries).heap = (l.foldl restoreOperation s).heap := rfl
  unfold OperationManager.get? find?
  cases hop : (hydrateEntries entries).get? id with
  | none =>
    have hnot : id ∉ l.map OpState.operationId := by
      rw [hids]
      intro hmem
      obtain ⟨⟨k, v⟩, hv, rfl⟩ := List.mem_map.mp hmem
      exact InsertionMap.get?_eq_none_iff.mp hop v hv
    rw [hoperations, hother id hnot, hmap]
    rfl
  | some op =>
    have hid : op.operationId = id := hydrateEntries_operationId hop
    obtain ⟨i, hi⟩ := List.mem_iff_getElem?.mp (InsertionMap.get?_eq_some_iff.mp hop)
    have hli : l[i]? = some (op.close s.now) := by
      rw [List.getElem?_map, hi]
      rfl
    have hin := hget i _ hli
    rw [close_operationId, hid, hheap, List.length_nil, Nat.zero_add] at hin
    rw [hoperations, hin, Option.bind_some, hobjects, hheap', List.getElem?_map, hli]
    rfl

end OperationManager

end Pinout.Operation
