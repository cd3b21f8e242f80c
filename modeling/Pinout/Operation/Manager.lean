import Mathlib.Data.Rat.Floor
import Pinout.Foundation.Machine
import Pinout.Operation.IdempotencyStore

/-! # The operation manager

`OperationManager` (`packages/core/src/operation/operationManager.ts`) as a machine. Operation
objects live in a heap and never leave it; the manager's map gives the object of an id, while the
continuations of `start` and the deadline timer hold on to theirs. A label of the machine is one
synchronous stretch of the program: a call, a timer callback, or what runs between two suspension
points of the microtask of `start`. What the manager shows to the outside (events, started runs,
answers) is recorded in order in `trace`. -/

namespace Pinout.Operation

open Foundation

/-! ## State -/

/-- Where the microtask of `start` is suspended. -/
inductive Phase
  | idle
  | microtask
  | beforeDispatch
  | running
  /-- `await options.testHooks?.afterDispatchBeforeAck?.()`, with the result of the run. -/
  | afterRun (result : JsonObject)
  | finished

/-- Whether the microtask of `start` has still something to do. -/
def Phase.isUnfinished : Phase → Bool
  | .microtask | .beforeDispatch | .running | .afterRun _ => true
  | _ => false

/-- Whether `options.run` has been invoked and its context handed out. -/
def Phase.isDispatched : Phase → Bool
  | .running | .afterRun _ | .finished => true
  | _ => false

/-- An operation object: its snapshot, its abort controller, and what `start` has pending. -/
structure LiveOperation extends OperationSnapshot where
  aborted : Option Bool := none
  phase : Phase := .idle
  deadlineTimer : Option Int := none
  beforeDispatch : Bool := false
  afterDispatchBeforeAck : Bool := false

inductive WaiterKind
  | cancel | waitFor | waitForResult | progress
  deriving DecidableEq, Repr

/-- A caller that waits, under a token of its own. -/
structure Waiter where
  kind : WaiterKind
  token : Nat
  deriving DecidableEq

/-- The scoped key of an operation that has an idempotency key. -/
def LiveOperation.scopedKey? (op : LiveOperation) : Option JsString :=
  op.idempotencyKey.map fun key => IdempotencyStore.keyFor op.deviceId op.capability op.owner key

/-! ## Answers -/

/-- How the promise of a waiting caller settles. -/
inductive Answer
  | snapshot (snapshot : OperationSnapshot)
  | result (result : Json)
  | rejected (thrown : Thrown)

/-- An error of category `OPERATION` about an operation and its device and capability. -/
def OperationSnapshot.failure (op : OperationSnapshot) (code fallback : JsString)
    (retryable : Bool) : StructuredError where
  code := code
  category := .operation
  message := (op.error.map OperationError.message).getD fallback
  retryable := retryable
  device := some op.deviceId
  capability := some op.capability
  operation := some op.id
  details := (Json.fields? (op.error.bind OperationError.details)).getD []

/-- `deliver` of `waitForResult`. -/
def deliver (op : OperationSnapshot) : Answer :=
  let code (fallback : JsString) := (op.error.map OperationError.code).getD fallback
  let message (fallback : JsString) := (op.error.map OperationError.message).getD fallback
  match op.status with
  | .completed => .result (op.result.getD (.obj []))
  | .requiresReconciliation | .uncertain =>
    .rejected (.structuredError (op.failure (js "OPERATION_REQUIRES_RECONCILIATION")
      (js "Operation outcome is uncertain and requires reconciliation.") false))
  | .aborted =>
    .rejected (.structuredError (op.failure (code (js "OPERATION_ABORTED"))
      (js "Operation was aborted before dispatch.") false))
  | .stopUnconfirmed =>
    .rejected (.structuredError (op.failure (js "OPERATION_STOP_UNCONFIRMED")
      (js "Cancellation requested but device stop was unconfirmed.") false))
  | .failed =>
    .rejected (.structuredError (op.failure (code (js "OPERATION_FAILED"))
      (js "Operation failed.")
      ((op.error.map OperationError.retryable).getD
        (retryableCodes.contains (code (js "OPERATION_FAILED"))))))
  | .cancelled => .rejected (.abortedError (message (js "Operation cancelled.")))
  | .timedOut =>
    .rejected (.structuredError
      { code := js "OPERATION_TIMEOUT", category := .timeout
        message := message (js "Operation exceeded its deadline.")
        retryable := true, operation := some op.id })
  | _ =>
    .rejected (.structuredError
      { pinoutStructuredError (js "OPERATION_REJECTED") .operation
          (message (js "Operation was rejected before start.")) with operation := some op.id })

/-- What a call that waits for an operation gets from its snapshot. -/
def answer (kind : WaiterKind) (op : OperationSnapshot) : Answer :=
  if kind = .waitForResult then deliver op else .snapshot op

inductive Effect
  | event (e : OperationEvent)
  | invoked (operationId : JsString) (address : Nat)
  | answered (waiter : Waiter) (answer : Answer)
  | began (deduped : Bool) (operationId : JsString)
  /-- A call throws a structured error. -/
  | threw (error : StructuredError)
  /-- Reading a field of an operation that is not in the map throws a `TypeError`. -/
  | typeError (operationId : JsString)

/-! ## Conclusions -/

/-- A move to a terminal status, with the event that reports it. -/
structure Conclusion where
  status : OperationStatus
  terminal : status.isTerminal = true
  result : Option JsonObject := none
  error : Option OperationError := none
  kind : OperationEventKind
  data : JsonObject := []

namespace Conclusion

/-- The `error` field of an event. -/
def errorField (e : OperationError) : JsonObject := [(js "error", e.toJson)]

/-- `cancel` of a queued operation. -/
def cancelledBeforeStart (reason : Option JsString) : Conclusion where
  status := .cancelled
  terminal := rfl
  error := some
    { code := js "OPERATION_CANCELLED", message := reason.getD (js "Cancelled before start.")
      retryable := false
      details := some (.obj [(js "stopConfirmed", .bool true), (js "queued", .bool true)]) }
  kind := .cancelled
  data := field? (js "reason") (reason.map .str) ++ [(js "stopConfirmed", .bool true)]

def timedOut : Conclusion :=
  let error : OperationError :=
    { code := js "OPERATION_TIMEOUT", message := js "Operation exceeded its deadline."
      retryable := true }
  { status := .timedOut, terminal := rfl, error := some error, kind := .timedOut
    data := errorField error }

/-- `beforeDispatch` threw. -/
def abortedBeforeDispatch (thrown : Thrown) : Conclusion where
  status := .aborted
  terminal := rfl
  error := some
    { code := js "OPERATION_ABORTED_BEFORE_DISPATCH", message := thrown.text, retryable := false }
  kind := .aborted

/-- `afterDispatchBeforeAck` threw. -/
def requiresReconciliation (thrown : Thrown) : Conclusion where
  status := .requiresReconciliation
  terminal := rfl
  error := some
    { code := js "OPERATION_REQUIRES_RECONCILIATION", message := thrown.text, retryable := false }
  kind := .uncertain

def completed (result : JsonObject) : Conclusion where
  status := .completed
  terminal := rfl
  result := some result
  kind := .completed
  data := [(js "result", .obj result)]

def stopUnconfirmed (thrown : Thrown) : Conclusion :=
  let error : OperationError :=
    { code := js "OPERATION_STOP_UNCONFIRMED"
      message := thrown.message?.getD
        (js "Cancellation requested but device failed to confirm stop.")
      retryable := false, details := some (.obj [(js "stopConfirmed", .bool false)]) }
  { status := .stopUnconfirmed, terminal := rfl, error := some error, kind := .stopUnconfirmed
    data := (js "reason", .str thrown.text) :: errorField error }

def cancelled (thrown : Thrown) : Conclusion :=
  let error : OperationError :=
    { code := js "OPERATION_CANCELLED", message := js "Operation cancelled.", retryable := true
      details := some (.obj [(js "stopConfirmed", .bool true)]) }
  { status := .cancelled, terminal := rfl, error := some error, kind := .cancelled
    data := (js "reason", .str thrown.text) :: errorField error }

/-- The run failed after its cancellation was requested. -/
def stopFailed (structured : StructuredError) : Conclusion :=
  let error : OperationError :=
    { code := js "OPERATION_STOP_UNCONFIRMED"
      message := js "Cancellation requested but device failed: " ++ structured.message
      retryable := false
      details := some
        (.obj [(js "stopConfirmed", .bool false), (js "cause", structured.toJson)]) }
  { status := .stopUnconfirmed, terminal := rfl, error := some error, kind := .stopUnconfirmed
    data := (js "code", .str (js "OPERATION_STOP_UNCONFIRMED")) :: errorField error }

def failed (structured : StructuredError) : Conclusion :=
  let error : OperationError :=
    { code := structured.code, message := structured.message, retryable := structured.retryable
      details := if structured.details = [] then none else some (.obj structured.details) }
  { status := .failed, terminal := rfl, error := some error, kind := .failed
    data := (js "code", .str structured.code) :: errorField error }

end Conclusion

/-- `StopUnconfirmedError`, by class, by name or by code. -/
def isStopUnconfirmed (thrown : Thrown) : Bool :=
  thrown.name? = some (js "StopUnconfirmedError") || thrown.code? = some (js "STOP_UNCONFIRMED")

def isAbortError (thrown : Thrown) : Bool := thrown.name? = some (js "AbortError")

/-- The `catch` clause around the run. -/
def LiveOperation.rejection (op : LiveOperation) (thrown : Thrown) : Conclusion :=
  let structured := toStructuredError thrown op.deviceId op.capability op.id
  if op.aborted = some true then
    if isStopUnconfirmed thrown then .stopUnconfirmed thrown
    else if thrown.isAbortedError || isAbortError thrown then .cancelled thrown
    else .stopFailed structured
  else .failed structured

/-- The fields `transition` writes. -/
def LiveOperation.concluded (op : LiveOperation) (c : Conclusion) (now : Int) : LiveOperation :=
  { op with
    status := c.status
    finishedAt := some now
    result := (c.result.map Json.obj).or op.result
    error := c.error.or op.error }

/-- The patch `transition` makes to the tombstone. -/
def Conclusion.patch (c : Conclusion) : TombstonePatch :=
  ⟨c.status, c.result.map Json.obj, c.error⟩

/-! ## State -/

/-- The state of an `OperationManager`, with the clock and the trace. -/
structure OperationManager where
  retentionMs : Int := 86400000
  maxOperations : Nat := 10000
  heap : List LiveOperation := []
  operations : InsertionMap JsString Nat := .empty
  waiters : InsertionMap JsString (List Waiter) := .empty
  sequence : Nat := 0
  idempotencyStore : IdempotencyStore := {}
  now : Int := 0
  trace : List Effect := []

/-- The loop of `retainOperations`: drop from the front what is terminal while there are more than
`maxOperations`. -/
def dropOldest {α : Type} (terminal : α → Bool) (maxOperations : Nat) : List α → List α
  | [] => []
  | e :: rest =>
    if maxOperations < (e :: rest).length then
      if terminal e then dropOldest terminal maxOperations rest else e :: rest
    else e :: rest

theorem dropOldest_suffix {α : Type} (terminal : α → Bool) (maxOperations : Nat) (l : List α) :
    dropOldest terminal maxOperations l <:+ l := by
  induction l with
  | nil => exact List.suffix_refl []
  | cons e rest ih =>
    unfold dropOldest
    split
    · split
      · exact ih.trans (List.suffix_cons e rest)
      · exact List.suffix_refl _
    · exact List.suffix_refl _

namespace OperationManager

/-- `operations.get(id)`, with the address. -/
def find? (s : OperationManager) (operationId : JsString) : Option (Nat × LiveOperation) :=
  (s.operations.get? operationId).bind fun address => s.heap[address]?.map fun op => (address, op)

/-- `get(operationId)`. -/
def get? (s : OperationManager) (operationId : JsString) : Option OperationSnapshot :=
  (s.find? operationId).map fun e => e.2.toOperationSnapshot

def update (s : OperationManager) (address : Nat) (op : LiveOperation) : OperationManager :=
  { s with heap := s.heap.set address op }

def effect (s : OperationManager) (e : Effect) : OperationManager :=
  { s with trace := s.trace ++ [e] }

/-- The event `emit` makes of an operation. -/
def eventOf (s : OperationManager) (kind : OperationEventKind) (op : LiveOperation)
    (data : JsonObject) : OperationEvent :=
  { kind, operationId := op.id, deviceId := op.deviceId, capability := op.capability, at_ := s.now
    data }

def emit (s : OperationManager) (kind : OperationEventKind) (op : LiveOperation)
    (data : JsonObject) : OperationManager :=
  s.effect (.event (s.eventOf kind op data))

/-- `idempotencyStore.updateUnder` for an operation that has a key. -/
def patchStore (s : OperationManager) (op : LiveOperation) (patch : TombstonePatch) :
    OperationManager :=
  { s with
    idempotencyStore := op.scopedKey?.elim s.idempotencyStore fun scopedKey =>
      s.idempotencyStore.updateUnder scopedKey patch s.now }

/-- Whether `retainOperations` deletes an entry for its age. -/
def aged (s : OperationManager) (e : JsString × Nat) : Bool :=
  s.heap[e.2]?.any fun op => op.status.isTerminal &&
    op.finishedAt.any fun finishedAt => s.retentionMs < s.now - finishedAt

/-- Whether `retainOperations` may delete an entry when there are too many. -/
def droppable (s : OperationManager) (e : JsString × Nat) : Bool :=
  s.heap[e.2]?.all fun op => op.status.isTerminal

def retainOperations (s : OperationManager) : OperationManager :=
  let kept := s.operations.filter fun e => !s.aged e
  { s with
    operations := kept.restrict (dropOldest s.droppable s.maxOperations kept.entries)
      (dropOldest_suffix _ _ _).sublist }

def transition (s : OperationManager) (address : Nat) (op : LiveOperation) (c : Conclusion) :
    OperationManager :=
  ((s.update address (op.concluded c s.now)).patchStore op c.patch).retainOperations

def settle (s : OperationManager) (operationId : JsString) : OperationManager :=
  match s.find? operationId with
  | none => s.effect (.typeError operationId)
  | some (_, op) =>
    if op.status.isTerminal then
      { s with
        waiters := s.waiters.erase operationId
        trace := s.trace ++ ((s.waiters.get? operationId).getD []).map fun waiter =>
          .answered waiter (answer waiter.kind op.toOperationSnapshot) }
    else s

/-- `transition`, `emit` and `settle`, as every move to a terminal status goes; `op` is the object
with what the caller has written to it already. -/
def conclude (s : OperationManager) (address : Nat) (op : LiveOperation) (c : Conclusion) :
    OperationManager :=
  (s.transition address op c).emit c.kind op c.data |>.settle op.id

def register (s : OperationManager) (operationId : JsString) (waiter : Waiter) :
    OperationManager :=
  { s with
    waiters := s.waiters.insert operationId
      ((s.waiters.get? operationId).getD [] ++ [waiter]) }

/-! ## Calls -/

/-- `OPERATION_NOT_FOUND`. -/
def notFound (operationId : JsString) : StructuredError :=
  { pinoutStructuredError (js "OPERATION_NOT_FOUND") .operation
      (js "Unknown operation '" ++ operationId ++ js "'.") with operation := some operationId }

/-- `OPERATION_NOT_UNCERTAIN`. -/
def notUncertain (operationId : JsString) (status : OperationStatus) : StructuredError :=
  { pinoutStructuredError (js "OPERATION_NOT_UNCERTAIN") .operation
      (js "Operation '" ++ operationId ++ js "' is in status '" ++ status.text ++
        js "' and does not require reconciliation.") with
    operation := some operationId
    details := [(js "status", .str status.text)] }

/-- `OPERATION_INVALID_PROGRESS`. -/
def invalidProgress : StructuredError :=
  pinoutStructuredError (js "OPERATION_INVALID_PROGRESS") .operation
    (js "Progress fraction must be within [0, 1] or null.")

/-- The id of a new operation: `op_<sequence>_<randomId()>`. -/
def operationId (sequence : Nat) (randomId : JsString) : JsString :=
  js "op_" ++ decimal sequence ++ 95 :: randomId

/-- The number in an id, as `/^op_(\d+)_/` matches it. -/
def sequenceOf? (operationId : JsString) : Option Nat :=
  let rest := operationId.drop 3
  let digits := rest.takeWhile isDigit
  if (js "op_").isPrefixOf operationId ∧ digits ≠ [] ∧ (rest.dropWhile isDigit).head? = some 95 then
    some (parseDecimal digits)
  else none

theorem sequenceOf?_operationId (sequence : Nat) (randomId : JsString) :
    sequenceOf? (operationId sequence randomId) = some sequence := by
  have hdigits : ∀ u ∈ decimal sequence, isDigit u = true := fun u hu => isDigit_of_mem_decimal hu
  have hdrop : (operationId sequence randomId).drop 3 = decimal sequence ++ 95 :: randomId := rfl
  have htake : (decimal sequence ++ 95 :: randomId).takeWhile isDigit = decimal sequence := by
    rw [List.takeWhile_append_of_pos hdigits]
    show decimal sequence ++ [] = decimal sequence
    rw [List.append_nil]
  have hrest : (decimal sequence ++ 95 :: randomId).dropWhile isDigit = 95 :: randomId := by
    rw [List.dropWhile_append_of_pos hdigits]
    rfl
  have hprefix : (js "op_").isPrefixOf (operationId sequence randomId) = true := rfl
  unfold sequenceOf?
  simp only [hdrop, htake, hrest, hprefix]
  rw [if_pos ⟨trivial, decimal_ne_nil sequence, rfl⟩, parseDecimal_decimal]

/-- The delay `setTimeout` uses: one that is not within 1 and 2^31 - 1 becomes 1, and one that is not a whole number
is truncated. -/
def timerDelay (ms : ℚ) : Int := if 1 ≤ ms ∧ ms ≤ 2147483647 then ⌊ms⌋ else 1

def deadlineOf (s : OperationManager) (options : BeginOperationOptions) : Option ℚ :=
  options.deadline.or (options.timeoutMs.map ((s.now : ℚ) + ·))

/-- The object `begin` makes, as `start` leaves it: its microtask queued and its timer armed. -/
def queued (s : OperationManager) (options : BeginOperationOptions) (randomId : JsString) :
    LiveOperation :=
  let deadline := s.deadlineOf options
  { id := operationId (s.sequence + 1) randomId
    deviceId := options.deviceId
    capability := options.capability
    status := .queued
    idempotencyKey := options.key?
    owner := options.owner
    createdAt := s.now
    deadline
    aborted := some false
    phase := .microtask
    deadlineTimer := deadline.map fun d => s.now + timerDelay (max 0 (d - s.now))
    beforeDispatch := options.beforeDispatch
    afterDispatchBeforeAck := options.afterDispatchBeforeAck }

/-- The data of `operation.requested`. -/
def requestedData (options : BeginOperationOptions) : JsonObject :=
  field? (js "idempotencyKey") (options.idempotencyKey.map .str) ++
    field? (js "owner") (options.owner.map .str) ++ [(js "capability", .str options.capability)]

def tombstoneOf (op : LiveOperation) (key : JsString) : IdempotencyTombstone :=
  { operationId := op.id, deviceId := op.deviceId, capability := op.capability, owner := op.owner
    idempotencyKey := key, status := .queued, createdAt := op.createdAt, lastUsedAt := op.createdAt }

/-- The scoped key an operation would be begun under. -/
def scopedKeyFor (options : BeginOperationOptions) (key : JsString) : JsString :=
  IdempotencyStore.keyFor options.deviceId options.capability options.owner key

/-- `begin` past the lookup: a new operation. -/
def openNew (s : OperationManager) (options : BeginOperationOptions) (randomId : JsString) :
    OperationManager :=
  let op := s.queued options randomId
  let s' := { s with
    sequence := s.sequence + 1
    heap := s.heap ++ [op]
    operations := s.operations.insert op.id s.heap.length }.emit .requested op
      (requestedData options)
  { s' with
    idempotencyStore := options.key?.elim s.idempotencyStore fun key =>
      s.idempotencyStore.recordUnder (scopedKeyFor options key) (tombstoneOf op key) s.now }
    |>.effect (.began false op.id)

/-- The object made from a tombstone whose operation is no longer in the map. -/
def restoredFrom (tombstone : IdempotencyTombstone) : LiveOperation :=
  { id := tombstone.operationId
    deviceId := tombstone.deviceId
    capability := tombstone.capability
    status := tombstone.status
    idempotencyKey := some tombstone.idempotencyKey
    owner := tombstone.owner
    createdAt := tombstone.createdAt
    finishedAt := some tombstone.lastUsedAt
    result := tombstone.result
    error := tombstone.error }

/-- `begin` when the lookup hits: the operation that is in the map, or one restored from the
tombstone. -/
def dedupe (s : OperationManager) (tombstone : IdempotencyTombstone) : OperationManager :=
  if s.operations.contains tombstone.operationId then
    s.effect (.began true tombstone.operationId)
  else
    { s with
      heap := s.heap ++ [restoredFrom tombstone]
      operations := s.operations.insert tombstone.operationId s.heap.length }
      |>.effect (.began true tombstone.operationId)

def begin_ (s : OperationManager) (options : BeginOperationOptions) (randomId : JsString) :
    OperationManager :=
  match options.key? with
  | none => s.openNew options randomId
  | some key =>
    match s.idempotencyStore.lookup (scopedKeyFor options key) s.now with
    | (idempotencyStore, some tombstone) => { s with idempotencyStore }.dedupe tombstone
    | (idempotencyStore, none) => { s with idempotencyStore }.openNew options randomId

def cancel (s : OperationManager) (operationId : JsString) (reason : Option JsString)
    (token : Nat) : OperationManager :=
  match s.find? operationId with
  | none => s.effect (.threw (notFound operationId))
  | some (address, op) =>
    if op.status.isTerminal then
      s.effect (.answered ⟨.cancel, token⟩ (.snapshot op.toOperationSnapshot))
    else if op.status = .queued then
      let c := Conclusion.cancelledBeforeStart reason
      let t := s.conclude address op c
      -- `settle` throws when retention has already dropped the operation
      if t.operations.contains op.id then
        t.effect (.answered ⟨.cancel, token⟩ (.snapshot (op.concluded c s.now).toOperationSnapshot))
      else t
    else
      s.update address
        { op with
          status := .cancelling
          cancelRequestedAt := some s.now
          aborted := op.aborted.map fun _ => true }
        |>.register op.id ⟨.cancel, token⟩

/-- `waitFor`, `waitForResult` and the wait of `progress()`. -/
def wait (s : OperationManager) (kind : WaiterKind) (operationId : JsString) (token : Nat) :
    OperationManager :=
  match s.find? operationId with
  | none =>
    if kind = .waitForResult then s.effect (.typeError operationId)
    else s.effect (.threw (notFound operationId))
  | some (_, op) =>
    if op.status.isTerminal then
      s.effect (.answered ⟨kind, token⟩ (answer kind op.toOperationSnapshot))
    else s.register op.id ⟨kind, token⟩

/-- The fields `reconcile` writes. -/
def reconciledBy (op : LiveOperation) (options : ReconcileOptions) (now : Int) : LiveOperation :=
  let details : Option Json :=
    some (.obj ((js "resolution", .str options.resolution.text) ::
      textField (js "actor") options.actor))
  let op := { op with
    reconciled := true
    reconciliation := some
      { resolution := some options.resolution, note := options.note, actor := options.actor
        reconciledAt := now }
    finishedAt := some now }
  match options.resolution with
  | .observedComplete =>
    { op with
      status := .completed
      result := some (.obj (options.result.getD
        ([(js "reconciled", .bool true), (js "resolution", .str (js "observedComplete"))] ++
          textField (js "note") options.note)))
      error := none }
  | .observedNotDone =>
    { op with
      status := .cancelled
      error := some
        { code := js "OPERATION_RECONCILED_NOT_DONE"
          message := options.note.getD (js "Reconciled as not done by operator.")
          retryable := false, details } }
  | .abandoned =>
    { op with
      status := .failed
      error := some
        { code := js "OPERATION_ABANDONED"
          message := options.note.getD (js "Operation abandoned during reconciliation.")
          retryable := false, details } }

/-- The data of `operation.reconciled`. -/
def reconciledData (op : LiveOperation) (options : ReconcileOptions) : JsonObject :=
  (js "resolution", .str options.resolution.text) ::
    (field? (js "note") (options.note.map .str) ++ field? (js "actor") (options.actor.map .str) ++
      (js "status", .str op.status.text) ::
        (field? (js "result") op.result ++
          field? (js "error") (op.error.map OperationError.toJson)))

/-- `reconcile` of an operation that needs it. -/
def reconcileAt (s : OperationManager) (address : Nat) (op : LiveOperation)
    (options : ReconcileOptions) : OperationManager :=
  let op' := reconciledBy op options s.now
  ((s.update address op').patchStore op ⟨op'.status, op'.result.filter Json.truthy, op'.error⟩)
    |>.emit .reconciled op' (reconciledData op' options)
    |>.settle op.id
    |>.retainOperations

def reconcile (s : OperationManager) (operationId : JsString) (options : ReconcileOptions) :
    OperationManager :=
  match s.find? operationId with
  | none => s.effect (.threw (notFound operationId))
  | some (address, op) =>
    if op.status.isUncertain then s.reconcileAt address op options
    else s.effect (.threw (notUncertain operationId op.status))

/-! ## Callbacks -/

def deadline (s : OperationManager) (address : Nat) (op : LiveOperation) : Option OperationManager :=
  op.deadlineTimer.bind fun due =>
    if s.now < due then none
    else if op.status = .running then
      let op' := { op with aborted := op.aborted.map fun _ => true, deadlineTimer := none }
      some (s.conclude address op' .timedOut)
    else some (s.update address { op with deadlineTimer := none })

/-- The object when the microtask has returned. -/
def finish (op : LiveOperation) : LiveOperation :=
  { op with phase := .finished, deadlineTimer := none }

/-- The microtask of `start` runs up to the `await` on `beforeDispatch`. -/
def microtask (s : OperationManager) (address : Nat) (op : LiveOperation) : Option OperationManager :=
  match op.phase with
  | .microtask =>
    if op.status.isTerminal then
      some (s.update address (finish op))
    else some (s.update address { op with phase := .beforeDispatch })
  | _ => none

/-- The `await` on `beforeDispatch` returns, and the run is invoked. -/
def dispatched (s : OperationManager) (address : Nat) (op : LiveOperation) : Option OperationManager :=
  match op.phase with
  | .beforeDispatch =>
    let op' := { op with status := .running, startedAt := some s.now, phase := .running }
    some ((s.update address op').emit .started op' [] |>.effect (.invoked op.id address))
  | _ => none

/-- The `await` on a `beforeDispatch` hook throws. -/
def beforeDispatchRejected (s : OperationManager) (address : Nat) (op : LiveOperation)
    (thrown : Thrown) : Option OperationManager :=
  match op.phase with
  | .beforeDispatch =>
    if op.beforeDispatch then
      some (s.conclude address (finish op) (.abortedBeforeDispatch thrown))
    else none
  | _ => none

/-- The run calls `reportProgress`. -/
def report (s : OperationManager) (address : Nat) (op : LiveOperation) (fraction : Option ℚ)
    (message : Option JsString) : Option OperationManager :=
  if op.phase.isDispatched then
    if op.status.isTerminal then some s
    else if fraction.any fun f => f < 0 ∨ 1 < f then some (s.effect (.threw invalidProgress))
    else
      let op' := { op with progress := some { fraction, message, at_ := s.now } }
      some ((s.update address op').emit .progress op'
        ((js "fraction", fraction.elim .null .num) :: field? (js "message") (message.map .str)))
  else none

/-- The `await` on the run returns. -/
def runResolved (s : OperationManager) (address : Nat) (op : LiveOperation) (result : JsonObject) :
    Option OperationManager :=
  match op.phase with
  | .running =>
    if op.status.isTerminal then some (s.update address (finish op))
    else some (s.update address { op with phase := .afterRun result })
  | _ => none

/-- The `await` on the run throws. -/
def runRejected (s : OperationManager) (address : Nat) (op : LiveOperation) (thrown : Thrown) :
    Option OperationManager :=
  match op.phase with
  | .running =>
    if op.status.isTerminal then some (s.update address (finish op))
    else some (s.conclude address (finish op) (op.rejection thrown))
  | _ => none

/-- The `await` on `afterDispatchBeforeAck` returns. -/
def acknowledged (s : OperationManager) (address : Nat) (op : LiveOperation) :
    Option OperationManager :=
  match op.phase with
  | .afterRun result =>
    some (s.conclude address (finish op) (.completed result))
  | _ => none

/-- The `await` on an `afterDispatchBeforeAck` hook throws. -/
def afterDispatchRejected (s : OperationManager) (address : Nat) (op : LiveOperation)
    (thrown : Thrown) : Option OperationManager :=
  match op.phase with
  | .afterRun _ =>
    if op.afterDispatchBeforeAck then
      some (s.conclude address (finish op) (.requiresReconciliation thrown))
    else none
  | _ => none

/-! ## The machine -/

/-- The labels: calls, and callbacks of an operation object. -/
inductive Action
  | tick (ms : Nat)
  | begin_ (options : BeginOperationOptions) (randomId : JsString)
  | cancel (operationId : JsString) (reason : Option JsString) (token : Nat)
  | reconcile (operationId : JsString) (options : ReconcileOptions)
  /-- `waitFor(operationId)`, `waitForResult()` or `progress()`. -/
  | wait (kind : WaiterKind) (operationId : JsString) (token : Nat)
  | lookupKey (deviceId capability : JsString) (owner : Option JsString) (key : JsString)
  | removeKey (deviceId capability : JsString) (owner : Option JsString) (key : JsString)
  | deadline (address : Nat)
  | microtask (address : Nat)
  | dispatched (address : Nat)
  | beforeDispatchRejected (address : Nat) (thrown : Thrown)
  | report (address : Nat) (fraction : Option ℚ) (message : Option JsString)
  | runResolved (address : Nat) (result : JsonObject)
  | runRejected (address : Nat) (thrown : Thrown)
  | acknowledged (address : Nat)
  | afterDispatchRejected (address : Nat) (thrown : Thrown)

def callback (s : OperationManager) (address : Nat)
    (f : OperationManager → Nat → LiveOperation → Option OperationManager) : Option OperationManager :=
  s.heap[address]?.bind (f s address)

def step (s : OperationManager) : Action → Option OperationManager
  | .tick ms => some { s with now := s.now + ms }
  | .begin_ options randomId => some (s.begin_ options randomId)
  | .cancel operationId reason token => some (s.cancel operationId reason token)
  | .reconcile operationId options => some (s.reconcile operationId options)
  | .wait kind operationId token => some (s.wait kind operationId token)
  | .lookupKey deviceId capability owner key =>
    let scopedKey := IdempotencyStore.keyFor deviceId capability owner key
    some { s with idempotencyStore := (s.idempotencyStore.lookup scopedKey s.now).1 }
  | .removeKey deviceId capability owner key =>
    let scopedKey := IdempotencyStore.keyFor deviceId capability owner key
    some { s with idempotencyStore := s.idempotencyStore.remove scopedKey }
  | .deadline address => s.callback address deadline
  | .microtask address => s.callback address microtask
  | .dispatched address => s.callback address dispatched
  | .beforeDispatchRejected address thrown =>
    s.callback address fun s address op => s.beforeDispatchRejected address op thrown
  | .report address fraction message =>
    s.callback address fun s address op => s.report address op fraction message
  | .runResolved address result =>
    s.callback address fun s address op => s.runResolved address op result
  | .runRejected address thrown =>
    s.callback address fun s address op => s.runRejected address op thrown
  | .acknowledged address => s.callback address acknowledged
  | .afterDispatchRejected address thrown =>
    s.callback address fun s address op => s.afterDispatchRejected address op thrown

def machine : Machine OperationManager Action := ⟨step⟩

end OperationManager

end Pinout.Operation
