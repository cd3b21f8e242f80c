import Pinout.Errors
import Pinout.Journal.Journal

/-! # Operations

The data of the operation lifecycle (`packages/core/src/operation/operationManager.ts`): statuses,
snapshots, the options an operation is begun and reconciled with, and the events it emits. -/

namespace Pinout.Operation

open Foundation

/-- `ExtendedOperationStatus`. -/
inductive OperationStatus
  | queued | running | cancelling | completed | failed | cancelled | timedOut | rejected
  | requiresReconciliation | uncertain | aborted | stopUnconfirmed
  deriving DecidableEq, Repr

def OperationStatus.text : OperationStatus → JsString
  | .queued => js "queued"
  | .running => js "running"
  | .cancelling => js "cancelling"
  | .completed => js "completed"
  | .failed => js "failed"
  | .cancelled => js "cancelled"
  | .timedOut => js "timed_out"
  | .rejected => js "rejected"
  | .requiresReconciliation => js "requires_reconciliation"
  | .uncertain => js "uncertain"
  | .aborted => js "aborted"
  | .stopUnconfirmed => js "stop_unconfirmed"

/-- `isTerminalOperationStatus`. -/
def OperationStatus.isTerminal : OperationStatus → Bool
  | .queued | .running | .cancelling => false
  | _ => true

/-- The statuses `reconcile` starts from. -/
def OperationStatus.isUncertain : OperationStatus → Bool
  | .requiresReconciliation | .uncertain | .stopUnconfirmed => true
  | _ => false

theorem OperationStatus.isTerminal_of_isUncertain {status : OperationStatus}
    (h : status.isUncertain = true) : status.isTerminal = true := by
  cases status <;> first | rfl | exact Bool.noConfusion h

inductive ReconciliationResolution
  | observedComplete | observedNotDone | abandoned
  deriving DecidableEq, Repr

def ReconciliationResolution.text : ReconciliationResolution → JsString
  | .observedComplete => js "observedComplete"
  | .observedNotDone => js "observedNotDone"
  | .abandoned => js "abandoned"

/-- `ReconciliationRecord`. The resolution is absent when a journaled one was lost. -/
structure ReconciliationRecord where
  resolution : Option ReconciliationResolution
  note : Option JsString := none
  actor : Option JsString := none
  reconciledAt : Int

structure ReconcileOptions where
  resolution : ReconciliationResolution
  note : Option JsString := none
  actor : Option JsString := none
  result : Option JsonObject := none

structure OperationProgress where
  fraction : Option ℚ
  message : Option JsString
  at_ : Int

/-- The `error` of a snapshot. -/
structure OperationError where
  code : JsString
  message : JsString
  retryable : Bool
  details : Option Json := none

/-- A value as a field that is left out when there is none. -/
def field? (name : JsString) : Option Json → JsonObject
  | some v => [(name, v)]
  | none => []

/-- An `error` as JSON. -/
def OperationError.toJson (e : OperationError) : Json :=
  .obj ([(js "code", .str e.code), (js "message", .str e.message),
    (js "retryable", .bool e.retryable)] ++ field? (js "details") e.details)

def timeJson (t : Int) : Json := .num (t : ℚ)

/-- `OperationSnapshot`, with the owner `begin` adds. -/
structure OperationSnapshot where
  id : JsString
  deviceId : JsString
  capability : JsString
  status : OperationStatus
  idempotencyKey : Option JsString := none
  owner : Option JsString := none
  createdAt : Int
  deadline : Option ℚ := none
  startedAt : Option Int := none
  cancelRequestedAt : Option Int := none
  finishedAt : Option Int := none
  progress : Option OperationProgress := none
  result : Option Json := none
  error : Option OperationError := none
  reconciled : Bool := false
  reconciliation : Option ReconciliationRecord := none

/-- `BeginOperationOptions`: the scope of the operation, its deadline, and whether it has the two
test hooks. What `run` and the hooks do is up to the environment. -/
structure BeginOperationOptions where
  deviceId : JsString
  capability : JsString
  owner : Option JsString := none
  idempotencyKey : Option JsString := none
  deadline : Option ℚ := none
  timeoutMs : Option ℚ := none
  beforeDispatch : Bool := false
  afterDispatchBeforeAck : Bool := false

/-- A key that counts: `options.idempotencyKey` when it is truthy. -/
def BeginOperationOptions.key? (options : BeginOperationOptions) : Option JsString :=
  options.idempotencyKey.filter fun key => key ≠ []

structure OperationEvent where
  kind : OperationEventKind
  operationId : JsString
  deviceId : JsString
  capability : JsString
  at_ : Int
  data : JsonObject := []

/-- What an operation has come to: the four fields that settle with its status. -/
structure Outcome where
  status : OperationStatus
  result : Option Json
  error : Option OperationError
  finishedAt : Option Int

def OperationSnapshot.outcome (op : OperationSnapshot) : Outcome :=
  ⟨op.status, op.result, op.error, op.finishedAt⟩

end Pinout.Operation
