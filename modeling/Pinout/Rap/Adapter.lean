import Pinout.Foundation.Entries
import Pinout.Foundation.Machine
import Pinout.Rap.PendingStore

/-! # The RAP adapter

`RapAdapter` (`packages/rap/src/adapter.ts`): each invocation, duplicate and recovered call is a task that
works on the record of its call, through the journalled store, until a result was handed to
`CallbackDelivery`. What happens between two points where a task waits is one *event*; a crash leaves the
journal, and the requests that are on their way to the daemon. -/

namespace Pinout.Rap

open Foundation

inductive TaskPhase
  /-- `runCall` waits for what an operation other than an invoke asks of the daemon. -/
  | executing
  | invoking (request : Nat)
  | watching (operation : Nat)
  | watchingOnly (operation : Nat)
  | delivering (running : Bool)
  | aborting (running : Bool)
  | finished
  deriving DecidableEq

/-- Whether a task is in `runCall`. -/
def TaskPhase.running : TaskPhase → Bool
  | executing | invoking _ | watching _ => true
  | delivering running | aborting running => running
  | watchingOnly _ | finished => false

structure RapTask where
  object : Nat
  callId : CallId
  phase : TaskPhase

/-- A request of `invokeAccepted`. -/
structure InvokeRequest where
  callId : CallId
  idempotencyKey : JsString
  /-- The operation the daemon has for it, once it has received it. -/
  operation : Option Nat := none

structure DaemonOperation where
  callId : CallId
  idempotencyKey : JsString
  deriving DecidableEq

/-- A result that was handed to `CallbackDelivery`. -/
structure HandedResult where
  callId : CallId
  text : JsString
  computedFor : Option CallId
  deriving DecidableEq

/-- An adapter, with what lasts beyond its process. -/
structure RapAdapter where
  store : PendingStore := {}
  inFlight : List JsString := []
  tasks : List RapTask := []
  recoveryStarted : Bool := false
  requests : List InvokeRequest := []
  operations : List DaemonOperation := []
  handed : List HandedResult := []

/-- How `invokeAccepted` is answered. -/
inductive InvokeAnswer
  | accepted
  /-- With a payload that has no operation; the text is the result. -/
  | noOperation (text : JsString)
  | threw (text : JsString)

inductive RapEvent
  | accept (invocation : RapInvocation)
  | startRecovery
  | crash
  | compact
  | cancelToolCall (callId : CallId)
  | abortCall (key : JsString)
  | note (task : Nat)
  /-- An operation other than an invoke returns, or throws; the text is the result. -/
  | executed (task : Nat) (text : JsString) (threw : Bool)
  | receive (request : Nat)
  | invokeAnswer (task : Nat) (answer : InvokeAnswer)
  | polled (task : Nat)
  /-- `watchOperation` returns, or throws; the text is the result. -/
  | watched (task : Nat) (text : JsString) (threw : Bool)
  | delivered (task : Nat) (ok : Bool) (attempts : Nat)
  | aborted (task : Nat)

namespace RapAdapter

/-! ## Tasks -/

def keyOf (b : RapAdapter) (n : Nat) : JsString := ((b.store.objects[n]?).map PendingCallRecord.key).getD []

/-- A task starts; one in `runCall` is in flight. -/
def track (b : RapAdapter) (n : Nat) (callId : CallId) (phase : TaskPhase) : RapAdapter :=
  { b with
    tasks := b.tasks ++ [⟨n, callId, phase⟩]
    inFlight := if phase.running then b.inFlight ++ [b.keyOf n] else b.inFlight }

def moveOn (b : RapAdapter) (t : Nat) (phase : TaskPhase) : RapAdapter :=
  { b with tasks := b.tasks.modify t fun task => { task with phase } }

/-- A task runs to completion; one in `runCall` is no longer in flight. -/
def finish (b : RapAdapter) (t : Nat) (task : RapTask) : RapAdapter :=
  { b.moveOn t .finished with
    inFlight := if task.phase.running then b.inFlight.filter (· ≠ b.keyOf task.object) else b.inFlight }

/-! ## Results -/

/-- `deliverResult` up to where it waits: the result is recorded and handed to `CallbackDelivery`. -/
def deliverResult (b : RapAdapter) (n : Nat) (r : PendingCallRecord) (text : JsString)
    (computedFor : Option CallId) : RapAdapter :=
  let handed : HandedResult := ⟨r.callId, text, computedFor⟩
  { b with
    store := (b.store.modify n fun r =>
      { r with resultText := some text, computedFor, status := .delivering }).upsertCall n
    handed := b.handed ++ [handed] }

/-- The text `runCall` delivers for a result. -/
def resultText (r : PendingCallRecord) (text : JsString) (threw : Bool) : JsString :=
  if r.cancelled ∧ ¬ threw ∧ ¬ (js "Error:").isPrefixOf text then
    js "Error: cancelled after partial work. " ++ text
  else text

/-! ## Running a call -/

/-- The operations of the toolset other than `pinout__invoke`. -/
def otherOperations : List JsString :=
  [js "pinout__list_devices", js "pinout__describe_device", js "pinout__read_state", js "pinout__snapshot",
    js "pinout__safety_status", js "pinout__dry_run", js "pinout__operation_status",
    js "pinout__cancel_operation", js "pinout__acquire_lease", js "pinout__renew_lease",
    js "pinout__heartbeat", js "pinout__release_lease"]

variable (platform : Platform)

/-- `executeOperation` up to where it waits; where it throws at once, `runCall` delivers that. -/
def executeOperation (b : RapAdapter) (n : Nat) (r : PendingCallRecord) : RapAdapter × TaskPhase :=
  if r.operation = js "pinout__invoke" then
    match r.invokeTarget with
    | .error name =>
      (b.deliverResult n r (js "Error: VALIDATION_ERROR: " ++ name ++ js " must be a non-empty string.")
        (some r.callId), .delivering true)
    | .ok _ =>
      ({ b with requests := b.requests ++ [{ callId := r.callId, idempotencyKey := r.idempotencyKey platform }] },
        .invoking b.requests.length)
  else if r.operation ∈ otherOperations then (b, .executing)
  else (b.deliverResult n r (js "Error: UNKNOWN_OPERATION: Unknown operation '" ++ r.operation ++ js "'.")
    (some r.callId), .delivering true)

/-- `runCall` up to where it waits. -/
def runCall (b : RapAdapter) (n : Nat) (r : PendingCallRecord) : RapAdapter × TaskPhase :=
  if r.key ∈ b.inFlight then (b, .finished)
  else if r.cancelled then
    (b.deliverResult n r (js "Error: tool call cancelled before execution.") (some r.callId),
      .delivering true)
  else
    { b with store := (b.store.modify n fun r => { r with status := .running }).upsertCall n }.executeOperation
      platform n r

/-- `resumeCall` up to where it waits. -/
def resumeCall (b : RapAdapter) (n : Nat) (r : PendingCallRecord) : RapAdapter × TaskPhase :=
  match r.resultText, r.daemonOperationId with
  | some text, none =>
    if r.status ≠ .delivered then (b.deliverResult n r text r.computedFor, .delivering false)
    else b.runCall platform n r
  | some text, some operation =>
    if r.status ≠ .delivered then (b.deliverResult n r text r.computedFor, .delivering false)
    else (b, .watchingOnly operation)
  | none, some operation => (b, .watchingOnly operation)
  | none, none => b.runCall platform n r

def resume (b : RapAdapter) (n : Nat) (callId : CallId) (r : PendingCallRecord) : RapAdapter :=
  (b.resumeCall platform n r).1.track n callId (b.resumeCall platform n r).2

/-- `acceptInvocation` for a call that has no record, or one that is replaced. -/
def acceptNew (b : RapAdapter) (invocation : RapInvocation) : RapAdapter :=
  let n := b.store.objects.length
  let r := PendingCallRecord.ofInvocation invocation
  let stored := { b with
    store := ({ b.store with objects := b.store.objects ++ [r] } : PendingStore).upsertCall n }
  (stored.runCall platform n r).1.track n invocation.callId (stored.runCall platform n r).2

def acceptInvocation (b : RapAdapter) (invocation : RapInvocation) : RapAdapter :=
  match b.store.getCall (rapCallIdempotencyKey invocation.callId) with
  | some (n, r) => match r.resultText with
    | some text =>
      (b.deliverResult n r text r.computedFor).track n invocation.callId (.delivering false)
    | none =>
      if r.isReplaced then b.acceptNew platform invocation
      else b.resume platform n invocation.callId r
  | none => b.acceptNew platform invocation

/-- A call that `startRecovery` resumes. -/
def recover (b : RapAdapter) (n : Nat) : RapAdapter :=
  match b.store.objects[n]? with
  | some r => b.resume platform n r.callId r
  | none => b

def startRecovery (b : RapAdapter) : RapAdapter :=
  if b.recoveryStarted then b
  else b.store.listOpenCalls.foldl (recover platform) { b with recoveryStarted := true }

/-! ## Events -/

def restart (b : RapAdapter) : RapAdapter :=
  { b with store := .load b.store.journal, inFlight := [], tasks := [], recoveryStarted := false }

/-- `cancelToolCall` up to where it waits. -/
def cancelToolCall (b : RapAdapter) (callId : CallId) : RapAdapter :=
  match b.store.getCall (rapCallIdempotencyKey callId) with
  | some (n, _) =>
    { b with store := (b.store.modify n fun r => { r with cancelled := true }).upsertCall n }
  | none => b

/-- What `abortThreadSafety` does to one of the calls. -/
def abortCall (b : RapAdapter) (key : JsString) : RapAdapter :=
  match b.store.getCall key with
  | some (n, r) =>
    if r.status = .accepted ∨ r.status = .running ∨ r.status = .delivering then
      { b with store := (b.store.modify n fun r =>
        { r with cancelled := true, status := .cancelled }).upsertCall n }
    else { b with store := b.store.modify n fun r => { r with cancelled := true } }
  | none => b

/-- The daemon receives a request: it starts an operation, unless it has one for the same key. -/
def receive (b : RapAdapter) (request : Nat) (q : InvokeRequest) : RapAdapter :=
  match b.operations.findIdx? (·.idempotencyKey = q.idempotencyKey) with
  | some operation =>
    { b with requests := b.requests.modify request fun q => { q with operation := some operation } }
  | none =>
    { b with
      operations := b.operations ++ [{ callId := q.callId, idempotencyKey := q.idempotencyKey }]
      requests := b.requests.modify request fun q => { q with operation := some b.operations.length } }

/-- `runCall` goes on with a result. -/
def runResult (b : RapAdapter) (t n : Nat) (r : PendingCallRecord) (text : JsString) (threw : Bool) :
    RapAdapter :=
  (b.deliverResult n r (resultText r text threw) (some r.callId)).moveOn t (.delivering true)

/-- `invokeAccepted` is answered. -/
def hearInvoke (b : RapAdapter) (t n : Nat) (r : PendingCallRecord) (request : Nat) :
    InvokeAnswer → Option RapAdapter
  | .accepted => ((b.requests[request]?).bind InvokeRequest.operation).map fun operation =>
    { b with store := (b.store.modify n fun r =>
      { r with daemonOperationId := some operation }).upsertCall n }.moveOn t (.watching operation)
  | .noOperation text => some (b.runResult t n r text false)
  | .threw text => some (b.runResult t n r text true)

variable (attemptLimit : Nat)

/-- `CallbackDelivery` is done. -/
def hearDelivered (b : RapAdapter) (t : Nat) (task : RapTask) (r : PendingCallRecord) (ok : Bool)
    (attempts : Nat) : RapAdapter :=
  let status : PendingCallStatus := if ok then .delivered else .failed
  let stored := { b with store := (b.store.modify task.object fun r =>
    { r with status, deliveryAttempts := r.deliveryAttempts + attempts }).upsertCall task.object }
  if ¬ ok ∧ attemptLimit ≤ r.deliveryAttempts + attempts then stored.moveOn t (.aborting task.phase.running)
  else stored.finish t task

def taskAt (b : RapAdapter) (t : Nat) : Option (RapTask × PendingCallRecord) :=
  (b.tasks[t]?).bind fun task => (b.store.objects[task.object]?).map fun r => (task, r)

def step (b : RapAdapter) : RapEvent → Option RapAdapter
  | .accept invocation => some (b.acceptInvocation platform invocation)
  | .startRecovery => some (b.startRecovery platform)
  | .crash => some b.restart
  | .compact => some { b with store := b.store.compact }
  | .cancelToolCall callId => some (b.cancelToolCall callId)
  | .abortCall key => some (b.abortCall key)
  | .note t => match b.taskAt t with
    | some (⟨n, _, .executing⟩, _) => some { b with store := b.store.upsertCall n }
    | _ => none
  | .executed t text threw => match b.taskAt t with
    | some (⟨n, _, .executing⟩, r) => some (b.runResult t n r text threw)
    | _ => none
  | .receive request => match b.requests[request]? with
    | some ⟨callId, key, none⟩ => some (b.receive request ⟨callId, key, none⟩)
    | _ => none
  | .invokeAnswer t answer => match b.taskAt t with
    | some (⟨n, _, .invoking request⟩, r) => b.hearInvoke t n r request answer
    | _ => none
  | .polled t => match b.taskAt t with
    | some (⟨n, _, .watching _⟩, r) | some (⟨n, _, .watchingOnly _⟩, r) =>
      match b.store.getCall r.key with
      | some (_, refreshed) =>
        some { b with store := b.store.modify n fun r =>
          { r with cancelled := r.cancelled || refreshed.cancelled } }
      | none => some b
    | _ => none
  | .watched t text threw => match b.taskAt t with
    | some (⟨n, _, .watching _⟩, r) => some (b.runResult t n r text threw)
    | some (⟨n, callId, .watchingOnly operation⟩, _) =>
      some (b.finish t ⟨n, callId, .watchingOnly operation⟩)
    | _ => none
  | .delivered t ok attempts => match b.taskAt t with
    | some (⟨n, callId, .delivering running⟩, r) =>
      some (b.hearDelivered attemptLimit t ⟨n, callId, .delivering running⟩ r ok attempts)
    | _ => none
  | .aborted t => match b.taskAt t with
    | some (⟨n, callId, .aborting running⟩, _) => some (b.finish t ⟨n, callId, .aborting running⟩)
    | _ => none

def machine : Machine RapAdapter RapEvent := ⟨step platform attemptLimit⟩

end RapAdapter

end Pinout.Rap
