import Pinout.Foundation.InsertionMap
import Pinout.Foundation.Json
import Pinout.Foundation.Utf8
import Pinout.Protocol.LineReader

/-! # Calls of the RAP adapter and their keys

The record of a call (`packages/rap/src/types.ts`), the keys it is stored and sent under
(`packages/rap/src/idempotency.ts`), and the journalled store of the records
(`packages/rap/src/pendingStore.ts`). -/

namespace Pinout.Rap

open Foundation

/-! ## Keys -/

/-- `group_id` and `id`. -/
structure CallId where
  groupId : JsString
  id : JsString
  deriving DecidableEq

def rapCallIdempotencyKey (call : CallId) : JsString := call.groupId ++ js ":" ++ call.id

structure Platform where
  sha256 : List UInt8 → JsString
  numText : ℚ → JsString

namespace Platform

variable (platform : Platform)

mutual

def stableStringify : Json → JsString
  | .arr items => js "[" ++ ((stableItems items).intersperse (js ",")).flatten ++ js "]"
  | .obj fields =>
    let sorted := (stableFields fields).mergeSort fun a b => decide (a.1 ≤ b.1)
    js "\x7b" ++ ((sorted.map fun field => quote field.1 ++ js ":" ++ field.2).intersperse (js ",")).flatten ++
      js "\x7d"
  | value => value.stringify platform.numText

def stableItems : List Json → List JsString
  | [] => []
  | item :: items => stableStringify item :: stableItems items

/-- The names and texts of the fields of an object. -/
def stableFields : List (JsString × Json) → List (JsString × JsString)
  | [] => []
  | (name, value) :: fields => (name, stableStringify value) :: stableFields fields

end

def deterministicIdempotencyKey (deviceId capability : JsString) (args : JsonObject) (owner : JsString) :
    JsString :=
  js "auto-" ++ (platform.sha256 (encodeUtf8 (platform.stableStringify
    (.obj [(js "deviceId", .str deviceId), (js "capability", .str capability), (js "args", .obj args),
      (js "owner", .str owner)])))).take 32

/-- A field that is a string with something in it. -/
def filledString (args : JsonObject) (name : JsString) : Option JsString :=
  match Json.string? (args.get? name) with
  | some text => if text = [] then none else some text
  | none => none

def ownerForRapThread (groupId : JsString) (args : JsonObject) : JsString :=
  match filledString args (js "owner"), filledString args (js "threadId"),
      filledString args (js "ownerThreadId") with
  | some owner, _, _ => owner
  | none, some thread, _ => groupId ++ js ":" ++ thread
  | none, none, some thread => groupId ++ js ":" ++ thread
  | none, none, none => groupId

/-- `resolveInvokeIdempotencyKey`, of a physical output. -/
def resolveInvokeIdempotencyKey (call : CallId) (args : JsonObject) (deviceId capability : JsString) :
    JsString :=
  match filledString args (js "idempotencyKey") with
  | some key => key
  | none =>
    if call.groupId ≠ [] ∧ call.id ≠ [] then rapCallIdempotencyKey call
    else platform.deterministicIdempotencyKey deviceId capability
      ((Json.fields? (args.get? (js "args"))).getD []) (ownerForRapThread call.groupId args)

end Platform

/-! ## Records -/

structure RapInvocation where
  callId : CallId
  reference : Option JsString := none
  callbackUrl : JsString
  operation : JsString
  arguments : JsonObject := []

inductive PendingCallStatus
  | accepted | running | delivering | delivered | failed | cancelled
  deriving DecidableEq

/-- `PendingCallRecord`, and for which call its result was computed. -/
structure PendingCallRecord where
  callId : CallId
  reference : Option JsString := none
  callbackUrl : JsString
  operation : JsString
  arguments : JsonObject
  status : PendingCallStatus := .accepted
  daemonOperationId : Option Nat := none
  resultText : Option JsString := none
  computedFor : Option CallId := none
  deliveryAttempts : Nat := 0
  cancelled : Bool := false

namespace PendingCallRecord

def key (r : PendingCallRecord) : JsString := rapCallIdempotencyKey r.callId

/-- Whether `listOpenCalls` lists a call. -/
def isOpen (r : PendingCallRecord) : Bool :=
  r.status = .accepted || r.status = .running || r.status = .delivering ||
    (r.status = .failed && r.deliveryAttempts < 8)

/-- A record that is resumed by watching its operation only. -/
def onlyWatched (r : PendingCallRecord) : Bool := r.resultText.isNone && r.daemonOperationId.isSome

/-- Whether `acceptInvocation` makes a new record in place of this one. -/
def isReplaced (r : PendingCallRecord) : Bool :=
  r.resultText.isNone && !(r.status = .accepted || r.status = .running || r.status = .delivering)

def ofInvocation (invocation : RapInvocation) : PendingCallRecord where
  callId := invocation.callId
  reference := if invocation.reference = some [] then none else invocation.reference
  callbackUrl := invocation.callbackUrl
  operation := invocation.operation
  arguments := invocation.arguments

/-- The required strings of `pinout__invoke`, or the name of the first that is missing. -/
def invokeTarget (r : PendingCallRecord) : Except JsString (JsString × JsString) :=
  match Platform.filledString r.arguments (js "deviceId"),
      Platform.filledString r.arguments (js "capability") with
  | none, _ => .error (js "deviceId")
  | some _, none => .error (js "capability")
  | some deviceId, some capability => .ok (deviceId, capability)

/-- The key under which the call is invoked on the daemon. -/
def idempotencyKey (platform : Platform) (r : PendingCallRecord) : JsString :=
  match r.invokeTarget with
  | .ok (deviceId, capability) =>
    platform.resolveInvokeIdempotencyKey r.callId r.arguments deviceId capability
  | .error _ => []

end PendingCallRecord

/-! ## The store -/

/-- `PendingStore`: the records by key, in memory as references to shared objects and in the journal as
they were last appended. -/
structure PendingStore where
  objects : List PendingCallRecord := []
  calls : InsertionMap JsString Nat := .empty
  journal : InsertionMap JsString PendingCallRecord := .empty

namespace PendingStore

/-- `upsertCall` of an object. -/
def upsertCall (s : PendingStore) (n : Nat) : PendingStore :=
  match s.objects[n]? with
  | some r => { s with calls := s.calls.insert r.key n, journal := s.journal.insert r.key r }
  | none => s

def modify (s : PendingStore) (n : Nat) (f : PendingCallRecord → PendingCallRecord) : PendingStore :=
  { s with objects := s.objects.modify n f }

def getCall (s : PendingStore) (key : JsString) : Option (Nat × PendingCallRecord) :=
  (s.calls.get? key).bind fun n => (s.objects[n]?).map fun r => (n, r)

def listOpenCalls (s : PendingStore) : List Nat :=
  (s.calls.entries.map Prod.snd).filter fun n => (s.objects[n]?).any (·.isOpen)

/-- `compact`: the snapshot holds the objects of the map as they are. -/
def compact (s : PendingStore) : PendingStore :=
  s.calls.entries.foldl (fun s entry => match s.objects[entry.2]? with
    | some r => { s with journal := s.journal.insert entry.1 r }
    | none => s) s

/-- `load`: a new process has an object for each record of the journal. -/
def load (journal : InsertionMap JsString PendingCallRecord) : PendingStore where
  objects := journal.entries.map Prod.snd
  calls := ⟨(journal.entries.map Prod.fst).zipIdx, by
    rw [List.zipIdx_map_fst]
    exact journal.nodup⟩
  journal := journal

end PendingStore

end Pinout.Rap
