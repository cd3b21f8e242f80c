import Pinout.Foundation.Fallible
import Pinout.Leasing.LeaseManager
import Mathlib.Data.List.Infix

/-! # Leases over scopes of any JSON value

`LeaseManager` trusts the type of a scope, and a scope out of a request body is whatever JSON value
was sent. Here is the manager over such values. It reads a scope property by property: a property of
`null`, or a call of a method that is not there, throws a `TypeError`. A scope that is well formed is
read as its type says (`scopesOverlap_toJson`, `leaseCovers_toJson`). -/

namespace Pinout.Leasing

open Foundation

/-! ## Reading values -/

/-- A `TypeError`. -/
def typeError (message : JsString) : Thrown := .error (js "TypeError") none message

/-- What is thrown is a `TypeError`. -/
def IsTypeError (thrown : Thrown) : Prop := ∃ message, thrown = typeError message

/-- A property of a value that is not `null`; of the names that are read here, only objects have any. -/
def property : Json → JsString → Option Json
  | .obj fields, name => JsonObject.get? fields name
  | _, _ => none

/-- `value.name`. -/
def readProperty (value : Json) (name : JsString) : Except Thrown (Option Json) :=
  match value with
  | .null => .error (typeError (js "Cannot read properties of null (reading '" ++ name ++ js "')"))
  | value => .ok (property value name)

/-- `a === b`: no two objects or arrays are the same. -/
def strictEquals : Option Json → Option Json → Bool
  | none, none => true
  | some .null, some .null => true
  | some (.bool a), some (.bool b) => a = b
  | some (.num a), some (.num b) => a = b
  | some (.str a), some (.str b) => a = b
  | _, _ => false

/-- What calling a method throws that is not there. -/
def notCallable (receiver : Option Json) (source method : JsString) : Thrown :=
  match receiver with
  | none => typeError (js "Cannot read properties of undefined (reading '" ++ method ++ js "')")
  | some .null => typeError (js "Cannot read properties of null (reading '" ++ method ++ js "')")
  | some _ => typeError (source ++ js "." ++ method ++ js " is not a function")

def hasKind (scope : Json) (kind : JsString) : Bool :=
  strictEquals (property scope (js "kind")) (some (.str kind))

def LeaseScopeInput.toJson : LeaseScopeInput → Json
  | .device deviceId => .obj [(js "kind", .str (js "device")), (js "deviceId", .str deviceId)]
  | .capability deviceId capabilities =>
    .obj [(js "kind", .str (js "capability")), (js "deviceId", .str deviceId),
      (js "capabilities", .arr (capabilities.map .str))]

section Includes

variable (numText : ℚ → JsString)

/-- `receiver.includes(item)`: an array has the item, a string has its text. -/
def includes (source : JsString) (receiver : Option Json) (item : Json) : Except Thrown Bool :=
  match receiver with
  | some (.arr items) => .ok (items.any fun other => strictEquals (some other) (some item))
  | some (.str text) =>
    if item.hasText then .ok (item.text numText <:+: text)
    else .error (typeError (js "Cannot convert object to primitive value"))
  | receiver => .error (notCallable receiver source (js "includes"))

end Includes

/-! ## Leases -/

structure StoredLease where
  id : JsString
  mode : LeaseMode
  scope : Json
  owner : JsString
  createdAt : ℚ
  expiresAt : ℚ
  renewable : Bool := true

def StoredLease.withScope (lease : StoredLease) (scope : LeaseScopeInput) : Lease :=
  { lease with scope }

def Lease.stored (lease : Lease) : StoredLease := { lease with scope := lease.scope.toJson }

/-- `LeaseConflictDetails`. -/
structure StoredConflict where
  leaseId : JsString
  owner : JsString
  expiresAt : ℚ
  scope : Json

/-- What `permits` returns. -/
structure StoredVerdict where
  permitted : Bool
  conflict : Option StoredConflict := none

/-- The state of a `LeaseManager`. -/
structure LeaseTable where
  leases : InsertionMap JsString StoredLease := .empty
  sequence : Nat := 0
  maxTtlMs : ℚ := 300000
  now : ℚ := 0

namespace LeaseTable

def leaseCoversDevice (lease : StoredLease) (deviceId : Option Json) : Except Thrown Bool := do
  return strictEquals (← readProperty lease.scope (js "deviceId")) deviceId

section Calls

variable (numText : ℚ → JsString)

def scopesOverlap (a : StoredLease) (b : Json) : Except Thrown Bool := do
  let deviceId ← readProperty b (js "deviceId")
  if !(← leaseCoversDevice a deviceId) then return false
  else if hasKind b (js "device") then return true
  else if hasKind a.scope (js "device") then return true
  else
    match property b (js "capabilities") with
    | some (.arr capabilities) =>
      capabilities.anyM
        (includes numText (js "scope.capabilities") (property a.scope (js "capabilities")))
    | receiver => .error (notCallable receiver (js "b.capabilities") (js "some"))

/-- Whether a lease covers a capability of a device: the two tests `permits` skips a lease by. -/
def leaseCovers (lease : StoredLease) (deviceId capability : JsString) : Except Thrown Bool := do
  if !(← leaseCoversDevice lease (some (.str deviceId))) then return false
  else if hasKind lease.scope (js "capability") then
    includes numText (js "lease.scope.capabilities") (property lease.scope (js "capabilities"))
      (.str capability)
  else return true

def values (t : LeaseTable) : List StoredLease := t.leases.entries.map Prod.snd

def isExpired (t : LeaseTable) (lease : StoredLease) : Bool := lease.expiresAt ≤ t.now

def clampTtl (t : LeaseTable) : TtlMs → ℚ
  | .notFinite => 1
  | .finite ttlMs => if ttlMs < 1 then 1 else min ttlMs t.maxTtlMs

def drainExpired (t : LeaseTable) : LeaseTable × List StoredLease :=
  ({ t with leases := t.leases.filter fun e => !t.isExpired e.2 }, t.values.filter t.isExpired)

def reapExpired (t : LeaseTable) : LeaseTable × Nat :=
  (t.drainExpired.1, t.drainExpired.2.length)

/-- What `acquire` throws over a lease; no error says what a lease covers. -/
def conflictCheck (scope : Json) (mode : LeaseMode) (lease : StoredLease) : Except Thrown Unit := do
  if !(← scopesOverlap numText lease scope) then return ()
  else if lease.mode = .exclusive ∨ mode = .exclusive then
    .error (.structuredError (leaseConflict (lease.withScope (.device []))))
  else return ()

/-- The lease `acquire` makes. -/
def granted (t : LeaseTable) (scope : Json) (owner : JsString) (ttlMs : Option TtlMs)
    (mode : LeaseMode) (random : JsString) : StoredLease :=
  { id := leaseId (t.sequence + 1) random
    mode
    scope
    owner
    createdAt := t.now
    expiresAt := t.now + t.clampTtl (ttlMs.getD LeaseManager.defaultTtlMs) }

def acquire (t : LeaseTable) (scope : Json) (owner : JsString) (ttlMs : Option TtlMs)
    (mode : LeaseMode) (random : JsString) : LeaseTable × Except Thrown StoredLease :=
  let t := t.reapExpired.1
  match t.values.forM (conflictCheck numText scope mode) with
  | .error thrown => (t, .error thrown)
  | .ok () =>
    let lease := t.granted scope owner ttlMs mode random
    ({ t with sequence := t.sequence + 1, leases := t.leases.insert lease.id lease }, .ok lease)

def renew (t : LeaseTable) (leaseId owner : JsString) (ttlMs : Option TtlMs) :
    LeaseTable × Except Thrown StoredLease :=
  match t.leases.get? leaseId with
  | none => (t, .error (.structuredError (leaseExpired leaseId)))
  | some lease =>
    if t.isExpired lease then
      ({ t with leases := t.leases.erase leaseId }, .error (.structuredError (leaseExpired leaseId)))
    else if lease.owner ≠ owner then
      (t, .error (.structuredError (leaseNotOwner leaseId (lease.withScope (.device [])))))
    else
      let lease :=
        { lease with expiresAt := t.now + t.clampTtl (ttlMs.getD LeaseManager.defaultTtlMs) }
      ({ t with leases := t.leases.insert leaseId lease }, .ok lease)

def release (t : LeaseTable) (leaseId owner : JsString) : LeaseTable × Except Thrown Unit :=
  match t.leases.get? leaseId with
  | none => (t, .ok ())
  | some lease =>
    if lease.owner ≠ owner then
      (t, .error (.structuredError (leaseNotOwner leaseId (lease.withScope (.device [])))))
    else ({ t with leases := t.leases.erase leaseId }, .ok ())

def forceRelease (t : LeaseTable) (leaseId : JsString) : LeaseTable :=
  { t with leases := t.leases.erase leaseId }

def get (t : LeaseTable) (leaseId : JsString) : LeaseTable × Option StoredLease :=
  match t.leases.get? leaseId with
  | none => (t, none)
  | some lease =>
    if t.isExpired lease then ({ t with leases := t.leases.erase leaseId }, none)
    else (t, some lease)

/-- The test of `list` on a lease; an empty `owner` or `deviceId` filters nothing. -/
def listed (owner deviceId : JsString) (lease : StoredLease) : Except Thrown Bool := do
  if owner ≠ [] ∧ lease.owner ≠ owner then return false
  else if deviceId = [] then return true
  else leaseCoversDevice lease (some (.str deviceId))

/-- The loop of `list` over the leases that are left. -/
def listFrom (owner deviceId : JsString) : List StoredLease → Except Thrown (List StoredLease)
  | [] => .ok []
  | lease :: leases => do
    let isListed ← listed owner deviceId lease
    let out ← listFrom owner deviceId leases
    return if isListed then lease :: out else out

def list (t : LeaseTable) (owner deviceId : JsString) :
    LeaseTable × Except Thrown (List StoredLease) :=
  let t := t.reapExpired.1
  (t, listFrom owner deviceId t.values)

/-- The loop of `permits` over the leases that are left, with what it has found out so far. -/
def permitsFrom (owner deviceId capability : JsString) (mode : LeaseMode) :
    List StoredLease → Bool → Except Thrown StoredVerdict
  | [], ownerHasRequiredLease => .ok { permitted := ownerHasRequiredLease }
  | lease :: leases, ownerHasRequiredLease => do
    if !(← leaseCovers numText lease deviceId capability) then
      permitsFrom owner deviceId capability mode leases ownerHasRequiredLease
    else if lease.owner = owner then
      permitsFrom owner deviceId capability mode leases
        (ownerHasRequiredLease || (mode = .sharedRead || lease.mode = .exclusive))
    else if mode = .sharedRead ∧ lease.mode = .sharedRead then
      permitsFrom owner deviceId capability mode leases ownerHasRequiredLease
    else
      return {
        permitted := false
        conflict := some
          { leaseId := lease.id, owner := lease.owner, expiresAt := lease.expiresAt
            scope := lease.scope } }

def permits (t : LeaseTable) (owner deviceId capability : JsString) (mode : LeaseMode) :
    LeaseTable × Except Thrown StoredVerdict :=
  let t := t.reapExpired.1
  (t, permitsFrom numText owner deviceId capability mode t.values false)

end Calls

end LeaseTable

/-! ## Well-formed scopes -/

theorem strictEquals_str {value : Option Json} {s : JsString} :
    strictEquals value (some (.str s)) = true ↔ value = some (.str s) := by
  unfold strictEquals
  split <;> simp_all

theorem includes_strings (numText : ℚ → JsString) (source : JsString)
    (capabilities : List JsString) (capability : JsString) :
    includes numText source (some (.arr (capabilities.map .str))) (.str capability) =
      .ok (capabilities.contains capability) := by
  rw [includes, List.any_map, List.contains_eq_any_beq]
  refine congrArg (fun p => Except.ok (capabilities.any p)) ?_
  funext other
  rw [Bool.eq_iff_iff, Function.comp_apply, strictEquals_str, beq_iff_eq]
  simp [eq_comm]

theorem readProperty_deviceId (scope : LeaseScopeInput) :
    readProperty scope.toJson (js "deviceId") = .ok (some (.str scope.deviceId)) := by
  cases scope <;> rfl

/-- The kind of a well-formed scope: it is on a device or on capabilities of one. -/
theorem hasKind_toJson (scope : LeaseScopeInput) :
    hasKind scope.toJson (js "device") = scope.capabilities?.isNone ∧
      hasKind scope.toJson (js "capability") = scope.capabilities?.isSome := by
  cases scope <;> exact ⟨rfl, rfl⟩

theorem property_capabilities (scope : LeaseScopeInput) :
    property scope.toJson (js "capabilities") =
      scope.capabilities?.map fun capabilities => .arr (capabilities.map .str) := by
  cases scope <;> rfl

variable {numText : ℚ → JsString}

theorem anyM_includes_strings (source : JsString) (scope capabilities : List JsString) :
    (capabilities.map Json.str).anyM (includes numText source (some (.arr (scope.map .str)))) =
      .ok (capabilities.any fun capability => scope.contains capability) := by
  induction capabilities with
  | nil => rfl
  | cons capability capabilities ih =>
    rw [List.map_cons, List.anyM_cons, includes_strings, List.any_cons]
    cases scope.contains capability with
    | true => rfl
    | false => exact ih

@[simp] theorem Lease.stored_scope (lease : Lease) : lease.stored.scope = lease.scope.toJson := rfl

namespace LeaseTable

theorem leaseCoversDevice_stored (lease : Lease) (deviceId : JsString) :
    leaseCoversDevice lease.stored (some (.str deviceId)) =
      .ok (Leasing.leaseCoversDevice lease deviceId) := by
  unfold leaseCoversDevice Leasing.leaseCoversDevice
  rw [Lease.stored_scope, readProperty_deviceId]
  rfl

/-- On well-formed scopes, overlap is decided as for `LeaseManager`. -/
theorem scopesOverlap_toJson (a : Lease) (b : LeaseScopeInput) :
    scopesOverlap numText a.stored b.toJson = .ok (Leasing.scopesOverlap a b) := by
  unfold scopesOverlap Leasing.scopesOverlap
  rw [readProperty_deviceId]
  show (leaseCoversDevice a.stored (some (.str b.deviceId)) >>= _) = _
  rw [leaseCoversDevice_stored, Lease.stored_scope, (hasKind_toJson b).1, (hasKind_toJson a.scope).1,
    property_capabilities, property_capabilities]
  cases Leasing.leaseCoversDevice a b.deviceId with
  | false => rfl
  | true =>
    cases b with
    | device => rfl
    | capability _ capabilities =>
      cases a.scope with
      | device => rfl
      | capability _ scope => exact anyM_includes_strings _ scope capabilities

/-- On well-formed scopes, what `permits` asks of a lease is decided as for `LeaseManager`. -/
theorem leaseCovers_toJson (lease : Lease) (deviceId capability : JsString) :
    leaseCovers numText lease.stored deviceId capability =
      .ok (Leasing.leaseCovers lease deviceId capability) := by
  unfold leaseCovers Leasing.leaseCovers
  rw [leaseCoversDevice_stored]
  cases Leasing.leaseCoversDevice lease deviceId with
  | false => rfl
  | true =>
    show (if hasKind lease.stored.scope (js "capability") then _ else _) = _
    rw [Lease.stored_scope, (hasKind_toJson _).2, property_capabilities]
    cases lease.scope with
    | device => rfl
    | capability _ capabilities => exact includes_strings numText (js "lease.scope.capabilities") capabilities capability

end LeaseTable

end Pinout.Leasing
