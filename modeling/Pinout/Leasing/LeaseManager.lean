import Pinout.Errors
import Pinout.Foundation.InsertionMap
import Mathlib.Algebra.Order.Field.Rat

/-! # Resource leases

`LeaseManager` (`packages/core/src/lease/leaseManager.ts`): a lease gives one owner permission to
issue the capabilities in its scope. Leases have a time to live, and expired ones are removed when a
call comes across them. Times are the manager's clock `now`, in milliseconds; a call reads it once. -/

namespace Pinout.Leasing

open Foundation

/-! ## Leases -/

inductive LeaseMode
  | exclusive | sharedRead
  deriving DecidableEq, Repr

def LeaseMode.text : LeaseMode → JsString
  | .exclusive => js "exclusive"
  | .sharedRead => js "shared-read"

theorem LeaseMode.ne_exclusive {mode : LeaseMode} : mode ≠ .exclusive ↔ mode = .sharedRead := by
  cases mode <;> simp

inductive LeaseScopeInput
  | device (deviceId : JsString)
  | capability (deviceId : JsString) (capabilities : List JsString)
  deriving DecidableEq

namespace LeaseScopeInput

def deviceId : LeaseScopeInput → JsString
  | device deviceId => deviceId
  | capability deviceId _ => deviceId

/-- The capabilities of a scope that does not cover the whole device. -/
def capabilities? : LeaseScopeInput → Option (List JsString)
  | device _ => none
  | capability _ capabilities => some capabilities

/-- Two scopes overlap: same device, and one of them covers all of it or they share a capability. -/
def Overlaps (a b : LeaseScopeInput) : Prop :=
  a.deviceId = b.deviceId ∧
    ∀ as ∈ a.capabilities?, ∀ bs ∈ b.capabilities?, ∃ capability, capability ∈ as ∧ capability ∈ bs

theorem Overlaps.symm {a b : LeaseScopeInput} (h : a.Overlaps b) : b.Overlaps a := by
  refine ⟨h.1.symm, fun bs hbs as has => ?_⟩
  obtain ⟨capability, ha, hb⟩ := h.2 as has bs hbs
  exact ⟨capability, hb, ha⟩

/-- Whether a scope covers a capability of a device. -/
def Covers (scope : LeaseScopeInput) (deviceId capability : JsString) : Prop :=
  scope.deviceId = deviceId ∧ ∀ capabilities ∈ scope.capabilities?, capability ∈ capabilities

/-- Scopes that cover the same capability of a device overlap. -/
theorem Covers.overlaps {a b : LeaseScopeInput} {deviceId capability : JsString}
    (ha : a.Covers deviceId capability) (hb : b.Covers deviceId capability) : a.Overlaps b :=
  ⟨ha.1.trans hb.1.symm, fun as has bs hbs => ⟨capability, ha.2 as has, hb.2 bs hbs⟩⟩

end LeaseScopeInput

structure Lease where
  id : JsString
  mode : LeaseMode
  scope : LeaseScopeInput
  owner : JsString
  createdAt : ℚ
  expiresAt : ℚ
  renewable : Bool := true
  deriving DecidableEq

/-- A requested time to live: a number, which may be infinite or not a number. -/
inductive TtlMs
  | finite (ms : ℚ)
  | notFinite
  deriving DecidableEq

/-- `AcquireLeaseOptions`; `acquire` does not read `wait`. -/
structure AcquireLeaseOptions where
  scope : LeaseScopeInput
  owner : JsString
  ttlMs : Option TtlMs := none
  mode : Option LeaseMode := none

structure LeaseConflictDetails where
  leaseId : JsString
  owner : JsString
  expiresAt : ℚ
  scope : LeaseScopeInput
  deriving DecidableEq

/-- What `permits` returns. -/
structure Verdict where
  permitted : Bool
  conflict : Option LeaseConflictDetails := none
  deriving DecidableEq

def leaseCoversDevice (lease : Lease) (deviceId : JsString) : Bool :=
  lease.scope.deviceId = deviceId

def scopesOverlap (a : Lease) (b : LeaseScopeInput) : Bool :=
  leaseCoversDevice a b.deviceId &&
    match b with
    | .device _ => true
    | .capability _ capabilities =>
      match a.scope with
      | .device _ => true
      | .capability _ scope => capabilities.any fun capability => scope.contains capability

theorem scopesOverlap_iff {a : Lease} {b : LeaseScopeInput} :
    scopesOverlap a b = true ↔ a.scope.Overlaps b := by
  unfold scopesOverlap leaseCoversDevice LeaseScopeInput.Overlaps
  rw [Bool.and_eq_true, decide_eq_true_eq]
  refine and_congr_right fun _ => ?_
  cases b with
  | device => simp [LeaseScopeInput.capabilities?]
  | capability _ capabilities =>
    cases a.scope with
    | device => simp [LeaseScopeInput.capabilities?]
    | capability => simp [LeaseScopeInput.capabilities?, and_comm]

/-- Whether a lease covers a capability of a device: the two tests `permits` skips a lease by. -/
def leaseCovers (lease : Lease) (deviceId capability : JsString) : Bool :=
  leaseCoversDevice lease deviceId &&
    match lease.scope with
    | .device _ => true
    | .capability _ capabilities => capabilities.contains capability

theorem leaseCovers_iff {lease : Lease} {deviceId capability : JsString} :
    leaseCovers lease deviceId capability = true ↔ lease.scope.Covers deviceId capability := by
  unfold leaseCovers leaseCoversDevice LeaseScopeInput.Covers
  rw [Bool.and_eq_true, decide_eq_true_eq]
  refine and_congr_right fun _ => ?_
  cases lease.scope <;> simp [LeaseScopeInput.capabilities?]

/-! ## The manager -/

/-- The state of a `LeaseManager`. -/
structure LeaseManager where
  leases : InsertionMap JsString Lease := .empty
  sequence : Nat := 0
  maxTtlMs : ℚ := 300000
  now : ℚ := 0

/-- `` `lease_${sequence}_${random}` ``. -/
def leaseId (sequence : Nat) (random : JsString) : JsString :=
  js "lease_" ++ decimal sequence ++ js "_" ++ random

def leaseConflict (lease : Lease) : StructuredError :=
  { pinoutStructuredError (js "LEASE_CONFLICT") .lease
      (js "Resource is leased by '" ++ lease.owner ++ js "' until lease expiry.") with
    details := [(js "conflictingLeaseId", .str lease.id), (js "owner", .str lease.owner),
      (js "expiresAt", .num lease.expiresAt)] }

def leaseExpired (leaseId : JsString) : StructuredError :=
  { pinoutStructuredError (js "LEASE_EXPIRED") .lease
      (js "Lease '" ++ leaseId ++ js "' is expired or unknown.") with
    retryable := true }

def leaseNotOwner (leaseId : JsString) (lease : Lease) : StructuredError :=
  pinoutStructuredError (js "LEASE_NOT_OWNER") .auth
    (js "Lease '" ++ leaseId ++ js "' belongs to '" ++ lease.owner ++ js "'.")

namespace LeaseManager

def values (m : LeaseManager) : List Lease := m.leases.entries.map Prod.snd

def isExpired (m : LeaseManager) (lease : Lease) : Bool := lease.expiresAt ≤ m.now

def clampTtl (m : LeaseManager) : TtlMs → ℚ
  | .notFinite => 1
  | .finite ttlMs => if ttlMs < 1 then 1 else min ttlMs m.maxTtlMs

def defaultTtlMs : TtlMs := .finite 60000

/-- `drainExpired`: remove the expired leases and return them. -/
def drainExpired (m : LeaseManager) : LeaseManager × List Lease :=
  ({ m with leases := m.leases.filter fun e => !m.isExpired e.2 }, m.values.filter m.isExpired)

def reapExpired (m : LeaseManager) : LeaseManager × Nat :=
  (m.drainExpired.1, m.drainExpired.2.length)

/-- The first lease that conflicts with a request. -/
def conflicting? (m : LeaseManager) (scope : LeaseScopeInput) (mode : LeaseMode) : Option Lease :=
  m.values.find? fun lease =>
    scopesOverlap lease scope && (lease.mode = .exclusive || mode = .exclusive)

/-- The lease `acquire` makes. -/
def granted (m : LeaseManager) (options : AcquireLeaseOptions) (random : JsString) : Lease :=
  { id := leaseId (m.sequence + 1) random
    mode := options.mode.getD .exclusive
    scope := options.scope
    owner := options.owner
    createdAt := m.now
    expiresAt := m.now + m.clampTtl (options.ttlMs.getD defaultTtlMs) }

def acquire (m : LeaseManager) (options : AcquireLeaseOptions) (random : JsString) :
    LeaseManager × Except StructuredError Lease :=
  let m := m.reapExpired.1
  match m.conflicting? options.scope (options.mode.getD .exclusive) with
  | some lease => (m, .error (leaseConflict lease))
  | none =>
    let lease := m.granted options random
    ({ m with sequence := m.sequence + 1, leases := m.leases.insert lease.id lease }, .ok lease)

def renew (m : LeaseManager) (leaseId owner : JsString) (ttlMs : Option TtlMs) :
    LeaseManager × Except StructuredError Lease :=
  match m.leases.get? leaseId with
  | none => (m, .error (leaseExpired leaseId))
  | some lease =>
    if m.isExpired lease then
      ({ m with leases := m.leases.erase leaseId }, .error (leaseExpired leaseId))
    else if lease.owner ≠ owner then (m, .error (leaseNotOwner leaseId lease))
    else
      let lease := { lease with expiresAt := m.now + m.clampTtl (ttlMs.getD defaultTtlMs) }
      ({ m with leases := m.leases.insert leaseId lease }, .ok lease)

def release (m : LeaseManager) (leaseId owner : JsString) :
    LeaseManager × Except StructuredError Unit :=
  match m.leases.get? leaseId with
  | none => (m, .ok ())
  | some lease =>
    if lease.owner ≠ owner then (m, .error (leaseNotOwner leaseId lease))
    else ({ m with leases := m.leases.erase leaseId }, .ok ())

def forceRelease (m : LeaseManager) (leaseId : JsString) : LeaseManager :=
  { m with leases := m.leases.erase leaseId }

def get (m : LeaseManager) (leaseId : JsString) : LeaseManager × Option Lease :=
  match m.leases.get? leaseId with
  | none => (m, none)
  | some lease =>
    if m.isExpired lease then ({ m with leases := m.leases.erase leaseId }, none)
    else (m, some lease)

/-- `list`; an empty `owner` or `deviceId` filters nothing. -/
def list (m : LeaseManager) (owner deviceId : JsString) : LeaseManager × List Lease :=
  let m := m.reapExpired.1
  (m, m.values.filter fun lease =>
    (owner = [] || lease.owner = owner) && (deviceId = [] || leaseCoversDevice lease deviceId))

/-- The loop of `permits` over the leases that are left, with what it has found out so far. -/
def permitsFrom (owner deviceId capability : JsString) (mode : LeaseMode) :
    List Lease → Bool → Verdict
  | [], ownerHasRequiredLease => { permitted := ownerHasRequiredLease }
  | lease :: leases, ownerHasRequiredLease =>
    if !leaseCovers lease deviceId capability then
      permitsFrom owner deviceId capability mode leases ownerHasRequiredLease
    else if lease.owner = owner then
      permitsFrom owner deviceId capability mode leases
        (ownerHasRequiredLease || (mode = .sharedRead || lease.mode = .exclusive))
    else if mode = .sharedRead ∧ lease.mode = .sharedRead then
      permitsFrom owner deviceId capability mode leases ownerHasRequiredLease
    else
      { permitted := false
        conflict := some
          { leaseId := lease.id, owner := lease.owner, expiresAt := lease.expiresAt
            scope := lease.scope } }

def permits (m : LeaseManager) (owner deviceId capability : JsString) (mode : LeaseMode) :
    LeaseManager × Verdict :=
  let m := m.reapExpired.1
  (m, permitsFrom owner deviceId capability mode m.values false)

end LeaseManager

end Pinout.Leasing
