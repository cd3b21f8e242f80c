import Pinout.Foundation.Machine
import Pinout.Leasing.LeaseManager

/-! # What a call does to the leases

Conflicts are checked when a lease is acquired, against a table from which every call removes expired
leases at its own moment. `Keeps` says what a call other than a successful `acquire` may do to a
lease: leave it, remove it, or, while it has not expired, move its expiry. `step_cases` says that
every action keeps the leases or adds one that conflicts with none. -/

namespace Pinout.Leasing

open Foundation

theorem leaseId_inj {n m : Nat} {random random' : JsString}
    (h : leaseId n random = leaseId m random') : n = m := by
  have h' : decimal n ++ 95 :: random = decimal m ++ 95 :: random' := by
    simpa [leaseId, js, utf16, List.append_assoc] using h
  exact decimal_append_inj (by decide) (by decide) h'

namespace LeaseManager

variable {m n : LeaseManager} {lease : Lease}

/-! ## Calls and time -/

/-- What can happen to a manager: a call, or the passing of time. -/
inductive Action
  | acquire (options : AcquireLeaseOptions) (random : JsString)
  | renew (leaseId owner : JsString) (ttlMs : Option TtlMs)
  | release (leaseId owner : JsString)
  | forceRelease (leaseId : JsString)
  | get (leaseId : JsString)
  | list (owner deviceId : JsString)
  | permits (owner deviceId capability : JsString) (mode : LeaseMode)
  | reapExpired
  | drainExpired
  | tick (ms : ℚ)

/-- The manager after an action; time does not go backwards. -/
def step (m : LeaseManager) : Action → Option LeaseManager
  | .acquire options random => some (m.acquire options random).1
  | .renew leaseId owner ttlMs => some (m.renew leaseId owner ttlMs).1
  | .release leaseId owner => some (m.release leaseId owner).1
  | .forceRelease leaseId => some (m.forceRelease leaseId)
  | .get leaseId => some (m.get leaseId).1
  | .list owner deviceId => some (m.list owner deviceId).1
  | .permits owner deviceId capability mode => some (m.permits owner deviceId capability mode).1
  | .reapExpired => some m.reapExpired.1
  | .drainExpired => some m.drainExpired.1
  | .tick ms => if 0 ≤ ms then some { m with now := m.now + ms } else none

def machine : Machine LeaseManager Action := ⟨step⟩

def new (maxTtlMs now : ℚ) : LeaseManager := { maxTtlMs, now }

/-! ## What a call does to a lease -/

/-- Every lease of the later table is one of the earlier table but for its expiry, which has moved
only if it had not come yet. -/
structure Keeps (m n : LeaseManager) : Prop where
  now : m.now ≤ n.now
  sequence : n.sequence = m.sequence
  origin : ∀ id lease, n.leases.get? id = some lease → ∃ old, m.leases.get? id = some old ∧
    lease = { old with expiresAt := lease.expiresAt } ∧
    (lease.expiresAt = old.expiresAt ∨ m.isExpired old = false)

/-- A lease that has not expired later had not expired before. -/
theorem Keeps.isExpired (h : Keeps m n) {old : Lease} (hlive : n.isExpired lease = false)
    (hexpires : lease.expiresAt = old.expiresAt ∨ m.isExpired old = false) :
    m.isExpired old = false := by
  rcases hexpires with hsame | hold
  · unfold LeaseManager.isExpired at hlive ⊢
    rw [decide_eq_false_iff_not, not_le] at hlive ⊢
    rw [← hsame]
    exact h.now.trans_lt hlive
  · exact hold

theorem keeps_of_restrict (hnow : m.now ≤ n.now) (hsequence : n.sequence = m.sequence)
    (h : ∀ id lease, n.leases.get? id = some lease → m.leases.get? id = some lease) : Keeps m n where
  now := hnow
  sequence := hsequence
  origin id lease hlease := ⟨lease, h id lease hlease, rfl, Or.inl rfl⟩

theorem keeps_erase (m : LeaseManager) (id : JsString) :
    Keeps m { m with leases := m.leases.erase id } := by
  refine keeps_of_restrict le_rfl rfl fun j lease hlease => ?_
  exact (InsertionMap.get?_filter_eq_some_iff.mp hlease).1

theorem get?_reapExpired {id : JsString} :
    m.reapExpired.1.leases.get? id = some lease ↔
      m.leases.get? id = some lease ∧ m.isExpired lease = false := by
  rw [reapExpired, drainExpired, InsertionMap.get?_filter_eq_some_iff, Bool.not_eq_true']

theorem keeps_reapExpired (m : LeaseManager) : Keeps m m.reapExpired.1 :=
  keeps_of_restrict le_rfl rfl fun _ _ hlease => (get?_reapExpired.mp hlease).1

/-- Renewing keeps every lease; it moves the expiry of one that has not expired. -/
theorem keeps_renew (m : LeaseManager) (id owner : JsString) (ttlMs : Option TtlMs) :
    Keeps m (m.renew id owner ttlMs).1 := by
  unfold renew
  cases hget : m.leases.get? id with
  | none => exact keeps_of_restrict le_rfl rfl fun _ _ hlease => hlease
  | some old =>
    dsimp only
    split
    · exact keeps_erase m id
    · next hlive =>
      split
      · exact keeps_of_restrict le_rfl rfl fun _ _ hlease => hlease
      · refine ⟨le_rfl, rfl, fun j lease hlease => ?_⟩
        rw [InsertionMap.get?_insert] at hlease
        split at hlease
        · next hj =>
          subst hj
          obtain rfl := Option.some.inj hlease
          exact ⟨old, hget, rfl, Or.inr (by simpa using hlive)⟩
        · exact ⟨lease, hlease, rfl, Or.inl rfl⟩

theorem keeps_release (m : LeaseManager) (id owner : JsString) :
    Keeps m (m.release id owner).1 := by
  unfold release
  cases m.leases.get? id with
  | none => exact keeps_of_restrict le_rfl rfl fun _ _ hlease => hlease
  | some old =>
    dsimp only
    split
    · exact keeps_of_restrict le_rfl rfl fun _ _ hlease => hlease
    · exact keeps_erase m id

theorem keeps_get (m : LeaseManager) (id : JsString) : Keeps m (m.get id).1 := by
  unfold get
  cases m.leases.get? id with
  | none => exact keeps_of_restrict le_rfl rfl fun _ _ hlease => hlease
  | some old =>
    dsimp only
    split
    · exact keeps_erase m id
    · exact keeps_of_restrict le_rfl rfl fun _ _ hlease => hlease

/-! ## Calls that name a lease -/

theorem get?_renew_of_ne {id j : JsString} (h : j ≠ id) (owner : JsString) (ttlMs : Option TtlMs) :
    (m.renew id owner ttlMs).1.leases.get? j = m.leases.get? j := by
  unfold renew
  cases m.leases.get? id with
  | none => rfl
  | some old =>
    dsimp only
    split
    · exact InsertionMap.get?_erase_of_ne _ h
    · split
      · rfl
      · exact InsertionMap.get?_insert_of_ne _ _ h

theorem get?_release_of_ne {id j : JsString} (h : j ≠ id) (owner : JsString) :
    (m.release id owner).1.leases.get? j = m.leases.get? j := by
  unfold release
  cases m.leases.get? id with
  | none => rfl
  | some old =>
    dsimp only
    split
    · rfl
    · exact InsertionMap.get?_erase_of_ne _ h

theorem get?_get_of_ne {id j : JsString} (h : j ≠ id) :
    (m.get id).1.leases.get? j = m.leases.get? j := by
  unfold get
  cases m.leases.get? id with
  | none => rfl
  | some old =>
    dsimp only
    split
    · exact InsertionMap.get?_erase_of_ne _ h
    · rfl

theorem get?_renew_self {id : JsString} (hlease : m.leases.get? id = some lease)
    (hexpired : m.isExpired lease = true) (owner : JsString) (ttlMs : Option TtlMs) :
    (m.renew id owner ttlMs).1.leases.get? id = none := by
  simp [renew, hlease, hexpired]

theorem get?_get_self {id : JsString} (hlease : m.leases.get? id = some lease)
    (hexpired : m.isExpired lease = true) : (m.get id).1.leases.get? id = none := by
  simp [get, hlease, hexpired]

theorem get?_release_of_none {id : JsString} (h : m.leases.get? id = none) (owner : JsString) :
    (m.release id owner).1.leases.get? id = none := by
  simp [release, h]

/-! ## What an action does -/

/-- **What an action does**: it keeps the leases, or it is an `acquire` that found no conflict and
adds its lease to the leases that had not expired. -/
theorem step_cases {a : Action} (h : machine.step m a = some n) :
    Keeps m n ∨ ∃ random, ∃ lease : Lease, lease.id = leaseId (m.sequence + 1) random ∧
      m.reapExpired.1.conflicting? lease.scope lease.mode = none ∧
      n = { m.reapExpired.1 with
        sequence := m.sequence + 1
        leases := m.reapExpired.1.leases.insert lease.id lease } := by
  cases a with
  | acquire options random =>
    obtain rfl : (m.acquire options random).1 = n := Option.some.inj h
    unfold acquire
    dsimp only
    split
    · exact Or.inl (keeps_reapExpired m)
    · next hnone => exact Or.inr ⟨random, m.reapExpired.1.granted options random, rfl, hnone, rfl⟩
  | renew id owner ttlMs =>
    obtain rfl : (m.renew id owner ttlMs).1 = n := Option.some.inj h
    exact Or.inl (keeps_renew m id owner ttlMs)
  | release id owner =>
    obtain rfl : (m.release id owner).1 = n := Option.some.inj h
    exact Or.inl (keeps_release m id owner)
  | forceRelease id =>
    obtain rfl : m.forceRelease id = n := Option.some.inj h
    exact Or.inl (keeps_erase m id)
  | get id =>
    obtain rfl : (m.get id).1 = n := Option.some.inj h
    exact Or.inl (keeps_get m id)
  | list owner deviceId =>
    obtain rfl : m.reapExpired.1 = n := Option.some.inj h
    exact Or.inl (keeps_reapExpired m)
  | permits owner deviceId capability mode =>
    obtain rfl : m.reapExpired.1 = n := Option.some.inj h
    exact Or.inl (keeps_reapExpired m)
  | reapExpired =>
    obtain rfl : m.reapExpired.1 = n := Option.some.inj h
    exact Or.inl (keeps_reapExpired m)
  | drainExpired =>
    obtain rfl : m.reapExpired.1 = n := Option.some.inj h
    exact Or.inl (keeps_reapExpired m)
  | tick ms =>
    replace h : (if 0 ≤ ms then some { m with now := m.now + ms } else none) = some n := h
    split at h
    · next hms =>
      obtain rfl := Option.some.inj h
      exact Or.inl (keeps_of_restrict (le_add_of_nonneg_right hms) rfl fun _ _ hlease => hlease)
    · cases h

end LeaseManager

end Pinout.Leasing
