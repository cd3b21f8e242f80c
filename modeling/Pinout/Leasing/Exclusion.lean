import Pinout.Leasing.Steps

/-! # Mutual exclusion of leases

Along every run, overlapping leases that have not expired are shared (`Exclusive`): what keeps the
leases keeps this, and `acquire` adds a lease only when it conflicts with none. So at most one owner
controls a capability (`SingleController`). -/

namespace Pinout.Leasing

open Foundation

namespace LeaseManager

variable {m n : LeaseManager} {lease : Lease}

/-! ## Exclusion -/

/-- Distinct leases that have not expired and overlap are both shared-read. -/
def Exclusive (m : LeaseManager) : Prop :=
  ∀ id id' lease lease', id ≠ id' → m.leases.get? id = some lease →
    m.leases.get? id' = some lease' → m.isExpired lease = false → m.isExpired lease' = false →
    lease.scope.Overlaps lease'.scope → lease.mode = .sharedRead ∧ lease'.mode = .sharedRead

theorem Exclusive.new (maxTtlMs now : ℚ) : (LeaseManager.new maxTtlMs now).Exclusive := by
  intro id id' lease lease' _ hlease
  cases hlease

theorem Exclusive.keeps (h : m.Exclusive) (hkeeps : Keeps m n) : n.Exclusive := by
  intro id id' lease lease' hne hlease hlease' hlive hlive' hoverlap
  obtain ⟨old, hold, hsame, hexpires⟩ := hkeeps.origin id lease hlease
  obtain ⟨old', hold', hsame', hexpires'⟩ := hkeeps.origin id' lease' hlease'
  have hshared := h id id' old old' hne hold hold' (hkeeps.isExpired hlive hexpires)
    (hkeeps.isExpired hlive' hexpires')
  rw [hsame, hsame'] at hoverlap ⊢
  exact hshared hoverlap

/-- When no lease conflicts with a request, what overlaps with it is shared, and so is it. -/
theorem sharedRead_of_conflicting? {scope : LeaseScopeInput} {mode : LeaseMode}
    (h : m.conflicting? scope mode = none) {id : JsString} (hlease : m.leases.get? id = some lease)
    (hoverlap : lease.scope.Overlaps scope) : lease.mode = .sharedRead ∧ mode = .sharedRead := by
  have hmem : lease ∈ m.values :=
    List.mem_map.mpr ⟨(id, lease), InsertionMap.get?_eq_some_iff.mp hlease, rfl⟩
  have hnot := List.find?_eq_none.mp h lease hmem
  rw [scopesOverlap_iff.mpr hoverlap] at hnot
  simpa [LeaseMode.ne_exclusive] using hnot

/-- Adding a lease that conflicts with none keeps the leases exclusive. -/
theorem Exclusive.insert (h : m.Exclusive) {id : JsString}
    (hfree : m.conflicting? lease.scope lease.mode = none) (sequence : Nat) :
    ({ m with sequence := sequence, leases := m.leases.insert id lease } :
      LeaseManager).Exclusive := by
  intro j j' a b hne ha hb hlivea hliveb hoverlap
  replace ha : (m.leases.insert id lease).get? j = some a := ha
  replace hb : (m.leases.insert id lease).get? j' = some b := hb
  rw [InsertionMap.get?_insert] at ha hb
  -- At most one of the two is the new lease.
  split at ha
  · next hj =>
    obtain rfl := Option.some.inj ha
    rw [if_neg (fun hj' => hne (hj.trans hj'.symm))] at hb
    exact (sharedRead_of_conflicting? hfree hb hoverlap.symm).symm
  · split at hb
    · obtain rfl := Option.some.inj hb
      exact sharedRead_of_conflicting? hfree ha hoverlap
    · exact h j j' a b hne ha hb hlivea hliveb hoverlap

theorem Exclusive.step (h : m.Exclusive) {a : Action} (hstep : machine.step m a = some n) :
    n.Exclusive := by
  rcases step_cases hstep with hkeeps | ⟨random, lease, -, hfree, rfl⟩
  · exact h.keeps hkeeps
  · exact (h.keeps (keeps_reapExpired m)).insert hfree _

/-! ## Permission -/

/-- What the loop of `permits` finds: no lease of another owner in the way, and a lease of the owner
that is strong enough. -/
theorem permitsFrom_permitted {owner deviceId capability : JsString} {mode : LeaseMode}
    {leases : List Lease} {found : Bool} :
    (permitsFrom owner deviceId capability mode leases found).permitted = true ↔
      (∀ lease ∈ leases, lease.scope.Covers deviceId capability → lease.owner ≠ owner →
        mode = .sharedRead ∧ lease.mode = .sharedRead) ∧
      (found = true ∨ ∃ lease ∈ leases, lease.scope.Covers deviceId capability ∧
        lease.owner = owner ∧ (mode = .sharedRead ∨ lease.mode = .exclusive)) := by
  induction leases generalizing found with
  | nil => simp [permitsFrom]
  | cons lease leases ih =>
    rw [permitsFrom]
    by_cases hcovers : lease.scope.Covers deviceId capability
    · rw [if_neg (by simp [leaseCovers_iff.mpr hcovers])]
      by_cases howner : lease.owner = owner
      · rw [if_pos howner, ih]
        simp [hcovers, howner, or_assoc]
      · rw [if_neg howner]
        by_cases hshared : mode = .sharedRead ∧ lease.mode = .sharedRead
        · rw [if_pos hshared, ih]
          simp [hcovers, howner, hshared]
        · rw [if_neg hshared]
          simp [hcovers, howner, hshared]
    · rw [if_pos (by simpa using mt leaseCovers_iff.mp hcovers), ih]
      simp [hcovers]

/-- The owner holds a lease on the capability of the device, which has not expired and is strong
enough for the mode. -/
def Holds (m : LeaseManager) (owner deviceId capability : JsString) (mode : LeaseMode) : Prop :=
  ∃ id lease, m.leases.get? id = some lease ∧ m.isExpired lease = false ∧
    lease.scope.Covers deviceId capability ∧ lease.owner = owner ∧
    (mode = .sharedRead ∨ lease.mode = .exclusive)

/-- The leases `permits` looks at are those that have not expired. -/
theorem mem_values_reapExpired :
    lease ∈ m.reapExpired.1.values ↔
      ∃ id, m.leases.get? id = some lease ∧ m.isExpired lease = false := by
  simp only [values, List.mem_map, Prod.exists, exists_eq_right,
    ← InsertionMap.get?_eq_some_iff, get?_reapExpired]

/-- Who is permitted: a holder, unless a lease of another owner is in the way. -/
theorem permits_permitted {owner deviceId capability : JsString} {mode : LeaseMode} :
    (m.permits owner deviceId capability mode).2.permitted = true ↔
      (∀ id lease, m.leases.get? id = some lease → m.isExpired lease = false →
        lease.scope.Covers deviceId capability → lease.owner ≠ owner →
        mode = .sharedRead ∧ lease.mode = .sharedRead) ∧
      m.Holds owner deviceId capability mode := by
  rw [permits, permitsFrom_permitted]
  simp only [mem_values_reapExpired, Bool.false_eq_true, false_or, Holds]
  constructor
  · rintro ⟨hothers, lease, ⟨id, hlease, hlive⟩, hcovers, howner, hmode⟩
    exact ⟨fun j other hother hlive' => hothers other ⟨j, hother, hlive'⟩,
      id, lease, hlease, hlive, hcovers, howner, hmode⟩
  · rintro ⟨hothers, id, lease, hlease, hlive, hcovers, howner, hmode⟩
    refine ⟨?_, lease, ⟨id, hlease, hlive⟩, hcovers, howner, hmode⟩
    rintro other ⟨j, hother, hlive'⟩
    exact hothers j other hother hlive'

/-- While an owner is permitted exclusive access to a capability of a device, which takes an exclusive
lease of its own, no other owner is permitted any access to it. -/
def SingleController (m : LeaseManager) : Prop :=
  ∀ owner deviceId capability,
    (m.permits owner deviceId capability .exclusive).2.permitted = true →
    (∃ id lease, m.leases.get? id = some lease ∧ m.isExpired lease = false ∧
      lease.scope.Covers deviceId capability ∧ lease.owner = owner ∧ lease.mode = .exclusive) ∧
    ∀ other mode, other ≠ owner → (m.permits other deviceId capability mode).2.permitted = false

/-- A permission for exclusive access is one owner's alone. -/
theorem singleController (m : LeaseManager) : m.SingleController := by
  intro owner deviceId capability hpermitted
  obtain ⟨-, id, lease, hlease, hlive, hcovers, howner, hmode⟩ := permits_permitted.mp hpermitted
  have hexclusive : lease.mode = .exclusive := hmode.resolve_left nofun
  refine ⟨⟨id, lease, hlease, hlive, hcovers, howner, hexclusive⟩, fun other mode hother => ?_⟩
  by_contra hnot
  obtain ⟨hothers, -⟩ := permits_permitted.mp (Bool.not_eq_false _ ▸ hnot)
  have hshared := (hothers id lease hlease hlive hcovers (howner ▸ hother.symm)).2
  rw [hexclusive] at hshared
  cases hshared

/-- Where leases are exclusive, holding an exclusive lease is enough to be permitted: nothing of
another owner can be in the way. -/
theorem Exclusive.permitted_iff (h : m.Exclusive) {owner deviceId capability : JsString} :
    (m.permits owner deviceId capability .exclusive).2.permitted = true ↔
      m.Holds owner deviceId capability .exclusive := by
  rw [permits_permitted]
  refine ⟨fun hpermitted => hpermitted.2, fun hholds => ⟨?_, hholds⟩⟩
  obtain ⟨id, lease, hlease, hlive, hcovers, howner, hmode⟩ := hholds
  intro j other hother hlive' hcovers' hne
  have hids : id ≠ j := by
    rintro rfl
    obtain rfl : lease = other := Option.some.inj (hlease.symm.trans hother)
    exact hne howner
  have hshared := h id j lease other hids hlease hother hlive hlive' (hcovers.overlaps hcovers')
  rw [hmode.resolve_left nofun] at hshared
  cases hshared.1

/-! ## Renewal and ownership -/

/-- A lease that has expired, or is not there, is not renewed: the call fails, and the lease is not in
the table afterwards. -/
def RenewsOnlyLive (m : LeaseManager) : Prop :=
  ∀ id owner ttlMs, (∀ lease, m.leases.get? id = some lease → m.isExpired lease = true) →
    (m.renew id owner ttlMs).2 = .error (leaseExpired id) ∧
    (m.renew id owner ttlMs).1.leases.get? id = none

theorem renewsOnlyLive (m : LeaseManager) : m.RenewsOnlyLive := by
  intro id owner ttlMs hexpired
  unfold renew
  cases hget : m.leases.get? id with
  | none => exact ⟨rfl, hget⟩
  | some lease =>
    dsimp only
    rw [if_pos (hexpired lease hget)]
    exact ⟨rfl, InsertionMap.get?_erase_self _ _⟩

/-- A lease is released and renewed by its owner only: a release by another owner leaves the table as
it is, and so does a renewal, unless the lease has expired, which removes it. -/
def OwnersOnly (m : LeaseManager) : Prop :=
  ∀ id owner lease, m.leases.get? id = some lease → lease.owner ≠ owner →
    (m.release id owner).1 = m ∧
    ∀ ttlMs, (m.renew id owner ttlMs).1 =
      if m.isExpired lease then { m with leases := m.leases.erase id } else m

theorem ownersOnly (m : LeaseManager) : m.OwnersOnly := by
  intro id owner lease hlease howner
  refine ⟨by simp [release, hlease, howner], fun ttlMs => ?_⟩
  by_cases hexpired : m.isExpired lease = true <;> simp [renew, hlease, howner, hexpired]

/-! ## Every run -/

/-- **Leases exclude each other.** In every state a manager reaches, whatever was called and whatever
time has passed: overlapping leases that have not expired are shared-read; a capability of a device is
under the exclusive control of one owner at most, and of nobody else then; expired leases are not
renewed; and an owner releases or renews no lease of another. -/
theorem exclusion_of_run (maxTtlMs now : ℚ) (actions : List Action) (m : LeaseManager)
    (hrun : machine.run (new maxTtlMs now) actions = some m) :
    m.Exclusive ∧ m.SingleController ∧ m.RenewsOnlyLive ∧ m.OwnersOnly := by
  have hexclusive : m.Exclusive :=
    machine.run_invariant (fun _ _ _ h hstep => h.step hstep) (Exclusive.new maxTtlMs now) hrun
  exact ⟨hexclusive, m.singleController, m.renewsOnlyLive, m.ownersOnly⟩

/-- A lease on the whole of a device, for one second. -/
def armLease : AcquireLeaseOptions :=
  { scope := .device (js "arm"), owner := js "a", ttlMs := some (.finite 1000) }

/-- A run in which a lease expires and another owner takes its place. -/
theorem exclusion_handover :
    ∃ m, machine.run (new 300000 0) [.acquire armLease (js "x"),
        .acquire { armLease with owner := js "b" } (js "y"), .tick 1000,
        .acquire { armLease with owner := js "b" } (js "z")] = some m ∧
      m.Exclusive ∧ m.SingleController ∧ m.RenewsOnlyLive ∧ m.OwnersOnly := by
  have hsome : (machine.run (new 300000 0) [.acquire armLease (js "x"),
      .acquire { armLease with owner := js "b" } (js "y"), .tick 1000,
      .acquire { armLease with owner := js "b" } (js "z")]).isSome = true := by decide +kernel
  obtain ⟨m, hm⟩ := Option.isSome_iff_exists.mp hsome
  exact ⟨m, hm, exclusion_of_run _ _ _ m hm⟩

/-- **Who may act.** In every state a manager reaches, an owner is permitted exclusive access to a capability of a device
if it holds an exclusive lease on it that has not expired, and only then: nobody else's lease can be in its way. -/
theorem permitted_of_run (maxTtlMs now : ℚ) (actions : List Action) (m : LeaseManager)
    (hrun : machine.run (new maxTtlMs now) actions = some m) (owner deviceId capability : JsString) :
    (m.permits owner deviceId capability .exclusive).2.permitted = true ↔
      m.Holds owner deviceId capability .exclusive :=
  (machine.run_invariant (I := Exclusive) (fun _ _ _ h hstep => h.step hstep) (Exclusive.new maxTtlMs now)
    hrun).permitted_iff

/-- The owner of a lease on the whole arm may move it. -/
theorem permitted_arm : ∃ m, machine.run (new 300000 0) [.acquire armLease (js "x")] = some m ∧
    ((m.permits (js "a") (js "arm") (js "move") .exclusive).2.permitted = true ↔
      m.Holds (js "a") (js "arm") (js "move") .exclusive) :=
  ⟨_, rfl, permitted_of_run 300000 0 [.acquire armLease (js "x")] _ rfl _ _ _⟩

/-- **Another owner can change the table.** Renewing an expired lease of somebody else removes it. -/
theorem not_unchanged_renewExpired :
    ∃ m id lease, machine.run (new 300000 0) [.acquire armLease (js "x"), .tick 1000] = some m ∧
      m.leases.get? id = some lease ∧ lease.owner ≠ js "b" ∧
      (m.renew id (js "b") none).1.leases.get? id = none := by
  have hview : ((machine.run (new 300000 0) [.acquire armLease (js "x"), .tick 1000]).bind fun m =>
      (m.leases.get? (leaseId 1 (js "x"))).map fun lease =>
        m.isExpired lease && decide (lease.owner ≠ js "b")) = some true := by decide +kernel
  obtain ⟨m, hm, hview⟩ := Option.bind_eq_some_iff.mp hview
  obtain ⟨lease, hlease, hview⟩ := Option.map_eq_some_iff.mp hview
  rw [Bool.and_eq_true, decide_eq_true_eq] at hview
  obtain ⟨hexpired, howner⟩ := hview
  refine ⟨m, leaseId 1 (js "x"), lease, hm, hlease, howner, ?_⟩
  simp [renew, hlease, hexpired]

end LeaseManager

end Pinout.Leasing
