import Pinout.Leasing.LeaseTable

/-! # Harmless leases

What a stored scope can do to later calls. A lease is `Harmless` when its coverage can be asked about:
then no well-formed call throws a `TypeError` over it. Only a capability scope on a device, with
capabilities that are neither an array nor a string, is not (`harmless_of_listed`), and it makes
`permits` throw (`isTypeError_of_permitsFrom`). What passes a request overlaps with no exclusive lease,
whatever the scopes are (`sharedRead_of_conflictCheck`). -/

namespace Pinout.Leasing.LeaseTable

open Foundation

variable {numText : ℚ → JsString} {t u : LeaseTable} {lease : StoredLease} {scope : Json}
  {deviceId capability : JsString}

/-! ## Reading a scope -/

theorem readProperty_of_some {name : JsString} {value : Json} (h : property scope name = some value) :
    readProperty scope name = .ok (some value) := by
  cases scope <;> first | cases h | exact congrArg Except.ok h

theorem hasKind_device_of_capability (h : hasKind scope (js "capability") = true) :
    hasKind scope (js "device") = false := by
  have hkind : property scope (js "kind") = some (.str (js "capability")) := strictEquals_str.mp h
  rw [hasKind, hkind]
  rfl

theorem leaseCoversDevice_eq_true :
    leaseCoversDevice lease (some (.str deviceId)) = .ok true ↔
      property lease.scope (js "deviceId") = some (.str deviceId) := by
  unfold leaseCoversDevice
  constructor
  · intro h
    obtain ⟨value, hvalue, h⟩ := exists_of_bind_eq_ok h
    obtain rfl := strictEquals_str.mp (Except.ok.inj h)
    cases hscope : lease.scope with
    | null =>
      rw [hscope] at hvalue
      cases hvalue
    | _ =>
      rw [hscope] at hvalue
      exact Except.ok.inj hvalue
  · intro h
    rw [readProperty_of_some h]
    exact congrArg Except.ok (strictEquals_str.mpr rfl)

/-- What `includes` returns does not depend on how the receiver is named in the source. -/
theorem includes_source {source source' : JsString} {receiver : Option Json} {item : Json} {b : Bool}
    (h : includes numText source receiver item = .ok b) :
    includes numText source' receiver item = .ok b := by
  unfold includes at h ⊢
  split at h
  · exact h
  · exact h
  · cases h

theorem leaseCovers_of_kind (hcovers : leaseCoversDevice lease (some (.str deviceId)) = .ok true)
    (hkind : hasKind lease.scope (js "capability") = true) (capability : JsString) :
    leaseCovers numText lease deviceId capability = includes numText (js "lease.scope.capabilities")
      (property lease.scope (js "capabilities")) (.str capability) := by
  unfold leaseCovers
  rw [hcovers, hkind]
  rfl

/-- A lease on no capabilities in particular covers all of its device. -/
theorem leaseCovers_of_not_kind (hcovers : leaseCoversDevice lease (some (.str deviceId)) = .ok true)
    (hkind : hasKind lease.scope (js "capability") = false) (capability : JsString) :
    leaseCovers numText lease deviceId capability = .ok true := by
  unfold leaseCovers
  rw [hcovers, hkind]
  rfl

theorem coversDevice_of_leaseCovers (h : leaseCovers numText lease deviceId capability = .ok true) :
    leaseCoversDevice lease (some (.str deviceId)) = .ok true := by
  obtain ⟨covers, hcovers, h⟩ := exists_of_bind_eq_ok h
  cases covers with
  | false => cases h
  | true => exact hcovers

theorem isTypeError_of_leaseCovers {thrown : Thrown}
    (h : leaseCovers numText lease deviceId capability = .error thrown) : IsTypeError thrown := by
  unfold leaseCovers leaseCoversDevice at h
  cases hread : readProperty lease.scope (js "deviceId") with
  | error thrown' =>
    rw [hread] at h
    obtain rfl : thrown' = thrown := Except.error.inj h
    unfold readProperty at hread
    split at hread
    · exact ⟨_, (Except.error.inj hread).symm⟩
    · cases hread
  | ok value =>
    rw [hread] at h
    replace h : (if !(strictEquals value (some (.str deviceId))) then pure false
      else if hasKind lease.scope (js "capability") = true then
        includes numText (js "lease.scope.capabilities") (property lease.scope (js "capabilities"))
          (.str capability)
      else pure true) = Except.error thrown := h
    split at h
    · cases h
    · split at h
      · unfold includes at h
        split at h
        · cases h
        · cases h
        · obtain rfl := Except.error.inj h
          unfold notCallable
          split <;> exact ⟨_, rfl⟩
      · cases h

/-- What is neither an array nor a string has no `includes`. -/
def Unlisted (capabilities : Option Json) : Prop :=
  (∀ items, capabilities ≠ some (.arr items)) ∧ ∀ text, capabilities ≠ some (.str text)

theorem includes_unlisted {capabilities : Option Json} (h : Unlisted capabilities) (source : JsString)
    (item : Json) (b : Bool) : includes numText source capabilities item ≠ .ok b := by
  unfold includes
  split
  · next items => exact absurd rfl (h.1 items)
  · next text => exact absurd rfl (h.2 text)
  · nofun

theorem exists_includes {capabilities : Option Json} (h : ¬ Unlisted capabilities) (source : JsString)
    (capability : JsString) : ∃ b, includes numText source capabilities (.str capability) = .ok b := by
  unfold Unlisted at h
  rw [not_and_or] at h
  push Not at h
  rcases h with ⟨items, rfl⟩ | ⟨text, rfl⟩
  · exact ⟨_, rfl⟩
  · exact ⟨_, rfl⟩

/-! ## Harmless leases -/

/-- A lease of one of the two kinds whose coverage can be asked about. -/
structure Harmless (numText : ℚ → JsString) (lease : StoredLease) : Prop where
  kind : hasKind lease.scope (js "device") = true ∨ hasKind lease.scope (js "capability") = true
  covers : ∀ deviceId capability, ∃ b, leaseCovers numText lease deviceId capability = .ok b

theorem Harmless.coversDevice (h : Harmless numText lease) (deviceId : JsString) :
    ∃ b, leaseCoversDevice lease (some (.str deviceId)) = .ok b := by
  obtain ⟨b, hb⟩ := h.covers deviceId []
  obtain ⟨covers, hcovers, -⟩ := exists_of_bind_eq_ok hb
  exact ⟨covers, hcovers⟩

/-- Whether a harmless lease overlaps with a well-formed scope can be told. -/
theorem Harmless.scopesOverlap (h : Harmless numText lease) (scope : LeaseScopeInput) :
    ∃ b, scopesOverlap numText lease scope.toJson = .ok b := by
  obtain ⟨covers, hcovers⟩ := h.coversDevice scope.deviceId
  unfold LeaseTable.scopesOverlap
  rw [readProperty_deviceId]
  show ∃ b, (leaseCoversDevice lease (some (.str scope.deviceId)) >>= _) = Except.ok b
  rw [hcovers, (hasKind_toJson scope).1, property_capabilities]
  cases covers with
  | false => exact ⟨false, rfl⟩
  | true =>
    cases scope with
    | device => exact ⟨true, rfl⟩
    | capability deviceId capabilities =>
      replace hcovers : leaseCoversDevice lease (some (.str deviceId)) = .ok true := hcovers
      show ∃ b, (if hasKind lease.scope (js "device") = true then pure true else _) = Except.ok b
      split
      · exact ⟨true, rfl⟩
      · next hdevice =>
        refine exists_anyM_eq_ok fun item hitem => ?_
        obtain ⟨capability, -, rfl⟩ := List.mem_map.mp hitem
        obtain ⟨b, hb⟩ := h.covers deviceId capability
        rw [leaseCovers_of_kind hcovers (h.kind.resolve_left hdevice)] at hb
        exact ⟨b, includes_source hb⟩

/-- Leases that cover the same capability of a device overlap, when it can be told. -/
theorem scopesOverlap_of_covers {a b : StoredLease} {overlap : Bool}
    (hkind : hasKind a.scope (js "device") = true ∨ hasKind a.scope (js "capability") = true)
    (hkind' : hasKind b.scope (js "device") = true ∨ hasKind b.scope (js "capability") = true)
    (ha : leaseCovers numText a deviceId capability = .ok true)
    (hb : leaseCovers numText b deviceId capability = .ok true)
    (h : scopesOverlap numText a b.scope = .ok overlap) : overlap = true := by
  have hcovers := coversDevice_of_leaseCovers ha
  have hcovers' := coversDevice_of_leaseCovers hb
  unfold LeaseTable.scopesOverlap at h
  rw [readProperty_of_some (leaseCoversDevice_eq_true.mp hcovers')] at h
  replace h : (leaseCoversDevice a (some (.str deviceId)) >>= _) = Except.ok overlap := h
  rw [hcovers] at h
  replace h : (if hasKind b.scope (js "device") = true then pure true
    else if hasKind a.scope (js "device") = true then pure true
    else _) = Except.ok overlap := h
  split at h
  · exact (Except.ok.inj h).symm
  · next hdevice' =>
    split at h
    · exact (Except.ok.inj h).symm
    · next hdevice =>
      rw [leaseCovers_of_kind hcovers (hkind.resolve_left hdevice)] at ha
      rw [leaseCovers_of_kind hcovers' (hkind'.resolve_left hdevice')] at hb
      split at h
      · next capabilities hcapabilities =>
        rw [hcapabilities] at hb
        obtain ⟨item, hitem, hsame⟩ := List.any_eq_true.mp (Except.ok.inj hb)
        obtain rfl := Option.some.inj (strictEquals_str.mp hsame)
        exact anyM_eq_true_of_mem h hitem (includes_source ha)
      · cases h

theorem sharedRead_of_conflictCheck {a b : StoredLease}
    (hkind : hasKind a.scope (js "device") = true ∨ hasKind a.scope (js "capability") = true)
    (hkind' : hasKind b.scope (js "device") = true ∨ hasKind b.scope (js "capability") = true)
    (ha : leaseCovers numText a deviceId capability = .ok true)
    (hb : leaseCovers numText b deviceId capability = .ok true)
    (h : conflictCheck numText b.scope b.mode a = .ok ()) :
    a.mode = .sharedRead ∧ b.mode = .sharedRead := by
  obtain ⟨overlap, hoverlap, h⟩ := exists_of_bind_eq_ok h
  obtain rfl := scopesOverlap_of_covers hkind hkind' ha hb hoverlap
  replace h : (if a.mode = .exclusive ∨ b.mode = .exclusive then _ else pure ()) = Except.ok () := h
  split at h
  · cases h
  · next hshared =>
    rw [not_or] at hshared
    exact ⟨LeaseMode.ne_exclusive.mp hshared.1, LeaseMode.ne_exclusive.mp hshared.2⟩

/-- A lease on an object of one of the two kinds is harmless, unless it is on capabilities of a device
that are no list. -/
theorem harmless_of_listed {fields : JsonObject} (hscope : lease.scope = .obj fields)
    (hkind : hasKind lease.scope (js "device") = true ∨ hasKind lease.scope (js "capability") = true)
    (hlisted : ∀ deviceId, hasKind lease.scope (js "capability") = true →
      property lease.scope (js "deviceId") = some (.str deviceId) →
      ¬ Unlisted (property lease.scope (js "capabilities"))) : Harmless numText lease where
  kind := hkind
  covers deviceId capability := by
    have hcovers : ∃ b, leaseCoversDevice lease (some (.str deviceId)) = .ok b := by
      unfold leaseCoversDevice
      rw [hscope]
      exact ⟨_, rfl⟩
    obtain ⟨covers, hcovers⟩ := hcovers
    cases covers with
    | false =>
      unfold leaseCovers
      rw [hcovers]
      exact ⟨false, rfl⟩
    | true =>
      cases hcapability : hasKind lease.scope (js "capability") with
      | false => exact ⟨true, leaseCovers_of_not_kind hcovers hcapability capability⟩
      | true =>
        rw [leaseCovers_of_kind hcovers hcapability]
        exact exists_includes (hlisted deviceId hcapability (leaseCoversDevice_eq_true.mp hcovers)) _
          capability

theorem harmless_toJson (options : AcquireLeaseOptions) (hscope : lease.scope = options.scope.toJson) :
    Harmless numText lease := by
  obtain ⟨fields, hfields⟩ : ∃ fields, options.scope.toJson = .obj fields := by
    cases options.scope <;> exact ⟨_, rfl⟩
  refine harmless_of_listed (hscope.trans hfields) ?_ fun deviceId hkind _ hunlisted => ?_
  · rw [hscope, (hasKind_toJson _).1, (hasKind_toJson _).2]
    cases options.scope.capabilities? <;> simp
  · rw [hscope, (hasKind_toJson _).2] at hkind
    rw [hscope, property_capabilities] at hunlisted
    obtain ⟨capabilities, hcapabilities⟩ := Option.isSome_iff_exists.mp hkind
    rw [hcapabilities] at hunlisted
    exact hunlisted.1 _ rfl

/-- Which leases pass a request for capabilities that are no list: those on other devices, and shared
leases on the whole device for a shared request. -/
theorem conflictCheck_unlisted (scope : Json) {mode : LeaseMode} {covers : Bool}
    (hdevice : property scope (js "deviceId") = some (.str deviceId))
    (hkind : hasKind scope (js "device") = false)
    (hunlisted : Unlisted (property scope (js "capabilities")))
    (hcovers : leaseCoversDevice lease (some (.str deviceId)) = .ok covers) :
    conflictCheck numText scope mode lease = .ok () ↔ (covers = true →
      hasKind lease.scope (js "device") = true ∧ lease.mode = .sharedRead ∧ mode = .sharedRead) := by
  unfold conflictCheck LeaseTable.scopesOverlap
  rw [readProperty_of_some hdevice]
  show ((leaseCoversDevice lease (some (.str deviceId)) >>= _) >>= _) = Except.ok () ↔ _
  rw [hcovers, hkind]
  cases covers with
  | false => exact ⟨by rintro - ⟨⟩, fun _ => rfl⟩
  | true =>
    cases hasKind lease.scope (js "device") with
    | true =>
      show (if lease.mode = .exclusive ∨ mode = .exclusive then _ else _) = Except.ok () ↔ _
      split
      · next hexclusive =>
        refine ⟨by rintro ⟨⟩, fun h => ?_⟩
        obtain ⟨-, hlease, hmode⟩ := h rfl
        rcases hexclusive with hexclusive | hexclusive
        · cases hlease.symm.trans hexclusive
        · cases hmode.symm.trans hexclusive
      · next hshared =>
        rw [not_or] at hshared
        have hmodes := hshared.imp LeaseMode.ne_exclusive.mp LeaseMode.ne_exclusive.mp
        exact ⟨fun _ _ => ⟨rfl, hmodes⟩, fun _ => rfl⟩
    | false =>
      -- The capabilities are asked for `some`, which they do not have.
      constructor
      · intro h
        obtain ⟨overlap, hoverlap, -⟩ := exists_of_bind_eq_ok h
        simp only [bind, Except.bind, Bool.not_true, Bool.false_eq_true, if_false] at hoverlap
        split at hoverlap
        · next items hitems => exact absurd hitems (hunlisted.1 items)
        · cases hoverlap
      · intro h
        cases (h rfl).1

/-! ## What a call does to a lease -/

def Live (t : LeaseTable) (id : JsString) (lease : StoredLease) : Prop :=
  t.leases.get? id = some lease ∧ t.isExpired lease = false

theorem get?_reapExpired {id : JsString} :
    t.reapExpired.1.leases.get? id = some lease ↔ Live t id lease := by
  rw [reapExpired, drainExpired, InsertionMap.get?_filter_eq_some_iff, Bool.not_eq_true']
  rfl

theorem mem_values_reapExpired : lease ∈ t.reapExpired.1.values ↔ ∃ id, Live t id lease := by
  simp only [values, List.mem_map, Prod.exists, exists_eq_right,
    ← InsertionMap.get?_eq_some_iff, get?_reapExpired]

/-- Every live lease of the later table is one of the earlier table but for its expiry. -/
def Keeps (t u : LeaseTable) : Prop :=
  ∀ id lease, Live u id lease →
    ∃ old, Live t id old ∧ lease = { old with expiresAt := lease.expiresAt }

/-- A table with some leases removed, at the same time or later, keeps the others. -/
theorem keeps_of_restrict (hnow : t.now ≤ u.now)
    (h : ∀ id lease, u.leases.get? id = some lease → t.leases.get? id = some lease) : Keeps t u := by
  rintro id lease ⟨hget, hlive⟩
  refine ⟨lease, ⟨h id lease hget, ?_⟩, rfl⟩
  unfold isExpired at hlive ⊢
  rw [decide_eq_false_iff_not, not_le] at hlive ⊢
  exact hnow.trans_lt hlive

theorem keeps_erase (t : LeaseTable) (id : JsString) :
    Keeps t { t with leases := t.leases.erase id } :=
  keeps_of_restrict le_rfl fun _ _ hlease => (InsertionMap.get?_filter_eq_some_iff.mp hlease).1

theorem keeps_refl (t : LeaseTable) : Keeps t t := keeps_of_restrict le_rfl fun _ _ hlease => hlease

theorem keeps_reapExpired (t : LeaseTable) : Keeps t t.reapExpired.1 :=
  keeps_of_restrict le_rfl fun _ _ hlease => (get?_reapExpired.mp hlease).1

theorem keeps_renew (t : LeaseTable) (id owner : JsString) (ttlMs : Option TtlMs) :
    Keeps t (t.renew id owner ttlMs).1 := by
  unfold renew
  cases hget : t.leases.get? id with
  | none => exact keeps_refl t
  | some old =>
    dsimp only
    split
    · exact keeps_erase t id
    · next hold =>
      split
      · exact keeps_refl t
      · rintro j lease ⟨hlease, hlive⟩
        replace hlease : (t.leases.insert id _).get? j = some lease := hlease
        rw [InsertionMap.get?_insert] at hlease
        split at hlease
        · next hj =>
          subst hj
          obtain rfl := Option.some.inj hlease
          exact ⟨old, ⟨hget, by simpa using hold⟩, rfl⟩
        · exact ⟨lease, ⟨hlease, hlive⟩, rfl⟩

theorem keeps_release (t : LeaseTable) (id owner : JsString) : Keeps t (t.release id owner).1 := by
  unfold release
  cases t.leases.get? id with
  | none => exact keeps_refl t
  | some old =>
    dsimp only
    split
    · exact keeps_refl t
    · exact keeps_erase t id

theorem keeps_get (t : LeaseTable) (id : JsString) : Keeps t (t.get id).1 := by
  unfold LeaseTable.get
  cases t.leases.get? id with
  | none => exact keeps_refl t
  | some old =>
    dsimp only
    split
    · exact keeps_erase t id
    · exact keeps_refl t

/-- The table after a lease is granted: the leases that have not expired, and that one. -/
def grant (t : LeaseTable) (lease : StoredLease) : LeaseTable :=
  { t.reapExpired.1 with
    sequence := t.sequence + 1
    leases := t.reapExpired.1.leases.insert lease.id lease }

theorem live_grant {id : JsString} {other : StoredLease} : Live (grant t lease) id other ↔
    (id = lease.id ∧ other = lease ∧ t.isExpired lease = false) ∨ (id ≠ lease.id ∧ Live t id other) := by
  show (t.reapExpired.1.leases.insert lease.id lease).get? id = some other ∧ t.isExpired other = false ↔ _
  rw [InsertionMap.get?_insert]
  by_cases hid : id = lease.id
  · rw [if_pos hid]
    constructor
    · rintro ⟨hsame, hlive⟩
      obtain rfl := Option.some.inj hsame
      exact Or.inl ⟨hid, rfl, hlive⟩
    · rintro (⟨-, rfl, hlive⟩ | ⟨hne, -⟩)
      · exact ⟨rfl, hlive⟩
      · exact absurd hid hne
  · rw [if_neg hid, get?_reapExpired]
    constructor
    · rintro ⟨hlive, -⟩
      exact Or.inr ⟨hid, hlive⟩
    · rintro (⟨hsame, -⟩ | ⟨-, hlive⟩)
      · exact absurd hsame hid
      · exact ⟨hlive, hlive.2⟩

/-- **What `acquire` does**: a live lease makes it throw, and only the expired leases are removed, or all
of them pass the request and it grants the lease. -/
theorem acquire_cases (numText : ℚ → JsString) (t : LeaseTable) (scope : Json) (owner : JsString)
    (ttlMs : Option TtlMs) (mode : LeaseMode) (random : JsString) :
    (∃ id lease thrown, Live t id lease ∧ conflictCheck numText scope mode lease = .error thrown ∧
      t.acquire numText scope owner ttlMs mode random = (t.reapExpired.1, .error thrown)) ∨
    ((∀ id lease, Live t id lease → conflictCheck numText scope mode lease = .ok ()) ∧
      t.acquire numText scope owner ttlMs mode random =
        (grant t (t.granted scope owner ttlMs mode random),
          .ok (t.granted scope owner ttlMs mode random))) := by
  cases hchecks : t.reapExpired.1.values.forM (conflictCheck numText scope mode) with
  | error thrown =>
    obtain ⟨lease, hmem, hcheck⟩ := exists_of_forM_eq_error hchecks
    obtain ⟨id, hlive⟩ := mem_values_reapExpired.mp hmem
    refine Or.inl ⟨id, lease, thrown, hlive, hcheck, ?_⟩
    simp only [LeaseTable.acquire, hchecks]
  | ok _ =>
    refine Or.inr ⟨fun id lease hlive => ?_, ?_⟩
    · exact forM_eq_ok_iff.mp hchecks lease (mem_values_reapExpired.mpr ⟨id, hlive⟩)
    · simp only [LeaseTable.acquire, hchecks]
      rfl

/-! ## Calls over harmless leases -/

variable {owner : JsString} {mode : LeaseMode} {leases : List StoredLease} {found : Bool}

/-- What a harmless lease throws over a well-formed scope is structured. -/
theorem not_isTypeError_of_conflictCheck (h : Harmless numText lease) (scope : LeaseScopeInput)
    {thrown : Thrown} (hcheck : conflictCheck numText scope.toJson mode lease = .error thrown) :
    ¬ IsTypeError thrown := by
  obtain ⟨overlap, hoverlap⟩ := h.scopesOverlap scope
  unfold conflictCheck at hcheck
  rw [hoverlap] at hcheck
  replace hcheck : (if !overlap then pure () else if lease.mode = .exclusive ∨ mode = .exclusive then
    .error (.structuredError (leaseConflict (lease.withScope (.device [])))) else pure ()) =
      Except.error thrown := hcheck
  split at hcheck
  · cases hcheck
  · split at hcheck
    · obtain rfl := Except.error.inj hcheck
      rintro ⟨message, hmessage⟩
      cases hmessage
    · cases hcheck

theorem not_isTypeError_of_renew {id owner : JsString} {ttlMs : Option TtlMs} {thrown : Thrown}
    (h : (t.renew id owner ttlMs).2 = .error thrown) : ¬ IsTypeError thrown := by
  have hstructured : ∃ e, thrown = .structuredError e := by
    unfold renew at h
    cases hget : t.leases.get? id with
    | none =>
      rw [hget] at h
      exact ⟨_, (Except.error.inj h).symm⟩
    | some lease =>
      rw [hget] at h
      dsimp only at h
      split at h
      · exact ⟨_, (Except.error.inj h).symm⟩
      · split at h
        · exact ⟨_, (Except.error.inj h).symm⟩
        · cases h
  obtain ⟨e, rfl⟩ := hstructured
  rintro ⟨message, hmessage⟩
  cases hmessage

/-- Over leases whose devices can be told, the loop of `list` returns. -/
theorem exists_listFrom (h : ∀ lease ∈ leases, ∀ deviceId : JsString,
      ∃ b, leaseCoversDevice lease (some (.str deviceId)) = .ok b) :
    ∃ out, listFrom owner deviceId leases = .ok out := by
  induction leases with
  | nil => exact ⟨[], rfl⟩
  | cons lease leases ih =>
    obtain ⟨hlease, hleases⟩ := List.forall_mem_cons.mp h
    obtain ⟨out, hout⟩ := ih hleases
    have hlisted : ∃ b, listed owner deviceId lease = .ok b := by
      unfold listed
      split
      · exact ⟨false, rfl⟩
      · split
        · exact ⟨true, rfl⟩
        · exact hlease deviceId
    obtain ⟨b, hb⟩ := hlisted
    rw [listFrom, hb, hout]
    exact ⟨_, rfl⟩

theorem exists_permitsFrom (h : ∀ lease ∈ leases, Harmless numText lease) :
    ∃ verdict, permitsFrom numText owner deviceId capability mode leases found = .ok verdict := by
  induction leases generalizing found with
  | nil => exact ⟨_, rfl⟩
  | cons lease leases ih =>
    obtain ⟨hlease, hleases⟩ := List.forall_mem_cons.mp h
    obtain ⟨covers, hcovers⟩ := hlease.covers deviceId capability
    rw [permitsFrom, hcovers]
    show ∃ verdict, (if !covers then _ else _) = Except.ok verdict
    split
    · exact ih hleases
    · split
      · exact ih hleases
      · split
        · exact ih hleases
        · exact ⟨_, rfl⟩

/-! ## Permission -/

/-- Distinct leases that have not expired and cover the same capability of a device are both
shared-read. -/
def Exclusive (numText : ℚ → JsString) (t : LeaseTable) : Prop :=
  ∀ id id' lease lease' deviceId capability, id ≠ id' → Live t id lease → Live t id' lease' →
    leaseCovers numText lease deviceId capability = .ok true →
    leaseCovers numText lease' deviceId capability = .ok true →
    lease.mode = .sharedRead ∧ lease'.mode = .sharedRead

/-- While an owner is permitted exclusive access to a capability of a device, no other owner is
permitted any access to it. -/
def SingleController (numText : ℚ → JsString) (t : LeaseTable) : Prop :=
  ∀ owner deviceId capability verdict,
    (t.permits numText owner deviceId capability .exclusive).2 = .ok verdict →
    verdict.permitted = true → ∀ other mode verdict', other ≠ owner →
    (t.permits numText other deviceId capability mode).2 = .ok verdict' → verdict'.permitted = false

theorem exists_of_permitsFrom {verdict : StoredVerdict}
    (h : permitsFrom numText owner deviceId capability .exclusive leases found = .ok verdict)
    (hpermitted : verdict.permitted = true) : found = true ∨ ∃ lease ∈ leases,
      leaseCovers numText lease deviceId capability = .ok true ∧ lease.owner = owner ∧
        lease.mode = .exclusive := by
  induction leases generalizing found with
  | nil =>
    obtain rfl := Except.ok.inj h
    exact Or.inl hpermitted
  | cons lease leases ih =>
    rw [permitsFrom] at h
    obtain ⟨covers, hcovers, h⟩ := exists_of_bind_eq_ok h
    have hlater : ∀ {found'}, permitsFrom numText owner deviceId capability .exclusive leases found' =
        .ok verdict → (found' = true → found = true ∨ leaseCovers numText lease deviceId capability =
          .ok true ∧ lease.owner = owner ∧ lease.mode = .exclusive) → found = true ∨
        ∃ other ∈ lease :: leases, leaseCovers numText other deviceId capability = .ok true ∧
          other.owner = owner ∧ other.mode = .exclusive := by
      intro found' hrest hfound
      rcases ih hrest with hfound' | ⟨other, hother, hholds⟩
      · exact (hfound hfound').imp_right fun hholds => ⟨lease, List.mem_cons_self, hholds⟩
      · exact Or.inr ⟨other, List.mem_cons_of_mem lease hother, hholds⟩
    split at h
    · exact hlater h Or.inl
    · next hcovered =>
      split at h
      · next howner =>
        refine hlater h fun hfound => ?_
        simp only [Bool.or_eq_true, decide_eq_true_eq, reduceCtorEq, decide_false, Bool.false_or]
          at hfound
        refine hfound.imp_right fun hmode => ⟨?_, howner, hmode⟩
        rw [hcovers]
        simpa using hcovered
      · split at h
        · next hshared => cases hshared.1
        · obtain rfl := Except.ok.inj h
          cases hpermitted

theorem permitted_eq_false {other : JsString} {verdict : StoredVerdict} (hmem : lease ∈ leases)
    (hcovers : leaseCovers numText lease deviceId capability = .ok true)
    (hmode : lease.mode = .exclusive) (howner : lease.owner ≠ other)
    (h : permitsFrom numText other deviceId capability mode leases found = .ok verdict) :
    verdict.permitted = false := by
  induction leases generalizing found with
  | nil => cases hmem
  | cons first leases ih =>
    rw [permitsFrom] at h
    obtain ⟨covers, hfirst, h⟩ := exists_of_bind_eq_ok h
    rcases List.mem_cons.mp hmem with rfl | hmem
    · obtain rfl := Except.ok.inj (hcovers.symm.trans hfirst)
      replace h : (if lease.owner = other then _ else if mode = .sharedRead ∧ lease.mode = .sharedRead
        then _ else _) = Except.ok verdict := h
      rw [if_neg howner, if_neg (by simp [hmode])] at h
      obtain rfl := Except.ok.inj h
      rfl
    · split at h
      · exact ih hmem h
      · split at h
        · exact ih hmem h
        · split at h
          · exact ih hmem h
          · obtain rfl := Except.ok.inj h
            rfl

/-- Nobody is permitted beside an exclusive controller, whatever the leases are on. -/
theorem singleController (t : LeaseTable) : SingleController numText t := by
  intro owner deviceId capability verdict hverdict hpermitted other mode verdict' hother hverdict'
  rcases exists_of_permitsFrom hverdict hpermitted with hfound | ⟨lease, hmem, hcovers, rfl, hmode⟩
  · cases hfound
  · exact permitted_eq_false hmem hcovers hmode (Ne.symm hother) hverdict'

/-- Over shared leases, one whose coverage cannot be told makes the loop of `permits` throw a
`TypeError`. -/
theorem isTypeError_of_permitsFrom (owner : JsString) (found : Bool) (hmem : lease ∈ leases)
    (hlease : ∀ b, leaseCovers numText lease deviceId capability ≠ .ok b)
    (hshared : ∀ other ∈ leases, leaseCovers numText other deviceId capability = .ok true →
      other.mode = .sharedRead) :
    ∃ thrown, permitsFrom numText owner deviceId capability .sharedRead leases found = .error thrown ∧
      IsTypeError thrown := by
  induction leases generalizing found with
  | nil => cases hmem
  | cons first leases ih =>
    rw [permitsFrom]
    cases hfirst : leaseCovers numText first deviceId capability with
    | error thrown => exact ⟨thrown, rfl, isTypeError_of_leaseCovers hfirst⟩
    | ok covers =>
      have hrest : lease ∈ leases := by
        rcases List.mem_cons.mp hmem with rfl | hmem
        · exact absurd hfirst (hlease covers)
        · exact hmem
      have hlater := fun other hother => hshared other (List.mem_cons_of_mem first hother)
      show ∃ thrown, (if !covers then _ else _) = Except.error thrown ∧ IsTypeError thrown
      split
      · exact ih _ hrest hlater
      · next hcovers =>
        obtain rfl : covers = true := by simpa using hcovers
        rw [if_pos (⟨rfl, hshared first List.mem_cons_self hfirst⟩ :
          LeaseMode.sharedRead = .sharedRead ∧ first.mode = .sharedRead)]
        split
        · exact ih _ hrest hlater
        · exact ih _ hrest hlater

end Pinout.Leasing.LeaseTable
