import Pinout.Daemon.InvokeRoute
import Pinout.Foundation.Machine
import Pinout.Leasing.Harmless

/-! # Lease requests

`POST /v1/leases` (`packages/daemon/src/httpServer.ts`) asks for an owner and for a scope of one of two
kinds; whatever else the scope says is stored as it came. A capability scope without a list of
capabilities is not read when no lease on its device makes `acquire` look: it is granted, and while it
lasts `permits` cannot be asked about the device any more (`Poisons`). Nothing else a request can say
does harm (`withstands_iff`). -/

namespace Pinout.Daemon.LeaseRequests

open Foundation Leasing.LeaseTable
open Leasing hiding leaseCovers leaseCoversDevice scopesOverlap

/-! ## The route -/

def requiredString (body : JsonObject) (field : JsString) : Except Thrown JsString :=
  match body.get? field with
  | some (.str value) => if value = [] then .error (fieldRequired field) else .ok value
  | _ => .error (fieldRequired field)

def scopeRequired : Thrown :=
  .pinoutError (js "ValidationError") (js "VALIDATION_ERROR")
    (js "body.scope must be \x7b kind: 'device', deviceId \x7d or " ++
      js "\x7b kind: 'capability', deviceId, capabilities \x7d.")

/-- `body.scope`, which has to be truthy and of one of the two kinds. -/
def requiredScope (body : JsonObject) : Except Thrown Json :=
  match body.get? (js "scope") with
  | none => .error scopeRequired
  | some scope =>
    if !scope.truthy || (!hasKind scope (js "device") && !hasKind scope (js "capability")) then
      .error scopeRequired
    else .ok scope

def modeOf (body : JsonObject) : LeaseMode :=
  if strictEquals (body.get? (js "mode")) (some (.str (js "shared-read"))) then .sharedRead
  else .exclusive

/-- The time to live a body asks for; a number too large for a double is read as infinite. -/
def ttlMsOf (body : JsonObject) (overflows : Bool) : Option TtlMs :=
  (Json.number? (body.get? (js "ttlMs"))).map fun ttlMs =>
    if overflows then .notFinite else .finite ttlMs

variable (numText : ℚ → JsString)

/-- `POST /v1/leases`. A request without a body has no fields. -/
def post (t : LeaseTable) (body : JsonObject) (overflows : Bool) (random : JsString) :
    LeaseTable × Except Thrown StoredLease :=
  match requiredString body (js "owner"), requiredScope body with
  | .error thrown, _ => (t, .error thrown)
  | .ok _, .error thrown => (t, .error thrown)
  | .ok owner, .ok scope => t.acquire numText scope owner (ttlMsOf body overflows) (modeOf body) random

/-- `acquire` for a caller that keeps to the types. -/
def acquire (t : LeaseTable) (options : AcquireLeaseOptions) (random : JsString) :
    LeaseTable × Except Thrown StoredLease :=
  t.acquire numText options.scope.toJson options.owner options.ttlMs
    (options.mode.getD .exclusive) random

/-! ## Calls and time -/

/-- What can happen to the table: a request with any body, a well-formed call, or the passing of
time. -/
inductive Action
  | post (body : JsonObject) (overflows : Bool) (random : JsString)
  | acquire (options : AcquireLeaseOptions) (random : JsString)
  | renew (leaseId owner : JsString) (ttlMs : Option TtlMs)
  | release (leaseId owner : JsString)
  | forceRelease (leaseId : JsString)
  | get (leaseId : JsString)
  | list (owner deviceId : JsString)
  | permits (owner deviceId capability : JsString) (mode : LeaseMode)
  | reapExpired
  | drainExpired
  | tick (ms : ℚ)

/-- The table after an action, whether or not the call threw; time does not go backwards. -/
def step (t : LeaseTable) : Action → Option LeaseTable
  | .post body overflows random => some (post numText t body overflows random).1
  | .acquire options random => some (acquire numText t options random).1
  | .renew leaseId owner ttlMs => some (t.renew leaseId owner ttlMs).1
  | .release leaseId owner => some (t.release leaseId owner).1
  | .forceRelease leaseId => some (t.forceRelease leaseId)
  | .get leaseId => some (t.get leaseId).1
  | .list owner deviceId => some (t.list owner deviceId).1
  | .permits owner deviceId capability mode =>
    some (t.permits numText owner deviceId capability mode).1
  | .reapExpired => some t.reapExpired.1
  | .drainExpired => some t.drainExpired.1
  | .tick ms => if 0 ≤ ms then some { t with now := t.now + ms } else none

def machine : Machine LeaseTable Action := ⟨step numText⟩

def new (maxTtlMs now : ℚ) : LeaseTable := { maxTtlMs, now }

/-! ## What is to hold -/

/-- Calls with well-formed arguments throw no `TypeError` (`drainExpired` throws nothing), and the
leases exclude each other. -/
structure Sound (t : LeaseTable) : Prop where
  permits : ∀ owner deviceId capability mode,
    ∃ verdict, (t.permits numText owner deviceId capability mode).2 = .ok verdict
  /-- `acquire` throws structured errors only. -/
  acquire : ∀ options random thrown, (acquire numText t options random).2 = .error thrown →
    ¬ IsTypeError thrown
  renew : ∀ id owner ttlMs thrown, (t.renew id owner ttlMs).2 = .error thrown → ¬ IsTypeError thrown
  list : ∀ owner deviceId, ∃ leases, (t.list owner deviceId).2 = .ok leases
  exclusive : Exclusive numText t
  singleController : SingleController numText t

/-- Every request of a run from a table is rejected, which leaves the table as it is but for the leases
that had expired, or accepted, and then every later table is sound. -/
def Withstands (start : LeaseTable) (actions : List Action) : Prop :=
  ∀ before body overflows random after t, actions = before ++ .post body overflows random :: after →
    (machine numText).run start before = some t →
    (∃ thrown, (post numText t body overflows random).2 = .error thrown ∧
      ((post numText t body overflows random).1 = t ∨
        (post numText t body overflows random).1 = t.drainExpired.1)) ∨
    ∃ lease, (post numText t body overflows random).2 = .ok lease ∧
      ∀ middle rest u, after = middle ++ rest →
        (machine numText).run (post numText t body overflows random).1 middle = some u →
        Sound numText u

/-! ## The requests that do harm -/

/-- A request for capabilities of a device that are no list, for a lease that outlasts the request, on
a device on which there are only shared leases on the whole of it, and for shared access if there are
any. -/
structure Poisons (t : LeaseTable) (body : JsonObject) (overflows : Bool) : Prop where
  owner : ∃ owner, owner ≠ [] ∧ body.get? (js "owner") = some (.str owner)
  lasts : 0 < t.clampTtl ((ttlMsOf body overflows).getD LeaseManager.defaultTtlMs)
  scope : ∃ fields deviceId, body.get? (js "scope") = some (.obj fields) ∧
    JsonObject.get? fields (js "kind") = some (.str (js "capability")) ∧
    JsonObject.get? fields (js "deviceId") = some (.str deviceId) ∧
    Unlisted (JsonObject.get? fields (js "capabilities")) ∧
    ∀ id lease, Live t id lease → property lease.scope (js "deviceId") = some (.str deviceId) →
      hasKind lease.scope (js "device") = true ∧ lease.mode = .sharedRead ∧
        modeOf body = .sharedRead

def Spares (t : LeaseTable) : Action → Prop
  | .post body overflows _ => ¬ Poisons t body overflows
  | _ => True

variable {numText} {t u : LeaseTable} {lease : StoredLease} {scope : Json}
  {deviceId capability : JsString}

/-! ## Settled tables -/

/-- Every live lease is harmless, and they exclude each other. -/
structure Settled (numText : ℚ → JsString) (t : LeaseTable) : Prop where
  harmless : ∀ id lease, Live t id lease → Harmless numText lease
  exclusive : Exclusive numText t

theorem Settled.keeps (h : Settled numText t) (hkeeps : LeaseTable.Keeps t u) : Settled numText u where
  harmless id lease hlive := by
    obtain ⟨old, hold, hsame⟩ := hkeeps id lease hlive
    have hharmless := h.harmless id old hold
    rw [hsame]
    exact ⟨hharmless.kind, hharmless.covers⟩
  exclusive id id' lease lease' deviceId capability hne hlive hlive' hcovers hcovers' := by
    obtain ⟨old, hold, hsame⟩ := hkeeps id lease hlive
    obtain ⟨old', hold', hsame'⟩ := hkeeps id' lease' hlive'
    rw [hsame] at hcovers ⊢
    rw [hsame'] at hcovers' ⊢
    exact h.exclusive id id' old old' deviceId capability hne hold hold' hcovers hcovers'

/-- Granting a harmless lease that every live lease passes keeps the leases settled. -/
theorem Settled.grant (h : Settled numText t)
    (hharmless : t.isExpired lease = false → Harmless numText lease)
    (hpasses : ∀ id old, Live t id old → conflictCheck numText lease.scope lease.mode old = .ok ()) :
    Settled numText (grant t lease) where
  harmless id other hlive := by
    rcases live_grant.mp hlive with ⟨-, rfl, hlast⟩ | ⟨-, hold⟩
    · exact hharmless hlast
    · exact h.harmless id other hold
  exclusive id id' a b deviceId capability hne ha hb hcovers hcovers' := by
    -- At most one of the two is the new lease.
    rcases live_grant.mp ha with ⟨hid, rfl, hlast⟩ | ⟨-, hold⟩
    · rcases live_grant.mp hb with ⟨hid', -, -⟩ | ⟨-, hold⟩
      · exact absurd (hid.trans hid'.symm) hne
      · exact (sharedRead_of_conflictCheck (h.harmless id' b hold).kind (hharmless hlast).kind hcovers'
          hcovers (hpasses id' b hold)).symm
    · rcases live_grant.mp hb with ⟨-, rfl, hlast⟩ | ⟨-, hold'⟩
      · exact sharedRead_of_conflictCheck (h.harmless id a hold).kind (hharmless hlast).kind hcovers
          hcovers' (hpasses id a hold)
      · exact h.exclusive id id' a b deviceId capability hne hold hold' hcovers hcovers'

theorem Settled.new (maxTtlMs now : ℚ) : Settled numText (new maxTtlMs now) where
  harmless _ _ hlive := nomatch hlive.1
  exclusive _ _ _ _ _ _ _ hlive := nomatch hlive.1

/-! ## What a request may ask for -/

/-- A scope that the route lets pass is an object of one of the two kinds. -/
theorem requiredScope_eq_ok {body : JsonObject} (h : requiredScope body = .ok scope) :
    body.get? (js "scope") = some scope ∧ (∃ fields, scope = .obj fields) ∧
      (hasKind scope (js "device") = true ∨ hasKind scope (js "capability") = true) := by
  unfold requiredScope at h
  split at h
  · cases h
  · next scope' hscope =>
    split at h
    · cases h
    · next hpasses =>
      obtain rfl := Except.ok.inj h
      have hkind : hasKind scope' (js "device") = true ∨ hasKind scope' (js "capability") = true := by
        by_contra hnot
        rw [not_or, Bool.not_eq_true, Bool.not_eq_true] at hnot
        simp [hnot.1, hnot.2] at hpasses
      refine ⟨hscope, ?_, hkind⟩
      -- Only an object has a kind.
      cases scope' with
      | obj fields => exact ⟨fields, rfl⟩
      | _ => rcases hkind with hkind | hkind <;> cases hkind

/-- A request is rejected, which leaves the table as it is but for the leases that had expired, or its
lease is granted, and then every live lease passed it. -/
theorem post_cases (numText : ℚ → JsString) (t : LeaseTable) (body : JsonObject) (overflows : Bool)
    (random : JsString) :
    (∃ thrown, (post numText t body overflows random).2 = .error thrown ∧
      ((post numText t body overflows random).1 = t ∨
        (post numText t body overflows random).1 = t.drainExpired.1)) ∨
    ∃ owner scope, requiredString body (js "owner") = .ok owner ∧ requiredScope body = .ok scope ∧
      (∀ id lease, Live t id lease → conflictCheck numText scope (modeOf body) lease = .ok ()) ∧
      post numText t body overflows random =
        (grant t (t.granted scope owner (ttlMsOf body overflows) (modeOf body) random),
          .ok (t.granted scope owner (ttlMsOf body overflows) (modeOf body) random)) := by
  unfold post
  cases howner : requiredString body (js "owner") with
  | error thrown => exact Or.inl ⟨thrown, rfl, Or.inl rfl⟩
  | ok owner =>
    cases hscope : requiredScope body with
    | error thrown => exact Or.inl ⟨thrown, rfl, Or.inl rfl⟩
    | ok scope =>
      rcases acquire_cases numText t scope owner (ttlMsOf body overflows) (modeOf body)
        random with ⟨id, lease, thrown, -, -, heq⟩ | ⟨hpasses, heq⟩
      · refine Or.inl ⟨thrown, ?_, Or.inr ?_⟩
        · exact congrArg Prod.snd heq
        · exact congrArg Prod.fst heq
      · exact Or.inr ⟨owner, scope, rfl, rfl, hpasses, heq⟩

theorem requiredString_eq_ok {body : JsonObject} {field value : JsString} :
    requiredString body field = .ok value ↔ value ≠ [] ∧ body.get? field = some (.str value) := by
  unfold requiredString
  split
  · next found hfound =>
    rw [hfound]
    by_cases hempty : found = []
    · rw [if_pos hempty]
      refine ⟨nofun, ?_⟩
      rintro ⟨hne, hsame⟩
      cases hsame
      exact absurd hempty hne
    · rw [if_neg hempty, Except.ok.injEq, Option.some.injEq, Json.str.injEq]
      constructor
      · rintro rfl
        exact ⟨hempty, rfl⟩
      · rintro ⟨-, hsame⟩
        exact hsame
  · next hnot =>
    refine ⟨nofun, ?_⟩
    rintro ⟨-, hfound⟩
    exact absurd hfound (hnot value)

theorem isExpired_granted {owner : JsString} {ttlMs : Option TtlMs} {mode : LeaseMode}
    {random : JsString} : t.isExpired (t.granted scope owner ttlMs mode random) = false ↔
      0 < t.clampTtl (ttlMs.getD LeaseManager.defaultTtlMs) := by
  unfold isExpired granted
  rw [decide_eq_false_iff_not, not_le]
  exact lt_add_iff_pos_right t.now

/-- What is granted to a request that does no harm is harmless while it lasts. -/
theorem harmless_of_spares {body : JsonObject} {overflows : Bool} {owner random : JsString}
    (howner : requiredString body (js "owner") = .ok owner)
    (hscope : requiredScope body = .ok scope)
    (hpasses : ∀ id old, Live t id old → conflictCheck numText scope (modeOf body) old = .ok ())
    (hspares : ¬ Poisons t body overflows)
    (hlast : t.isExpired (t.granted scope owner (ttlMsOf body overflows) (modeOf body) random) = false) :
    Harmless numText (t.granted scope owner (ttlMsOf body overflows) (modeOf body) random) := by
  obtain ⟨hget, ⟨fields, rfl⟩, hkind⟩ := requiredScope_eq_ok hscope
  refine harmless_of_listed rfl hkind fun deviceId hcapability hdevice hunlisted => hspares ?_
  refine ⟨⟨owner, requiredString_eq_ok.mp howner⟩, isExpired_granted.mp hlast, fields, deviceId, hget,
    strictEquals_str.mp hcapability, hdevice, hunlisted, fun id old hlive hold => ?_⟩
  exact (conflictCheck_unlisted _ hdevice (hasKind_device_of_capability hcapability) hunlisted
    (leaseCoversDevice_eq_true.mpr hold)).mp (hpasses id old hlive) rfl

theorem Settled.step {a : Action} (h : Settled numText t) (hspares : Spares t a)
    (hstep : (machine numText).step t a = some u) : Settled numText u := by
  cases a with
  | post body overflows random =>
    obtain rfl : (post numText t body overflows random).1 = u := Option.some.inj hstep
    rcases post_cases numText t body overflows random with
      ⟨thrown, -, hsame | hsame⟩ | ⟨owner, scope, howner, hscope, hpasses, heq⟩
    · rw [hsame]
      exact h
    · rw [hsame]
      exact h.keeps (keeps_reapExpired t)
    · rw [heq]
      exact h.grant (harmless_of_spares howner hscope hpasses hspares) hpasses
  | acquire options random =>
    obtain rfl : (acquire numText t options random).1 = u := Option.some.inj hstep
    rcases acquire_cases numText t options.scope.toJson options.owner options.ttlMs
      (options.mode.getD .exclusive) random with ⟨id, lease, thrown, -, -, heq⟩ | ⟨hpasses, heq⟩
    · rw [acquire, heq]
      exact h.keeps (keeps_reapExpired t)
    · rw [acquire, heq]
      exact h.grant (fun _ => harmless_toJson options rfl) hpasses
  | renew id owner ttlMs =>
    obtain rfl : (t.renew id owner ttlMs).1 = u := Option.some.inj hstep
    exact h.keeps (keeps_renew t id owner ttlMs)
  | release id owner =>
    obtain rfl : (t.release id owner).1 = u := Option.some.inj hstep
    exact h.keeps (keeps_release t id owner)
  | forceRelease id =>
    obtain rfl : t.forceRelease id = u := Option.some.inj hstep
    exact h.keeps (keeps_erase t id)
  | get id =>
    obtain rfl : (t.get id).1 = u := Option.some.inj hstep
    exact h.keeps (keeps_get t id)
  | list owner deviceId =>
    obtain rfl : t.reapExpired.1 = u := Option.some.inj hstep
    exact h.keeps (keeps_reapExpired t)
  | permits owner deviceId capability mode =>
    obtain rfl : t.reapExpired.1 = u := Option.some.inj hstep
    exact h.keeps (keeps_reapExpired t)
  | reapExpired =>
    obtain rfl : t.reapExpired.1 = u := Option.some.inj hstep
    exact h.keeps (keeps_reapExpired t)
  | drainExpired =>
    obtain rfl : t.reapExpired.1 = u := Option.some.inj hstep
    exact h.keeps (keeps_reapExpired t)
  | tick ms =>
    replace hstep : (if 0 ≤ ms then some { t with now := t.now + ms } else none) = some u := hstep
    split at hstep
    · next hms =>
      obtain rfl := Option.some.inj hstep
      exact h.keeps (LeaseTable.keeps_of_restrict (le_add_of_nonneg_right hms) fun _ _ hlease => hlease)
    · cases hstep

/-! ## Sound tables -/

theorem Settled.sound (h : Settled numText t) : Sound numText t where
  permits owner deviceId capability mode := by
    refine exists_permitsFrom fun lease hmem => ?_
    obtain ⟨id, hlive⟩ := mem_values_reapExpired.mp hmem
    exact h.harmless id lease hlive
  acquire options random thrown hthrown := by
    rcases acquire_cases numText t options.scope.toJson options.owner options.ttlMs
      (options.mode.getD .exclusive) random with ⟨id, lease, thrown', hlive, hcheck, heq⟩ | ⟨-, heq⟩
    · rw [acquire, heq] at hthrown
      obtain rfl := Except.error.inj hthrown
      exact not_isTypeError_of_conflictCheck (h.harmless id lease hlive) options.scope hcheck
    · rw [acquire, heq] at hthrown
      cases hthrown
  renew _ _ _ _ := not_isTypeError_of_renew
  list owner deviceId := by
    refine exists_listFrom fun lease hmem => ?_
    obtain ⟨id, hlive⟩ := mem_values_reapExpired.mp hmem
    exact (h.harmless id lease hlive).coversDevice
  exclusive := h.exclusive
  singleController := singleController t

/-- **A harmful request is granted**, and `permits` throws a `TypeError` afterwards. -/
theorem Poisons.not_sound {body : JsonObject} {overflows : Bool} (h : Settled numText t)
    (hpoisons : Poisons t body overflows) (random : JsString) :
    (∃ lease, (post numText t body overflows random).2 = .ok lease) ∧
      ¬ Sound numText (post numText t body overflows random).1 := by
  obtain ⟨⟨owner, howner⟩, hlasts, fields, deviceId, hget, hcapability, hdevice, hunlisted, hleases⟩ :=
    hpoisons
  have hkind : hasKind (.obj fields) (js "capability") = true := strictEquals_str.mpr hcapability
  have hscope : requiredScope body = .ok (.obj fields) := by
    unfold requiredScope
    rw [hget]
    simp [hkind, Json.truthy]
  have hpasses : ∀ id lease, Live t id lease →
      conflictCheck numText (.obj fields) (modeOf body) lease = .ok () := by
    intro id lease hlive
    obtain ⟨covers, hcovers⟩ := (h.harmless id lease hlive).coversDevice deviceId
    refine (conflictCheck_unlisted (.obj fields) hdevice (hasKind_device_of_capability hkind) hunlisted
      hcovers).mpr ?_
    rintro rfl
    exact hleases id lease hlive (leaseCoversDevice_eq_true.mp hcovers)
  -- The lease is granted, and no lease stands in the way of a shared permission.
  obtain ⟨lease, hlease⟩ : ∃ lease, lease =
      t.granted (.obj fields) owner (ttlMsOf body overflows) (modeOf body) random := ⟨_, rfl⟩
  have hpost : post numText t body overflows random = (grant t lease, .ok lease) := by
    rw [post, requiredString_eq_ok.mpr howner, hscope, hlease]
    rcases acquire_cases numText t (.obj fields) owner (ttlMsOf body overflows)
      (modeOf body) random with ⟨id, lease, thrown, hlive, hcheck, -⟩ | ⟨-, heq⟩
    · cases (hpasses id lease hlive).symm.trans hcheck
    · exact heq
  rw [hpost]
  refine ⟨⟨lease, rfl⟩, fun hsound => ?_⟩
  have hlive : Live (grant t lease) lease.id lease := by
    refine live_grant.mpr (Or.inl ⟨rfl, rfl, ?_⟩)
    rw [hlease]
    exact isExpired_granted.mpr hlasts
  have huntold : ∀ b, leaseCovers numText lease deviceId [] ≠ .ok b := by
    intro b hb
    have hcovers : leaseCoversDevice lease (some (.str deviceId)) = .ok true := by
      rw [hlease]
      exact leaseCoversDevice_eq_true.mpr hdevice
    rw [leaseCovers_of_kind hcovers (by rw [hlease]; exact hkind), hlease] at hb
    exact includes_unlisted hunlisted _ _ b hb
  obtain ⟨thrown, hthrown, -⟩ := isTypeError_of_permitsFrom [] false
    (mem_values_reapExpired.mpr ⟨lease.id, hlive⟩) huntold fun other hother hcovers => by
      obtain ⟨id, hlive'⟩ := mem_values_reapExpired.mp hother
      rcases live_grant.mp hlive' with ⟨-, rfl, -⟩ | ⟨-, hold⟩
      · exact absurd hcovers (huntold true)
      · exact (hleases id other hold (leaseCoversDevice_eq_true.mp
          (coversDevice_of_leaseCovers hcovers))).2.1
  obtain ⟨verdict, hverdict⟩ := hsound.permits [] deviceId [] .sharedRead
  cases hverdict.symm.trans hthrown

/-! ## Every run -/

/-- **Requests do no harm exactly while none asks, on a device with shared leases of the whole device at
most, for capabilities that are no list.** Along a run from a new table, whatever is requested and
called and whatever time passes: every request is rejected, and then no lease that has not expired is
touched, or the table it leads to and every later one is sound, if and only if no step poisons the
table. -/
theorem withstands_iff (numText : ℚ → JsString) (maxTtlMs now : ℚ) (actions : List Action) :
    Withstands numText (new maxTtlMs now) actions ↔
      (machine numText).Guarded Spares (new maxTtlMs now) actions := by
  have hsettled : ∀ {before m}, (machine numText).Guarded Spares (LeaseRequests.new maxTtlMs now) before →
      (machine numText).run (LeaseRequests.new maxTtlMs now) before = some m → Settled numText m :=
    fun hg hrun => Machine.run_guarded_invariant (fun _ _ _ h hspares hstep => h.step hspares hstep)
      (Settled.new maxTtlMs now) hg hrun
  constructor
  · intro h
    by_contra hnot
    obtain ⟨before, a, after, m, rfl, hm, hg, hharm⟩ := Machine.exists_guard_failure hnot
    cases a with
    | post body overflows random =>
      obtain ⟨⟨lease, haccepted⟩, hunsound⟩ :=
        Poisons.not_sound (hsettled hg hm) (not_not.mp hharm) random
      rcases h before body overflows random after m rfl hm with
        ⟨thrown, hrejected, -⟩ | ⟨-, -, hsound⟩
      · cases haccepted.symm.trans hrejected
      · exact hunsound (hsound [] after _ rfl rfl)
    | _ => exact hharm trivial
  · rintro hg before body overflows random after t rfl hrun
    obtain ⟨hbefore, hrest⟩ := hg.of_append hrun
    obtain ⟨hspares, hafter⟩ := hrest.of_cons (t := (post numText t body overflows random).1) rfl
    rcases post_cases numText t body overflows random with hrejected | ⟨owner, scope, -, -, -, haccepted⟩
    · exact Or.inl hrejected
    · refine Or.inr ⟨_, congrArg Prod.snd haccepted, ?_⟩
      rintro middle rest u rfl hu
      have hposted : Settled numText (post numText t body overflows random).1 :=
        (hsettled hbefore hrun).step (a := .post body overflows random) hspares rfl
      exact (Machine.run_guarded_invariant (fun _ _ _ h hspares hstep => h.step hspares hstep) hposted
        (hafter.of_append hu).1 hu).sound

/-- A capability scope that names no capabilities. -/
def listlessBody : JsonObject :=
  [(js "owner", .str (js "a")),
    (js "scope", .obj [(js "kind", .str (js "capability")), (js "deviceId", .str (js "arm"))])]

/-- **One request is enough.** A capability scope without capabilities is granted on a device without
leases. -/
theorem not_withstands : ¬ ∀ (numText : ℚ → JsString) (maxTtlMs now : ℚ) (actions : List Action),
    Withstands numText (new maxTtlMs now) actions := by
  intro h
  have hpoisons : Poisons (new 300000 0) listlessBody false :=
    { owner := ⟨js "a", by decide, rfl⟩
      lasts := by decide +kernel
      scope := ⟨_, js "arm", rfl, rfl, rfl, ⟨nofun, nofun⟩, fun _ _ hlive => nomatch hlive.1⟩ }
  obtain ⟨⟨lease, haccepted⟩, hunsound⟩ := Poisons.not_sound (Settled.new 300000 0) hpoisons (js "x")
  rcases h (fun _ => []) 300000 0 [.post listlessBody false (js "x")] [] listlessBody false (js "x") []
    (new 300000 0) rfl rfl with ⟨thrown, hrejected, -⟩ | ⟨-, -, hsound⟩
  · cases haccepted.symm.trans hrejected
  · exact hunsound (hsound [] [] _ rfl rfl)

end Pinout.Daemon.LeaseRequests
