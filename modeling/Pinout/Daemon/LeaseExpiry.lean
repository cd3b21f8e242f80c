import Pinout.Daemon.FailSafeMonitor
import Pinout.Leasing.Steps

/-! # Expired leases and the fail-safe monitor

A lease that expires is noticed when the table hands it to the monitor (`Noticed`). Only
`drainExpired` does; every other call that comes across an expired lease drops it. So leases are
noticed along exactly the runs in which no request comes across an expired lease before the timer
does (`Spares`). -/

namespace Pinout.Daemon

open Foundation Leasing

/-! ## Leases that leave and leases that come -/

section Departed

variable {m n p : LeaseManager} {lease : Lease}

/-- A lease of the table after some calls was there before, but for its expiry, or has a new id. -/
structure Issues (m n : LeaseManager) : Prop where
  sequence : m.sequence ≤ n.sequence
  origin : ∀ id lease, n.leases.get? id = some lease →
    (∃ old, m.leases.get? id = some old ∧ lease.id = old.id) ∨
    lease.id = id ∧ ∃ k random, m.sequence < k ∧ k ≤ n.sequence ∧ id = leaseId k random

theorem issues_of_keeps (h : LeaseManager.Keeps m n) : Issues m n where
  sequence := h.sequence.ge
  origin id lease hlease := by
    obtain ⟨old, hold, hsame, -⟩ := h.origin id lease hlease
    exact Or.inl ⟨old, hold, by rw [hsame]⟩

theorem Issues.trans (h : Issues m n) (h' : Issues n p) : Issues m p where
  sequence := h.sequence.trans h'.sequence
  origin id lease hlease := by
    rcases h'.origin id lease hlease with ⟨mid, hmid, hid⟩ | ⟨hid, k, random, hlt, hle, hk⟩
    · rcases h.origin id mid hmid with ⟨old, hold, hid'⟩ | ⟨hid', k, random, hlt, hle, hk⟩
      · exact Or.inl ⟨old, hold, hid.trans hid'⟩
      · exact Or.inr ⟨hid.trans hid', k, random, hlt, hle.trans h'.sequence, hk⟩
    · exact Or.inr ⟨hid, k, random, h.sequence.trans_lt hlt, hle, hk⟩

theorem issues_of_step {a : LeaseManager.Action} (h : LeaseManager.machine.step m a = some n) :
    Issues m n := by
  rcases LeaseManager.step_cases h with hkeeps | ⟨random, granted, hid, -, rfl⟩
  · exact issues_of_keeps hkeeps
  · refine ⟨Nat.le_succ _, fun id lease hlease => ?_⟩
    replace hlease : (m.reapExpired.1.leases.insert granted.id granted).get? id = some lease := hlease
    rw [InsertionMap.get?_insert] at hlease
    split at hlease
    · next hnew =>
      obtain rfl := Option.some.inj hlease
      exact Or.inr ⟨hnew.symm, m.sequence + 1, random, Nat.lt_succ_self _, le_rfl, hnew.trans hid⟩
    · exact Or.inl ⟨lease, (LeaseManager.get?_reapExpired.mp hlease).1, rfl⟩

theorem Request.issues (m : LeaseManager) (r : Monitoring.Request) : Issues m (r.apply m) := by
  cases r with
  | acquireLease options random => exact issues_of_step (a := .acquire options random) rfl
  | renewLease id owner ttlMs => exact issues_of_step (a := .renew id owner ttlMs) rfl
  | releaseLease id owner =>
    exact (issues_of_step (a := .get id) rfl).trans (issues_of_step (a := .release id owner) rfl)
  | listLeases => exact issues_of_step (a := .list [] []) rfl
  | permits owner deviceId capability =>
    exact issues_of_step (a := .permits owner deviceId capability .exclusive) rfl

end Departed

namespace Monitoring

variable {s t : Monitoring} {lease : Lease}

/-- The id of a lease that departs was in the table, and is not any more. -/
theorem mem_departed {m n : LeaseManager} : lease ∈ departed m n ↔
    (∃ id, m.leases.get? id = some lease) ∧ m.isExpired lease = true ∧
      n.leases.get? lease.id = none := by
  simp [departed, LeaseManager.values, InsertionMap.get?_eq_some_iff, and_comm]

/-! ## The account of the leases -/

/-- The table and the account of its expired leases fit together: no id is in both, and the monitor
was handed leases that left. -/
structure Accounts (s : Monitoring) : Prop where
  keyed : ∀ id lease, s.leases.leases.get? id = some lease → lease.id = id
  issued : ∀ id lease, s.leases.leases.get? id = some lease →
    ∃ k random, k ≤ s.leases.sequence ∧ id = leaseId k random
  issuedExpired : ∀ lease ∈ s.expired, ∃ k random, k ≤ s.leases.sequence ∧
    lease.id = leaseId k random
  gone : ∀ lease ∈ s.expired, s.leases.leases.get? lease.id = none
  nodup : (s.expired.map Lease.id).Nodup
  handed : s.handed.Sublist s.expired

theorem Accounts.new (failSafeOnAuthorityLoss : Bool) (maxTtlMs now : ℚ)
    (rules : List Policy.SafetyRule) (devices : List JsString) :
    (Monitoring.new failSafeOnAuthorityLoss maxTtlMs now rules devices).Accounts where
  keyed _ _ h := nomatch h
  issued _ _ h := nomatch h
  issuedExpired _ h := nomatch h
  gone _ h := nomatch h
  nodup := List.nodup_nil
  handed := List.Sublist.slnil

theorem Accounts.nodup_values (h : s.Accounts) : (s.leases.values.map Lease.id).Nodup := by
  have hkeys : s.leases.values.map Lease.id = s.leases.leases.entries.map Prod.fst := by
    rw [LeaseManager.values, List.map_map]
    refine List.map_congr_left fun e he => ?_
    exact h.keyed e.1 e.2 (InsertionMap.get?_eq_some_iff.mpr he)
  rw [hkeys]
  exact s.leases.leases.nodup

/-- An id that is issued later is neither in the table nor that of an expired lease. -/
theorem Accounts.fresh (h : s.Accounts) {k : Nat} {random : JsString}
    (hk : s.leases.sequence < k) :
    s.leases.leases.get? (leaseId k random) = none ∧
      ∀ lease ∈ s.expired, lease.id ≠ leaseId k random := by
  constructor
  · cases hget : s.leases.leases.get? (leaseId k random) with
    | none => rfl
    | some lease =>
      obtain ⟨k', random', hle, hid⟩ := h.issued _ _ hget
      have := leaseId_inj hid
      omega
  · intro lease hlease hid
    obtain ⟨k', random', hle, hid'⟩ := h.issuedExpired lease hlease
    have := leaseId_inj (hid'.symm.trans hid)
    omega

/-- **Departure.** The account fits when the leases that depart are added to it. -/
theorem Accounts.depart (h : s.Accounts) (hissues : Issues s.leases t.leases)
    (hexpired : t.expired = s.expired ++ departed s.leases t.leases)
    (hhanded : t.handed.Sublist t.expired) : t.Accounts where
  keyed id lease hlease := by
    rcases hissues.origin id lease hlease with ⟨old, hold, hid⟩ | ⟨hid, -⟩
    · exact hid.trans (h.keyed id old hold)
    · exact hid
  issued id lease hlease := by
    rcases hissues.origin id lease hlease with ⟨old, hold, -⟩ | ⟨-, k, random, -, hle, hk⟩
    · obtain ⟨k, random, hle, hk⟩ := h.issued id old hold
      exact ⟨k, random, hle.trans hissues.sequence, hk⟩
    · exact ⟨k, random, hle, hk⟩
  issuedExpired lease hlease := by
    rw [hexpired, List.mem_append] at hlease
    rcases hlease with hlease | hlease
    · obtain ⟨k, random, hle, hk⟩ := h.issuedExpired lease hlease
      exact ⟨k, random, hle.trans hissues.sequence, hk⟩
    · obtain ⟨⟨id, hin⟩, -⟩ := mem_departed.mp hlease
      obtain ⟨k, random, hle, hk⟩ := h.issued id lease hin
      exact ⟨k, random, hle.trans hissues.sequence, (h.keyed id lease hin).trans hk⟩
  gone lease hlease := by
    rw [hexpired, List.mem_append] at hlease
    rcases hlease with hlease | hlease
    · cases hget : t.leases.leases.get? lease.id with
      | none => rfl
      | some back =>
        -- It does not come back, and its id is not issued again.
        rcases hissues.origin _ back hget with ⟨old, hold, -⟩ | ⟨-, k, random, hlt, -, hk⟩
        · rw [h.gone lease hlease] at hold
          cases hold
        · exact absurd hk ((h.fresh hlt).2 lease hlease)
    · exact (mem_departed.mp hlease).2.2
  nodup := by
    rw [hexpired, List.map_append]
    refine List.Nodup.append h.nodup
      (h.nodup_values.sublist (List.filter_sublist.map Lease.id)) ?_
    intro id hid hid'
    obtain ⟨lease, hlease, rfl⟩ := List.mem_map.mp hid
    obtain ⟨lease', hlease', hsame⟩ := List.mem_map.mp hid'
    obtain ⟨⟨j, hj⟩, -⟩ := mem_departed.mp hlease'
    have hgone := h.gone lease hlease
    rw [← hsame, h.keyed j lease' hj, hj] at hgone
    cases hgone
  handed := hhanded

theorem Accounts.drained_eq (h : s.Accounts) :
    s.leases.drainExpired.2 = departed s.leases s.leases.drainExpired.1 := by
  refine List.filter_congr fun lease hlease => ?_
  cases hexpired : s.leases.isExpired lease with
  | false => rfl
  | true =>
    rw [Bool.true_and, eq_comm, Option.isNone_iff_eq_none]
    cases hget : s.leases.drainExpired.1.leases.get? lease.id with
    | none => rfl
    | some other =>
      -- Under its id there is only itself, and it has expired.
      obtain ⟨hother, hlive⟩ := LeaseManager.get?_reapExpired.mp hget
      obtain ⟨⟨id, x⟩, hx, rfl⟩ := List.mem_map.mp hlease
      have hin := InsertionMap.get?_eq_some_iff.mpr hx
      rw [h.keyed id x hin, hin] at hother
      obtain rfl := Option.some.inj hother
      rw [hexpired] at hlive
      cases hlive

/-! ## What a step does -/

/-- The leases the running tick has still to see to. -/
def waiting (s : Monitoring) : List Lease :=
  match s.failSafe.pass with
  | .idle => []
  | .reaping _ rest => rest

/-- What a step does to the leases, their account and the running tick: nothing; the time moves; the
tick goes on; or a request or the timer takes leases out of the table. -/
theorem account_cases {a : Action} (h : machine.step s a = some t) :
    (Frame s t ∧ t.waiting = s.waiting) ∨
    (∃ ms, 0 ≤ ms ∧ t = { s with leases := { s.leases with now := s.now + ms } }) ∨
    (∃ current rest, s.failSafe.pass = .reaping current rest ∧
      t = (s.endFailSafe current).reapFrom rest) ∨
    (∃ r, a = .request r ∧ t = { s with
      leases := r.apply s.leases
      expired := s.expired ++ departed s.leases (r.apply s.leases) }) ∨
    (a = .timer ∧ s.failSafe.pass = .idle ∧ t = reapFrom { s with
      leases := s.leases.drainExpired.1
      expired := s.expired ++ departed s.leases s.leases.drainExpired.1
      handed := s.handed ++ s.leases.drainExpired.2 } s.leases.drainExpired.2) := by
  cases a with
  | request r =>
    obtain rfl := Option.some.inj h
    exact Or.inr (Or.inr (Or.inr (Or.inl ⟨r, rfl, rfl⟩)))
  | timer =>
    obtain rfl : s.tick = t := Option.some.inj h
    unfold tick
    split
    · exact Or.inl ⟨Frame.refl s, rfl⟩
    · next hidle =>
      split
      · exact Or.inr (Or.inr (Or.inr (Or.inr ⟨rfl, hidle, rfl⟩)))
      · exact Or.inl ⟨Frame.refl s, rfl⟩
  | resume =>
    replace h : (match s.failSafe.pass with
      | .idle => none
      | .reaping current rest => some ((s.endFailSafe current).reapFrom rest)) = some t := h
    split at h
    · cases h
    · next current rest hpass =>
      obtain rfl := Option.some.inj h
      exact Or.inr (Or.inr (Or.inl ⟨current, rest, hpass, rfl⟩))
  | elapse ms =>
    replace h : (if 0 ≤ ms then some { s with leases := { s.leases with now := s.now + ms } }
      else none) = some t := h
    split at h
    · next hms =>
      obtain rfl := Option.some.inj h
      exact Or.inr (Or.inl ⟨ms, hms, rfl⟩)
    · cases h
  | heartbeat deviceId =>
    obtain rfl := Option.some.inj h
    exact Or.inl ⟨⟨rfl, rfl, rfl, List.prefix_refl _⟩, rfl⟩
  | markArmed deviceId owner =>
    obtain rfl : s.markArmed deviceId owner = t := Option.some.inj h
    exact Or.inl ⟨⟨rfl, rfl, rfl, List.prefix_refl _⟩, rfl⟩
  | markDisarmed deviceId =>
    obtain rfl : s.markDisarmed deviceId = t := Option.some.inj h
    exact Or.inl ⟨frame_markDisarmed s deviceId, rfl⟩
  | register deviceId =>
    obtain rfl := Option.some.inj h
    exact Or.inl ⟨⟨rfl, rfl, rfl, List.prefix_refl _⟩, rfl⟩
  | unregister deviceId =>
    obtain rfl := Option.some.inj h
    exact Or.inl ⟨⟨rfl, rfl, rfl, List.prefix_refl _⟩, rfl⟩

theorem Accounts.frame (h : s.Accounts) (hframe : Frame s t) : t.Accounts where
  keyed := hframe.leases ▸ h.keyed
  issued := hframe.leases ▸ h.issued
  issuedExpired := by rw [hframe.leases, hframe.expired]; exact h.issuedExpired
  gone := by rw [hframe.leases, hframe.expired]; exact h.gone
  nodup := by rw [hframe.expired]; exact h.nodup
  handed := by rw [hframe.expired, hframe.handed]; exact h.handed

/-- **Every step keeps the account.** -/
theorem Accounts.step (h : s.Accounts) {a : Action} (hstep : machine.step s a = some t) :
    t.Accounts := by
  rcases account_cases hstep with
    ⟨hframe, -⟩ | ⟨ms, -, rfl⟩ | ⟨current, rest, -, rfl⟩ | ⟨r, rfl, rfl⟩ | ⟨rfl, -, rfl⟩
  · exact h.frame hframe
  · exact ⟨h.keyed, h.issued, h.issuedExpired, h.gone, h.nodup, h.handed⟩
  · exact h.frame ((frame_endFailSafe s current).trans (frame_reapFrom _ rest))
  · exact h.depart (Request.issues s.leases r) rfl
      (h.handed.trans (List.sublist_append_left _ _))
  · refine Accounts.frame ?_ (frame_reapFrom _ _)
    refine h.depart (issues_of_step (a := .drainExpired) rfl) rfl ?_
    rw [h.drained_eq]
    exact h.handed.append (List.Sublist.refl _)

/-! ## Fail-safes -/

/-- `applyFailSafe` was called for an expired lease. -/
def MadeSafe (s : Monitoring) (lease : Lease) : Prop :=
  .failSafe lease.scope.deviceId (.leaseExpired lease.id) ∈ s.trace

/-- Every lease handed to the monitor was seen to, or is waiting. -/
def Serving (s : Monitoring) : Prop := ∀ lease ∈ s.handed, s.MadeSafe lease ∨ lease ∈ s.waiting

theorem Serving.reapFrom {rest : List Lease}
    (h : ∀ lease ∈ s.handed, s.MadeSafe lease ∨ lease ∈ rest) : (s.reapFrom rest).Serving := by
  intro lease hlease
  have hframe := frame_reapFrom s rest
  rw [hframe.handed] at hlease
  rcases h lease hlease with hsafe | hrest
  · exact Or.inl (hframe.trace.subset hsafe)
  · cases rest with
    | nil => cases hrest
    | cons next rest =>
      rcases List.mem_cons.mp hrest with rfl | hrest
      · -- The fail-safe of this lease begins now.
        refine Or.inl ?_
        have hbegin : Effect.failSafe lease.scope.deviceId (.leaseExpired lease.id) ∈
            ((s.effect (.leaseExpired lease)).beginFailSafe lease.scope.deviceId
              (.leaseExpired lease.id)).1.trace := by
          unfold beginFailSafe
          dsimp only
          split <;> simp [effect, markDisarmed]
        exact hbegin
      · exact Or.inr hrest

/-- What the running tick leaves alone, while it waits for the same leases, is served as before. -/
theorem Serving.frame (h : s.Serving) (hframe : Frame s t) (hwaiting : t.waiting = s.waiting) :
    t.Serving := by
  intro lease hlease
  rw [hframe.handed] at hlease
  rw [hwaiting]
  exact (h lease hlease).imp_left fun hsafe => hframe.trace.subset hsafe

/-- **Every step keeps serving.** -/
theorem Serving.step (h : s.Serving) {a : Action} (hstep : machine.step s a = some t) :
    t.Serving := by
  rcases account_cases hstep with
    ⟨hframe, hwaiting⟩ | ⟨ms, -, rfl⟩ | ⟨current, rest, hpass, rfl⟩ | ⟨r, rfl, rfl⟩ | ⟨rfl, hidle, rfl⟩
  · exact h.frame hframe hwaiting
  · exact h
  · refine Serving.reapFrom fun lease hlease => ?_
    have hframe := frame_endFailSafe s current
    rw [hframe.handed] at hlease
    refine (h lease hlease).imp (fun hsafe => hframe.trace.subset hsafe) fun hrest => ?_
    simpa [waiting, hpass] using hrest
  · exact h
  · refine Serving.reapFrom fun lease hlease => ?_
    rcases List.mem_append.mp hlease with hold | hnew
    · -- No tick was running, so every lease handed over before was seen to.
      refine (h lease hold).imp_right fun hrest => ?_
      simp [waiting, hidle] at hrest
    · exact Or.inr hnew

/-! ## Noticed leases -/

/-- Every lease that left the table because its time had elapsed was handed to the monitor, once; and
when no tick is running, a fail-safe was applied for each of them. -/
def Noticed (s : Monitoring) : Prop :=
  (∀ lease ∈ s.expired, s.handed.count lease = 1) ∧
    (s.failSafe.pass = .idle → ∀ lease ∈ s.expired, s.MadeSafe lease)

/-- The request takes no expired lease out of the table. -/
def Spares (m : LeaseManager) : Request → Prop
  | .renewLease id _ _ | .releaseLease id _ =>
    ∀ lease ∈ m.leases.get? id, m.isExpired lease = false
  | .acquireLease _ _ | .listLeases | .permits _ _ _ =>
    ∀ lease ∈ m.values, m.isExpired lease = false

/-- The requests of the run take no expired lease out of the table. -/
def Untouched (s : Monitoring) : Action → Prop
  | .request r => Spares s.leases r
  | _ => True

instance (m : LeaseManager) : ∀ r, Decidable (Spares m r)
  | .renewLease id _ _ | .releaseLease id _ =>
    inferInstanceAs (Decidable (∀ lease ∈ m.leases.get? id, m.isExpired lease = false))
  | .acquireLease _ _ | .listLeases | .permits _ _ _ =>
    inferInstanceAs (Decidable (∀ lease ∈ m.values, m.isExpired lease = false))

instance (s : Monitoring) : ∀ a, Decidable (s.Untouched a)
  | .request r => inferInstanceAs (Decidable (Spares s.leases r))
  | .timer | .resume | .elapse _ | .heartbeat _ | .markArmed _ _ | .markDisarmed _ | .register _
  | .unregister _ => isTrue trivial

/-- Leases are noticed when those that left are those that were handed over. -/
theorem Accounts.noticed_iff (h : s.Accounts) (hserving : s.Serving) :
    s.Noticed ↔ s.expired ⊆ s.handed := by
  have hnodup : s.handed.Nodup := (List.Nodup.of_map _ h.nodup).sublist h.handed
  constructor
  · intro hnoticed lease hlease
    exact List.count_pos_iff.mp (by rw [hnoticed.1 lease hlease]; exact Nat.one_pos)
  · refine fun hsub => ⟨fun lease hlease => List.count_eq_one_of_mem hnodup (hsub hlease),
      fun hidle lease hlease => ?_⟩
    refine (hserving lease (hsub hlease)).resolve_right fun hrest => ?_
    simp [waiting, hidle] at hrest

theorem Accounts.departed_eq_nil (h : s.Accounts) {n : LeaseManager} :
    departed s.leases n = [] ↔ ∀ id lease, s.leases.leases.get? id = some lease →
      s.leases.isExpired lease = true → n.leases.get? id ≠ none := by
  rw [List.eq_nil_iff_forall_not_mem]
  constructor
  · intro hnone id lease hlease hexpired hgone
    rw [← h.keyed id lease hlease] at hgone
    exact hnone lease (mem_departed.mpr ⟨⟨id, hlease⟩, hexpired, hgone⟩)
  · intro hstays lease hlease
    obtain ⟨⟨id, hin⟩, hexpired, hgone⟩ := mem_departed.mp hlease
    rw [h.keyed id lease hin] at hgone
    exact hstays id lease hin hexpired hgone

/-- A request that removes every expired lease spares them when there is none. -/
theorem Accounts.departed_of_reaps (h : s.Accounts) {n : LeaseManager}
    (hreaps : ∀ id lease, s.leases.leases.get? id = some lease →
      s.leases.isExpired lease = true → n.leases.get? id = none) :
    departed s.leases n = [] ↔ ∀ lease ∈ s.leases.values, s.leases.isExpired lease = false := by
  rw [h.departed_eq_nil]
  constructor
  · intro hstays lease hlease
    obtain ⟨⟨id, x⟩, hx, rfl⟩ := List.mem_map.mp hlease
    have hin := InsertionMap.get?_eq_some_iff.mpr hx
    by_contra hexpired
    rw [Bool.not_eq_false] at hexpired
    exact hstays id x hin hexpired (hreaps id x hin hexpired)
  · intro hlive id lease hlease hexpired
    have hmem : lease ∈ s.leases.values :=
      List.mem_map.mpr ⟨(id, lease), InsertionMap.get?_eq_some_iff.mp hlease, rfl⟩
    rw [hlive lease hmem] at hexpired
    cases hexpired

/-- A request that removes the lease it names, of the expired ones, spares them when that has not
expired. -/
theorem Accounts.departed_of_names (h : s.Accounts) {n : LeaseManager} {id : JsString}
    (hnames : ∀ j lease, s.leases.leases.get? j = some lease →
      s.leases.isExpired lease = true → (n.leases.get? j = none ↔ j = id)) :
    departed s.leases n = [] ↔
      ∀ lease, s.leases.leases.get? id = some lease → s.leases.isExpired lease = false := by
  rw [h.departed_eq_nil]
  constructor
  · intro hstays lease hlease
    by_contra hexpired
    rw [Bool.not_eq_false] at hexpired
    exact hstays id lease hlease hexpired ((hnames id lease hlease hexpired).mpr rfl)
  · intro hlive j lease hlease hexpired hgone
    obtain rfl := (hnames j lease hlease hexpired).mp hgone
    rw [hlive lease hlease] at hexpired
    cases hexpired

theorem get?_reapExpired_eq_none {m : LeaseManager} {id : JsString}
    (hlease : m.leases.get? id = some lease) (hexpired : m.isExpired lease = true) :
    m.reapExpired.1.leases.get? id = none := by
  cases hget : m.reapExpired.1.leases.get? id with
  | none => rfl
  | some other =>
    obtain ⟨hother, hlive⟩ := LeaseManager.get?_reapExpired.mp hget
    obtain rfl := Option.some.inj (hlease.symm.trans hother)
    rw [hexpired] at hlive
    cases hlive

/-- **A request takes no expired lease away exactly when it spares them.** -/
theorem Accounts.departed_eq_nil_iff (h : s.Accounts) (r : Request) :
    departed s.leases (r.apply s.leases) = [] ↔ Spares s.leases r := by
  cases r with
  | acquireLease options random =>
    refine h.departed_of_reaps fun id lease hlease hexpired => ?_
    have hgone := get?_reapExpired_eq_none hlease hexpired
    unfold Request.apply LeaseManager.acquire
    dsimp only
    split
    · exact hgone
    · -- The lease that is granted has a new id.
      refine (InsertionMap.get?_insert_of_ne _ _ fun hid => ?_).trans hgone
      rw [hid] at hlease
      exact Option.some_ne_none _ (hlease.symm.trans (h.fresh (Nat.lt_succ_self _)).1)
  | listLeases => exact h.departed_of_reaps fun _ _ hlease => get?_reapExpired_eq_none hlease
  | permits owner deviceId capability =>
    exact h.departed_of_reaps fun _ _ hlease => get?_reapExpired_eq_none hlease
  | renewLease id owner ttlMs =>
    refine h.departed_of_names fun j lease hlease hexpired => ?_
    by_cases hj : j = id
    · subst hj
      exact iff_of_true (LeaseManager.get?_renew_self hlease hexpired owner ttlMs) rfl
    · refine iff_of_false ?_ hj
      rw [Request.apply, LeaseManager.get?_renew_of_ne hj, hlease]
      exact Option.some_ne_none _
  | releaseLease id owner =>
    refine h.departed_of_names fun j lease hlease hexpired => ?_
    by_cases hj : j = id
    · subst hj
      exact iff_of_true (LeaseManager.get?_release_of_none
        (LeaseManager.get?_get_self hlease hexpired) owner) rfl
    · refine iff_of_false ?_ hj
      rw [Request.apply, LeaseManager.get?_release_of_ne hj, LeaseManager.get?_get_of_ne hj, hlease]
      exact Option.some_ne_none _

/-! ## Every run -/

/-- Along steps that spare the expired leases, those that left were handed over. -/
theorem handed_of_step (h : s.Accounts) {a : Action} (hall : s.expired ⊆ s.handed)
    (hspares : s.Untouched a) (hstep : machine.step s a = some t) : t.expired ⊆ t.handed := by
  rcases account_cases hstep with
    ⟨hframe, -⟩ | ⟨ms, -, rfl⟩ | ⟨current, rest, -, rfl⟩ | ⟨r, rfl, rfl⟩ | ⟨rfl, -, rfl⟩
  · rw [hframe.expired, hframe.handed]
    exact hall
  · exact hall
  · have hframe := (frame_endFailSafe s current).trans (frame_reapFrom _ rest)
    rw [hframe.expired, hframe.handed]
    exact hall
  · show s.expired ++ departed s.leases (r.apply s.leases) ⊆ s.handed
    rw [(h.departed_eq_nil_iff r).mpr hspares, List.append_nil]
    exact hall
  · have hframe := frame_reapFrom { s with
      leases := s.leases.drainExpired.1
      expired := s.expired ++ departed s.leases s.leases.drainExpired.1
      handed := s.handed ++ s.leases.drainExpired.2 } s.leases.drainExpired.2
    rw [hframe.expired, hframe.handed, ← h.drained_eq]
    exact List.append_subset.mpr ⟨fun lease hlease => List.mem_append_left _ (hall hlease),
      List.subset_append_right _ _⟩

/-- A lease that left without being handed over is never handed over. -/
theorem unhanded_of_step (h : s.Accounts) {a : Action}
    (hstep : machine.step s a = some t) (hexpired : lease ∈ s.expired) (hnot : lease ∉ s.handed) :
    lease ∈ t.expired ∧ lease ∉ t.handed := by
  rcases account_cases hstep with
    ⟨hframe, -⟩ | ⟨ms, -, rfl⟩ | ⟨current, rest, -, rfl⟩ | ⟨r, rfl, rfl⟩ | ⟨rfl, -, rfl⟩
  · rw [hframe.expired, hframe.handed]
    exact ⟨hexpired, hnot⟩
  · exact ⟨hexpired, hnot⟩
  · have hframe := (frame_endFailSafe s current).trans (frame_reapFrom _ rest)
    rw [hframe.expired, hframe.handed]
    exact ⟨hexpired, hnot⟩
  · exact ⟨List.mem_append_left _ hexpired, hnot⟩
  · have hframe := frame_reapFrom { s with
      leases := s.leases.drainExpired.1
      expired := s.expired ++ departed s.leases s.leases.drainExpired.1
      handed := s.handed ++ s.leases.drainExpired.2 } s.leases.drainExpired.2
    rw [hframe.expired, hframe.handed]
    refine ⟨List.mem_append_left _ hexpired, fun hin => ?_⟩
    rcases List.mem_append.mp hin with hold | hnew
    · exact hnot hold
    · -- What is drained was in the table.
      rw [h.drained_eq] at hnew
      obtain ⟨⟨id, hid⟩, -⟩ := mem_departed.mp hnew
      have hgone := h.gone lease hexpired
      rw [h.keyed id lease hid, hid] at hgone
      cases hgone

/-- A request that does not spare the expired leases takes one away that is not handed over. -/
theorem unhanded_of_touched (h : s.Accounts) {a : Action}
    (hstep : machine.step s a = some t) (htouched : ¬ s.Untouched a) :
    ∃ lease ∈ t.expired, lease ∉ t.handed := by
  cases a with
  | request r =>
    obtain rfl := Option.some.inj hstep
    have hne : departed s.leases (r.apply s.leases) ≠ [] :=
      fun hnil => htouched ((h.departed_eq_nil_iff r).mp hnil)
    obtain ⟨lease, hlease⟩ := List.exists_mem_of_ne_nil _ hne
    refine ⟨lease, List.mem_append_right _ hlease, fun hin => ?_⟩
    obtain ⟨⟨id, hid⟩, -⟩ := mem_departed.mp hlease
    have hgone := h.gone lease (h.handed.subset hin)
    rw [h.keyed id lease hid, hid] at hgone
    cases hgone
  | _ => exact absurd trivial htouched

theorem accounts_of_run {actions : List Action} (h : s.Accounts ∧ s.Serving)
    (hrun : machine.run s actions = some t) : t.Accounts ∧ t.Serving :=
  machine.run_invariant (I := fun s => s.Accounts ∧ s.Serving)
    (fun _ _ _ h hstep => ⟨h.1.step hstep, h.2.step hstep⟩) h hrun

/-- **No lease expires unnoticed.** At the end of a run of the daemon every lease that left the table
because its time had elapsed was handed to the monitor once, and made safe by the time the tick is
over, if and only if no request of the run came across an expired lease. -/
theorem noticed_iff_untouched (failSafeOnAuthorityLoss : Bool) (maxTtlMs now : ℚ)
    (rules : List Policy.SafetyRule) (devices : List JsString) (actions : List Action)
    (s : Monitoring)
    (hrun : machine.run (new failSafeOnAuthorityLoss maxTtlMs now rules devices) actions = some s) :
    s.Noticed ↔
      machine.Guarded Untouched (new failSafeOnAuthorityLoss maxTtlMs now rules devices) actions := by
  have hnew : (new failSafeOnAuthorityLoss maxTtlMs now rules devices).Accounts ∧
      (new failSafeOnAuthorityLoss maxTtlMs now rules devices).Serving :=
    ⟨Accounts.new _ _ _ _ _, fun _ hlease => nomatch hlease⟩
  obtain ⟨haccounts, hserving⟩ := accounts_of_run hnew hrun
  rw [haccounts.noticed_iff hserving]
  constructor
  · intro hall
    by_contra htouched
    obtain ⟨before, a, after, m, m', rfl, hm, -, hnot, hm'⟩ :=
      Machine.exists_of_not_guarded hrun htouched
    obtain ⟨haccountsm, -⟩ := accounts_of_run hnew hm
    obtain ⟨lease, hexpired, hunhanded⟩ := unhanded_of_touched haccountsm hm' hnot
    -- From there on the lease stays without notice.
    obtain ⟨m'', hm'', hrest⟩ := machine.run_append_eq_some.mp hrun
    obtain rfl := Option.some.inj (hm.symm.trans hm'')
    obtain ⟨m₁, hm₁, hrest⟩ := machine.run_cons_eq_some.mp hrest
    obtain rfl := Option.some.inj (hm'.symm.trans hm₁)
    have hkept := machine.run_invariant
      (I := fun u => u.Accounts ∧ lease ∈ u.expired ∧ lease ∉ u.handed)
      (fun _ _ _ hu hstep => ⟨hu.1.step hstep, unhanded_of_step hu.1 hstep hu.2.1 hu.2.2⟩)
      ⟨haccountsm.step hm', hexpired, hunhanded⟩ hrest
    exact hkept.2.2 (hall hkept.2.1)
  · intro hguarded
    have hkept := Machine.run_guarded_invariant
      (I := fun u : Monitoring => u.Accounts ∧ u.expired ⊆ u.handed)
      (fun _ _ _ hu hspares hstep => ⟨hu.1.step hstep, handed_of_step hu.1 hu.2 hspares hstep⟩)
      ⟨hnew.1, List.Subset.refl _⟩ hguarded hrun
    exact hkept.2

def oneDevice : Monitoring := new true 300000 0 [] [js "arm"]

def armRequest : Request :=
  .acquireLease
    { scope := .device (js "arm"), owner := js "a", ttlMs := some (.finite 1000) } (js "x")

/-- A lease that the timer comes to first is noticed. -/
theorem noticed_timer :
    ∃ s, machine.run oneDevice [.request armRequest, .elapse 1000, .timer, .resume] = some s ∧
      s.expired.length = 1 ∧ s.Noticed := by
  have hview : ((machine.run oneDevice
      [.request armRequest, .elapse 1000, .timer, .resume]).map fun s => s.expired.length) =
        some 1 := by decide +kernel
  obtain ⟨s, hs, hlength⟩ := Option.map_eq_some_iff.mp hview
  exact ⟨s, hs, hlength, (noticed_iff_untouched true 300000 0 [] [js "arm"] _ s hs).mpr
    (by decide +kernel)⟩

/-- **A lease can expire unnoticed.** A request that lists the leases after the expiry takes the lease
out of the table; the timer has nothing to hand over any more. -/
theorem not_noticed_listed :
    ∃ s, machine.run oneDevice [.request armRequest, .elapse 1000, .request .listLeases, .timer] =
        some s ∧
      ¬ s.Noticed := by
  have hview : ((machine.run oneDevice
      [.request armRequest, .elapse 1000, .request .listLeases, .timer]).map fun s =>
        s.expired.length == 1 && s.handed.isEmpty) = some true := by decide +kernel
  obtain ⟨s, hs, hview⟩ := Option.map_eq_some_iff.mp hview
  rw [Bool.and_eq_true, beq_iff_eq, List.isEmpty_iff] at hview
  obtain ⟨hexpired, hhanded⟩ := hview
  refine ⟨s, hs, fun hnoticed => ?_⟩
  obtain ⟨lease, hlease⟩ := List.length_eq_one_iff.mp hexpired
  have hcount := hnoticed.1 lease (by simp [hlease])
  rw [hhanded] at hcount
  cases hcount

end Monitoring

end Pinout.Daemon
