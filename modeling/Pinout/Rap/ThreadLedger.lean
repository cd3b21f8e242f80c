import Pinout.Leasing.Steps
import Pinout.Rap.Threads

/-! # What the threads and the daemon keep

One lemma for each thing that is noted in the record of a thread (`ThreadStore.Follows`), and for each request that the
daemon handles: what it does to the leases (`ThreadDaemon.Follows`), which leases are granted, and which invocations are
accepted. -/

namespace Pinout.Rap

open Foundation Leasing Daemon Pinout.Runtime

/-! ## Records -/

namespace ThreadStore

variable {s t : ThreadStore} {groupId other : JsString}

theorem getThread_upsertThread (s : ThreadStore) (groupId other : JsString) (thread : ThreadState) :
    (s.upsertThread groupId thread).getThread other = if other = groupId then thread else s.getThread other := by
  unfold upsertThread getThread
  rw [InsertionMap.get?_insert]
  split <;> rfl

/-- The later records have no other leases than those of the earlier ones and new ones, and no closed thread is opened. -/
structure Follows (new : JsString → Prop) (s t : ThreadStore) : Prop where
  closed : ∀ groupId, (s.getThread groupId).closed = true → (t.getThread groupId).closed = true
  leaseIds : ∀ groupId, ∀ id ∈ (t.getThread groupId).leaseIds, id ∈ (s.getThread groupId).leaseIds ∨ new id

variable {new : JsString → Prop}

theorem Follows.refl (s : ThreadStore) : Follows new s s := ⟨fun _ h => h, fun _ _ h => .inl h⟩

theorem follows_upsertThread {thread : ThreadState}
    (hclosed : (s.getThread groupId).closed = true → thread.closed = true)
    (hleases : ∀ id ∈ thread.leaseIds, id ∈ (s.getThread groupId).leaseIds ∨ new id) :
    Follows new s (s.upsertThread groupId thread) where
  closed other h := by
    rw [getThread_upsertThread]
    split
    · next heq => exact hclosed (heq ▸ h)
    · exact h
  leaseIds other id hid := by
    rw [getThread_upsertThread] at hid
    split at hid
    · next heq => rw [heq]; exact hleases id hid
    · exact .inl hid

theorem follows_noteDevice (s : ThreadStore) (groupId deviceId : JsString) :
    Follows new s (s.noteDevice groupId deviceId) := by
  unfold noteDevice
  dsimp only
  split
  · exact .refl s
  · exact follows_upsertThread (fun h => h) fun _ h => .inl h

theorem follows_noteLease (s : ThreadStore) (groupId : JsString) {leaseId : JsString} (hnew : new leaseId) :
    Follows new s (s.noteLease groupId leaseId) := by
  unfold noteLease
  dsimp only
  split
  · exact .refl s
  · refine follows_upsertThread (fun h => h) fun id hid => ?_
    rcases List.mem_append.mp hid with hold | hsame
    · exact .inl hold
    · rw [List.mem_singleton.mp hsame]
      exact .inr hnew

theorem follows_removeLease (s : ThreadStore) (groupId leaseId : JsString) :
    Follows new s (s.removeLease groupId leaseId) :=
  follows_upsertThread (fun h => h) fun _ hid => .inl (List.mem_filter.mp hid).1

theorem follows_markThreadClosed (s : ThreadStore) (groupId : JsString) :
    Follows new s (s.markThreadClosed groupId) :=
  follows_upsertThread (fun _ => rfl) fun _ hid => .inl hid

theorem closed_markThreadClosed (s : ThreadStore) (groupId : JsString) :
    ((s.markThreadClosed groupId).getThread groupId).closed = true := by
  unfold markThreadClosed
  rw [getThread_upsertThread, if_pos rfl]

theorem follows_executeOperation (s : ThreadStore) (owner operation : JsString) (args : JsonObject) :
    Follows new s (executeOperation s owner operation args).1 := by
  unfold executeOperation
  dsimp only
  split_ifs
  · split
    · exact follows_noteDevice s owner _
    · exact .refl s
  · exact .refl s
  · split
    · exact follows_noteDevice s owner _
    · exact .refl s
  · exact .refl s
  · split
    · exact follows_noteDevice s owner _
    · exact .refl s
  · exact .refl s
  · exact .refl s

/-- What a call notes after its request: the lease it acquired. -/
theorem follows_noteAnswer {request : DaemonRequest} {answer : DaemonAnswer} (owner : JsString)
    (hnew : ∀ deviceId owner mode ttlMs lease, request = .acquireLease deviceId owner mode ttlMs →
      answer = .lease lease → new lease.id) :
    Follows new s (noteAnswer s owner request answer) := by
  unfold noteAnswer
  split
  · next deviceId owner' mode ttlMs lease =>
    split
    · exact .refl s
    · exact follows_noteLease s owner (hnew deviceId owner' mode ttlMs lease rfl rfl)
  · exact follows_removeLease s owner _
  · exact .refl s

end ThreadStore

/-! ## Leases -/

def Issued (m : LeaseManager) (id : JsString) : Prop := ∃ k ≤ m.sequence, ∃ random, id = leaseId k random

/-- The leases of the table have the ids they are kept under, which were given to them. -/
def Keyed (m : LeaseManager) : Prop :=
  ∀ id lease, m.leases.get? id = some lease → lease.id = id ∧ Issued m id

/-- What the daemon does between two states: leases change their expiry or leave, and those that come have new ids. -/
structure ThreadDaemon.Follows (d e : ThreadDaemon) : Prop where
  sequence : d.leases.sequence ≤ e.leases.sequence
  origin : ∀ id lease, e.leases.leases.get? id = some lease →
    (∃ old, d.leases.leases.get? id = some old ∧ lease.id = old.id ∧ lease.owner = old.owner) ∨
    (lease.id = id ∧ d.leases.sequence < e.leases.sequence ∧ ∃ random, id = leaseId (d.leases.sequence + 1) random)
  granted : ∀ entry ∈ e.granted, entry ∈ d.granted ∨
    (d.leases.sequence < e.leases.sequence ∧ ∃ random, entry.2 = leaseId (d.leases.sequence + 1) random)

section Leases

variable {m n : LeaseManager} {id random : JsString}

theorem Issued.mono (h : Issued m id) (hle : m.sequence ≤ n.sequence) : Issued n id := by
  obtain ⟨k, hk, random, rfl⟩ := h
  exact ⟨k, hk.trans hle, random, rfl⟩

theorem Issued.ne_next (h : Issued m id) : id ≠ leaseId (m.sequence + 1) random := by
  obtain ⟨k, hk, random', rfl⟩ := h
  intro heq
  have := leaseId_inj heq
  omega

theorem issued_next (h : m.sequence < n.sequence) : Issued n (leaseId (m.sequence + 1) random) :=
  ⟨_, h, random, rfl⟩

variable {d e : ThreadDaemon}

theorem ThreadDaemon.follows_of_keeps (hkeeps : LeaseManager.Keeps d.leases e.leases) (hgranted : e.granted = d.granted) :
    d.Follows e where
  sequence := hkeeps.sequence.ge
  origin id lease hlease := by
    obtain ⟨old, hold, hsame, -⟩ := hkeeps.origin id lease hlease
    exact .inl ⟨old, hold, by rw [hsame], by rw [hsame]⟩
  granted entry hentry := .inl (hgranted ▸ hentry)

theorem ThreadDaemon.follows_of_step {action : LeaseManager.Action}
    (hstep : LeaseManager.machine.step d.leases action = some n) : d.Follows { d with leases := n } := by
  rcases LeaseManager.step_cases hstep with hkeeps | ⟨random, lease, hid, -, rfl⟩
  · exact follows_of_keeps hkeeps rfl
  · refine ⟨Nat.le_succ _, fun id old hold => ?_, fun entry hentry => .inl hentry⟩
    replace hold : (d.leases.reapExpired.1.leases.insert lease.id lease).get? id = some old := hold
    rw [InsertionMap.get?_insert] at hold
    split at hold
    · next heq =>
      obtain rfl := Option.some.inj hold
      exact .inr ⟨heq.symm, Nat.lt_succ_self _, random, heq.trans hid⟩
    · exact .inl ⟨old, (LeaseManager.get?_reapExpired.mp hold).1, rfl, rfl⟩

theorem ThreadDaemon.Follows.keyed (h : d.Follows e) (hkeyed : Keyed d.leases) : Keyed e.leases := by
  intro id lease hlease
  rcases h.origin id lease hlease with ⟨old, hold, hsame, -⟩ | ⟨hid, hlt, random, hnext⟩
  · obtain ⟨hid, hissued⟩ := hkeyed id old hold
    exact ⟨hsame.trans hid, hissued.mono h.sequence⟩
  · exact ⟨hid, hnext ▸ issued_next hlt⟩

/-- An id that was given and is not in the table is never again in it. -/
theorem ThreadDaemon.Follows.get?_eq_none (h : d.Follows e) (hissued : Issued d.leases id)
    (hnone : d.leases.leases.get? id = none) : e.leases.leases.get? id = none := by
  cases hget : e.leases.leases.get? id with
  | none => rfl
  | some lease =>
    rcases h.origin id lease hget with ⟨old, hold, -⟩ | ⟨-, -, random, hnext⟩
    · rw [hnone] at hold
      cases hold
    · exact absurd hnext hissued.ne_next

end Leases

/-! ## Requests -/

namespace ThreadDaemon

variable {runtime : PinoutRuntime} {config : DaemonConfig} {d : ThreadDaemon} {groupId : Option JsString}
  {c : Circumstances}

theorem checkLeases_fst (d : ThreadDaemon) (runtime : PinoutRuntime) (config : DaemonConfig)
    (deviceId capability owner : JsString) :
    (d.checkLeases runtime config deviceId capability owner).1 = d ∨
      (d.checkLeases runtime config deviceId capability owner).1 = { d with leases := d.leases.reapExpired.1 } := by
  unfold checkLeases
  split
  · exact .inr rfl
  · exact .inl rfl

theorem follows_reapExpired (d : ThreadDaemon) : d.Follows { d with leases := d.leases.reapExpired.1 } :=
  follows_of_keeps (LeaseManager.keeps_reapExpired d.leases) rfl

theorem Follows.refl (d : ThreadDaemon) : d.Follows d :=
  follows_of_keeps (LeaseManager.keeps_of_restrict le_rfl rfl fun _ _ h => h) rfl

theorem Follows.accept {e : ThreadDaemon} (h : d.Follows e) (accepted : List AcceptedInvocation) :
    d.Follows { e with accepted } := ⟨h.sequence, h.origin, h.granted⟩

def entry (runtime : PinoutRuntime) (groupId : Option JsString) (deviceId capability : JsString) :
    AcceptedInvocation where
  groupId := groupId
  deviceId := deviceId
  capability := capability
  physicalOutput := (descriptor? runtime deviceId capability).any (·.physicalOutput)

/-- **What an invocation does**: an operation is begun for it, or not. -/
theorem invoke_cases (d : ThreadDaemon) (runtime : PinoutRuntime) (config : DaemonConfig)
    (groupId : Option JsString) (c : Circumstances)
    (deviceId capability owner : JsString) :
    let r := d.invoke runtime config groupId c deviceId capability owner
    d.Follows r.1 ∧ r.1.granted = d.granted ∧
      ((d.begins runtime config c deviceId capability owner = true ∧ r.2 = .done ∧
          r.1.accepted = d.accepted ++ [entry runtime groupId deviceId capability]) ∨
        (d.begins runtime config c deviceId capability owner = false ∧ r.1.accepted = d.accepted)) := by
  have hchecked : d.Follows (d.checkLeases runtime config deviceId capability owner).1 ∧
      (d.checkLeases runtime config deviceId capability owner).1.granted = d.granted ∧
      (d.checkLeases runtime config deviceId capability owner).1.accepted = d.accepted := by
    rcases d.checkLeases_fst runtime config deviceId capability owner with h | h
    · rw [h]
      exact ⟨.refl d, rfl, rfl⟩
    · rw [h]
      exact ⟨d.follows_reapExpired, rfl, rfl⟩
  obtain ⟨hfollows, hgranted, haccepted⟩ := hchecked
  dsimp only
  unfold invoke
  dsimp only
  cases hbegins : d.begins runtime config c deviceId capability owner with
  | true => exact ⟨hfollows.accept _, hgranted, .inl ⟨rfl, rfl, by rw [if_pos rfl, haccepted]; rfl⟩⟩
  | false =>
    rw [if_neg Bool.false_ne_true]
    split
    · exact ⟨.refl d, rfl, .inr ⟨rfl, rfl⟩⟩
    · split
      · exact ⟨hfollows, hgranted, .inr ⟨rfl, haccepted⟩⟩
      · exact ⟨.refl d, rfl, .inr ⟨rfl, rfl⟩⟩

/-- A request finds a conflict, or a lease with the next id is added to the leases that had not expired. -/
theorem acquire_eq (m : LeaseManager) (options : AcquireLeaseOptions) (random : JsString) :
    (∃ thrown, m.acquire options random = (m.reapExpired.1, .error thrown)) ∨
      ∃ lease : Lease, lease.id = leaseId (m.sequence + 1) random ∧ m.acquire options random =
        ({ m.reapExpired.1 with
            sequence := m.sequence + 1
            leases := m.reapExpired.1.leases.insert lease.id lease }, .ok lease) := by
  unfold LeaseManager.acquire
  dsimp only
  split
  · exact .inl ⟨_, rfl⟩
  · exact .inr ⟨_, rfl, rfl⟩

/-- **What a request for a lease does**: a new lease is granted, or none. -/
theorem acquireLease_cases (d : ThreadDaemon) (groupId : Option JsString) (c : Circumstances)
    (deviceId owner : JsString) (mode : Option JsString) (ttlMs : Option ℚ) :
    let r := d.acquireLease groupId c deviceId owner mode ttlMs
    d.Follows r.1 ∧ r.1.accepted = d.accepted ∧
      ((∃ lease, r.2 = .lease lease ∧ Issued r.1.leases lease.id) ∨ (r.2 = .refused ∧ r.1.granted = d.granted)) := by
  dsimp only
  unfold acquireLease
  split
  · exact ⟨.refl d, rfl, .inr ⟨rfl, rfl⟩⟩
  · dsimp only
    rcases acquire_eq d.leases _ c.random with ⟨thrown, hacquire⟩ | ⟨lease, hid, hacquire⟩
    · rw [hacquire]
      exact ⟨d.follows_reapExpired, rfl, .inr ⟨rfl, rfl⟩⟩
    · rw [hacquire]
      have hlt : d.leases.sequence < d.leases.sequence + 1 := Nat.lt_succ_self _
      refine ⟨⟨Nat.le_succ _, fun id old hold => ?_, fun entry hentry => ?_⟩, rfl, .inl ⟨lease, rfl, ?_⟩⟩
      · dsimp only at hold
        rw [InsertionMap.get?_insert] at hold
        split at hold
        · next heq =>
          obtain rfl := Option.some.inj hold
          exact .inr ⟨heq.symm, hlt, c.random, heq.trans hid⟩
        · exact .inl ⟨old, (LeaseManager.get?_reapExpired.mp hold).1, rfl, rfl⟩
      · rcases List.mem_append.mp hentry with hold | hnew
        · exact .inl hold
        · cases groupId with
          | none => cases hnew
          | some g =>
            rw [List.mem_singleton.mp hnew]
            exact .inr ⟨hlt, c.random, hid⟩
      · exact ⟨_, le_rfl, c.random, hid⟩

theorem mem_granted_acquireLease {deviceId owner : JsString} {mode : Option JsString} {ttlMs : Option ℚ}
    {entry : JsString × JsString}
    (h : entry ∈ (d.acquireLease groupId c deviceId owner mode ttlMs).1.granted) :
    entry ∈ d.granted ∨
      (groupId = some entry.1 ∧ (d.acquireLease groupId c deviceId owner mode ttlMs).2 ≠ .refused) := by
  unfold acquireLease at h ⊢
  split at h
  · exact .inl h
  · next howner =>
    rw [if_neg howner]
    dsimp only at h ⊢
    split at h
    · next hacquire =>
      rcases List.mem_append.mp h with hold | hnew
      · exact .inl hold
      · cases groupId with
        | none => cases hnew
        | some g =>
          rw [List.mem_singleton.mp hnew]
          exact .inr ⟨rfl, DaemonAnswer.noConfusion⟩
    · exact .inl h

/-- **What a release does**: the lease is gone, or it belongs to another owner. -/
theorem releaseLease_cases (d : ThreadDaemon) (leaseId owner : JsString) :
    let r := d.releaseLease leaseId owner
    d.Follows r.1 ∧ r.1.accepted = d.accepted ∧ r.1.granted = d.granted ∧
      ((r.2 = .done ∧ r.1.leases.leases.get? leaseId = none) ∨
        (r.2 = .refused ∧ ∃ lease, d.leases.leases.get? leaseId = some lease ∧ lease.owner ≠ owner)) := by
  have hkeeps := (d.leases.keeps_get leaseId)
  have hkeeps' := (d.leases.get leaseId).1.keeps_release leaseId owner
  have hfollows : d.Follows { d with leases := ((d.leases.get leaseId).1.release leaseId owner).1 } := by
    have hfirst : d.Follows { d with leases := (d.leases.get leaseId).1 } := follows_of_keeps hkeeps rfl
    have hsecond : ThreadDaemon.Follows { d with leases := (d.leases.get leaseId).1 }
        { d with leases := ((d.leases.get leaseId).1.release leaseId owner).1 } := follows_of_keeps hkeeps' rfl
    refine ⟨hkeeps.sequence.ge.trans hkeeps'.sequence.ge, fun id lease hlease => ?_, fun entry hentry => .inl hentry⟩
    rcases hsecond.origin id lease hlease with ⟨mid, hmid, hid, howner⟩ | ⟨-, hlt, -⟩
    · rcases hfirst.origin id mid hmid with ⟨old, hold, hid', howner'⟩ | ⟨-, hlt, -⟩
      · exact .inl ⟨old, hold, hid.trans hid', howner.trans howner'⟩
      · exact absurd hlt hkeeps.sequence.le.not_gt
    · exact absurd hlt hkeeps'.sequence.le.not_gt
  dsimp only
  unfold releaseLease
  cases hrelease : (d.leases.get leaseId).1.release leaseId owner with
  | mk leases result =>
    rw [hrelease] at hfollows
    unfold LeaseManager.release at hrelease
    cases result with
    | ok =>
      refine ⟨hfollows, rfl, rfl, .inl ⟨rfl, ?_⟩⟩
      split at hrelease
      · next hnone =>
        obtain ⟨rfl, -⟩ := Prod.mk.inj hrelease
        exact hnone
      · split at hrelease
        · cases (Prod.mk.inj hrelease).2
        · obtain ⟨rfl, -⟩ := Prod.mk.inj hrelease
          exact InsertionMap.get?_erase_self _ _
    | error =>
      refine ⟨hfollows, rfl, rfl, .inr ⟨rfl, ?_⟩⟩
      split at hrelease
      · cases (Prod.mk.inj hrelease).2
      · next lease hlease =>
        split at hrelease
        · next howner =>
          obtain ⟨old, hold, hsame, -⟩ := hkeeps.origin leaseId lease hlease
          refine ⟨old, hold, ?_⟩
          rw [hsame] at howner
          exact howner
        · cases (Prod.mk.inj hrelease).2

theorem list_nil_nil (m : LeaseManager) : m.list [] [] = (m.reapExpired.1, m.reapExpired.1.values) := by
  unfold LeaseManager.list
  simp

/-- **What a request does** to the leases. -/
theorem follows_handle (d : ThreadDaemon) (groupId : Option JsString) (c : Circumstances) (request : DaemonRequest) :
    d.Follows (d.handle runtime config groupId c request).1 := by
  cases request with
  | acquireLease deviceId owner mode ttlMs => exact (d.acquireLease_cases groupId c deviceId owner mode ttlMs).1
  | renewLease leaseId owner ttlMs =>
    have hkeeps := d.leases.keeps_renew leaseId owner (ttlMs.map .finite)
    unfold handle
    dsimp only
    split
    · next hrenew =>
      rw [hrenew] at hkeeps
      exact follows_of_keeps hkeeps rfl
    · next hrenew =>
      rw [hrenew] at hkeeps
      exact follows_of_keeps hkeeps rfl
  | releaseLease leaseId owner => exact (d.releaseLease_cases leaseId owner).1
  | listLeases =>
    unfold handle
    dsimp only
    rw [list_nil_nil]
    exact d.follows_reapExpired
  | invoke deviceId capability owner => exact (d.invoke_cases runtime config groupId c deviceId capability owner).1
  | other => exact .refl d

theorem granted_handle {request : DaemonRequest}
    (h : ∀ deviceId owner mode ttlMs, request ≠ .acquireLease deviceId owner mode ttlMs) :
    (d.handle runtime config groupId c request).1.granted = d.granted := by
  cases request with
  | acquireLease deviceId owner mode ttlMs => exact absurd rfl (h deviceId owner mode ttlMs)
  | renewLease leaseId owner ttlMs =>
    unfold handle
    dsimp only
    split <;> rfl
  | releaseLease leaseId owner => exact (d.releaseLease_cases leaseId owner).2.2.1
  | listLeases => rfl
  | invoke deviceId capability owner => exact (d.invoke_cases runtime config groupId c deviceId capability owner).2.1
  | other => rfl

theorem accepted_handle {request : DaemonRequest}
    (h : ∀ deviceId capability owner, request ≠ .invoke deviceId capability owner) :
    (d.handle runtime config groupId c request).1.accepted = d.accepted := by
  cases request with
  | acquireLease deviceId owner mode ttlMs => exact (d.acquireLease_cases groupId c deviceId owner mode ttlMs).2.1
  | renewLease leaseId owner ttlMs =>
    unfold handle
    dsimp only
    split <;> rfl
  | releaseLease leaseId owner => exact (d.releaseLease_cases leaseId owner).2.1
  | listLeases => rfl
  | invoke deviceId capability owner => exact absurd rfl (h deviceId capability owner)
  | other => rfl

/-- What is accepted for a request is an invocation of its group. -/
theorem exists_accepted_handle (d : ThreadDaemon) (runtime : PinoutRuntime) (config : DaemonConfig)
    (groupId : Option JsString) (c : Circumstances) (request : DaemonRequest) :
    ∃ new, (d.handle runtime config groupId c request).1.accepted = d.accepted ++ new ∧
      ∀ entry ∈ new, entry.groupId = groupId := by
  by_cases hinvoke : ∃ deviceId capability owner, request = .invoke deviceId capability owner
  · obtain ⟨deviceId, capability, owner, rfl⟩ := hinvoke
    obtain ⟨-, -, ⟨-, -, haccepted⟩ | ⟨-, haccepted⟩⟩ :=
      d.invoke_cases runtime config groupId c deviceId capability owner
    · refine ⟨[entry runtime groupId deviceId capability], haccepted, fun e he => ?_⟩
      rw [List.mem_singleton.mp he]
      rfl
    · exact ⟨[], haccepted.trans (List.append_nil _).symm, fun _ he => nomatch he⟩
  · refine ⟨[], ?_, fun _ he => nomatch he⟩
    rw [List.append_nil]
    exact accepted_handle fun deviceId capability owner heq => hinvoke ⟨deviceId, capability, owner, heq⟩

end ThreadDaemon

end Pinout.Rap
