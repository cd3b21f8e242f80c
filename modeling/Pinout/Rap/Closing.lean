import Pinout.Rap.ThreadLedger

/-! # One closing

What is promised of a group whose thread is closed (`RapSite.ClosedSafely`), which steps keep its closings from missing
something (`RapSite.Orderly`), and what such steps leave of one closing (`RapClosing.Sound`): the leases of its group are
those it is still going to release, and the devices it was answered for are disarmed. -/

namespace Pinout.Rap

open Foundation Leasing Daemon Pinout.Runtime

/-! ## What closing a thread is for -/

/-- An invocation of a group that actuates a device. -/
def AcceptedInvocation.Actuates (entry : AcceptedInvocation) (groupId deviceId : JsString) : Prop :=
  entry.groupId = some groupId ∧ entry.deviceId = deviceId ∧ entry.physicalOutput = true ∧
    entry.capability ∉ safeCapabilities
  deriving Decidable

/-- An invocation that disarms a device or brings it to its safe state. -/
def AcceptedInvocation.MakesSafe (entry : AcceptedInvocation) (deviceId : JsString) : Prop :=
  entry.deviceId = deviceId ∧ entry.capability ∈ safeCapabilities
  deriving Decidable

/-- Every actuation of a device by a group is followed by an invocation that makes the device safe. -/
def Disarmed (groupId deviceId : JsString) : List AcceptedInvocation → Prop
  | [] => True
  | entry :: later =>
    (entry.Actuates groupId deviceId → ∃ after ∈ later, after.MakesSafe deviceId) ∧ Disarmed groupId deviceId later

/-- Whether a device is disarmed can be evaluated. -/
instance decidableDisarmed (groupId deviceId : JsString) : ∀ accepted, Decidable (Disarmed groupId deviceId accepted)
  | [] => isTrue trivial
  | entry :: later =>
    have := decidableDisarmed groupId deviceId later
    inferInstanceAs (Decidable ((entry.Actuates groupId deviceId → ∃ after ∈ later, after.MakesSafe deviceId) ∧
      Disarmed groupId deviceId later))

section Disarmed

variable {groupId deviceId : JsString} {entry : AcceptedInvocation} {accepted : List AcceptedInvocation}

/-- An invocation that makes a device safe does not actuate it. -/
theorem AcceptedInvocation.MakesSafe.not_actuates (h : entry.MakesSafe deviceId) :
    ¬ entry.Actuates groupId deviceId := fun hactuates => hactuates.2.2.2 h.2

/-- Whether a device is disarmed is decided by the last invocation that makes it safe or actuates it. -/
theorem disarmed_append : Disarmed groupId deviceId (accepted ++ [entry]) ↔
    entry.MakesSafe deviceId ∨ (Disarmed groupId deviceId accepted ∧ ¬ entry.Actuates groupId deviceId) := by
  induction accepted with
  | nil =>
    simp only [List.nil_append, Disarmed, List.not_mem_nil, false_and, exists_false, and_true, true_and]
    constructor
    · exact fun h => .inr h
    · rintro (hsafe | h)
      · exact hsafe.not_actuates
      · exact h
  | cons first later ih =>
    simp only [List.cons_append, Disarmed, ih, List.mem_append, List.mem_singleton]
    constructor
    · rintro ⟨hfirst, hsafe | ⟨hlater, hentry⟩⟩
      · exact .inl hsafe
      · by_cases hsafe : entry.MakesSafe deviceId
        · exact .inl hsafe
        · refine .inr ⟨⟨fun hactuates => ?_, hlater⟩, hentry⟩
          obtain ⟨after, hafter | rfl, hmakes⟩ := hfirst hactuates
          · exact ⟨after, hafter, hmakes⟩
          · exact absurd hmakes hsafe
    · rintro (hsafe | ⟨⟨hfirst, hlater⟩, hentry⟩)
      · exact ⟨fun _ => ⟨entry, .inr rfl, hsafe⟩, .inl hsafe⟩
      · refine ⟨fun hactuates => ?_, .inr ⟨hlater, hentry⟩⟩
        obtain ⟨after, hafter, hmakes⟩ := hfirst hactuates
        exact ⟨after, .inl hafter, hmakes⟩

theorem Disarmed.append (h : Disarmed groupId deviceId accepted) {new : List AcceptedInvocation}
    (hnew : ∀ entry ∈ new, ¬ entry.Actuates groupId deviceId) : Disarmed groupId deviceId (accepted ++ new) := by
  induction new generalizing accepted with
  | nil =>
    rw [List.append_nil]
    exact h
  | cons first rest ih =>
    rw [List.append_cons]
    exact ih (disarmed_append.mpr (.inr ⟨h, hnew first List.mem_cons_self⟩))
      fun entry hentry => hnew entry (List.mem_cons_of_mem _ hentry)

end Disarmed

namespace RapClosing

def Closes (c : RapClosing) (groupId : JsString) : Prop := c.closesThread = true ∧ c.groupId = groupId
  deriving Decidable

/-- Whether the leases of the daemon are listed. -/
def listed (c : RapClosing) : Bool :=
  match c.phase with
  | .cancelling | .releasing _ _ _ | .listing none => false
  | .listing (some _) | .releasingListed _ _ _ | .disarming _ _ _ _ _ | .resolved => true

/-- `disarmOrSafeState` has been answered for a device. -/
def Reached (c : RapClosing) (deviceId : JsString) : Prop :=
  deviceId ∈ c.disarmedDevices ∨
    match c.phase with
    | .disarming device _ _ others (some answer) => device = deviceId ∧ (answer = .done ∨ others = [])
    | _ => False

instance (c : RapClosing) (deviceId : JsString) : Decidable (c.Reached deviceId) := by
  unfold Reached
  split <;> infer_instance

end RapClosing

namespace RapSite

variable (runtime : PinoutRuntime) (config : DaemonConfig)

/-- A `closeThread` of a group has resolved, and the calls of the group have settled. -/
def Closed (s : RapSite) (groupId : JsString) : Prop :=
  (∃ closing ∈ s.closings, closing.Closes groupId ∧ closing.phase = .resolved) ∧
    ∀ call ∈ s.calls, call.callId.groupId = groupId → call.phase = .settled

/-- No lease that was granted to a call of the group remains. -/
def NoLeaseLeft (s : RapSite) (groupId : JsString) : Prop :=
  ∀ lease ∈ s.daemon.leases.values, s.daemon.leases.isExpired lease = false → (groupId, lease.id) ∉ s.daemon.granted

/-- Every device that a `closeThread` of the group lists as disarmed is disarmed. -/
def ListedDisarmed (s : RapSite) (groupId : JsString) : Prop :=
  ∀ closing ∈ s.closings, closing.Closes groupId → ∀ deviceId ∈ closing.disarmedDevices,
    Disarmed groupId deviceId s.daemon.accepted

/-- In the runs from a state whose steps meet a guard, no physical invocation of the group is accepted. -/
def Silent (guard : RapSite → SiteEvent → Prop) (s : RapSite) (groupId : JsString) : Prop :=
  ∀ events t, (machine runtime config).run s events = some t → (machine runtime config).Guarded guard s events →
    ∀ entry ∈ t.daemon.accepted.drop s.daemon.accepted.length, entry.groupId = some groupId →
      entry.physicalOutput = false

/-- What is promised of a group whose thread is closed. -/
structure ClosedSafely (guard : RapSite → SiteEvent → Prop) (s : RapSite) (groupId : JsString) : Prop where
  noLeaseLeft : s.NoLeaseLeft groupId
  silent : s.Silent runtime config guard groupId
  listedDisarmed : s.ListedDisarmed groupId

/-- The step of a call does not come too late for the closings of its group. -/
def CallInTime (s : RapSite) (groupId : JsString) (c : Circumstances) (call : RapCall) : Prop :=
  match call.phase with
  | .requested (.acquireLease deviceId owner mode ttlMs) =>
    (s.daemon.acquireLease (some groupId) c deviceId owner mode ttlMs).2 ≠ .refused →
      ∀ closing ∈ s.closings, closing.Closes groupId → closing.listed = false
  | .requested (.invoke deviceId capability owner) =>
    s.daemon.begins runtime config c deviceId capability owner = true → capability ∉ safeCapabilities →
      (descriptor? runtime deviceId capability).any (·.physicalOutput) = true →
        ∀ closing ∈ s.closings, closing.Closes groupId → ¬ closing.Reached deviceId
  | _ => True

/-- The step of a closing finds what there is to clean up, and cleans it up. -/
def ClosingReaches (s : RapSite) (groupId : JsString) (c : Circumstances) (closing : RapClosing) : Prop :=
  match closing.phase with
  | .listing none =>
    ∀ lease ∈ s.daemon.leases.values, s.daemon.leases.isExpired lease = false →
      (groupId, lease.id) ∈ s.daemon.granted → lease.owner = groupId
  | .disarming deviceId _ capability others none =>
    s.daemon.begins runtime config c deviceId capability groupId = true ∨
      ((s.daemon.invoke runtime config none c deviceId capability groupId).2 = .refused ∧ others ≠ []) ∨
      Disarmed groupId deviceId s.daemon.accepted
  | _ => True

/-- A step that keeps the closings of a group from missing something: no call of the group runs once its thread is marked
closed; no lease is granted to one after the leases were listed, and those that were granted before are owned by the
group; no device is actuated after `disarmOrSafeState` was answered for it, and the daemon begins one of the invocations
that `disarmOrSafeState` asks for, unless the device is disarmed. -/
def Orderly (groupId : JsString) (s : RapSite) : SiteEvent → Prop
  | .runCall callId _ _ => callId.groupId = groupId → (s.threads.getThread groupId).closed = false
  | .handleCall n c => ∀ call ∈ s.calls[n]?, call.callId.groupId = groupId → s.CallInTime runtime config groupId c call
  | .handleClosing n c => ∀ closing ∈ s.closings[n]?, closing.Closes groupId →
    s.ClosingReaches runtime config groupId c closing
  | _ => True

section Decidable

variable (s : RapSite) (groupId : JsString) (c : Circumstances)

instance (call : RapCall) : Decidable (s.CallInTime runtime config groupId c call) := by
  unfold CallInTime
  split <;> infer_instance

instance (closing : RapClosing) : Decidable (s.ClosingReaches runtime config groupId c closing) := by
  unfold ClosingReaches
  split <;> infer_instance

instance (event : SiteEvent) : Decidable (Orderly runtime config groupId s event) := by
  unfold Orderly
  split <;> infer_instance

instance : Decidable (s.Closed groupId) := by
  unfold Closed
  infer_instance

instance : Decidable (s.NoLeaseLeft groupId) := by
  unfold NoLeaseLeft
  infer_instance

instance : Decidable (s.ListedDisarmed groupId) := by
  unfold ListedDisarmed
  infer_instance

end Decidable

end RapSite

/-! ## One closing -/

namespace RapClosing

/-- The leases of the list that are still to be released. -/
def pending (c : RapClosing) : List Lease :=
  match c.phase with
  | .listing (some (.leases leases)) => leases
  | .releasingListed lease rest none => lease :: rest
  | .releasingListed _ rest (some _) => rest
  | _ => []

def working (c : RapClosing) : List JsString :=
  match c.phase with
  | .releasing leaseId rest _ => leaseId :: rest
  | .listing (some (.leases leases)) => leases.map Lease.id
  | .releasingListed lease rest _ => (lease :: rest).map Lease.id
  | _ => []

/-- The id whose release has succeeded and is not noted yet. -/
def justReleased (c : RapClosing) : List JsString :=
  match c.phase with
  | .releasing leaseId _ (some .done) => [leaseId]
  | .releasingListed lease _ (some .done) => [lease.id]
  | _ => []

/-- The capabilities of `disarmOrSafeState` that it asks for, or still can. -/
def asked (c : RapClosing) : List JsString :=
  match c.phase with
  | .disarming _ _ capability others _ => capability :: others
  | _ => []

/-- What holds of a closing at a daemon: it works on leases the daemon knows, and misses no lease of its group once the
leases are listed and no device it was answered for. -/
structure Sound (groupId : JsString) (d : ThreadDaemon) (c : RapClosing) : Prop where
  asked : c.asked ⊆ safeCapabilities
  issued : ∀ id ∈ c.releasedLeases ++ c.working, Issued d.leases id
  gone : ∀ id ∈ c.releasedLeases ++ c.justReleased, d.leases.leases.get? id = none
  left : c.Closes groupId → c.listed = true → ∀ id lease, d.leases.leases.get? id = some lease →
    (groupId, id) ∈ d.granted → lease.owner = groupId ∧ ∃ copy ∈ c.pending, copy.id = id ∧ copy.owner = groupId
  disarmed : c.Closes groupId → ∀ deviceId, c.Reached deviceId → Disarmed groupId deviceId d.accepted

variable {groupId : JsString} {d e : ThreadDaemon} {c : RapClosing}

theorem Sound.new (groupId : JsString) (d : ThreadDaemon) (other : JsString) (closesThread : Bool) :
    Sound groupId d { groupId := other, closesThread } where
  asked _ hmem := nomatch hmem
  issued _ hid := nomatch hid
  gone _ hid := nomatch hid
  left _ hlisted := nomatch hlisted
  disarmed _ _ hreached := by
    rcases hreached with hmem | hphase
    · cases hmem
    · cases hphase

theorem justReleased_subset (c : RapClosing) : c.justReleased ⊆ c.working := by
  intro id hid
  unfold justReleased at hid
  unfold working
  split at hid
  · next heq =>
    rw [heq, List.mem_singleton.mp hid]
    exact List.mem_cons_self
  · next heq =>
    rw [heq, List.mem_singleton.mp hid]
    exact List.mem_cons_self
  · cases hid

/-- A lease of the record is just released when the answer is not an error. -/
theorem eq_of_mem_releasing {leaseId id : JsString} {rest : List JsString} {answer : DaemonAnswer}
    (h : id ∈ justReleased { c with phase := .releasing leaseId rest (some answer) }) :
    id = leaseId ∧ answer = .done := by
  cases answer with
  | done => exact ⟨List.mem_singleton.mp h, rfl⟩
  | _ => cases h

/-- A lease of the list is just released when the answer is not an error. -/
theorem eq_of_mem_releasingListed {lease : Lease} {id : JsString} {rest : List Lease} {answer : DaemonAnswer}
    (h : id ∈ justReleased { c with phase := .releasingListed lease rest (some answer) }) :
    id = lease.id ∧ answer = .done := by
  cases answer with
  | done => exact ⟨List.mem_singleton.mp h, rfl⟩
  | _ => cases h

/-- A closing stays sound while the daemon grants no lease to its group after the list, and accepts no actuation of a
device it was answered for. -/
theorem Sound.follows (h : c.Sound groupId d) (hfollows : d.Follows e)
    (hissued : ∀ entry ∈ d.granted, Issued d.leases entry.2)
    (hgranted : c.Closes groupId → c.listed = true → ∀ id, (groupId, id) ∈ e.granted → (groupId, id) ∈ d.granted)
    (haccepted : c.Closes groupId → ∀ deviceId, c.Reached deviceId → Disarmed groupId deviceId d.accepted →
      Disarmed groupId deviceId e.accepted) :
    c.Sound groupId e where
  asked := h.asked
  issued id hid := (h.issued id hid).mono hfollows.sequence
  gone id hid := by
    refine hfollows.get?_eq_none (h.issued id ?_) (h.gone id hid)
    rcases List.mem_append.mp hid with hreleased | hjust
    · exact List.mem_append_left _ hreleased
    · exact List.mem_append_right _ (c.justReleased_subset hjust)
  left hcloses hlisted id lease hlease hmem := by
    have hold := hgranted hcloses hlisted id hmem
    rcases hfollows.origin id lease hlease with ⟨old, hget, -, howner⟩ | ⟨-, -, random, hnext⟩
    · obtain ⟨howner', hcopy⟩ := h.left hcloses hlisted id old hget hold
      exact ⟨howner.trans howner', hcopy⟩
    · exact absurd hnext (hissued _ hold).ne_next
  disarmed hcloses deviceId hreached := haccepted hcloses deviceId hreached (h.disarmed hcloses deviceId hreached)

/-- What a closing has behind it at the loop over the devices. -/
structure Cleared (groupId : JsString) (d : ThreadDaemon) (c : RapClosing) : Prop where
  issued : ∀ id ∈ c.releasedLeases, Issued d.leases id
  gone : ∀ id ∈ c.releasedLeases, d.leases.leases.get? id = none
  disarmed : c.Closes groupId → ∀ deviceId ∈ c.disarmedDevices, Disarmed groupId deviceId d.accepted

theorem Sound.cleared (h : c.Sound groupId d) : c.Cleared groupId d where
  issued id hid := h.issued id (List.mem_append_left _ hid)
  gone id hid := h.gone id (List.mem_append_left _ hid)
  disarmed hcloses deviceId hmem := h.disarmed hcloses deviceId (.inl hmem)

/-- A closing that just released a lease has it behind it. -/
theorem Sound.cleared_release (h : c.Sound groupId d) {leaseId : JsString} (hjust : leaseId ∈ c.justReleased) :
    (c.release leaseId).Cleared groupId d where
  issued id hid := by
    rcases List.mem_append.mp hid with hold | hnew
    · exact h.issued id (List.mem_append_left _ hold)
    · rw [List.mem_singleton.mp hnew]
      exact h.issued leaseId (List.mem_append_right _ (c.justReleased_subset hjust))
  gone id hid := by
    rcases List.mem_append.mp hid with hold | hnew
    · exact h.gone id (List.mem_append_left _ hold)
    · rw [List.mem_singleton.mp hnew]
      exact h.gone leaseId (List.mem_append_right _ hjust)
  disarmed hcloses deviceId hmem := h.disarmed hcloses deviceId (.inl hmem)

/-- A closing that was answered for a device has it behind it. -/
theorem Sound.cleared_disarm (h : c.Sound groupId d) {deviceId : JsString} (hreached : c.Reached deviceId) :
    (c.disarm deviceId).Cleared groupId d where
  issued := h.cleared.issued
  gone := h.cleared.gone
  disarmed hcloses device hmem := by
    rcases List.mem_append.mp hmem with hold | hnew
    · exact h.disarmed hcloses device (.inl hold)
    · rw [List.mem_singleton.mp hnew]
      exact h.disarmed hcloses deviceId hreached

theorem Cleared.releaseFrom (h : c.Cleared groupId d) {ids : List JsString} (hissued : ∀ id ∈ ids, Issued d.leases id) :
    (c.releaseFrom ids).Sound groupId d := by
  cases ids with
  | nil =>
    refine ⟨fun _ hmem => (nomatch hmem), fun id hid => ?_, fun id hid => ?_,
      fun _ hlisted => (nomatch hlisted), fun hcloses deviceId hreached => ?_⟩
    · exact h.issued id (by simpa [RapClosing.releaseFrom, working] using hid)
    · exact h.gone id (by simpa [RapClosing.releaseFrom, justReleased] using hid)
    · exact h.disarmed hcloses deviceId (by simpa [RapClosing.releaseFrom, Reached] using hreached)
  | cons first rest =>
    refine ⟨fun _ hmem => (nomatch hmem), fun id hid => ?_, fun id hid => ?_,
      fun _ hlisted => (nomatch hlisted), fun hcloses deviceId hreached => ?_⟩
    · rcases List.mem_append.mp hid with hold | hnew
      · exact h.issued id hold
      · exact hissued id hnew
    · exact h.gone id (by simpa [RapClosing.releaseFrom, justReleased] using hid)
    · exact h.disarmed hcloses deviceId (by simpa [RapClosing.releaseFrom, Reached] using hreached)

/-- The loop over the devices, when no lease of the group is left. -/
theorem Cleared.disarmFrom (h : c.Cleared groupId d)
    (hleft : c.Closes groupId → ∀ id lease, d.leases.leases.get? id = some lease → (groupId, id) ∉ d.granted)
    (devices : List JsString) : (c.disarmFrom devices).Sound groupId d := by
  cases devices with
  | nil =>
    refine ⟨fun _ hmem => (nomatch hmem), fun id hid => ?_, fun id hid => ?_, fun hcloses _ id lease hlease hmem => ?_,
      fun hcloses deviceId hreached => ?_⟩
    · exact h.issued id (by simpa [RapClosing.disarmFrom, working] using hid)
    · exact h.gone id (by simpa [RapClosing.disarmFrom, justReleased] using hid)
    · exact absurd hmem (hleft hcloses id lease hlease)
    · exact h.disarmed hcloses deviceId (by simpa [RapClosing.disarmFrom, Reached] using hreached)
  | cons first rest =>
    refine ⟨fun _ hmem => hmem, fun id hid => ?_, fun id hid => ?_, fun hcloses _ id lease hlease hmem => ?_,
      fun hcloses deviceId hreached => ?_⟩
    · exact h.issued id (by simpa [RapClosing.disarmFrom, working] using hid)
    · exact h.gone id (by simpa [RapClosing.disarmFrom, justReleased] using hid)
    · exact absurd hmem (hleft hcloses id lease hlease)
    · exact h.disarmed hcloses deviceId (by simpa [RapClosing.disarmFrom, Reached] using hreached)

theorem Cleared.releaseListedFrom (h : c.Cleared groupId d) (s : ThreadStore) {leases : List Lease}
    (hissued : ∀ lease ∈ leases, Issued d.leases lease.id)
    (hleft : c.Closes groupId → ∀ id lease, d.leases.leases.get? id = some lease → (groupId, id) ∈ d.granted →
      lease.owner = groupId ∧ ∃ copy ∈ leases, copy.id = id ∧ copy.owner = groupId) :
    (c.releaseListedFrom s leases).Sound groupId d := by
  induction leases with
  | nil =>
    refine h.disarmFrom (fun hcloses id lease hlease hmem => ?_) _
    obtain ⟨-, copy, hcopy, -⟩ := hleft hcloses id lease hlease hmem
    cases hcopy
  | cons first rest ih =>
    unfold RapClosing.releaseListedFrom
    split
    · next hskip =>
      -- A lease that is passed over is of another owner, or released already.
      refine ih (fun lease hlease => hissued lease (List.mem_cons_of_mem _ hlease)) fun hcloses id lease hlease hmem => ?_
      obtain ⟨howner, copy, hcopy, hid, hsame⟩ := hleft hcloses id lease hlease hmem
      refine ⟨howner, copy, ?_, hid, hsame⟩
      rcases List.mem_cons.mp hcopy with rfl | hrest
      · rcases hskip with hother | hreleased
        · exact absurd (hsame.trans hcloses.2.symm) hother
        · have hnone := h.gone copy.id hreleased
          rw [hid, hlease] at hnone
          cases hnone
      · exact hrest
    · refine ⟨fun _ hmem => (nomatch hmem), fun id hid => ?_, fun id hid => ?_,
        fun hcloses _ => hleft hcloses, fun hcloses deviceId hreached => ?_⟩
      · rcases List.mem_append.mp hid with hold | hnew
        · exact h.issued id hold
        · obtain ⟨lease, hlease, rfl⟩ := List.mem_map.mp hnew
          exact hissued lease hlease
      · exact h.gone id (by simpa [justReleased] using hid)
      · exact h.disarmed hcloses deviceId (by simpa [Reached] using hreached)

theorem closes_releaseFrom (c : RapClosing) (ids : List JsString) :
    (c.releaseFrom ids).Closes groupId ↔ c.Closes groupId := by
  cases ids <;> exact Iff.rfl

theorem closes_disarmFrom (c : RapClosing) (devices : List JsString) :
    (c.disarmFrom devices).Closes groupId ↔ c.Closes groupId := by
  cases devices <;> exact Iff.rfl

theorem closes_releaseListedFrom (c : RapClosing) (s : ThreadStore) (leases : List Lease) :
    (c.releaseListedFrom s leases).Closes groupId ↔ c.Closes groupId := by
  induction leases with
  | nil => exact c.closes_disarmFrom _
  | cons lease rest ih =>
    unfold releaseListedFrom
    split
    · exact ih
    · exact Iff.rfl

theorem closes_answered (c : RapClosing) (answer : DaemonAnswer) :
    (c.answered answer).Closes groupId ↔ c.Closes groupId := by
  unfold answered
  split <;> exact Iff.rfl

/-- A closing that has listed the leases and has none left to release leaves none of the group's in the table. -/
theorem Sound.none_left (h : c.Sound groupId d) (hlisted : c.listed = true) (hpending : c.pending = [])
    (hcloses : c.Closes groupId) :
    ∀ id lease, d.leases.leases.get? id = some lease → (groupId, id) ∉ d.granted := by
  intro id lease hlease hmem
  obtain ⟨-, copy, hcopy, -⟩ := h.left hcloses hlisted id lease hlease hmem
  rw [hpending] at hcopy
  cases hcopy

/-- **What a closing does with an answer**: it stays sound. -/
theorem Sound.hear {s t : ThreadStore} {c' : RapClosing} (h : c.Sound groupId d)
    (hthread : ∀ id ∈ (s.getThread c.groupId).leaseIds, Issued d.leases id) (hhear : c.hear s = some (t, c')) :
    c'.Sound groupId d ∧ (c'.Closes groupId ↔ c.Closes groupId) := by
  have hleft : ∀ leases, c.listed = true → c.pending = leases → c.Closes groupId →
      ∀ id lease, d.leases.leases.get? id = some lease → (groupId, id) ∈ d.granted →
        lease.owner = groupId ∧ ∃ copy ∈ leases, copy.id = id ∧ copy.owner = groupId := by
    intro leases hlisted hpending hcloses
    rw [← hpending]
    exact h.left hcloses hlisted
  unfold RapClosing.hear at hhear
  split at hhear
  -- The operations of the open calls are cancelled.
  · obtain ⟨rfl, rfl⟩ := Prod.mk.inj (Option.some.inj hhear)
    exact ⟨h.cleared.releaseFrom hthread, c.closes_releaseFrom _⟩
  -- A lease of the record is released, or not.
  · next leaseId rest hphase =>
    obtain ⟨rfl, rfl⟩ := Prod.mk.inj (Option.some.inj hhear)
    have hjust : leaseId ∈ c.justReleased := by simp [justReleased, hphase]
    have hissued : ∀ id ∈ rest, Issued d.leases id := fun id hid =>
      h.issued id (List.mem_append_right _ (by simp [working, hphase, hid]))
    exact ⟨(h.cleared_release hjust).releaseFrom hissued, (c.release leaseId).closes_releaseFrom _⟩
  · next rest answer _ hphase =>
    obtain ⟨rfl, rfl⟩ := Prod.mk.inj (Option.some.inj hhear)
    have hissued : ∀ id ∈ rest, Issued d.leases id := fun id hid =>
      h.issued id (List.mem_append_right _ (by simp [working, hphase, hid]))
    exact ⟨h.cleared.releaseFrom hissued, c.closes_releaseFrom _⟩
  -- The leases are listed.
  · next leases hphase =>
    obtain ⟨rfl, rfl⟩ := Prod.mk.inj (Option.some.inj hhear)
    have hissued : ∀ lease ∈ leases, Issued d.leases lease.id := fun lease hlease =>
      h.issued lease.id (List.mem_append_right _ (by
        simp only [working, hphase]
        exact List.mem_map_of_mem hlease))
    exact ⟨h.cleared.releaseListedFrom s hissued
        (hleft leases (by simp [listed, hphase]) (by simp [pending, hphase])),
      c.closes_releaseListedFrom s leases⟩
  · next answer hother hphase =>
    obtain ⟨rfl, rfl⟩ := Prod.mk.inj (Option.some.inj hhear)
    have hpending : c.pending = [] := by
      unfold pending
      rw [hphase]
      split
      · next leases heq =>
        cases heq
        exact absurd rfl (hother leases)
      · next heq => cases heq
      · next heq => cases heq
      · rfl
    exact ⟨h.cleared.releaseListedFrom s (fun _ hlease => nomatch hlease)
        (hleft [] (by simp [listed, hphase]) hpending), c.closes_releaseListedFrom s []⟩
  -- A lease of the list is released, or not.
  · next lease rest hphase =>
    obtain ⟨rfl, rfl⟩ := Prod.mk.inj (Option.some.inj hhear)
    have hjust : lease.id ∈ c.justReleased := by simp [justReleased, hphase]
    have hissued : ∀ lease ∈ rest, Issued d.leases lease.id := fun lease hlease =>
      h.issued lease.id (List.mem_append_right _ (by
        simp only [working, hphase]
        exact List.mem_map_of_mem (List.mem_cons_of_mem _ hlease)))
    exact ⟨(h.cleared_release hjust).releaseListedFrom _ hissued
        (hleft rest (by simp [listed, hphase]) (by simp [pending, hphase])),
      (c.release lease.id).closes_releaseListedFrom _ rest⟩
  · next lease rest answer _ hphase =>
    obtain ⟨rfl, rfl⟩ := Prod.mk.inj (Option.some.inj hhear)
    have hissued : ∀ lease ∈ rest, Issued d.leases lease.id := fun lease hlease =>
      h.issued lease.id (List.mem_append_right _ (by
        simp only [working, hphase]
        exact List.mem_map_of_mem (List.mem_cons_of_mem _ hlease)))
    exact ⟨h.cleared.releaseListedFrom s hissued
        (hleft rest (by simp [listed, hphase]) (by simp [pending, hphase])),
      c.closes_releaseListedFrom s rest⟩
  -- `disarmOrSafeState` returns, or tries the next capability.
  · next deviceId rest capability others hphase =>
    obtain ⟨rfl, rfl⟩ := Prod.mk.inj (Option.some.inj hhear)
    have hreached : c.Reached deviceId := .inr (by rw [hphase]; exact ⟨rfl, .inl rfl⟩)
    have hnone := h.none_left (by simp [listed, hphase]) (by simp [pending, hphase])
    exact ⟨(h.cleared_disarm hreached).disarmFrom hnone rest, (c.disarm deviceId).closes_disarmFrom rest⟩
  · next deviceId rest capability answer _ hphase =>
    obtain ⟨rfl, rfl⟩ := Prod.mk.inj (Option.some.inj hhear)
    have hreached : c.Reached deviceId := .inr (by rw [hphase]; exact ⟨rfl, .inr rfl⟩)
    have hnone := h.none_left (by simp [listed, hphase]) (by simp [pending, hphase])
    exact ⟨(h.cleared_disarm hreached).disarmFrom hnone rest, (c.disarm deviceId).closes_disarmFrom rest⟩
  · next deviceId rest _ capability others answer _ hphase =>
    obtain ⟨rfl, rfl⟩ := Prod.mk.inj (Option.some.inj hhear)
    refine ⟨⟨fun capability' hmem => ?_, fun id hid => ?_, fun id hid => ?_, fun hcloses _ id lease hlease hmem =>
        absurd hmem (h.none_left (by simp [listed, hphase]) (by simp [pending, hphase]) hcloses id lease hlease),
      fun hcloses device hreached => ?_⟩, Iff.rfl⟩
    · exact h.asked (by simpa [RapClosing.asked, hphase] using .inr (List.mem_cons.mp hmem))
    · exact h.cleared.issued id (by simpa [working] using hid)
    · exact h.cleared.gone id (by simpa [justReleased] using hid)
    · exact h.cleared.disarmed hcloses device (by simpa [Reached] using hreached)
  · cases hhear

section Handled

variable {runtime : PinoutRuntime} {config : DaemonConfig} {s : RapSite} {circumstances : Circumstances}
  {request : DaemonRequest}

theorem request?_ne_acquireLease (h : c.request? = some request) (deviceId owner : JsString)
    (mode : Option JsString) (ttlMs : Option ℚ) : request ≠ .acquireLease deviceId owner mode ttlMs := by
  rintro rfl
  unfold request? at h
  split at h <;> cases h

/-- What the daemon does for a closing leaves the closing sound, before it is told. -/
theorem Sound.handled (h : c.Sound groupId s.daemon)
    (hissued : ∀ entry ∈ s.daemon.granted, Issued s.daemon.leases entry.2)
    (hrequest : ∀ deviceId owner mode ttlMs, request ≠ .acquireLease deviceId owner mode ttlMs) :
    c.Sound groupId (s.daemon.handle runtime config none circumstances request).1 := by
  refine h.follows (ThreadDaemon.follows_handle _ _ _ _) hissued (fun _ _ id hid => ?_) fun _ deviceId _ hdisarmed => ?_
  · rw [ThreadDaemon.granted_handle hrequest] at hid
    exact hid
  · obtain ⟨new, haccepted, hnew⟩ := s.daemon.exists_accepted_handle runtime config none
      circumstances request
    rw [haccepted]
    refine hdisarmed.append fun entry hentry hactuates => ?_
    have hgroup := (hnew entry hentry).symm.trans hactuates.1
    cases hgroup

/-- **What the daemon does for a closing** leaves it sound when it reaches what there is to clean up. -/
theorem Sound.answered (h : c.Sound groupId s.daemon) (hkeyed : Keyed s.daemon.leases)
    (hissued : ∀ entry ∈ s.daemon.granted, Issued s.daemon.leases entry.2) (hrequest : c.request? = some request)
    (hreaches : c.Closes groupId → s.ClosingReaches runtime config groupId circumstances c) :
    (c.answered (s.daemon.handle runtime config none circumstances request).2).Sound groupId
      (s.daemon.handle runtime config none circumstances request).1 := by
  have hbase : c.Sound groupId (s.daemon.handle runtime config none circumstances request).1 :=
    h.handled hissued (request?_ne_acquireLease hrequest)
  unfold RapClosing.request? at hrequest
  split at hrequest
  · next leaseId rest hphase =>
    obtain rfl := Option.some.inj hrequest
    obtain ⟨-, -, -, hanswer⟩ := s.daemon.releaseLease_cases leaseId c.groupId
    unfold RapClosing.answered
    rw [hphase]
    refine ⟨fun _ hmem => (nomatch hmem), fun id hid => ?_, fun id hid => ?_,
      fun _ hlisted => (nomatch hlisted), fun hcloses deviceId hreached => ?_⟩
    · exact hbase.issued id (by simpa [working, hphase] using hid)
    · rcases List.mem_append.mp hid with hold | hjust
      · exact hbase.cleared.gone id hold
      · obtain ⟨rfl, hdone⟩ := eq_of_mem_releasing hjust
        rcases hanswer with ⟨-, hnone⟩ | ⟨hrefused, -⟩
        · exact hnone
        · cases hrefused.symm.trans hdone
    · exact hbase.cleared.disarmed hcloses deviceId (by simpa [Reached] using hreached)
  · next hphase =>
    obtain rfl := Option.some.inj hrequest
    have hlist : s.daemon.handle runtime config none circumstances .listLeases =
        ({ s.daemon with leases := s.daemon.leases.reapExpired.1 }, .leases s.daemon.leases.reapExpired.1.values) := by
      unfold ThreadDaemon.handle
      dsimp only
      rw [ThreadDaemon.list_nil_nil]
    rw [hlist] at hbase ⊢
    unfold RapClosing.answered
    rw [hphase]
    refine ⟨fun _ hmem => (nomatch hmem), fun id hid => ?_, fun id hid => ?_, fun hcloses _ id lease hlease hmem => ?_,
      fun hcloses deviceId hreached => ?_⟩
    · rcases List.mem_append.mp hid with hold | hnew
      · exact hbase.cleared.issued id hold
      · obtain ⟨lease, hlease, rfl⟩ := List.mem_map.mp hnew
        obtain ⟨entry, hentry, rfl⟩ := List.mem_map.mp hlease
        have hget := (LeaseManager.get?_reapExpired.mp (InsertionMap.get?_eq_some_iff.mpr hentry)).1
        obtain ⟨hid, hgiven⟩ := hkeyed _ _ hget
        rw [hid]
        exact hgiven
    · exact hbase.cleared.gone id (by simpa [justReleased] using hid)
    · -- What the list leaves in the table is in the list, and is not expired.
      obtain ⟨hget, hlive⟩ := LeaseManager.get?_reapExpired.mp hlease
      obtain ⟨hid, -⟩ := hkeyed id lease hget
      have hvalue : lease ∈ s.daemon.leases.reapExpired.1.values :=
        List.mem_map.mpr ⟨(id, lease), InsertionMap.get?_eq_some_iff.mp hlease, rfl⟩
      have hreach := hreaches hcloses
      unfold RapSite.ClosingReaches at hreach
      rw [hphase] at hreach
      have howner := hreach lease (List.mem_map.mpr ⟨(id, lease), InsertionMap.get?_eq_some_iff.mp hget, rfl⟩) hlive
        (hid.symm ▸ hmem)
      exact ⟨howner, lease, hvalue, hid, howner⟩
    · exact hbase.cleared.disarmed hcloses deviceId (by simpa [Reached] using hreached)
  · next lease rest hphase =>
    obtain rfl := Option.some.inj hrequest
    obtain ⟨-, -, -, hanswer⟩ := s.daemon.releaseLease_cases lease.id c.groupId
    have hlisted : c.listed = true := by simp [listed, hphase]
    have hpending : c.pending = lease :: rest := by simp [pending, hphase]
    unfold RapClosing.answered
    rw [hphase]
    refine ⟨fun _ hmem => (nomatch hmem), fun id hid => ?_, fun id hid => ?_, fun hcloses _ id old hold hmem => ?_,
      fun hcloses deviceId hreached => ?_⟩
    · exact hbase.issued id (by simpa [working, hphase] using hid)
    · rcases List.mem_append.mp hid with hold | hjust
      · exact hbase.cleared.gone id hold
      · obtain ⟨rfl, hdone⟩ := eq_of_mem_releasingListed hjust
        rcases hanswer with ⟨-, hnone⟩ | ⟨hrefused, -⟩
        · exact hnone
        · cases hrefused.symm.trans hdone
    · -- The lease whose release was asked for is gone: it was owned by the group.
      obtain ⟨howner, copy, hcopy, hid, hsame⟩ := hbase.left hcloses hlisted id old hold hmem
      rw [hpending] at hcopy
      refine ⟨howner, copy, ?_, hid, hsame⟩
      show copy ∈ rest
      rcases List.mem_cons.mp hcopy with rfl | hrest
      · rcases hanswer with ⟨-, hnone⟩ | ⟨-, foreign, hforeign, hother⟩
        · replace hold : (s.daemon.releaseLease copy.id c.groupId).1.leases.leases.get? id = some old := hold
          rw [← hid, hnone] at hold
          cases hold
        · have hmem' : (groupId, copy.id) ∈ s.daemon.granted := by
            rw [ThreadDaemon.granted_handle (by simp), ← hid] at hmem
            exact hmem
          obtain ⟨howner', -⟩ := h.left hcloses hlisted copy.id foreign hforeign hmem'
          exact absurd (howner'.trans hcloses.2.symm) hother
      · exact hrest
    · exact hbase.cleared.disarmed hcloses deviceId (by simpa [Reached] using hreached)
  · next deviceId rest capability others hphase =>
    obtain rfl := Option.some.inj hrequest
    unfold RapClosing.answered
    rw [hphase]
    refine ⟨fun _ hmem => h.asked (by simpa [RapClosing.asked, hphase] using hmem), fun id hid => ?_,
      fun id hid => ?_, fun hcloses _ id old hold hmem =>
        absurd hmem (hbase.none_left (by simp [listed, hphase]) (by simp [pending, hphase]) hcloses id old hold),
      fun hcloses device hreached => ?_⟩
    · exact hbase.cleared.issued id (by simpa [working] using hid)
    · exact hbase.cleared.gone id (by simpa [justReleased] using hid)
    · rcases hreached with hbefore | ⟨rfl, hends⟩
      · exact hbase.cleared.disarmed hcloses device hbefore
      · -- The daemon began the invocation, or the device was disarmed already.
        have hreach := hreaches hcloses
        unfold RapSite.ClosingReaches at hreach
        rw [hphase] at hreach
        obtain ⟨-, -, hinvoke⟩ := s.daemon.invoke_cases runtime config none circumstances
          deviceId capability c.groupId
        rcases hinvoke with ⟨hbegins, hdone, haccepted⟩ | ⟨hbegins, haccepted⟩
        · have hasked : capability ∈ safeCapabilities := h.asked (by simp [RapClosing.asked, hphase])
          show Disarmed groupId deviceId
            (s.daemon.invoke runtime config none circumstances deviceId capability c.groupId).1.accepted
          rw [haccepted]
          exact disarmed_append.mpr (.inl ⟨rfl, hasked⟩)
        · show Disarmed groupId deviceId
            (s.daemon.invoke runtime config none circumstances deviceId capability c.groupId).1.accepted
          rw [haccepted]
          rw [← hcloses.2] at hreach ⊢
          rcases hreach with hbegun | ⟨hrefused, hothers⟩ | hdisarmed
          · exact absurd (hbegins.symm.trans hbegun) Bool.false_ne_true
          · rcases hends with hdone | hnil
            · cases hrefused.symm.trans hdone
            · exact absurd hnil hothers
          · exact hdisarmed
  · cases hrequest

end Handled

theorem follows_hear {s t : ThreadStore} {c' : RapClosing} {new : JsString → Prop} (h : c.hear s = some (t, c')) :
    ThreadStore.Follows new s t := by
  have hcases : t = s ∨ ∃ leaseId, t = s.removeLease c.groupId leaseId := by
    unfold RapClosing.hear at h
    split at h
    case h_2 | h_6 => exact .inr ⟨_, (Prod.mk.inj (Option.some.inj h)).1.symm⟩
    case h_11 => cases h
    all_goals exact .inl (Prod.mk.inj (Option.some.inj h)).1.symm
  rcases hcases with rfl | ⟨leaseId, rfl⟩
  · exact .refl t
  · exact ThreadStore.follows_removeLease s c.groupId leaseId

end RapClosing

end Pinout.Rap
