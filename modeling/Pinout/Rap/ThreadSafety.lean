import Pinout.Rap.Closing

/-! # Closing a thread

What is left of the calls of a group when a `closeThread` of it has resolved. Leases and devices are recorded under the
owner that a call resolves, and looked up under the group; a request that is under way is in neither list; and
`disarmOrSafeState` returns also when the daemon refuses all it asks. `closedSafely_of_orderly` says which steps keep a
closing from missing something (`Orderly`). -/

namespace Pinout.Rap

open Foundation Leasing Daemon Pinout.Runtime

/-! ## Runs -/

namespace RapSite

variable {runtime : PinoutRuntime} {config : DaemonConfig} {groupId : JsString} {s t : RapSite}

/-- What holds of an adapter and its daemon, as far as the closings of a group go. -/
structure Sound (groupId : JsString) (s : RapSite) : Prop where
  keyed : Keyed s.daemon.leases
  granted : ∀ entry ∈ s.daemon.granted, Issued s.daemon.leases entry.2
  threads : ∀ other, ∀ id ∈ (s.threads.getThread other).leaseIds, Issued s.daemon.leases id
  answers : ∀ call ∈ s.calls, ∀ deviceId owner mode ttlMs lease,
    call.phase = .answered (.acquireLease deviceId owner mode ttlMs) (.lease lease) → Issued s.daemon.leases lease.id
  closings : ∀ c ∈ s.closings, c.Sound groupId s.daemon
  closed : ∀ c ∈ s.closings, c.Closes groupId → (s.threads.getThread groupId).closed = true

theorem Sound.new (groupId : JsString) (maxTtlMs now : ℚ) : (RapSite.new maxTtlMs now).Sound groupId where
  keyed _ _ hlease := nomatch hlease
  granted _ hentry := nomatch hentry
  threads _ _ hid := nomatch hid
  answers _ hcall := nomatch hcall
  closings _ hclosing := nomatch hclosing
  closed _ hclosing := nomatch hclosing

theorem Sound.setThreads (h : s.Sound groupId) {threads : ThreadStore}
    (hfollows : ThreadStore.Follows (Issued s.daemon.leases) s.threads threads) :
    { s with threads }.Sound groupId where
  keyed := h.keyed
  granted := h.granted
  threads other id hid := (hfollows.leaseIds other id hid).elim (h.threads other id) fun hnew => hnew
  answers := h.answers
  closings := h.closings
  closed c hc hcloses := hfollows.closed groupId (h.closed c hc hcloses)

/-- The calls change; none of them is told of a lease but the ones that were. -/
theorem Sound.setCalls (h : s.Sound groupId) {calls : List RapCall}
    (hcalls : ∀ call ∈ calls, call ∈ s.calls ∨ ∀ deviceId owner mode ttlMs lease,
      call.phase = .answered (.acquireLease deviceId owner mode ttlMs) (.lease lease) →
        Issued s.daemon.leases lease.id) : { s with calls }.Sound groupId where
  keyed := h.keyed
  granted := h.granted
  threads := h.threads
  answers call hcall := (hcalls call hcall).elim (h.answers call) fun hnew => hnew
  closings := h.closings
  closed := h.closed

theorem Sound.setDaemon (h : s.Sound groupId) {daemon : ThreadDaemon} {closings : List RapClosing}
    (hfollows : s.daemon.Follows daemon) (hclosings : ∀ c ∈ closings, c.Sound groupId daemon)
    (hclosed : ∀ c ∈ closings, c.Closes groupId → (s.threads.getThread groupId).closed = true) :
    { s with daemon, closings }.Sound groupId where
  keyed := hfollows.keyed h.keyed
  granted entry hentry := by
    rcases hfollows.granted entry hentry with hold | ⟨hlt, random, hnext⟩
    · exact (h.granted entry hold).mono hfollows.sequence
    · rw [hnext]
      exact issued_next hlt
  threads other id hid := (h.threads other id hid).mono hfollows.sequence
  answers call hcall deviceId owner mode ttlMs lease hphase :=
    (h.answers call hcall deviceId owner mode ttlMs lease hphase).mono hfollows.sequence
  closings := hclosings
  closed := hclosed

/-- What the daemon does for a call leaves the closings sound when the call is in time. -/
theorem Sound.handleCall (h : s.Sound groupId) (runtime : PinoutRuntime) (config : DaemonConfig)
    {call : RapCall} {request : DaemonRequest} {c : Circumstances}
    (hphase : call.phase = .requested request)
    (hintime : call.callId.groupId = groupId → s.CallInTime runtime config groupId c call) :
    ∀ closing ∈ s.closings, closing.Sound groupId
      (s.daemon.handle runtime config (some call.callId.groupId) c request).1 := by
  intro closing hclosing
  refine (h.closings closing hclosing).follows (ThreadDaemon.follows_handle _ _ _ _) h.granted
    (fun hcloses hlisted id hid => ?_) fun hcloses deviceId hreached hdisarmed => ?_
  · by_cases hacquire : ∃ deviceId owner mode ttlMs, request = .acquireLease deviceId owner mode ttlMs
    · obtain ⟨deviceId, owner, mode, ttlMs, rfl⟩ := hacquire
      rcases ThreadDaemon.mem_granted_acquireLease hid with hold | ⟨hgroup, hgranted⟩
      · exact hold
      · obtain rfl := Option.some.inj hgroup
        have hcall := hintime rfl
        unfold CallInTime at hcall
        rw [hphase] at hcall
        exact absurd (hlisted.symm.trans (hcall hgranted closing hclosing hcloses)) Bool.noConfusion
    · rw [ThreadDaemon.granted_handle fun deviceId owner mode ttlMs heq =>
        hacquire ⟨deviceId, owner, mode, ttlMs, heq⟩] at hid
      exact hid
  · by_cases hinvoke : ∃ device capability owner, request = .invoke device capability owner
    · obtain ⟨device, capability, owner, rfl⟩ := hinvoke
      obtain ⟨-, -, ⟨hbegins, -, haccepted⟩ | ⟨-, haccepted⟩⟩ := s.daemon.invoke_cases runtime config
        (some call.callId.groupId) c device capability owner
      · replace haccepted : (s.daemon.handle runtime config (some call.callId.groupId) c
            (.invoke device capability owner)).1.accepted = _ := haccepted
        rw [haccepted]
        refine disarmed_append.mpr (.inr ⟨hdisarmed, ?_⟩)
        rintro ⟨hgroup, rfl, hphysical, hunsafe⟩
        have hcall := hintime (Option.some.inj hgroup)
        unfold CallInTime at hcall
        rw [hphase] at hcall
        exact hcall hbegins hunsafe hphysical closing hclosing hcloses hreached
      · replace haccepted : (s.daemon.handle runtime config (some call.callId.groupId) c
            (.invoke device capability owner)).1.accepted = _ := haccepted
        rw [haccepted]
        exact hdisarmed
    · rw [ThreadDaemon.accepted_handle fun device capability owner heq => hinvoke ⟨device, capability, owner, heq⟩]
      exact hdisarmed

/-- What the daemon does for nobody of the group leaves the closings sound. -/
theorem Sound.elsewhere (h : s.Sound groupId) {daemon : ThreadDaemon} (hfollows : s.daemon.Follows daemon)
    (hgranted : daemon.granted = s.daemon.granted) {new : List AcceptedInvocation}
    (haccepted : daemon.accepted = s.daemon.accepted ++ new) (hnew : ∀ entry ∈ new, entry.groupId = none) :
    { s with daemon }.Sound groupId := by
  refine h.setDaemon hfollows (fun closing hclosing => ?_) h.closed
  refine (h.closings closing hclosing).follows hfollows h.granted (fun _ _ id hid => hgranted ▸ hid)
    fun _ deviceId _ hdisarmed => ?_
  rw [haccepted]
  refine hdisarmed.append fun entry hentry hactuates => ?_
  have hgroup := (hnew entry hentry).symm.trans hactuates.1
  cases hgroup

theorem mem_set_call {n : Nat} {call new : RapCall} (h : call ∈ s.calls.set n new) : call ∈ s.calls ∨ call = new :=
  List.mem_or_eq_of_mem_set h

theorem started_ne_answered (started : Option DaemonRequest) (request : DaemonRequest) (answer : DaemonAnswer) :
    (started.map RapCallPhase.requested).getD .finishing ≠ .answered request answer := by
  cases started <;> exact RapCallPhase.noConfusion

/-- **Step.** An orderly step leaves the adapter and its daemon sound. -/
theorem Sound.step (h : s.Sound groupId) {event : SiteEvent} (horderly : Orderly runtime config groupId s event)
    (hstep : (machine runtime config).step s event = some t) : t.Sound groupId := by
  cases event with
  | runCall callId operation args =>
    obtain rfl := Option.some.inj hstep
    unfold RapSite.runCall
    split
    · exact h
    · refine (h.setThreads (ThreadStore.follows_executeOperation s.threads _ operation args)).setCalls
        fun call hcall => ?_
      rcases List.mem_append.mp hcall with hold | hnew
      · exact .inl hold
      · refine .inr fun deviceId owner mode ttlMs lease hphase => ?_
        rw [List.mem_singleton.mp hnew] at hphase
        exact absurd hphase (started_ne_answered _ _ _)
  | handleCall n c =>
    replace hstep : s.step runtime config (.handleCall n c) = some t := hstep
    rw [RapSite.step] at hstep
    split at hstep
    · next callId owner request hcall =>
      obtain rfl := Option.some.inj hstep
      have hclosings := h.handleCall runtime config rfl (horderly _ hcall)
      refine (h.setDaemon (ThreadDaemon.follows_handle _ _ _ _) hclosings h.closed).setCalls fun call hmem => ?_
      rcases mem_set_call hmem with hold | rfl
      · exact .inl hold
      · refine .inr fun deviceId owner mode ttlMs lease hphase => ?_
        obtain ⟨rfl, hanswer⟩ := RapCallPhase.answered.inj hphase
        obtain ⟨-, -, ⟨granted, hlease, hissued⟩ | ⟨hrefused, -⟩⟩ :=
          s.daemon.acquireLease_cases (some callId.groupId) c deviceId owner mode ttlMs
        · obtain rfl := DaemonAnswer.lease.inj (hlease.symm.trans hanswer)
          exact hissued
        · cases hrefused.symm.trans hanswer
    · cases hstep
  | hearCall n =>
    replace hstep : s.step runtime config (.hearCall n) = some t := hstep
    rw [RapSite.step] at hstep
    split at hstep
    · next callId owner request answer hcall =>
      obtain rfl := Option.some.inj hstep
      refine (h.setThreads (ThreadStore.follows_noteAnswer owner ?_)).setCalls fun call hmem => ?_
      · rintro deviceId owner' mode ttlMs lease rfl rfl
        exact h.answers _ (List.mem_of_getElem? hcall) deviceId owner' mode ttlMs lease rfl
      · rcases mem_set_call hmem with hold | rfl
        · exact .inl hold
        · exact .inr (by rintro _ _ _ _ _ ⟨⟩)
    · cases hstep
  | settleCall n =>
    replace hstep : s.step runtime config (.settleCall n) = some t := hstep
    rw [RapSite.step] at hstep
    split at hstep
    · obtain rfl := Option.some.inj hstep
      refine h.setCalls fun call hmem => ?_
      rcases mem_set_call hmem with hold | rfl
      · exact .inl hold
      · exact .inr (by rintro _ _ _ _ _ ⟨⟩)
    · cases hstep
  | closeThread other =>
    obtain rfl := Option.some.inj hstep
    have hfollows : ThreadStore.Follows (Issued s.daemon.leases) s.threads (s.threads.markThreadClosed other) :=
      ThreadStore.follows_markThreadClosed s.threads other
    refine (h.setThreads hfollows).setDaemon (.refl _) (fun closing hmem => ?_) fun closing hmem hcloses => ?_
    · rcases List.mem_append.mp hmem with hold | hnew
      · exact h.closings closing hold
      · rw [List.mem_singleton.mp hnew]
        exact RapClosing.Sound.new groupId s.daemon other true
    · rcases List.mem_append.mp hmem with hold | hnew
      · exact hfollows.closed groupId (h.closed closing hold hcloses)
      · rw [List.mem_singleton.mp hnew] at hcloses
        obtain rfl : other = groupId := hcloses.2
        exact ThreadStore.closed_markThreadClosed s.threads other
  | abortThread other =>
    obtain rfl := Option.some.inj hstep
    refine h.setDaemon (.refl _) (fun closing hmem => ?_) fun closing hmem hcloses => ?_
    · rcases List.mem_append.mp hmem with hold | hnew
      · exact h.closings closing hold
      · rw [List.mem_singleton.mp hnew]
        exact RapClosing.Sound.new groupId s.daemon other false
    · rcases List.mem_append.mp hmem with hold | hnew
      · exact h.closed closing hold hcloses
      · rw [List.mem_singleton.mp hnew] at hcloses
        cases hcloses.1
  | handleClosing n c =>
    obtain ⟨closing, hclosing, hhandled⟩ := Option.bind_eq_some_iff.mp hstep
    obtain ⟨request, hrequest, rfl⟩ := Option.map_eq_some_iff.mp hhandled
    have hmem : closing ∈ s.closings := List.mem_of_getElem? hclosing
    refine h.setDaemon (ThreadDaemon.follows_handle _ _ _ _) (fun other hother => ?_) fun other hother hcloses => ?_
    · rcases List.mem_or_eq_of_mem_set hother with hold | rfl
      · exact (h.closings other hold).handled h.granted (RapClosing.request?_ne_acquireLease hrequest)
      · exact (h.closings closing hmem).answered h.keyed h.granted hrequest (horderly closing hclosing)
    · rcases List.mem_or_eq_of_mem_set hother with hold | rfl
      · exact h.closed other hold hcloses
      · exact h.closed closing hmem ((closing.closes_answered _).mp hcloses)
  | hearClosing n =>
    obtain ⟨closing, hclosing, hheard⟩ := Option.bind_eq_some_iff.mp hstep
    obtain ⟨⟨threads, closing'⟩, hhear, rfl⟩ := Option.map_eq_some_iff.mp hheard
    have hmem : closing ∈ s.closings := List.mem_of_getElem? hclosing
    have hfollows : ThreadStore.Follows (Issued s.daemon.leases) s.threads threads := RapClosing.follows_hear hhear
    obtain ⟨hsound, hcloses'⟩ := (h.closings closing hmem).hear (h.threads closing.groupId) hhear
    refine (h.setThreads hfollows).setDaemon (.refl _) (fun other hother => ?_) fun other hother hcloses => ?_
    · rcases List.mem_or_eq_of_mem_set hother with hold | rfl
      · exact h.closings other hold
      · exact hsound
    · rcases List.mem_or_eq_of_mem_set hother with hold | rfl
      · exact hfollows.closed groupId (h.closed other hold hcloses)
      · exact hfollows.closed groupId (h.closed closing hmem (hcloses'.mp hcloses))
  | elsewhere action =>
    obtain ⟨leases, hleases, rfl⟩ := Option.map_eq_some_iff.mp hstep
    exact h.elsewhere (ThreadDaemon.follows_of_step hleases) rfl (List.append_nil _).symm (List.forall_mem_nil _)
  | invokeElsewhere c deviceId capability owner =>
    obtain rfl := Option.some.inj hstep
    obtain ⟨hfollows, hgranted, -⟩ := s.daemon.invoke_cases runtime config none c deviceId
      capability owner
    obtain ⟨new, haccepted, hnew⟩ := s.daemon.exists_accepted_handle runtime config none c
      (.invoke deviceId capability owner)
    exact h.elsewhere hfollows hgranted haccepted hnew

/-! ## Silence -/

/-- The thread of a group is closed, and its calls have settled. -/
structure Quiet (groupId : JsString) (s : RapSite) : Prop where
  closed : (s.threads.getThread groupId).closed = true
  settled : ∀ call ∈ s.calls, call.callId.groupId = groupId → call.phase = .settled

/-- A call that is not settled is not one of the group, nor is it after a step of it. -/
theorem Quiet.set (h : s.Quiet groupId) {n : Nat} {call : RapCall} {phase : RapCallPhase} (hcall : s.calls[n]? = some call)
    (hphase : call.phase ≠ .settled) :
    ∀ other ∈ s.calls.set n { call with phase }, other.callId.groupId = groupId → other.phase = .settled := by
  intro other hother hgroup
  rcases mem_set_call hother with hold | rfl
  · exact h.settled other hold hgroup
  · exact absurd (h.settled call (List.mem_of_getElem? hcall) hgroup) hphase

/-- **Silence.** An orderly step keeps a quiet group quiet, and no invocation of it is accepted. -/
theorem Quiet.step (h : s.Quiet groupId) {event : SiteEvent} (horderly : Orderly runtime config groupId s event)
    (hstep : (machine runtime config).step s event = some t) :
    t.Quiet groupId ∧ ∃ new, t.daemon.accepted = s.daemon.accepted ++ new ∧
      ∀ entry ∈ new, entry.groupId ≠ some groupId := by
  have hnone : ∃ new : List AcceptedInvocation, s.daemon.accepted = s.daemon.accepted ++ new ∧
      ∀ entry ∈ new, entry.groupId ≠ some groupId := ⟨[], (List.append_nil _).symm, List.forall_mem_nil _⟩
  have hclosed : ∀ threads, ThreadStore.Follows (fun _ => True) s.threads threads →
      (threads.getThread groupId).closed = true := fun threads hfollows => hfollows.closed groupId h.closed
  cases event with
  | runCall callId operation args =>
    obtain rfl := Option.some.inj hstep
    unfold RapSite.runCall
    split
    · exact ⟨h, hnone⟩
    · refine ⟨⟨hclosed _ (ThreadStore.follows_executeOperation s.threads _ operation args), fun call hmem hgroup => ?_⟩,
        hnone⟩
      rcases List.mem_append.mp hmem with hold | hnew
      · exact h.settled call hold hgroup
      · rw [List.mem_singleton.mp hnew] at hgroup
        exact absurd (h.closed.symm.trans (horderly hgroup)) Bool.noConfusion
  | handleCall n c =>
    replace hstep : s.step runtime config (.handleCall n c) = some t := hstep
    rw [RapSite.step] at hstep
    split at hstep
    · next callId owner request hcall =>
      obtain rfl := Option.some.inj hstep
      refine ⟨⟨h.closed, h.set hcall RapCallPhase.noConfusion⟩, ?_⟩
      obtain ⟨new, haccepted, hnew⟩ := s.daemon.exists_accepted_handle runtime config
        (some callId.groupId) c request
      refine ⟨new, haccepted, fun entry hentry hgroup => ?_⟩
      have hsame := Option.some.inj ((hnew entry hentry).symm.trans hgroup)
      cases h.settled _ (List.mem_of_getElem? hcall) hsame
    · cases hstep
  | hearCall n =>
    replace hstep : s.step runtime config (.hearCall n) = some t := hstep
    rw [RapSite.step] at hstep
    split at hstep
    · next callId owner request answer hcall =>
      obtain rfl := Option.some.inj hstep
      exact ⟨⟨hclosed _ (ThreadStore.follows_noteAnswer owner fun _ _ _ _ _ _ _ => trivial),
        h.set hcall RapCallPhase.noConfusion⟩, hnone⟩
    · cases hstep
  | settleCall n =>
    replace hstep : s.step runtime config (.settleCall n) = some t := hstep
    rw [RapSite.step] at hstep
    split at hstep
    · next callId owner hcall =>
      obtain rfl := Option.some.inj hstep
      exact ⟨⟨h.closed, h.set hcall RapCallPhase.noConfusion⟩, hnone⟩
    · cases hstep
  | closeThread other =>
    obtain rfl := Option.some.inj hstep
    exact ⟨⟨hclosed _ (ThreadStore.follows_markThreadClosed s.threads other), h.settled⟩, hnone⟩
  | abortThread other =>
    obtain rfl := Option.some.inj hstep
    exact ⟨⟨h.closed, h.settled⟩, hnone⟩
  | handleClosing n c =>
    obtain ⟨closing, hclosing, hhandled⟩ := Option.bind_eq_some_iff.mp hstep
    obtain ⟨request, hrequest, rfl⟩ := Option.map_eq_some_iff.mp hhandled
    obtain ⟨new, haccepted, hnew⟩ := s.daemon.exists_accepted_handle runtime config none c request
    refine ⟨⟨h.closed, h.settled⟩, new, haccepted, fun entry hentry hgroup => ?_⟩
    cases (hnew entry hentry).symm.trans hgroup
  | hearClosing n =>
    obtain ⟨closing, hclosing, hheard⟩ := Option.bind_eq_some_iff.mp hstep
    obtain ⟨⟨threads, closing'⟩, hhear, rfl⟩ := Option.map_eq_some_iff.mp hheard
    exact ⟨⟨hclosed _ (RapClosing.follows_hear hhear), h.settled⟩, hnone⟩
  | elsewhere action =>
    obtain ⟨leases, hleases, rfl⟩ := Option.map_eq_some_iff.mp hstep
    exact ⟨⟨h.closed, h.settled⟩, hnone⟩
  | invokeElsewhere c deviceId capability owner =>
    obtain rfl := Option.some.inj hstep
    obtain ⟨new, haccepted, hnew⟩ := s.daemon.exists_accepted_handle runtime config none c
      (.invoke deviceId capability owner)
    refine ⟨⟨h.closed, h.settled⟩, new, haccepted, fun entry hentry hgroup => ?_⟩
    cases (hnew entry hentry).symm.trans hgroup

theorem Quiet.silent (h : s.Quiet groupId) :
    s.Silent runtime config (Orderly runtime config groupId) groupId := by
  intro events t hrun hguarded entry hentry hgroup
  have hinv : t.Quiet groupId ∧ ∃ new, t.daemon.accepted = s.daemon.accepted ++ new ∧
      ∀ entry ∈ new, entry.groupId ≠ some groupId := by
    refine Machine.run_guarded_invariant (I := fun t => t.Quiet groupId ∧ ∃ new,
      t.daemon.accepted = s.daemon.accepted ++ new ∧ ∀ entry ∈ new, entry.groupId ≠ some groupId)
      (fun u event v hu horderly hstep => ?_) ⟨h, [], (List.append_nil _).symm, fun _ hmem => nomatch hmem⟩ hguarded hrun
    obtain ⟨hquiet, old, hold, hnot⟩ := hu
    obtain ⟨hquiet', new, hnew, hnot'⟩ := hquiet.step horderly hstep
    refine ⟨hquiet', old ++ new, by rw [hnew, hold, List.append_assoc], fun entry hentry => ?_⟩
    rcases List.mem_append.mp hentry with hmem | hmem
    · exact hnot entry hmem
    · exact hnot' entry hmem
  obtain ⟨-, new, hnew, hnot⟩ := hinv
  rw [hnew, List.drop_left] at hentry
  exact absurd hgroup (hnot entry hentry)

/-- **Closing a thread.** When every step of a run keeps the closings of a group from missing something, then once a
`closeThread` of the group has resolved and its calls have settled, no lease of its calls remains, none of its physical
invocations is accepted any more, and the devices that are listed as disarmed are. -/
theorem closedSafely_of_orderly {maxTtlMs now : ℚ} {events : List SiteEvent}
    (hrun : (machine runtime config).run (.new maxTtlMs now) events = some s)
    (horderly : (machine runtime config).Guarded (Orderly runtime config groupId) (.new maxTtlMs now) events)
    (hclosed : s.Closed groupId) :
    s.ClosedSafely runtime config (Orderly runtime config groupId) groupId := by
  have hsound : s.Sound groupId := Machine.run_guarded_invariant
    (fun _ _ _ h horderly hstep => h.step horderly hstep) (Sound.new groupId maxTtlMs now) horderly hrun
  obtain ⟨⟨closing, hclosing, hcloses, hresolved⟩, hsettled⟩ := hclosed
  refine ⟨fun lease hlease _ hgranted => ?_, Quiet.silent ⟨hsound.closed closing hclosing hcloses, hsettled⟩,
    fun other hother hcloses' deviceId hmem => (hsound.closings other hother).disarmed hcloses' deviceId (.inl hmem)⟩
  -- A closing that has resolved has no lease left to release.
  obtain ⟨entry, hentry, rfl⟩ := List.mem_map.mp hlease
  have hget := InsertionMap.get?_eq_some_iff.mpr hentry
  rw [(hsound.keyed _ _ hget).1] at hgranted
  obtain ⟨-, copy, hcopy, -⟩ := (hsound.closings closing hclosing).left hcloses (by simp [RapClosing.listed, hresolved])
    _ _ hget hgranted
  simp [RapClosing.pending, hresolved] at hcopy

/-! ## A relay -/

/-- A runtime with a relay that can be disarmed. -/
def relayRuntime : PinoutRuntime :=
  (PinoutRuntime.new { safetyEngine := { rules := [] } }).register
    { id := js "relay"
      capabilities := [{ name := js "relay.set", physicalOutput := true },
        { name := js "sys.disarm", physicalOutput := false }] }

/-- A call of a group from its beginning to its end. -/
def callThrough (n : Nat) (operation : JsString) (args : List (JsString × JsString)) : List SiteEvent :=
  [.runCall ⟨js "g", decimal n⟩ operation (args.map fun field => (field.1, .str field.2)), .handleCall n {}, .hearCall n,
    .settleCall n]

/-- A closing goes on with the answer to its next request. -/
def goOn : List SiteEvent := [.handleClosing 0 {}, .hearClosing 0]

def setRelay : List SiteEvent :=
  callThrough 0 (js "pinout__acquire_lease") [(js "deviceId", js "relay")] ++
    callThrough 1 (js "pinout__invoke") [(js "deviceId", js "relay"), (js "capability", js "relay.set")]

/-- The relay is set, and the thread is closed: one lease is released, the leases are listed, the relay is disarmed. -/
def closeRelay : List SiteEvent := setRelay ++ [.closeThread (js "g"), .hearClosing 0] ++ goOn ++ goOn ++ goOn

/-- A daemon without lease rules disarms the relay. -/
theorem closedSafely_relay :
    ∃ s, (machine relayRuntime { requireLeases := false }).run (.new 300000 0) closeRelay = some s ∧
      s.ClosedSafely relayRuntime { requireLeases := false }
        (Orderly relayRuntime { requireLeases := false } (js "g")) (js "g") := by
  have hview : ((machine relayRuntime { requireLeases := false }).run (.new 300000 0) closeRelay).any
      (fun s => s.Closed (js "g")) = true := by decide +kernel
  have horderly : (machine relayRuntime { requireLeases := false }).Guarded
      (Orderly relayRuntime { requireLeases := false } (js "g")) (.new 300000 0) closeRelay := by decide +kernel
  obtain ⟨s, hrun, hclosed⟩ := (Option.any_eq_true _ _).mp hview
  exact ⟨s, hrun, closedSafely_of_orderly hrun horderly (of_decide_eq_true hclosed)⟩

/-- The relay is set, a lamp is leased for a nested thread, and the thread is closed. -/
def closeNested : List SiteEvent :=
  setRelay ++ callThrough 2 (js "pinout__acquire_lease") [(js "deviceId", js "lamp"), (js "threadId", js "t")] ++
    [.closeThread (js "g"), .hearClosing 0] ++ goOn ++ goOn ++ goOn ++ goOn ++ goOn ++ goOn

def setAgain : List SiteEvent :=
  callThrough 3 (js "pinout__acquire_lease") [(js "deviceId", js "relay")] ++
    callThrough 4 (js "pinout__invoke") [(js "deviceId", js "relay"), (js "capability", js "relay.set")]

/-- **A closed thread need not be safe.** The lease of a nested thread remains; the relay, whose lease is released before
it is to be disarmed, is listed as disarmed although the daemon refused that; and it can be set again. -/
theorem not_closedSafely :
    ∃ events s, (machine relayRuntime {}).run (.new 300000 0) events = some s ∧ s.Closed (js "g") ∧
      ¬ s.NoLeaseLeft (js "g") ∧ ¬ s.ListedDisarmed (js "g") ∧
        ¬ s.Silent relayRuntime {} (fun _ _ => True) (js "g") := by
  have hview : ((machine relayRuntime {}).run (.new 300000 0) closeNested).any (fun s =>
      s.Closed (js "g") ∧ ¬ s.NoLeaseLeft (js "g") ∧ ¬ s.ListedDisarmed (js "g") ∧
        ((machine relayRuntime {}).run s setAgain).any fun t =>
          ∃ entry ∈ t.daemon.accepted.drop s.daemon.accepted.length,
            entry.groupId = some (js "g") ∧ entry.physicalOutput = true) = true := by decide +kernel
  obtain ⟨s, hrun, hs⟩ := (Option.any_eq_true _ _).mp hview
  obtain ⟨hclosed, hlease, hdevice, hagain⟩ := of_decide_eq_true hs
  obtain ⟨t, hrun', ht⟩ := (Option.any_eq_true _ _).mp hagain
  obtain ⟨entry, hentry, hgroup, hphysical⟩ := of_decide_eq_true ht
  refine ⟨closeNested, s, hrun, hclosed, hlease, hdevice, fun hsilent => ?_⟩
  have hnot := hsilent setAgain t hrun' (Machine.guarded_true s setAgain) entry hentry hgroup
  exact Bool.noConfusion (hphysical.symm.trans hnot)

end RapSite

end Pinout.Rap
