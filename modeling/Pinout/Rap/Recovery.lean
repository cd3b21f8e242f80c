import Pinout.Rap.Adapter
import Pinout.Rap.Coherence

/-! # Calls survive crashes

Whether a call whose tasks have run to completion had a result handed to `CallbackDelivery`, whether results
stay with the call they were computed for, and how many operations the daemon starts for a call. A task that
resumes a call with a known operation only watches it, and keys are the same for different calls: so this
is a matter of which calls are recovered, and of which calls arrive. -/

namespace Pinout.Rap

open Foundation

/-- Whether a task in this phase has handed over a result. -/
def TaskPhase.given : TaskPhase → Bool
  | delivering _ | aborting _ => true
  | executing | invoking _ | watching _ | watchingOnly _ | finished => false

namespace RapAdapter

variable {platform : Platform} {attemptLimit : Nat} {b b' b'' : RapAdapter} {n t : Nat} {callId : CallId}
  {r : PendingCallRecord} {phase : TaskPhase} {task : RapTask}

/-- **Calls survive** the crashes of an adapter. -/
structure Survives (b : RapAdapter) : Prop where
  /-- When the tasks of a call that is not cancelled have run to completion, a result computed for the
  call was handed to `CallbackDelivery`. -/
  handed : ∀ t ∈ b.tasks, (∀ t' ∈ b.tasks, t'.callId = t.callId → t'.phase = .finished) →
    (∀ r, b.store.objects[t.object]? = some r → r.cancelled = false) →
    ∃ h ∈ b.handed, h.callId = t.callId ∧ h.computedFor = some t.callId
  computed : ∀ h ∈ b.handed, h.computedFor = some h.callId
  once : ∀ (i j : Nat) o o', b.operations[i]? = some o → b.operations[j]? = some o' → o.callId = o'.callId →
    i = j

/-- The condition: no call arrives under the key of another, a record that is replaced keeps the key of its
invoke, and a call is resumed by watching its operation only while another task runs it. -/
def Orderly (platform : Platform) (b : RapAdapter) : RapEvent → Prop
  | .accept invocation => match b.store.getCall (rapCallIdempotencyKey invocation.callId) with
    | some (_, r) => r.callId = invocation.callId ∧
      (r.isReplaced → (PendingCallRecord.ofInvocation invocation).idempotencyKey platform =
        r.idempotencyKey platform) ∧
      (r.onlyWatched → ¬ r.isReplaced → r.key ∈ b.inFlight)
    | none => True
  | .startRecovery => b.recoveryStarted = false → ∀ n ∈ b.store.listOpenCalls,
    (b.store.objects[n]?).all (fun r => !r.onlyWatched || r.key ∈ b.inFlight)
  | _ => True

/-- The condition can be evaluated. -/
instance (event : RapEvent) : Decidable (b.Orderly platform event) :=
  match event with
  | .accept invocation => by
    unfold Orderly
    dsimp only
    split <;> infer_instance
  | .startRecovery => inferInstanceAs (Decidable (b.recoveryStarted = false → ∀ n ∈ b.store.listOpenCalls,
      (b.store.objects[n]?).all (fun r => !r.onlyWatched || r.key ∈ b.inFlight)))
  | .crash | .compact | .cancelToolCall _ | .abortCall _ | .note _ | .executed _ _ _ | .receive _
  | .invokeAnswer _ _ | .polled _ | .watched _ _ _ | .delivered _ _ _ | .aborted _ => isTrue trivial

/-! ## The invariant -/

def Given (b : RapAdapter) (callId : CallId) : Prop := ∃ h ∈ b.handed, h.callId = callId

structure Sound (platform : Platform) (b : RapAdapter) : Prop where
  coherent : b.store.Coherent platform
  requests : ∀ q ∈ b.requests, b.store.Holds platform q.callId q.idempotencyKey
  operations : ∀ o ∈ b.operations, b.store.Holds platform o.callId o.idempotencyKey
  distinct : (b.operations.map DaemonOperation.idempotencyKey).Nodup
  /-- Results are handed over for the call they were computed for. -/
  handed : ∀ h ∈ b.handed, h.computedFor = some h.callId
  objects : ∀ t ∈ b.tasks, ∃ r, b.store.objects[t.object]? = some r ∧ r.callId = t.callId
  /-- The call of a task has had a result handed over, or is in flight. -/
  covered : ∀ t ∈ b.tasks, b.Given t.callId ∨ rapCallIdempotencyKey t.callId ∈ b.inFlight
  workers : ∀ key ∈ b.inFlight, ∃ t ∈ b.tasks, t.phase.running ∧ rapCallIdempotencyKey t.callId = key
  /-- A task that waits for `CallbackDelivery` has handed over a result. -/
  given : ∀ t ∈ b.tasks, t.phase.given → b.Given t.callId

theorem sound_initial : Sound platform {} := by
  refine ⟨⟨nofun, ?_, ?_, ?_, nofun⟩, nofun, nofun, List.nodup_nil, nofun, nofun, nofun, nofun, nofun⟩
  all_goals
    intro key r hr
    rw [InsertionMap.get?_empty] at hr
    cases hr

theorem Sound.survives (h : b.Sound platform) : b.Survives where
  handed t ht hdone _ := by
    rcases h.covered t ht with ⟨given, hgiven, heq⟩ | hflight
    · exact ⟨given, hgiven, heq, heq ▸ h.handed given hgiven⟩
    · -- the task that runs the call is of the same call
      obtain ⟨t', ht', hrunning, hkey⟩ := h.workers _ hflight
      obtain ⟨r, hr, hcall⟩ := h.objects t ht
      obtain ⟨r', hr', hcall'⟩ := h.objects t' ht'
      have heq := h.coherent.identity_eq (List.mem_of_getElem? hr') (List.mem_of_getElem? hr) (by
        rw [PendingCallRecord.key, PendingCallRecord.key, hcall', hcall, hkey])
      rw [hdone t' ht' (hcall'.symm.trans ((congrArg Prod.fst heq).trans hcall))] at hrunning
      cases hrunning
  computed := h.handed
  once i j o o' hi hj hcall := by
    obtain ⟨q, hq, heq⟩ := h.operations o (List.mem_of_getElem? hi)
    obtain ⟨q', hq', heq'⟩ := h.operations o' (List.mem_of_getElem? hj)
    rw [hcall, hq'] at hq
    obtain rfl := Option.some.inj hq
    have hkey : o.idempotencyKey = o'.idempotencyKey := congrArg Prod.snd (heq.symm.trans heq')
    have hlt : i < (b.operations.map DaemonOperation.idempotencyKey).length := by
      rw [List.length_map]
      exact (List.getElem?_eq_some_iff.mp hi).1
    refine (List.getElem?_inj hlt h.distinct).mp ?_
    rw [List.getElem?_map, List.getElem?_map, hi, hj, Option.map_some, Option.map_some, hkey]

/-! ## Elementary changes -/

theorem Sound.callId_eq (h : b.Sound platform) (ht : task ∈ b.tasks)
    (hr : b.store.objects[task.object]? = some r) : r.callId = task.callId := by
  obtain ⟨r', hr', hcall⟩ := h.objects task ht
  rw [hr] at hr'
  obtain rfl := Option.some.inj hr'
  exact hcall

theorem Sound.keyOf_eq (h : b.Sound platform) (ht : task ∈ b.tasks) :
    b.keyOf task.object = rapCallIdempotencyKey task.callId := by
  obtain ⟨r, hr, hcall⟩ := h.objects task ht
  rw [keyOf, hr, Option.map_some, Option.getD_some, PendingCallRecord.key, hcall]

/-- A state an adapter comes to between two points where a task waits. -/
structure Goes (platform : Platform) (b b' : RapAdapter) : Prop where
  sound : b'.Sound platform
  objects : ∀ (n : Nat) r, b.store.objects[n]? = some r →
    ∃ r', b'.store.objects[n]? = some r' ∧ r'.identity platform = r.identity platform
  inFlight : b'.inFlight = b.inFlight
  tasks : b'.tasks = b.tasks

theorem Sound.refl (h : b.Sound platform) : Goes platform b b := ⟨h, fun _ r hr => ⟨r, hr, rfl⟩, rfl, rfl⟩

theorem Goes.trans (h : Goes platform b b') (h' : Goes platform b' b'') : Goes platform b b'' where
  sound := h'.sound
  objects n r hr := by
    obtain ⟨r', hr', heq⟩ := h.objects n r hr
    obtain ⟨r'', hr'', heq'⟩ := h'.objects n r' hr'
    exact ⟨r'', hr'', heq'.trans heq⟩
  inFlight := h'.inFlight.trans h.inFlight
  tasks := h'.tasks.trans h.tasks

theorem Sound.setStore (h : b.Sound platform) {s : PendingStore} (hkeeps : b.store.Keeps platform s) :
    Goes platform b { b with store := s } := by
  refine ⟨{ h with
    coherent := hkeeps.coherent
    requests := fun q hq => hkeeps.holds _ _ (h.requests q hq)
    operations := fun o ho => hkeeps.holds _ _ (h.operations o ho)
    objects := ?_ }, hkeeps.objects, rfl, rfl⟩
  intro t ht
  obtain ⟨r, hr, hcall⟩ := h.objects t ht
  obtain ⟨r', hr', heq⟩ := hkeeps.objects _ r hr
  exact ⟨r', hr', (congrArg Prod.fst heq).trans hcall⟩

/-- An object changes in a way that leaves its call and its results, and is stored. -/
theorem Sound.setObject (h : b.Sound platform) {f : PendingCallRecord → PendingCallRecord}
    (hf : ∀ r, b.store.objects[n]? = some r → (f r).identity platform = r.identity platform ∧ (f r).Honest) :
    Goes platform b { b with store := (b.store.modify n f).upsertCall n } := by
  have hkeeps := h.coherent.modify hf
  exact h.setStore (hkeeps.trans (hkeeps.coherent.upsertCall n))

theorem Sound.hand (h : b.Sound platform) (callId : CallId) (text : JsString) :
    Goes platform b { b with handed := b.handed ++ [⟨callId, text, some callId⟩] } := by
  have hgiven : ∀ call, b.Given call →
      Given { b with handed := b.handed ++ [⟨callId, text, some callId⟩] } call := by
    rintro call ⟨given, hmem, heq⟩
    exact ⟨given, List.mem_append_left _ hmem, heq⟩
  refine ⟨{ h with
    handed := fun given hmem => ?_
    covered := fun t ht => (h.covered t ht).imp_left (hgiven _)
    given := fun t ht hphase => hgiven _ (h.given t ht hphase) }, fun _ r hr => ⟨r, hr, rfl⟩, rfl, rfl⟩
  rcases List.mem_append.mp hmem with hmem | hmem
  · exact h.handed given hmem
  · obtain rfl := List.mem_singleton.mp hmem
    rfl

/-- The object at `n` is of the call of a record. -/
def IsOf (platform : Platform) (b : RapAdapter) (n : Nat) (r : PendingCallRecord) : Prop :=
  ∃ q, b.store.objects[n]? = some q ∧ q.identity platform = r.identity platform

theorem Sound.deliverResult (h : b.Sound platform) (hr : b.IsOf platform n r) (text : JsString)
    {computedFor : Option CallId} (hcomputed : computedFor = some r.callId) :
    Goes platform b (b.deliverResult n r text computedFor) ∧
      (b.deliverResult n r text computedFor).Given r.callId := by
  subst hcomputed
  have hstored := h.setObject (n := n) (f := fun q =>
    { q with resultText := some text, computedFor := some r.callId, status := .delivering }) (by
      intro q hq
      obtain ⟨q', hq', heq⟩ := hr
      rw [hq] at hq'
      obtain rfl := Option.some.inj hq'
      exact ⟨rfl, fun _ => (congrArg (fun i => some i.1) heq).symm⟩)
  refine ⟨hstored.trans (hstored.sound.hand r.callId text), ?_⟩
  exact ⟨_, List.mem_append_right _ (List.mem_singleton.mpr rfl), rfl⟩

def Placed (b : RapAdapter) (phase : TaskPhase) (callId : CallId) : Prop :=
  (b.Given callId ∨ rapCallIdempotencyKey callId ∈ b.inFlight ∨ phase.running = true) ∧
    (phase.given → b.Given callId)

theorem Sound.track (h : b.Sound platform) (hr : b.store.objects[n]? = some r) (hcall : r.callId = callId)
    (hplaced : b.Placed phase callId) : (b.track n callId phase).Sound platform := by
  have hkey : b.keyOf n = rapCallIdempotencyKey callId := by
    rw [keyOf, hr, Option.map_some, Option.getD_some, PendingCallRecord.key, hcall]
  have hflight : ∀ key ∈ b.inFlight, key ∈ (b.track n callId phase).inFlight := by
    intro key hkey
    rw [RapAdapter.track]
    dsimp only
    split
    · exact List.mem_append_left _ hkey
    · exact hkey
  refine { h with objects := ?_, covered := ?_, workers := ?_, given := ?_ }
  · intro t ht
    rcases List.mem_append.mp ht with ht | ht
    · exact h.objects t ht
    · obtain rfl := List.mem_singleton.mp ht
      exact ⟨r, hr, hcall⟩
  · intro t ht
    rcases List.mem_append.mp ht with ht | ht
    · exact (h.covered t ht).imp_right (hflight _)
    · obtain rfl := List.mem_singleton.mp ht
      rcases hplaced.1 with hgiven | hmem | hrunning
      · exact .inl hgiven
      · exact .inr (hflight _ hmem)
      · refine .inr ?_
        rw [RapAdapter.track, hrunning, ← hkey]
        exact List.mem_append_right _ (List.mem_singleton.mpr rfl)
  · intro key hmem
    -- a key in flight was so before, or is that of the task that starts
    have hcases : key ∈ b.inFlight ∨ phase.running = true ∧ key = b.keyOf n := by
      rw [RapAdapter.track] at hmem
      dsimp only at hmem
      split at hmem
      · next hrunning =>
        rcases List.mem_append.mp hmem with hmem | hmem
        · exact .inl hmem
        · exact .inr ⟨hrunning, List.mem_singleton.mp hmem⟩
      · exact .inl hmem
    rcases hcases with hmem | ⟨hrunning, rfl⟩
    · obtain ⟨t, ht, hworks⟩ := h.workers key hmem
      exact ⟨t, List.mem_append_left _ ht, hworks⟩
    · exact ⟨_, List.mem_append_right _ (List.mem_singleton.mpr rfl), hrunning, hkey.symm⟩
  · intro t ht hphase
    rcases List.mem_append.mp ht with ht | ht
    · exact h.given t ht hphase
    · obtain rfl := List.mem_singleton.mp ht
      exact hplaced.2 hphase

theorem mem_tasks_moveOn {t' : RapTask} (ht : b.tasks[t]? = some task)
    (h : t' ∈ (b.moveOn t phase).tasks) :
    (∃ k, k ≠ t ∧ b.tasks[k]? = some t') ∨ t' = { task with phase } := by
  obtain ⟨k, hk⟩ := List.getElem?_of_mem h
  rcases getElem?_modify_cases ht hk with ⟨hne, hold⟩ | ⟨-, rfl⟩
  · exact .inl ⟨k, hne.symm, hold⟩
  · exact .inr rfl

theorem Sound.moveOn (h : b.Sound platform) (ht : b.tasks[t]? = some task)
    (hrunning : task.phase.running → phase.running) (hgiven : phase.given → b.Given task.callId) :
    (b.moveOn t phase).Sound platform := by
  have hmem := List.mem_of_getElem? ht
  refine { h with objects := ?_, covered := ?_, workers := ?_, given := ?_ }
  · intro t' ht'
    rcases mem_tasks_moveOn ht ht' with ⟨k, -, hk⟩ | rfl
    · exact h.objects t' (List.mem_of_getElem? hk)
    · exact h.objects task hmem
  · intro t' ht'
    rcases mem_tasks_moveOn ht ht' with ⟨k, -, hk⟩ | rfl
    · exact h.covered t' (List.mem_of_getElem? hk)
    · exact h.covered task hmem
  · intro key hkey
    obtain ⟨t', ht', hworks, hcall⟩ := h.workers key hkey
    obtain ⟨k, hk⟩ := List.getElem?_of_mem ht'
    by_cases heq : t = k
    · subst heq
      rw [ht] at hk
      obtain rfl := Option.some.inj hk
      exact ⟨_, List.mem_of_getElem? (getElem?_modify_self _ ht), hrunning hworks, hcall⟩
    · exact ⟨t', List.mem_of_getElem? ((getElem?_modify_of_ne _ heq).trans hk), hworks, hcall⟩
  · intro t' ht' hphase
    rcases mem_tasks_moveOn ht ht' with ⟨k, -, hk⟩ | rfl
    · exact h.given t' (List.mem_of_getElem? hk) hphase
    · exact hgiven hphase

/-- A task runs to completion; if it ran its call, it has handed over a result. -/
theorem Sound.finish (h : b.Sound platform) (ht : b.tasks[t]? = some task)
    (hgiven : task.phase.running → b.Given task.callId) : (b.finish t task).Sound platform := by
  have hmem := List.mem_of_getElem? ht
  have htasks : ∀ t' ∈ (b.finish t task).tasks, ∃ t'' ∈ b.tasks, t'.object = t''.object ∧
      t'.callId = t''.callId ∧ (t'.phase.given → t'' = t') := by
    intro t' ht'
    rcases mem_tasks_moveOn ht ht' with ⟨k, -, hk⟩ | rfl
    · exact ⟨t', List.mem_of_getElem? hk, rfl, rfl, fun _ => rfl⟩
    · exact ⟨task, hmem, rfl, rfl, nofun⟩
  refine { h with objects := ?_, covered := ?_, workers := ?_, given := ?_ }
  · intro t' ht'
    obtain ⟨t'', ht'', hobject, hcall, -⟩ := htasks t' ht'
    rw [hobject, hcall]
    exact h.objects t'' ht''
  · intro t' ht'
    obtain ⟨t'', ht'', hobject, hcall, -⟩ := htasks t' ht'
    rw [hcall]
    rcases h.covered t'' ht'' with hdone | hflight
    · exact .inl hdone
    rw [RapAdapter.finish]
    dsimp only
    split
    · next hrunning =>
      by_cases hkey : rapCallIdempotencyKey t''.callId = rapCallIdempotencyKey task.callId
      · -- a task of the call that is no longer in flight
        obtain ⟨r, hr, hcallr⟩ := h.objects task hmem
        obtain ⟨r'', hr'', hcallr''⟩ := h.objects t'' ht''
        have heq := h.coherent.identity_eq (List.mem_of_getElem? hr'') (List.mem_of_getElem? hr) (by
          rw [PendingCallRecord.key, PendingCallRecord.key, hcallr, hcallr'', hkey])
        have hsame : t''.callId = task.callId := hcallr''.symm.trans ((congrArg Prod.fst heq).trans hcallr)
        exact .inl (hsame ▸ hgiven hrunning)
      · refine .inr (List.mem_filter.mpr ⟨hflight, ?_⟩)
        rw [h.keyOf_eq hmem]
        exact decide_eq_true hkey
    · exact .inr hflight
  · intro key hkey
    -- a key that is still in flight is of a task that did not finish
    have hstill : key ∈ b.inFlight ∧ (task.phase.running → key ≠ rapCallIdempotencyKey task.callId) := by
      rw [RapAdapter.finish] at hkey
      dsimp only at hkey
      split at hkey
      · obtain ⟨hkey, hne⟩ := List.mem_filter.mp hkey
        rw [h.keyOf_eq hmem] at hne
        exact ⟨hkey, fun _ => of_decide_eq_true hne⟩
      · next hrunning => exact ⟨hkey, fun h => absurd h hrunning⟩
    obtain ⟨t', ht', hworks, hcall⟩ := h.workers key hstill.1
    obtain ⟨k, hk⟩ := List.getElem?_of_mem ht'
    have hne : t ≠ k := by
      rintro rfl
      rw [ht] at hk
      obtain rfl := Option.some.inj hk
      exact hstill.2 hworks hcall.symm
    exact ⟨t', List.mem_of_getElem? ((getElem?_modify_of_ne _ hne).trans hk), hworks, hcall⟩
  · intro t' ht' hphase
    obtain ⟨t'', ht'', -, -, hsame⟩ := htasks t' ht'
    obtain rfl := hsame hphase
    exact h.given t'' ht'' hphase

/-! ## Running a call -/

/-- `executeOperation` starts a task that runs, or has handed over what it threw. -/
theorem Sound.executeOperation (h : b.Sound platform) (hr : b.IsOf platform n r) :
    Goes platform b (b.executeOperation platform n r).1 ∧
      (b.executeOperation platform n r).1.Placed (b.executeOperation platform n r).2 r.callId := by
  have hthrown : ∀ text, Goes platform b (b.deliverResult n r text (some r.callId)) ∧
      (b.deliverResult n r text (some r.callId)).Placed (.delivering true) r.callId := by
    intro text
    obtain ⟨hgoes, hgiven⟩ := h.deliverResult hr text rfl
    exact ⟨hgoes, .inl hgiven, fun _ => hgiven⟩
  rw [RapAdapter.executeOperation]
  split
  · split
    · exact hthrown _
    · refine ⟨⟨{ h with requests := ?_ }, fun _ r hr => ⟨r, hr, rfl⟩, rfl, rfl⟩, .inr (.inr rfl), nofun⟩
      intro q hq
      rcases List.mem_append.mp hq with hq | hq
      · exact h.requests q hq
      · obtain rfl := List.mem_singleton.mp hq
        obtain ⟨q, hq, heq⟩ := hr
        obtain ⟨q', hq', heq'⟩ := h.coherent.recorded q (List.mem_of_getElem? hq)
        rw [PendingCallRecord.key_eq heq] at hq'
        exact ⟨q', hq', heq'.trans heq⟩
  · split
    · exact ⟨h.refl, .inr (.inr rfl), nofun⟩
    · exact hthrown _

/-- `runCall` returns where the call is in flight, or starts a task that runs. -/
theorem Sound.runCall (h : b.Sound platform) (hr : b.IsOf platform n r) :
    Goes platform b (b.runCall platform n r).1 ∧
      (b.runCall platform n r).1.Placed (b.runCall platform n r).2 r.callId := by
  rw [RapAdapter.runCall]
  split
  · next hflight => exact ⟨h.refl, .inr (.inl hflight), nofun⟩
  · split
    · obtain ⟨hgoes, hgiven⟩ := h.deliverResult hr
        (js "Error: tool call cancelled before execution.") rfl
      exact ⟨hgoes, .inl hgiven, fun _ => hgiven⟩
    · have hgoes := h.setObject (n := n) (f := fun q => { q with status := .running }) fun q hq =>
        ⟨rfl, h.coherent.honest q (List.mem_of_getElem? hq)⟩
      obtain ⟨q, hq, heq⟩ := hr
      obtain ⟨q', hq', heq'⟩ := hgoes.objects n q hq
      obtain ⟨hgoes', hplaced⟩ := hgoes.sound.executeOperation ⟨q', hq', heq'.trans heq⟩
      exact ⟨hgoes.trans hgoes', hplaced⟩

/-- `resumeCall`, of a call that was not delivered, and that is only watched while it is in flight. -/
theorem Sound.resumeCall (h : b.Sound platform) (hr : b.store.objects[n]? = some r)
    (hopen : r.resultText = none ∨ r.status ≠ .delivered) (hwatched : r.onlyWatched → r.key ∈ b.inFlight) :
    Goes platform b (b.resumeCall platform n r).1 ∧
      (b.resumeCall platform n r).1.Placed (b.resumeCall platform n r).2 r.callId := by
  have hof : b.IsOf platform n r := ⟨r, hr, rfl⟩
  have hhonest := h.coherent.honest r (List.mem_of_getElem? hr)
  -- a recorded result is handed over
  have hresult : ∀ text, r.resultText = some text →
      Goes platform b (b.deliverResult n r text r.computedFor) ∧
        (b.deliverResult n r text r.computedFor).Placed (.delivering false) r.callId := by
    intro text htext
    obtain ⟨hgoes, hgiven⟩ := h.deliverResult hof text (hhonest (by rw [htext]; nofun))
    exact ⟨hgoes, .inl hgiven, fun _ => hgiven⟩
  unfold RapAdapter.resumeCall
  split
  · next text htext _ =>
    rw [if_pos (hopen.resolve_left (by rw [htext]; nofun))]
    exact hresult text htext
  · next text operation htext _ =>
    rw [if_pos (hopen.resolve_left (by rw [htext]; nofun))]
    exact hresult text htext
  · next operation htext hoperation =>
    have honly : r.onlyWatched = true := by
      rw [PendingCallRecord.onlyWatched, htext, hoperation]
      rfl
    exact ⟨h.refl, .inr (.inl (hwatched honly)), nofun⟩
  · exact h.runCall hof

theorem Sound.resume (h : b.Sound platform) (hr : b.store.objects[n]? = some r) (hcall : r.callId = callId)
    (hopen : r.resultText = none ∨ r.status ≠ .delivered) (hwatched : r.onlyWatched → r.key ∈ b.inFlight) :
    (b.resume platform n callId r).Sound platform := by
  subst hcall
  obtain ⟨hgoes, hplaced⟩ := h.resumeCall hr hopen hwatched
  obtain ⟨r', hr', heq⟩ := hgoes.objects n r hr
  exact hgoes.sound.track hr' (congrArg Prod.fst heq) hplaced

/-! ## Calls that arrive -/

/-- A call that has no record arrives, or one whose record is replaced by one of the same call. -/
theorem Sound.acceptNew (h : b.Sound platform) {invocation : RapInvocation}
    (hidentity : ∀ q, b.store.journal.get? (rapCallIdempotencyKey invocation.callId) = some q →
      q.identity platform = (PendingCallRecord.ofInvocation invocation).identity platform) :
    (b.acceptNew platform invocation).Sound platform := by
  have hkeeps := h.coherent.register (r := .ofInvocation invocation) (fun hnone => absurd rfl hnone) hidentity
  have hstored := h.setStore hkeeps
  have hr : IsOf platform { b with
      store := ({ b.store with objects := b.store.objects ++ [.ofInvocation invocation] } :
        PendingStore).upsertCall b.store.objects.length } b.store.objects.length (.ofInvocation invocation) := by
    refine ⟨.ofInvocation invocation, ?_, rfl⟩
    dsimp only
    rw [PendingStore.upsertCall]
    split <;> exact List.getElem?_concat_length
  obtain ⟨hgoes, hplaced⟩ := hstored.sound.runCall hr
  obtain ⟨q, hq, heq⟩ := hr
  obtain ⟨q', hq', heq'⟩ := hgoes.objects _ q hq
  exact hgoes.sound.track hq' (congrArg Prod.fst (heq'.trans heq)) hplaced

theorem Sound.acceptInvocation (h : b.Sound platform) {invocation : RapInvocation}
    (horderly : b.Orderly platform (.accept invocation)) :
    (b.acceptInvocation platform invocation).Sound platform := by
  rw [Orderly] at horderly
  rw [RapAdapter.acceptInvocation]
  cases hcall : b.store.getCall (rapCallIdempotencyKey invocation.callId) with
  | none =>
    refine h.acceptNew fun q hq => ?_
    rw [h.coherent.journal_of_getCall hcall] at hq
    cases hq
  | some found =>
    obtain ⟨n, r⟩ := found
    rw [hcall] at horderly
    obtain ⟨hsame, hreplaced, hwatched⟩ := horderly
    obtain ⟨hr, hkey⟩ := h.coherent.key_of_getCall hcall
    have hhonest := h.coherent.honest r (List.mem_of_getElem? hr)
    dsimp only
    split
    · next text htext =>
      obtain ⟨hgoes, hgiven⟩ := h.deliverResult ⟨r, hr, rfl⟩ text (hhonest (by rw [htext]; nofun))
      obtain ⟨r', hr', heq⟩ := hgoes.objects n r hr
      exact hgoes.sound.track hr' ((congrArg Prod.fst heq).trans hsame)
        ⟨.inl (hsame ▸ hgiven), fun _ => hsame ▸ hgiven⟩
    · next htext =>
      split
      · next hnew =>
        refine h.acceptNew fun q hq => ?_
        obtain ⟨q', hq', heq⟩ := h.coherent.recorded r (List.mem_of_getElem? hr)
        rw [hkey, hq] at hq'
        obtain rfl := Option.some.inj hq'
        rw [heq]
        exact Prod.ext hsame (hreplaced hnew).symm
      · next hkept => exact h.resume hr hsame (.inl htext) fun honly => hwatched honly hkept

/-! ## Recovery -/

/-- What resuming a call leaves of the records: none of them is delivered or only watched that was not
before. -/
def Milder (b b' : RapAdapter) : Prop :=
  ∀ (n : Nat) q', b'.store.objects[n]? = some q' → ∃ q, b.store.objects[n]? = some q ∧ q'.key = q.key ∧
    (q'.status = .delivered → q.status = .delivered) ∧ (q'.onlyWatched → q.onlyWatched)

theorem Milder.refl (b : RapAdapter) : Milder b b := fun _ q hq => ⟨q, hq, rfl, id, id⟩

theorem Milder.trans (h : Milder b b') (h' : Milder b' b'') : Milder b b'' := by
  intro n q'' hq''
  obtain ⟨q', hq', hkey', hdelivered', hwatched'⟩ := h' n q'' hq''
  obtain ⟨q, hq, hkey, hdelivered, hwatched⟩ := h n q' hq'
  exact ⟨q, hq, hkey'.trans hkey, hdelivered ∘ hdelivered', hwatched ∘ hwatched'⟩

theorem milder_setObject (b : RapAdapter) (n : Nat) {f : PendingCallRecord → PendingCallRecord}
    (hf : ∀ q, (f q).key = q.key ∧ ((f q).status = .delivered → q.status = .delivered) ∧
      ((f q).onlyWatched → q.onlyWatched)) :
    Milder b { b with store := (b.store.modify n f).upsertCall n } := by
  intro m q' hq'
  have hobject : (b.store.objects.modify n f)[m]? = some q' := by
    dsimp only at hq'
    rw [PendingStore.upsertCall] at hq'
    split at hq' <;> exact hq'
  rcases getElem?_modify_eq_some hobject with ⟨-, hq⟩ | ⟨-, q, hq, rfl⟩
  · exact ⟨q', hq, rfl, id, id⟩
  · exact ⟨q, hq, hf q⟩

theorem milder_deliverResult (b : RapAdapter) (n : Nat) (r : PendingCallRecord) (text : JsString)
    (computedFor : Option CallId) : Milder b (b.deliverResult n r text computedFor) := by
  have h := b.milder_setObject n (f := fun q => { q with resultText := some text, computedFor, status := .delivering })
    fun _ => ⟨rfl, nofun, nofun⟩
  exact h

theorem milder_runCall (b : RapAdapter) (n : Nat) (r : PendingCallRecord) :
    Milder b (b.runCall platform n r).1 := by
  rw [RapAdapter.runCall]
  split
  · exact .refl b
  split
  · exact b.milder_deliverResult n r _ _
  · have hset := b.milder_setObject n (f := fun q => { q with status := .running }) fun _ => ⟨rfl, nofun, id⟩
    refine hset.trans ?_
    rw [executeOperation]
    split
    · split
      · apply milder_deliverResult
      · exact .refl _
    · split
      · exact .refl _
      · apply milder_deliverResult

theorem milder_resume (b : RapAdapter) (n : Nat) (callId : CallId) (r : PendingCallRecord) :
    Milder b (b.resume platform n callId r) := by
  have h : Milder b (b.resumeCall platform n r).1 := by
    unfold RapAdapter.resumeCall
    split
    · split
      · exact b.milder_deliverResult n r _ _
      · exact b.milder_runCall n r
    · split
      · exact b.milder_deliverResult n r _ _
      · exact .refl b
    · exact .refl b
    · exact b.milder_runCall n r
  exact h

theorem Sound.mem_inFlight_resume (h : b.Sound platform) (hr : b.store.objects[n]? = some r)
    (hopen : r.resultText = none ∨ r.status ≠ .delivered) (hwatched : r.onlyWatched → r.key ∈ b.inFlight)
    {key : JsString} (hkey : key ∈ b.inFlight) : key ∈ (b.resume platform n callId r).inFlight := by
  obtain ⟨hgoes, -⟩ := h.resumeCall hr hopen hwatched
  rw [← hgoes.inFlight] at hkey
  rw [RapAdapter.resume, RapAdapter.track]
  dsimp only
  split
  · exact List.mem_append_left _ hkey
  · exact hkey

/-- A call that may be recovered: it was not delivered, and is only watched while it is in flight. -/
def Resumable (b : RapAdapter) (n : Nat) : Prop :=
  ∀ r, b.store.objects[n]? = some r → r.status ≠ .delivered ∧ (r.onlyWatched → r.key ∈ b.inFlight)

theorem Sound.recoverAll (l : List Nat) : ∀ {b : RapAdapter}, b.Sound platform → (∀ n ∈ l, b.Resumable n) →
    (l.foldl (recover platform) b).Sound platform := by
  induction l with
  | nil => exact fun h _ => h
  | cons n l ih =>
    intro b h hl
    rw [List.foldl_cons]
    have hn := hl n List.mem_cons_self
    rw [recover]
    split
    · next r hr =>
      obtain ⟨hopen, hwatched⟩ := hn r hr
      refine ih (h.resume hr rfl (.inr hopen) hwatched) fun m hm q' hq' => ?_
      obtain ⟨q, hq, hkey, hdelivered, honly⟩ := b.milder_resume n r.callId r m q' hq'
      obtain ⟨hopen', hwatched'⟩ := hl m (List.mem_cons_of_mem _ hm) q hq
      refine ⟨fun hd => hopen' (hdelivered hd), fun ho => ?_⟩
      rw [hkey]
      exact h.mem_inFlight_resume hr (.inr hopen) hwatched (hwatched' (honly ho))
    · exact ih h fun m hm => hl m (List.mem_cons_of_mem _ hm)

theorem Sound.startRecovery (h : b.Sound platform) (horderly : b.Orderly platform .startRecovery) :
    (b.startRecovery platform).Sound platform := by
  rw [RapAdapter.startRecovery]
  split
  · exact h
  · next hstarted =>
    refine Sound.recoverAll _ (b := { b with recoveryStarted := true }) { h with } fun n hn r hr => ?_
    obtain ⟨-, hopen⟩ := List.mem_filter.mp hn
    have hwatched := horderly (Bool.eq_false_iff.mpr hstarted) n hn
    dsimp only at hr
    rw [hr] at hopen hwatched
    refine ⟨fun hdelivered => ?_, fun honly => ?_⟩
    · rw [Option.any_some, PendingCallRecord.isOpen, hdelivered] at hopen
      cases hopen
    · rw [Option.all_some, honly] at hwatched
      exact of_decide_eq_true hwatched

theorem Sound.restart (h : b.Sound platform) : b.restart.Sound platform :=
  { h with
    coherent := h.coherent.load
    objects := nofun
    covered := nofun
    workers := nofun
    given := nofun }

/-! ## Answers -/

theorem Sound.receive (h : b.Sound platform) {request : Nat} {q : InvokeRequest}
    (hq : b.requests[request]? = some q) : (b.receive request q).Sound platform := by
  have hrequests : ∀ {operation : Nat}, ∀ q' ∈ b.requests.modify request
      (fun q => { q with operation := some operation }), b.store.Holds platform q'.callId q'.idempotencyKey := by
    intro operation q' hq'
    obtain ⟨k, hk⟩ := List.getElem?_of_mem hq'
    rcases getElem?_modify_eq_some hk with ⟨-, hold⟩ | ⟨-, q, hold, rfl⟩
    · exact h.requests q' (List.mem_of_getElem? hold)
    · exact h.requests q (List.mem_of_getElem? hold)
  rw [RapAdapter.receive]
  split
  · exact { h with requests := hrequests }
  · next hnone =>
    refine { h with requests := hrequests, operations := ?_, distinct := ?_ }
    · intro o ho
      rcases List.mem_append.mp ho with ho | ho
      · exact h.operations o ho
      · obtain rfl := List.mem_singleton.mp ho
        exact h.requests q (List.mem_of_getElem? hq)
    · rw [List.map_append, List.nodup_append]
      refine ⟨h.distinct, List.nodup_singleton _, ?_⟩
      rintro key hkey _ hnew rfl
      obtain ⟨o, ho, rfl⟩ := List.mem_map.mp hkey
      have hne := List.findIdx?_eq_none_iff.mp hnone o ho
      exact absurd (List.mem_singleton.mp hnew) (of_decide_eq_false hne)

theorem Sound.runResult (h : b.Sound platform) (ht : b.tasks[t]? = some task)
    (hr : b.store.objects[task.object]? = some r) (text : JsString) (threw : Bool) :
    (b.runResult t task.object r text threw).Sound platform := by
  have hcall := h.callId_eq (List.mem_of_getElem? ht) hr
  obtain ⟨hgoes, hgiven⟩ := h.deliverResult ⟨r, hr, rfl⟩ (resultText r text threw) rfl
  refine hgoes.sound.moveOn (by rw [hgoes.tasks]; exact ht) (fun _ => rfl) fun _ => ?_
  exact hcall ▸ hgiven

theorem Sound.hearInvoke (h : b.Sound platform) (ht : b.tasks[t]? = some task)
    (hr : b.store.objects[task.object]? = some r) {request : Nat} {answer : InvokeAnswer}
    (hstep : b.hearInvoke t task.object r request answer = some b') : b'.Sound platform := by
  cases answer with
  | accepted =>
    obtain ⟨operation, -, rfl⟩ := Option.map_eq_some_iff.mp hstep
    have hgoes := h.setObject (n := task.object) (f := fun q => { q with daemonOperationId := some operation })
      fun q hq => ⟨rfl, h.coherent.honest q (List.mem_of_getElem? hq)⟩
    exact hgoes.sound.moveOn ht (fun _ => rfl) nofun
  | noOperation text =>
    obtain rfl := Option.some.inj hstep
    exact h.runResult ht hr text false
  | threw text =>
    obtain rfl := Option.some.inj hstep
    exact h.runResult ht hr text true

theorem Sound.hearDelivered (h : b.Sound platform) (ht : b.tasks[t]? = some task)
    (hphase : task.phase.given = true) (ok : Bool) (attempts : Nat) :
    (b.hearDelivered attemptLimit t task r ok attempts).Sound platform := by
  have hgiven := h.given task (List.mem_of_getElem? ht) hphase
  have hgoes := h.setObject (n := task.object) (f := fun q =>
    { q with status := if ok then .delivered else .failed, deliveryAttempts := q.deliveryAttempts + attempts })
    fun q hq => ⟨rfl, h.coherent.honest q (List.mem_of_getElem? hq)⟩
  rw [RapAdapter.hearDelivered]
  split
  · exact hgoes.sound.moveOn ht id fun _ => hgiven
  · exact hgoes.sound.finish ht fun _ => hgiven

/-! ## Runs -/

theorem taskAt_eq_some (h : b.taskAt t = some (task, r)) :
    b.tasks[t]? = some task ∧ b.store.objects[task.object]? = some r := by
  obtain ⟨task', ht, h⟩ := Option.bind_eq_some_iff.mp h
  obtain ⟨r', hr, heq⟩ := Option.map_eq_some_iff.mp h
  obtain ⟨rfl, rfl⟩ := Prod.mk.inj heq
  exact ⟨ht, hr⟩

theorem Sound.step (h : b.Sound platform) {event : RapEvent} (horderly : b.Orderly platform event)
    (hstep : b.step platform attemptLimit event = some b') : b'.Sound platform := by
  cases event with
  | accept invocation =>
    obtain rfl := Option.some.inj hstep
    exact h.acceptInvocation horderly
  | startRecovery =>
    obtain rfl := Option.some.inj hstep
    exact h.startRecovery horderly
  | crash =>
    obtain rfl := Option.some.inj hstep
    exact h.restart
  | compact =>
    obtain rfl := Option.some.inj hstep
    exact (h.setStore h.coherent.compact).sound
  | cancelToolCall callId =>
    obtain rfl := Option.some.inj hstep
    rw [RapAdapter.cancelToolCall]
    split
    · exact Goes.sound (h.setObject fun q hq => ⟨rfl, h.coherent.honest q (List.mem_of_getElem? hq)⟩)
    · exact h
  | abortCall key =>
    obtain rfl := Option.some.inj hstep
    rw [RapAdapter.abortCall]
    split
    · split
      · exact Goes.sound (h.setObject fun q hq => ⟨rfl, h.coherent.honest q (List.mem_of_getElem? hq)⟩)
      · exact Goes.sound (h.setStore (h.coherent.modify fun q hq =>
          ⟨rfl, h.coherent.honest q (List.mem_of_getElem? hq)⟩))
    · exact h
  | note t =>
    rw [RapAdapter.step] at hstep
    split at hstep
    · obtain rfl := Option.some.inj hstep
      exact (h.setStore (h.coherent.upsertCall _)).sound
    · cases hstep
  | executed t text threw =>
    rw [RapAdapter.step] at hstep
    split at hstep
    · next htask =>
      obtain rfl := Option.some.inj hstep
      obtain ⟨ht, hr⟩ := taskAt_eq_some htask
      exact h.runResult ht hr text threw
    · cases hstep
  | receive request =>
    rw [RapAdapter.step] at hstep
    split at hstep
    · next hq =>
      obtain rfl := Option.some.inj hstep
      exact h.receive hq
    · cases hstep
  | invokeAnswer t answer =>
    rw [RapAdapter.step] at hstep
    split at hstep
    · next htask =>
      obtain ⟨ht, hr⟩ := taskAt_eq_some htask
      exact h.hearInvoke ht hr hstep
    · cases hstep
  | polled t =>
    have hpolled : ∀ {n : Nat} {r : PendingCallRecord}, (match b.store.getCall r.key with
        | some (_, refreshed) =>
          some { b with store := b.store.modify n fun r =>
            { r with cancelled := r.cancelled || refreshed.cancelled } }
        | none => some b) = some b' → b'.Sound platform := by
      intro n r hstep
      split at hstep
      · obtain rfl := Option.some.inj hstep
        exact Goes.sound (h.setStore (h.coherent.modify fun q hq =>
          ⟨rfl, h.coherent.honest q (List.mem_of_getElem? hq)⟩))
      · obtain rfl := Option.some.inj hstep
        exact h
    rw [RapAdapter.step] at hstep
    split at hstep
    · exact hpolled hstep
    · exact hpolled hstep
    · cases hstep
  | watched t text threw =>
    rw [RapAdapter.step] at hstep
    split at hstep
    · next htask =>
      obtain rfl := Option.some.inj hstep
      obtain ⟨ht, hr⟩ := taskAt_eq_some htask
      exact h.runResult ht hr text threw
    · next htask =>
      obtain rfl := Option.some.inj hstep
      exact h.finish (taskAt_eq_some htask).1 (by rintro ⟨⟩)
    · cases hstep
  | delivered t ok attempts =>
    rw [RapAdapter.step] at hstep
    split at hstep
    · next htask =>
      obtain rfl := Option.some.inj hstep
      exact h.hearDelivered (taskAt_eq_some htask).1 rfl ok attempts
    · cases hstep
  | aborted t =>
    rw [RapAdapter.step] at hstep
    split at hstep
    · next htask =>
      obtain rfl := Option.some.inj hstep
      have ht := (taskAt_eq_some htask).1
      exact h.finish ht fun _ => h.given _ (List.mem_of_getElem? ht) rfl
    · cases hstep

/-- **Calls survive** every run whose calls arrive and are recovered in an orderly way. -/
theorem survives_of_orderly {events : List RapEvent}
    (horderly : (machine platform attemptLimit).Guarded (Orderly platform) {} events)
    (hrun : (machine platform attemptLimit).run {} events = some b) : b.Survives := by
  have hsound : b.Sound platform :=
    Machine.run_guarded_invariant (I := Sound platform)
      (fun _ _ _ h hevent hstep => Sound.step h hevent hstep) sound_initial horderly hrun
  exact hsound.survives

def invokeOf (groupId id : JsString) (arguments : JsonObject := []) : RapInvocation where
  callId := ⟨groupId, id⟩
  callbackUrl := js "http://runtime/callback"
  operation := js "pinout__invoke"
  arguments := [(js "deviceId", .str (js "dev")), (js "capability", .str (js "move"))] ++ arguments

/-- A call that arrives twice, crashes before its result was delivered, and is recovered. -/
def orderlyRun : List RapEvent :=
  [.accept (invokeOf (js "g") (js "1")), .receive 0, .invokeAnswer 0 .accepted,
    .accept (invokeOf (js "g") (js "1")), .watched 0 (js "moved") false, .watched 1 (js "moved") false,
    .crash, .startRecovery, .delivered 0 true 1]

theorem survives_of_orderly_recovered :
    ∃ b, (machine ⟨fun _ => [], fun _ => []⟩ 8).run {} orderlyRun = some b ∧
      b.handed.map HandedResult.callId = [⟨js "g", js "1"⟩, ⟨js "g", js "1"⟩] ∧
      b.operations = [⟨⟨js "g", js "1"⟩, js "g:1"⟩] ∧ b.Survives := by
  have hrun : ((machine ⟨fun _ => [], fun _ => []⟩ 8).run {} orderlyRun).map
      (fun b => (b.handed.map HandedResult.callId, b.operations)) =
      some ([⟨js "g", js "1"⟩, ⟨js "g", js "1"⟩], [⟨⟨js "g", js "1"⟩, js "g:1"⟩]) := by decide +kernel
  obtain ⟨b, hb, heq⟩ := Option.map_eq_some_iff.mp hrun
  obtain ⟨hhanded, hoperations⟩ := Prod.mk.inj heq
  exact ⟨b, hb, hhanded, hoperations, survives_of_orderly (by decide +kernel) hb⟩

/-- The calls whose tasks have run to completion with no result handed over, though they are not cancelled. -/
def lost (b : RapAdapter) : List CallId :=
  (b.tasks.filter fun t => b.tasks.all (fun t' => t'.callId ≠ t.callId || t'.phase = .finished) &&
    (b.store.objects[t.object]?).all (fun r => !r.cancelled) &&
    b.handed.all (fun h => h.callId ≠ t.callId)).map RapTask.callId

theorem Survives.lost_eq_nil (h : b.Survives) : b.lost = [] := by
  refine List.map_eq_nil_iff.mpr (List.filter_eq_nil_iff.mpr fun t ht hlost => ?_)
  obtain ⟨hrest, hnone⟩ := Bool.and_eq_true_iff.mp hlost
  obtain ⟨hdone, hcancelled⟩ := Bool.and_eq_true_iff.mp hrest
  obtain ⟨given, hmem, hcall, -⟩ := h.handed t ht
    (fun t' ht' heq => by
      have hphase := List.all_eq_true.mp hdone t' ht'
      rw [heq] at hphase
      simpa using hphase)
    (fun r hr => by
      rw [hr] at hcancelled
      simpa using hcancelled)
  exact of_decide_eq_true (List.all_eq_true.mp hnone given hmem) hcall

/-- **Calls do not survive** in general: a recovered call is watched to its end, and its result dropped; a call
whose key is that of another gets the result of none; and a call that was cancelled and arrives again with
another key starts a second operation. -/
theorem not_survives :
    (∃ b, (machine ⟨fun _ => [], fun _ => []⟩ 8).run {} [.accept (invokeOf (js "g") (js "1")), .receive 0,
        .invokeAnswer 0 .accepted, .crash, .startRecovery, .watched 0 (js "moved") false] = some b ∧
      b.lost = [⟨js "g", js "1"⟩] ∧ ¬ b.Survives) ∧
    (∃ b, (machine ⟨fun _ => [], fun _ => []⟩ 8).run {} [.accept (invokeOf (js "a:b") (js "c")), .receive 0,
        .invokeAnswer 0 .accepted, .watched 0 (js "moved") false, .delivered 0 true 1,
        .accept (invokeOf (js "a") (js "b:c")), .delivered 1 true 1] = some b ∧
      b.lost = [⟨js "a", js "b:c"⟩] ∧ ¬ b.Survives) ∧
    ∃ b, (machine ⟨fun _ => [], fun _ => []⟩ 8).run {} [.accept (invokeOf (js "g") (js "1")), .receive 0,
        .abortCall (js "g:1"), .crash,
        .accept (invokeOf (js "g") (js "1") [(js "idempotencyKey", .str (js "k"))]), .receive 1] = some b ∧
      b.operations.map DaemonOperation.callId = [⟨js "g", js "1"⟩, ⟨js "g", js "1"⟩] ∧ ¬ b.Survives := by
  have hlost : ∀ {events : List RapEvent} {callId : CallId},
      ((machine ⟨fun _ => [], fun _ => []⟩ 8).run {} events).map (·.lost) = some [callId] →
      ∃ b, (machine ⟨fun _ => [], fun _ => []⟩ 8).run {} events = some b ∧ b.lost = [callId] ∧ ¬ b.Survives := by
    intro events callId hrun
    obtain ⟨b, hb, hlost⟩ := Option.map_eq_some_iff.mp hrun
    refine ⟨b, hb, hlost, fun h => ?_⟩
    rw [h.lost_eq_nil] at hlost
    cases hlost
  refine ⟨hlost (by decide +kernel), hlost (by decide +kernel), ?_⟩
  have hrun : ((machine ⟨fun _ => [], fun _ => []⟩ 8).run {} [.accept (invokeOf (js "g") (js "1")), .receive 0,
      .abortCall (js "g:1"), .crash,
      .accept (invokeOf (js "g") (js "1") [(js "idempotencyKey", .str (js "k"))]), .receive 1]).map
      (·.operations) = some [⟨⟨js "g", js "1"⟩, js "g:1"⟩, ⟨⟨js "g", js "1"⟩, js "k"⟩] := by decide +kernel
  obtain ⟨b, hb, hoperations⟩ := Option.map_eq_some_iff.mp hrun
  refine ⟨b, hb, by rw [hoperations]; rfl, fun h => ?_⟩
  have heq := h.once 0 1 ⟨⟨js "g", js "1"⟩, js "g:1"⟩ ⟨⟨js "g", js "1"⟩, js "k"⟩ (by rw [hoperations]; rfl)
    (by rw [hoperations]; rfl) rfl
  cases heq

end RapAdapter

end Pinout.Rap
