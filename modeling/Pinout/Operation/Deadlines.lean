import Pinout.Operation.Reachable

/-! # Deadlines

`start` arms one timer for the deadline of an operation. Its callback only looks at a running operation, and nobody
arms it again; and `setTimeout` takes a delay beyond its range for 1 ms, and truncates one that is not a whole number.
In the runs in which the delays are within the range, a timer finds its operation running or at its end, and no
operation is dispatched after its timer (`OnSchedule`), an operation is not timed out before its deadline, and is at its
end when its deadline has passed and its timer has fired (`keepsDeadlines_of_onSchedule`). -/

namespace Pinout.Operation

open Foundation

namespace OperationManager

variable {s t : OperationManager} {a : Action} {i : Nat} {op op' : LiveOperation} {d : ℚ}

/-! ## The delay of a timer -/

def Representable (ms : ℚ) : Prop := ms < 1 ∨ (ms ≤ 2147483647 ∧ (⌊ms⌋ : ℚ) = ms)

instance (ms : ℚ) : Decidable (Representable ms) := inferInstanceAs (Decidable (_ ∨ _ ∧ _))

theorem le_timerDelay_iff (ms : ℚ) : ms ≤ timerDelay ms ↔ Representable ms := by
  unfold timerDelay Representable
  by_cases hone : 1 ≤ ms
  · by_cases hmax : ms ≤ 2147483647
    · rw [if_pos ⟨hone, hmax⟩]
      have hfloor : (⌊ms⌋ : ℚ) ≤ ms := Int.floor_le ms
      constructor
      · exact fun h => .inr ⟨hmax, le_antisymm hfloor h⟩
      · rintro (h | ⟨-, h⟩)
        · exact absurd hone (not_le.mpr h)
        · exact h.ge
    · rw [if_neg fun h => hmax h.2]
      refine iff_of_false ?_ ?_
      · push Not at hmax
        push_cast
        linarith
      · rintro (h | ⟨h, -⟩)
        · exact absurd hone (not_le.mpr h)
        · exact hmax h
  · rw [if_neg fun h => hone h.1]
    push Not at hone
    refine iff_of_true ?_ (.inl hone)
    push_cast
    exact hone.le

/-! ## The promise and the guard -/

/-- What is promised of an operation with a deadline, after the steps of a run. -/
structure KeepsDeadline (t : OperationManager) (calls : List Action) (i : Nat) (op : LiveOperation) (d : ℚ) : Prop where
  notEarly : op.status = .timedOut → d ≤ t.now
  /-- It is at its end when its deadline has passed and its timer has fired. -/
  terminal : .deadline i ∈ calls → d ≤ t.now → op.status.isTerminal = true

/-- What is promised of every operation with a deadline. -/
def KeepsDeadlines (t : OperationManager) (calls : List Action) : Prop :=
  ∀ (i : Nat) (op : LiveOperation) (d : ℚ), t.heap[i]? = some op → op.deadline = some d → t.KeepsDeadline calls i op d

/-- Whether `begin` makes a new operation. -/
def opens (s : OperationManager) (options : BeginOperationOptions) : Bool :=
  options.key?.all fun key => (s.idempotencyStore.lookup (scopedKeyFor options key) s.now).2.isNone

/-- The guard: an operation is begun with a deadline for which the timer waits long enough, a timer finds its operation
running or at its end, and an operation is not dispatched after its timer has fired. -/
def OnSchedule (s : OperationManager) : Action → Prop
  | .begin_ options _ => s.opens options = true → ∀ d ∈ s.deadlineOf options, Representable (max 0 (d - s.now))
  | .deadline address => ∀ op ∈ s.heap[address]?, op.status = .running ∨ op.status.isTerminal = true
  | .dispatched address => ∀ op ∈ s.heap[address]?, op.deadline.isSome = true → op.deadlineTimer.isSome = true
  | _ => True

instance (s : OperationManager) (a : Action) : Decidable (s.OnSchedule a) :=
  match a with
  | .begin_ .. | .deadline _ | .dispatched _ => by unfold OnSchedule; infer_instance
  | .tick _ | .cancel .. | .reconcile .. | .wait .. | .lookupKey .. | .removeKey .. | .microtask _
  | .beforeDispatchRejected .. | .report .. | .runResolved .. | .runRejected .. | .acknowledged _
  | .afterDispatchRejected .. => isTrue trivial

/-! ## The invariant -/

structure Scheduled (now : Int) (op : LiveOperation) (d : ℚ) : Prop where
  notEarly : op.status = .timedOut → d ≤ now
  armed : op.deadlineTimer = none → op.status.isTerminal = true
  due : ∀ due, op.deadlineTimer = some due → d ≤ due

def Schedules (s : OperationManager) : Prop :=
  ∀ (i : Nat) (op : LiveOperation) (d : ℚ), s.heap[i]? = some op → op.deadline = some d → Scheduled s.now op d

namespace Schedules

theorem atStart (h : AtStart s) : s.Schedules := by
  cases h with
  | new retentionMs maxOperations maxEntries storeRetentionMs now =>
    intro i op d hop
    cases hop
  | hydrated retentionMs maxOperations maxEntries storeRetentionMs now stored =>
    intro i op d hop hdeadline
    rw [hydrateFrom, hydrate_heap rfl, List.getElem?_map] at hop
    obtain ⟨o, -, rfl⟩ := Option.map_eq_some_iff.mp hop
    cases hdeadline

theorem congr (h : s.Schedules) (hheap : t.heap = s.heap) (hnow : s.now ≤ t.now) : t.Schedules := by
  intro i op d hop hdeadline
  rw [hheap] at hop
  obtain ⟨hearly, harmed, hdue⟩ := h i op d hop hdeadline
  refine ⟨fun hstatus => (hearly hstatus).trans ?_, harmed, hdue⟩
  exact_mod_cast hnow

theorem write (h : s.Schedules) (hop : s.heap[i]? = some op) (hheap : t.heap = s.heap.set i op') (hnow : t.now = s.now)
    (hdeadline : op'.deadline = op.deadline) (hwritten : ∀ d, Scheduled s.now op d → Scheduled s.now op' d) :
    t.Schedules := by
  intro j o d ho hd
  rw [hnow]
  rw [hheap] at ho
  rcases of_getElem?_set hop ho with ⟨rfl, rfl⟩ | ⟨-, ho⟩
  · exact hwritten d (h j op d hop (hdeadline ▸ hd))
  · exact h j o d ho hd

theorem append (h : s.Schedules) (hheap : t.heap = s.heap ++ [op']) (hnow : t.now = s.now)
    (hnew : ∀ d, op'.deadline = some d → Scheduled s.now op' d) : t.Schedules := by
  intro j o d ho hd
  rw [hnow]
  rw [hheap] at ho
  rcases of_getElem?_append ho with ⟨-, rfl⟩ | ho
  · exact hnew d hd
  · exact h j o d ho hd

end Schedules

namespace Scheduled

theorem congr {now : Int} (h : Scheduled now op d) (hstatus : op'.status = op.status)
    (htimer : op'.deadlineTimer = op.deadlineTimer) : Scheduled now op' d :=
  ⟨hstatus ▸ h.notEarly, by rw [htimer, hstatus]; exact h.armed, htimer ▸ h.due⟩

/-- A move to another status that is not the end, while the timer is armed. -/
theorem move {now : Int} (h : Scheduled now op d) (hstatus : op'.status ≠ .timedOut) (harmed : op.deadlineTimer ≠ none)
    (htimer : op'.deadlineTimer = op.deadlineTimer) : Scheduled now op' d :=
  ⟨fun heq => absurd heq hstatus, fun hnone => absurd (htimer ▸ hnone) harmed, htimer ▸ h.due⟩

theorem conclude {now : Int} (h : Scheduled now op d) (hterminal : op'.status.isTerminal = true)
    (hstatus : op'.status = .timedOut → d ≤ now)
    (htimer : op'.deadlineTimer = none ∨ op'.deadlineTimer = op.deadlineTimer) : Scheduled now op' d := by
  refine ⟨hstatus, fun _ => hterminal, fun due hdue => ?_⟩
  rcases htimer with htimer | htimer
  · rw [htimer] at hdue
    cases hdue
  · exact h.due due (htimer ▸ hdue)

theorem finish {now : Int} (h : Scheduled now op d) (hterminal : op.status.isTerminal = true) :
    Scheduled now (finish op) d :=
  h.conclude hterminal h.notEarly (.inl rfl)

theorem timer_ne_none {now : Int} (h : Scheduled now op d) (hlive : op.status.isTerminal = false) :
    op.deadlineTimer ≠ none := by
  intro hnone
  rw [h.armed hnone] at hlive
  cases hlive

end Scheduled

/-! ## Steps -/

theorem deadline_cases (hstep : s.step (.deadline i) = some t) :
    ∃ op due, s.heap[i]? = some op ∧ op.deadlineTimer = some due ∧ due ≤ s.now ∧
      (op.status = .running ∧
          t = s.conclude i { op with aborted := op.aborted.map fun _ => true, deadlineTimer := none } .timedOut ∨
        op.status ≠ .running ∧ t = s.update i { op with deadlineTimer := none }) := by
  obtain ⟨op, hop, hf⟩ := Option.bind_eq_some_iff.mp hstep
  obtain ⟨due, hdue, hf⟩ := Option.bind_eq_some_iff.mp hf
  split at hf
  · cases hf
  · next hnow =>
    refine ⟨op, due, hop, hdue, not_lt.mp hnow, ?_⟩
    split at hf
    · next hstatus => exact .inl ⟨hstatus, (Option.some.inj hf).symm⟩
    · next hstatus => exact .inr ⟨hstatus, (Option.some.inj hf).symm⟩

theorem Schedules.deadline (h : s.Schedules) (hguard : s.OnSchedule (.deadline i))
    (hstep : s.step (.deadline i) = some t) : t.Schedules := by
  obtain ⟨op, due, hop, hdue, hnow, ⟨hstatus, rfl⟩ | ⟨hstatus, rfl⟩⟩ := deadline_cases hstep
  · refine h.write hop (conclude_heap ..) (conclude_now ..) rfl fun d hd => hd.conclude rfl (fun _ => ?_) (.inl rfl)
    refine (hd.due due hdue).trans ?_
    exact_mod_cast hnow
  · have hterminal := (hguard op hop).resolve_left hstatus
    exact h.write hop rfl rfl rfl fun d hd => hd.conclude hterminal hd.notEarly (.inl rfl)

theorem Concluding.ne_timedOut {c : Conclusion} (hc : Concluding s a i op op' c) (ha : ∀ j, a ≠ .deadline j) :
    c.status ≠ .timedOut := by
  cases hc with
  | cancel hfind hstatus => nofun
  | deadline hop hdue hstatus => exact absurd rfl (ha i)
  | beforeDispatchRejected hop hphase => nofun
  | runRejected hop hphase hlive =>
    unfold LiveOperation.rejection
    dsimp only
    split
    · split
      · nofun
      · split <;> nofun
    · nofun
  | acknowledged hop hphase => nofun
  | afterDispatchRejected hop hphase => nofun

/-- A conclusion clears the timer of its object or leaves it alone. -/
theorem Concluding.timer {c : Conclusion} (hc : Concluding s a i op op' c) :
    op'.deadlineTimer = none ∨ op'.deadlineTimer = op.deadlineTimer := by
  cases hc with
  | cancel hfind hstatus => exact .inr rfl
  | deadline hop hdue hstatus => exact .inl rfl
  | beforeDispatchRejected hop hphase => exact .inl rfl
  | runRejected hop hphase hlive => exact .inl rfl
  | acknowledged hop hphase => exact .inl rfl
  | afterDispatchRejected hop hphase => exact .inl rfl

theorem Concluding.deadline_eq {c : Conclusion} (hc : Concluding s a i op op' c) : op'.deadline = op.deadline := by
  cases hc <;> rfl

/-- Reconciling keeps deadline and timer, and times nothing out. -/
theorem reconciledBy_deadline (op : LiveOperation) (options : ReconcileOptions) (now : Int) :
    (reconciledBy op options now).deadline = op.deadline ∧
      (reconciledBy op options now).deadlineTimer = op.deadlineTimer ∧
      (reconciledBy op options now).status ≠ .timedOut := by
  unfold reconciledBy
  cases options.resolution <;> exact ⟨rfl, rfl, nofun⟩

theorem Scheduled.advance {now : Int} (h : Scheduled now op d) (hadv : Advancing s a op op')
    (ha : ∀ j, a ≠ .deadline j) : Scheduled now op' d := by
  cases hadv with
  | @expired address _ due hdue hstatus => exact absurd rfl (ha address)
  | skipped hphase hterminal => exact h.finish hterminal
  | suspended hphase hlive => exact h.congr rfl rfl
  | resolved hphase hlive => exact h.congr rfl rfl
  | ignoredResult hphase hterminal => exact h.finish hterminal
  | ignoredError hphase hterminal => exact h.finish hterminal

theorem Advancing.deadline_eq (hadv : Advancing s a op op') : op'.deadline = op.deadline := by
  cases hadv <;> rfl

theorem scheduled_queued {options : BeginOperationOptions} {randomId : JsString}
    (hguard : ∀ d ∈ s.deadlineOf options, Representable (max 0 (d - s.now)))
    (hd : (s.queued options randomId).deadline = some d) : Scheduled s.now (s.queued options randomId) d := by
  have hdeadline : s.deadlineOf options = some d := hd
  have htimer : (s.queued options randomId).deadlineTimer = some (s.now + timerDelay (max 0 (d - s.now))) := by
    show (s.deadlineOf options).map _ = _
    rw [hdeadline, Option.map_some]
  refine ⟨nofun, fun hnone => ?_, fun due hdue => ?_⟩
  · rw [htimer] at hnone
    cases hnone
  · rw [htimer] at hdue
    obtain rfl := Option.some.inj hdue
    have hdelay := (le_timerDelay_iff _).mpr (hguard d hdeadline)
    have hremaining : d - s.now ≤ max 0 (d - s.now) := le_max_right _ _
    push_cast
    linarith

/-- **Step lemma.** A step on schedule keeps the invariant. -/
theorem Schedules.step (h : s.Schedules) (hguard : s.OnSchedule a) (hstep : s.step a = some t) : t.Schedules := by
  by_cases ha : ∃ j, a = .deadline j
  · obtain ⟨j, rfl⟩ := ha
    exact h.deadline hguard hstep
  · push Not at ha
    cases steps_of_step hstep with
    | tick => exact h.congr rfl (by simp)
    | unchanged => exact h
    | answered hanswer => exact h.congr rfl (le_refl _)
    | lookedUp => exact h.congr rfl (le_refl _)
    | removed => exact h.congr rfl (le_refl _)
    | deduped hkey hlookup hin => exact h.congr rfl (le_refl _)
    | restored hkey hlookup hout => exact h.append rfl rfl fun d hd => by cases hd
    | @opened options randomId store hstore =>
      have hopens : s.opens options = true := by
        unfold opens
        rcases hstore with ⟨hkey, -⟩ | ⟨key, hkey, hlookup⟩
        · rw [hkey, Option.all_none]
        · rw [hkey, Option.all_some, hlookup]
          rfl
      exact h.append rfl rfl fun d hd => scheduled_queued (hguard hopens) hd
    | registered hop hin hlive => exact h.congr rfl (le_refl _)
    | cancelling hop hin hlive hstatus =>
      exact h.write hop rfl rfl rfl fun d hd => hd.move nofun (hd.timer_ne_none hlive) rfl
    | advanced hop hadv => exact h.write hop rfl rfl hadv.deadline_eq fun d hd => hd.advance hadv ha
    | @dispatched address op hop hphase =>
      intro j o d ho hd
      rcases of_getElem?_set hop (show (s.heap.set address (startedAs op s.now))[j]? = some o from ho) with
        ⟨rfl, rfl⟩ | ⟨-, ho⟩
      · have harmed := hguard op hop (Option.isSome_of_eq_some (show op.deadline = some d from hd))
        exact (h j op d hop hd).move nofun (Option.isSome_iff_ne_none.mp harmed) rfl
      · exact h j o d ho hd
    | reported hop hphase hlive => exact h.write hop rfl rfl rfl fun d hd => hd.congr rfl rfl
    | @concluded _ _ op op' c _ hop hc hanswers =>
      refine h.write hop (conclude_heap ..) (conclude_now ..) hc.deadline_eq fun d hd => ?_
      exact hd.conclude c.terminal (fun hstatus => absurd hstatus (hc.ne_timedOut ha)) hc.timer
    | @reconciled _ options _ op hop hin huncertain =>
      obtain ⟨hdeadline, htimer, hstatus⟩ := reconciledBy_deadline op options s.now
      refine h.write hop (reconcileAt_heap ..) (reconcileAt_now ..) hdeadline fun d hd => ?_
      exact hd.conclude (reconciledBy_terminal ..) (fun heq => absurd heq hstatus) (.inr htimer)

/-! ## Timers that have fired -/

def Unarmed (s : OperationManager) (i : Nat) : Prop := ∃ op, s.heap[i]? = some op ∧ op.deadlineTimer = none

/-- What is written to an object whose timer is not armed does not arm it. -/
theorem Unarmed.write {j : Nat} (h : s.Unarmed i) (hop : s.heap[j]? = some op) (hheap : t.heap = s.heap.set j op')
    (htimer : op.deadlineTimer = none → op'.deadlineTimer = none) : t.Unarmed i := by
  obtain ⟨o, ho, hnone⟩ := h
  have hlt := (List.getElem?_eq_some_iff.mp ho).1
  by_cases hji : j = i
  · subst hji
    obtain rfl := Option.some.inj (hop.symm.trans ho)
    exact ⟨op', by rw [hheap, List.getElem?_set_self hlt], htimer hnone⟩
  · exact ⟨o, by rw [hheap, List.getElem?_set_ne hji, ho], hnone⟩

theorem Unarmed.append (h : s.Unarmed i) (hheap : t.heap = s.heap ++ [op']) : t.Unarmed i := by
  obtain ⟨o, ho, hnone⟩ := h
  exact ⟨o, by rw [hheap, List.getElem?_append_left (List.getElem?_eq_some_iff.mp ho).1, ho], hnone⟩

theorem Unarmed.step (h : s.Unarmed i) (hstep : s.step a = some t) : t.Unarmed i := by
  cases steps_of_step hstep with
  | tick => exact h
  | unchanged => exact h
  | answered hanswer => exact h
  | lookedUp => exact h
  | removed => exact h
  | deduped hkey hlookup hin => exact h
  | restored hkey hlookup hout => exact h.append rfl
  | opened hstore => exact h.append rfl
  | registered hop hin hlive => exact h
  | cancelling hop hin hlive hstatus => exact h.write hop rfl fun hnone => hnone
  | advanced hop hadv =>
    refine h.write hop rfl fun hnone => ?_
    cases hadv <;> first | rfl | exact hnone
  | dispatched hop hphase => exact h.write hop rfl fun hnone => hnone
  | reported hop hphase hlive => exact h.write hop rfl fun hnone => hnone
  | concluded hop hc hanswers =>
    exact h.write hop (conclude_heap ..) fun hnone => hc.timer.elim (fun heq => heq) fun heq => heq.trans hnone
  | @reconciled _ options _ op hop hin huncertain =>
    exact h.write hop (reconcileAt_heap ..) fun hnone => (reconciledBy_deadline op options s.now).2.1.trans hnone

theorem unarmed_of_deadline (hstep : s.step (.deadline i) = some t) : t.Unarmed i := by
  obtain ⟨op, due, hop, -, -, ⟨-, rfl⟩ | ⟨-, rfl⟩⟩ := deadline_cases hstep
  · exact ⟨_, by rw [conclude_heap, List.getElem?_set_self (List.getElem?_eq_some_iff.mp hop).1], rfl⟩
  · exact ⟨_, List.getElem?_set_self (List.getElem?_eq_some_iff.mp hop).1, rfl⟩

theorem unarmed_of_run {calls : List Action} (hmem : .deadline i ∈ calls) (hrun : machine.run s calls = some t) :
    t.Unarmed i := by
  obtain ⟨before, after, rfl⟩ := List.append_of_mem hmem
  obtain ⟨m, -, hrest⟩ := machine.run_append_eq_some.mp hrun
  obtain ⟨m', hfires, hafter⟩ := machine.run_cons_eq_some.mp hrest
  exact Machine.run_invariant (I := (Unarmed · i)) (fun _ _ _ h hs => h.step hs) (unarmed_of_deadline hfires) hafter

/-! ## Runs -/

/-- **Deadlines.** In every run from the start whose steps are on schedule, an operation is not timed out before its
deadline, and is at its end when its deadline has passed and its timer has fired. -/
theorem keepsDeadlines_of_onSchedule {calls : List Action} (hstart : AtStart s) (hrun : machine.run s calls = some t)
    (hguard : machine.Guarded OnSchedule s calls) : t.KeepsDeadlines calls := by
  have hschedules : t.Schedules :=
    machine.run_guarded_invariant (fun _ _ _ h hg hs => h.step hg hs) (.atStart hstart) hguard hrun
  intro i op d hop hd
  obtain ⟨hearly, harmed, -⟩ := hschedules i op d hop hd
  refine ⟨hearly, fun hfired _ => ?_⟩
  obtain ⟨o, ho, hnone⟩ := unarmed_of_run hfired hrun
  obtain rfl := Option.some.inj (hop.symm.trans ho)
  exact harmed hnone

/-- An operation that is to end after some time. -/
def blinkWithin (timeoutMs : ℚ) : BeginOperationOptions := { blink with timeoutMs := some timeoutMs }

/-- A run on schedule: the operation is timed out after 5 ms. -/
def timedOutInTime : List Action :=
  [.begin_ (blinkWithin 5) (js "a"), .microtask 0, .dispatched 0, .tick 5, .deadline 0]

theorem keepsDeadlines_timedOutInTime :
    ∃ t, machine.run newDefault timedOutInTime = some t ∧ t.KeepsDeadlines timedOutInTime := by
  have hsome : (machine.run newDefault timedOutInTime).isSome = true := by decide +kernel
  obtain ⟨t, ht⟩ := Option.isSome_iff_exists.mp hsome
  exact ⟨t, ht, keepsDeadlines_of_onSchedule (.new ..) ht (by decide +kernel)⟩

/-- A timer that waits 1 ms instead of 2^31 ms. -/
def timedOutEarly : List Action :=
  [.begin_ (blinkWithin 2147483648) (js "a"), .microtask 0, .dispatched 0, .tick 1, .deadline 0]

/-- A timer that fires while the operation is being cancelled. -/
def leftCancelling : List Action :=
  [.begin_ (blinkWithin 5) (js "a"), .microtask 0, .dispatched 0, .cancel firstId none 0, .tick 5, .deadline 0]

/-- **Not every run keeps deadlines.** An operation is timed out after 1 ms whose deadline is after 2^31 ms; and one that
is being cancelled when its timer fires stays so after its deadline. -/
theorem not_keepsDeadlines :
    (∃ t, machine.run newDefault timedOutEarly = some t ∧ ¬ t.KeepsDeadlines timedOutEarly) ∧
      ∃ t, machine.run newDefault leftCancelling = some t ∧ ¬ t.KeepsDeadlines leftCancelling := by
  have hview : ∀ {calls : List Action} {status : OperationStatus} {d : ℚ} {now : Int},
      ((machine.run newDefault calls).bind fun t =>
        t.heap[0]?.map fun op => (op.status, op.deadline, t.now)) = some (status, some d, now) →
      ∃ t op, machine.run newDefault calls = some t ∧ t.heap[0]? = some op ∧ op.status = status ∧
        op.deadline = some d ∧ t.now = now := by
    intro calls status d now h
    obtain ⟨t, ht, h⟩ := Option.bind_eq_some_iff.mp h
    obtain ⟨op, hop, h⟩ := Option.map_eq_some_iff.mp h
    simp only [Prod.mk.injEq] at h
    exact ⟨t, op, ht, hop, h⟩
  constructor
  · have hend : ((machine.run newDefault timedOutEarly).bind fun t =>
        t.heap[0]?.map fun op => (op.status, op.deadline, t.now)) = some (.timedOut, some 2147483648, 1) := by
      decide +kernel
    obtain ⟨t, op, ht, hop, hstatus, hd, hnow⟩ := hview hend
    refine ⟨t, ht, fun h => ?_⟩
    have hle := (h 0 op _ hop hd).notEarly hstatus
    rw [hnow] at hle
    exact absurd hle (by decide)
  · have hend : ((machine.run newDefault leftCancelling).bind fun t =>
        t.heap[0]?.map fun op => (op.status, op.deadline, t.now)) = some (.cancelling, some 5, 5) := by
      decide +kernel
    obtain ⟨t, op, ht, hop, hstatus, hd, hnow⟩ := hview hend
    refine ⟨t, ht, fun h => ?_⟩
    have hterminal := (h 0 op _ hop hd).terminal (by simp [leftCancelling]) (by rw [hnow]; decide)
    rw [hstatus] at hterminal
    cases hterminal

end OperationManager

end Pinout.Operation
