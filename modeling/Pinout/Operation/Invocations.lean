import Pinout.Operation.Recovery

/-! # Invocations

What the trace of any run says about its invocations: an operation is journaled as requested before anything else of it
is, and its run is invoked once at most, after it was journaled as started. -/

namespace Pinout.Operation

open Foundation

/-- How an effect stands to what was shown before: nothing is journaled of an operation that was not requested, and
nothing is invoked again. -/
def Effect.Accounted (before : List Effect) : Effect → Prop
  | .event e => e.kind ≠ .requested → Shown before e.operationId .requested
  | .invoked id _ => ¬ Invoked before id
  | _ => True

namespace OperationManager

variable {s t : OperationManager}

theorem Chronicled.requested_of_mem (h : s.Chronicled) {o : LiveOperation} (ho : o ∈ s.heap) :
    Shown s.trace o.id .requested := by
  obtain ⟨e, he, options, hrequests, hscope⟩ := h.origin o ho
  exact ⟨e, he, (congrArg Prod.fst hscope).symm, hrequests.kind⟩

/-- **Step lemma.** A step shows what is of objects of the heap, which were requested, and invokes what was not
dispatched, which was not invoked. -/
theorem Chronicled.accounted_step {a : Action} (h : s.Chronicled) (haccounted : Ordered Effect.Accounted s.trace)
    (hs : s.step a = some t) : Ordered Effect.Accounted t.trace := by
  obtain ⟨shown, htrace, hshows⟩ := (steps_of_step hs).shows
  rw [htrace]
  have hanswers : ∀ {trace answers : List Effect}, Ordered Effect.Accounted trace →
      (∀ e ∈ answers, e.isAnswer = true) → Ordered Effect.Accounted (trace ++ answers) := by
    intro trace answers htrace hanswers
    refine htrace.append_of_forall fun e he before => ?_
    have hanswer := hanswers e he
    cases e <;> trivial
  have hevent : ∀ {e : OperationEvent} {answers : List Effect},
      e.kind = .requested ∨ (∃ o ∈ s.heap, o.id = e.operationId) → (∀ e ∈ answers, e.isAnswer = true) →
      Ordered Effect.Accounted (s.trace ++ .event e :: answers) := by
    intro e answers he hall
    rw [List.append_cons]
    refine hanswers (ordered_concat.mpr ⟨haccounted, fun hkind => ?_⟩) hall
    obtain ⟨o, ho, hid⟩ := he.resolve_left hkind
    exact hid ▸ h.requested_of_mem ho
  have hnone : ∀ e ∈ ([] : List Effect), e.isAnswer = true := by simp
  cases hshows with
  | answers hall => exact hanswers haccounted hall
  | requested => exact hevent (.inl rfl) (by simp [Effect.isAnswer])
  | @started address op hop hphase =>
    have hmem := List.mem_of_getElem? hop
    have hstarted := hevent (e := s.eventOf .started op []) (.inr ⟨op, hmem, rfl⟩) hnone
    have hnew : ¬ Invoked (s.trace ++ [.event (s.eventOf .started op [])]) op.id := by
      rw [invoked_append, not_or]
      exact ⟨(h.undispatched op hmem (by rw [hphase]; rfl)).1, by simp [Invoked]⟩
    rw [List.append_cons]
    exact ordered_concat.mpr ⟨hstarted, hnew⟩
  | progress hop _ _ => exact hevent (.inr ⟨_, List.mem_of_getElem? hop, rfl⟩) hnone
  | concluded hop hc hall => exact hevent (.inr ⟨_, List.mem_of_getElem? hop, (hc.rewrites s.now).id.symm⟩) hall
  | reconciled hop _ _ hall =>
    exact hevent (.inr ⟨_, List.mem_of_getElem? hop, (reconciledBy_rewrites _ s.now).id.symm⟩) hall

/-- **Invocations are journaled and happen once.** In every run: an operation whose run is invoked was journaled as
started before, is not invoked again and is never journaled as aborted; and the first event of an operation, and no
other, is that it was requested. -/
theorem invokedOnce_of_run (retentionMs : Int) (maxOperations maxEntries : Nat) (storeRetentionMs now : Int)
    (calls : List Action) (s : OperationManager)
    (hrun : machine.run (new retentionMs maxOperations maxEntries storeRetentionMs now) calls = some s) :
    (∀ before id i after, s.trace = before ++ .invoked id i :: after →
      Shown before id .started ∧ ¬ Invoked before id ∧ ¬ Invoked after id ∧ ¬ Shown s.trace id .aborted) ∧
    ∀ before e after, s.trace = before ++ .event e :: after →
      (e.kind = .requested ↔ ∀ e' ∈ eventsOf before, e'.operationId ≠ e.operationId) := by
  obtain ⟨-, hchronicled, haccounted⟩ := Machine.run_invariant
    (I := fun s => s.Registry ∧ s.Chronicled ∧ Ordered Effect.Accounted s.trace)
    (fun _ _ _ h hs => ⟨h.1.step hs, h.2.1.step h.1 hs, h.2.1.accounted_step h.2.2 hs⟩)
    ⟨Registry.new rfl, .new rfl, ordered_nil⟩ hrun
  constructor
  · intro before id i after htrace
    refine ⟨(hchronicled.inOrder before _ after htrace).1, haccounted before _ after htrace, ?_, ?_⟩
    · rintro ⟨j, hj⟩
      obtain ⟨between, rest, rfl⟩ := List.append_of_mem hj
      have hagain : ¬ Invoked (before ++ .invoked id i :: between) id :=
        haccounted _ (.invoked id j) rest (by rw [htrace]; simp)
      exact hagain ⟨i, by simp⟩
    · exact hchronicled.inOrder.not_aborted ⟨i, by simp [htrace]⟩
  · intro before e after htrace
    refine ⟨(hchronicled.inOrder before _ after htrace).first, fun hfirst => ?_⟩
    by_contra hkind
    obtain ⟨e', he', hid, -⟩ := haccounted before _ after htrace hkind
    exact hfirst e' he' hid

/-- An operation that was dispatched. -/
theorem invokedOnce_blink : ∃ s, machine.run newDefault [.begin_ blink (js "a"), .microtask 0, .dispatched 0] = some s ∧
    ∀ before id i after, s.trace = before ++ .invoked id i :: after → ¬ Invoked after id := by
  have hsome : (machine.run newDefault [.begin_ blink (js "a"), .microtask 0, .dispatched 0]).isSome = true := by
    decide +kernel
  obtain ⟨s, hs⟩ := Option.isSome_iff_exists.mp hsome
  exact ⟨s, hs, fun before id i after h => ((invokedOnce_of_run _ _ _ _ _ _ s hs).1 before id i after h).2.2.1⟩

end OperationManager

end Pinout.Operation
