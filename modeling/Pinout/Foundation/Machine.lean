import Mathlib.Data.List.Basic
import Mathlib.Data.List.Infix

/-! # Labelled machines and their runs

A **machine** is a partial step function over labels: a label that is not enabled in a state has no
step. Runs, invariants of runs, and runs whose every step meets a *guard* (a predicate on the state
before the step and its label) are defined once here, so that each development on top proves only
what one step preserves. -/

namespace Pinout.Foundation

universe u v

/-- A labelled machine: `step s a` is the state reached from `s` by the label `a`, or `none` when
`a` is not enabled in `s`. -/
structure Machine (σ : Type u) (α : Type v) where
  step : σ → α → Option σ

namespace Machine

variable {σ : Type u} {α : Type v} (M : Machine σ α)

/-- Run a list of labels from a state; `none` when some label is not enabled where it is taken. -/
def run : σ → List α → Option σ
  | s, [] => some s
  | s, a :: as => match M.step s a with
    | some t => run t as
    | none => none

@[simp] theorem run_nil (s : σ) : M.run s [] = some s := rfl

/-- The first label of a run leads to the state the rest of the run starts from. -/
theorem run_cons_eq_some {s t : σ} {a : α} {as : List α} :
    M.run s (a :: as) = some t ↔ ∃ m, M.step s a = some m ∧ M.run m as = some t := by
  rw [run]
  cases M.step s a with
  | none => simp
  | some m => simp

/-- A run of a concatenation passes through the state between its two parts. -/
theorem run_append_eq_some {s t : σ} {as bs : List α} :
    M.run s (as ++ bs) = some t ↔ ∃ m, M.run s as = some m ∧ M.run m bs = some t := by
  induction as generalizing s with
  | nil => simp
  | cons a as ih =>
    simp only [List.cons_append, run_cons_eq_some, ih]
    constructor
    · rintro ⟨m, hm, m', hm', ht⟩
      exact ⟨m', ⟨m, hm, hm'⟩, ht⟩
    · rintro ⟨m', ⟨m, hm, hm'⟩, ht⟩
      exact ⟨m, hm, m', hm', ht⟩

@[simp] theorem run_singleton (s : σ) (a : α) : M.run s [a] = M.step s a := by
  rw [run]
  cases M.step s a <;> rfl

/-- Where every label is enabled in every state, every list of labels is a run. -/
theorem exists_run_of_total (htotal : ∀ s a, ∃ t, M.step s a = some t) (s : σ) (as : List α) :
    ∃ t, M.run s as = some t := by
  induction as generalizing s with
  | nil => exact ⟨s, rfl⟩
  | cons a as ih =>
    obtain ⟨m, hm⟩ := htotal s a
    obtain ⟨t, ht⟩ := ih m
    exact ⟨t, M.run_cons_eq_some.mpr ⟨m, hm, ht⟩⟩

/-! ## Guarded runs -/

/-- Every step of the run meets the guard `P` in the state it is taken from. -/
def Guarded (P : σ → α → Prop) : σ → List α → Prop
  | _, [] => True
  | s, a :: as => P s a ∧ match M.step s a with
    | some t => Guarded P t as
    | none => True

/-- Guardedness of a concrete run can be evaluated. -/
instance decidableGuarded (P : σ → α → Prop) [∀ s a, Decidable (P s a)] :
    ∀ (s : σ) (as : List α), Decidable (M.Guarded P s as)
  | _, [] => isTrue trivial
  | s, a :: as =>
    have : Decidable (match M.step s a with
        | some t => M.Guarded P t as
        | none => True) :=
      match M.step s a with
      | some t => decidableGuarded P t as
      | none => isTrue trivial
    inferInstanceAs (Decidable (P s a ∧ _))

variable {M} {P : σ → α → Prop}

@[simp] theorem guarded_nil (s : σ) : M.Guarded P s [] := trivial

theorem Guarded.of_cons {s t : σ} {a : α} {as : List α} (h : M.Guarded P s (a :: as))
    (ht : M.step s a = some t) : P s a ∧ M.Guarded P t as := by
  obtain ⟨hP, hrest⟩ := h
  rw [ht] at hrest
  exact ⟨hP, hrest⟩

/-- A run is guarded when its first step is and the rest of it is. -/
theorem Guarded.cons {s t : σ} {a : α} {as : List α} (ht : M.step s a = some t) (hP : P s a)
    (h : M.Guarded P t as) : M.Guarded P s (a :: as) := by
  refine ⟨hP, ?_⟩
  rw [ht]
  exact h

theorem Guarded.of_append {s t : σ} {as bs : List α} (h : M.Guarded P s (as ++ bs))
    (ht : M.run s as = some t) : M.Guarded P s as ∧ M.Guarded P t bs := by
  induction as generalizing s with
  | nil =>
    obtain rfl : s = t := by simpa using ht
    exact ⟨trivial, h⟩
  | cons a as ih =>
    obtain ⟨m, hm, hrun⟩ := M.run_cons_eq_some.mp ht
    obtain ⟨hP, hrest⟩ := Guarded.of_cons h hm
    obtain ⟨hleft, hright⟩ := ih hrest hrun
    exact ⟨Guarded.cons hm hP hleft, hright⟩

theorem Guarded.mono {Q : σ → α → Prop} (hPQ : ∀ s a, P s a → Q s a) {s : σ} {as : List α}
    (h : M.Guarded P s as) : M.Guarded Q s as := by
  induction as generalizing s with
  | nil => trivial
  | cons a as ih =>
    obtain ⟨hP, hrest⟩ := h
    refine ⟨hPQ s a hP, ?_⟩
    cases hstep : M.step s a with
    | none => trivial
    | some t =>
      rw [hstep] at hrest
      exact ih hrest

/-! ## Invariants of runs -/

/-- **Guarded invariant rule.** What holds at the start of a guarded run and is preserved by every
guarded step holds at its end. -/
theorem run_guarded_invariant {I : σ → Prop}
    (hstep : ∀ s a t, I s → P s a → M.step s a = some t → I t)
    {s t : σ} {as : List α} (h0 : I s) (hg : M.Guarded P s as) (hrun : M.run s as = some t) :
    I t := by
  induction as generalizing s with
  | nil =>
    obtain rfl : s = t := by simpa using hrun
    exact h0
  | cons a as ih =>
    obtain ⟨m, hm, hrest⟩ := M.run_cons_eq_some.mp hrun
    obtain ⟨hP, hgrest⟩ := Guarded.of_cons hg hm
    exact ih (hstep s a m h0 hP hm) hgrest hrest

theorem guarded_true (s : σ) (as : List α) : M.Guarded (fun _ _ => True) s as := by
  induction as generalizing s with
  | nil => trivial
  | cons a as ih =>
    refine ⟨trivial, ?_⟩
    cases M.step s a with
    | none => trivial
    | some t => exact ih t

/-- **Invariant rule.** What holds at the start of a run and is preserved by every step holds at its
end. -/
theorem run_invariant {I : σ → Prop} (hstep : ∀ s a t, I s → M.step s a = some t → I t)
    {s t : σ} {as : List α} (h0 : I s) (hrun : M.run s as = some t) : I t :=
  run_guarded_invariant (P := fun _ _ => True) (fun s a t hI _ => hstep s a t hI) h0
    (guarded_true s as) hrun

/-- **Agreeing guards.** Guards that agree at the steps from where an invariant holds guard the same runs, when the
steps that meet the guards keep the invariant. -/
theorem guarded_iff {I : σ → Prop} {Q : σ → α → Prop}
    (hstep : ∀ s a t, I s → P s a → M.step s a = some t → I t)
    (hPQ : ∀ s a t, I s → M.step s a = some t → (P s a ↔ Q s a)) {s t : σ} {as : List α} (h0 : I s)
    (hrun : M.run s as = some t) : M.Guarded P s as ↔ M.Guarded Q s as := by
  induction as generalizing s with
  | nil => exact Iff.rfl
  | cons a as ih =>
    obtain ⟨m, hm, hrest⟩ := M.run_cons_eq_some.mp hrun
    have hiff : P s a ↔ Q s a := hPQ s a m h0 hm
    constructor
    · intro hg
      obtain ⟨hP, hgrest⟩ := Guarded.of_cons hg hm
      exact Guarded.cons hm (hiff.mp hP) ((ih (hstep s a m h0 hP hm) hrest).mp hgrest)
    · intro hg
      obtain ⟨hQ, hgrest⟩ := Guarded.of_cons hg hm
      have hP : P s a := hiff.mpr hQ
      exact Guarded.cons hm hP ((ih (hstep s a m h0 hP hm) hrest).mpr hgrest)

/-- Guards that agree at the steps from where an invariant of all steps holds guard the same runs. -/
theorem guarded_congr {I : σ → Prop} {Q : σ → α → Prop} (hstep : ∀ s a t, I s → M.step s a = some t → I t)
    (hPQ : ∀ s a t, I s → M.step s a = some t → (P s a ↔ Q s a)) {s t : σ} {as : List α} (h0 : I s)
    (hrun : M.run s as = some t) : M.Guarded P s as ↔ M.Guarded Q s as :=
  guarded_iff (fun s a t hI _ => hstep s a t hI) hPQ h0 hrun

/-- A list of labels that is not guarded has a first label at which the guard fails, in a state that
the labels before it reach. -/
theorem exists_guard_failure {s : σ} {as : List α} (h : ¬ M.Guarded P s as) :
    ∃ before a after m, as = before ++ a :: after ∧ M.run s before = some m ∧
      M.Guarded P s before ∧ ¬ P m a := by
  induction as generalizing s with
  | nil => exact absurd trivial h
  | cons a as ih =>
    by_cases hP : P s a
    · cases hstep : M.step s a with
      | none =>
        refine absurd ⟨hP, ?_⟩ h
        rw [hstep]
        trivial
      | some m =>
        have hnot : ¬ M.Guarded P m as := fun hg => h (Guarded.cons hstep hP hg)
        obtain ⟨before, b, after, p, rfl, hp, hg, hnP⟩ := ih hnot
        refine ⟨a :: before, b, after, p, rfl, ?_, Guarded.cons hstep hP hg, hnP⟩
        exact M.run_cons_eq_some.mpr ⟨m, hstep, hp⟩
    · exact ⟨[], a, as, s, rfl, rfl, trivial, hP⟩

/-- **Guard failure.** A run that is not guarded has a first step at which the guard fails, taken
from a state the run reaches. -/
theorem exists_of_not_guarded {s t : σ} {as : List α} (hrun : M.run s as = some t)
    (h : ¬ M.Guarded P s as) :
    ∃ before a after m m', as = before ++ a :: after ∧ M.run s before = some m ∧
      M.Guarded P s before ∧ ¬ P m a ∧ M.step m a = some m' := by
  obtain ⟨before, a, after, m, rfl, hm, hg, hP⟩ := exists_guard_failure h
  obtain ⟨p, hp, hrest⟩ := M.run_append_eq_some.mp hrun
  obtain rfl := Option.some.inj (hm.symm.trans hp)
  obtain ⟨m', hm', -⟩ := M.run_cons_eq_some.mp hrest
  exact ⟨before, a, after, m, m', rfl, hm, hg, hP, hm'⟩

/-- **Onset.** What does not hold at the start of a guarded run and holds at its end sets in at a step,
which meets the guard. -/
theorem exists_onset {Q : σ → Prop} {s t : σ} {as : List α} (hg : M.Guarded P s as)
    (hrun : M.run s as = some t) (hs : ¬ Q s) (ht : Q t) :
    ∃ before a after m m', as = before ++ a :: after ∧ M.run s before = some m ∧ P m a ∧ ¬ Q m ∧
      M.step m a = some m' ∧ Q m' := by
  induction as generalizing s with
  | nil =>
    obtain rfl : s = t := by simpa using hrun
    exact absurd ht hs
  | cons a as ih =>
    obtain ⟨m, hm, hrest⟩ := M.run_cons_eq_some.mp hrun
    obtain ⟨hP, hgrest⟩ := Guarded.of_cons hg hm
    by_cases hQ : Q m
    · exact ⟨[], a, as, s, m, rfl, rfl, hP, hs, hm, hQ⟩
    · obtain ⟨before, b, after, p, p', rfl, hp, hPb, hnot, hstep, hp'⟩ := ih hgrest hrest hQ
      exact ⟨a :: before, b, after, p, p', rfl, M.run_cons_eq_some.mpr ⟨m, hm, hp⟩, hPb, hnot, hstep,
        hp'⟩

/-- **History rule.** Where each step appends to a history what is good exactly when the step meets the guard,
what a run appends is good exactly when the run is guarded. -/
theorem run_history {β : Type*} (I : σ → Prop) (history : σ → List β) (good : β → Prop)
    (hstep : ∀ s a t, I s → M.step s a = some t →
      I t ∧ ∃ new, history t = history s ++ new ∧ ((∀ o ∈ new, good o) ↔ P s a))
    {s t : σ} {as : List α} (h0 : I s) (hrun : M.run s as = some t) :
    I t ∧ ∃ new, history t = history s ++ new ∧ ((∀ o ∈ new, good o) ↔ M.Guarded P s as) := by
  induction as generalizing s with
  | nil =>
    obtain rfl : s = t := by simpa using hrun
    exact ⟨h0, [], by simp⟩
  | cons a as ih =>
    obtain ⟨m, hm, hrest⟩ := M.run_cons_eq_some.mp hrun
    obtain ⟨hI, new, hnew, hgood⟩ := hstep s a m h0 hm
    obtain ⟨hIt, later, hlater, hgoods⟩ := ih hI hrest
    refine ⟨hIt, new ++ later, by rw [hlater, hnew, List.append_assoc], ?_⟩
    constructor
    · intro h
      have hfirst := hgood.mp fun o ho => h o (List.mem_append_left _ ho)
      have hrest := hgoods.mp fun o ho => h o (List.mem_append_right _ ho)
      exact Guarded.cons hm hfirst hrest
    · intro hg o ho
      obtain ⟨hfirst, hrest⟩ := Guarded.of_cons hg hm
      rcases List.mem_append.mp ho with ho | ho
      · exact hgood.mpr hfirst o ho
      · exact hgoods.mpr hrest o ho

end Machine

end Pinout.Foundation
