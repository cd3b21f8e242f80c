import Mathlib.Data.List.Basic

/-! # Computations that may fail

What the combinators of `Except` return: computations in a row, checks over a list, and what is thrown. -/

namespace Pinout.Foundation

universe u v

variable {ε : Type u} {α β : Type v}

theorem bind_eq_ok {x : Except ε α} {f : α → Except ε β} {b : β} :
    (x >>= f) = .ok b ↔ ∃ a, x = .ok a ∧ f a = .ok b := by
  cases x with
  | error e => exact ⟨nofun, nofun⟩
  | ok a =>
    constructor
    · intro h
      exact ⟨a, rfl, h⟩
    · rintro ⟨_, ha, h⟩
      cases ha
      exact h

theorem exists_of_bind_eq_ok {x : Except ε α} {f : α → Except ε β} {b : β} (h : (x >>= f) = .ok b) :
    ∃ a, x = .ok a ∧ f a = .ok b :=
  bind_eq_ok.mp h

theorem check_then_eq_ok {check : Except ε PUnit} {x : Except ε α} {a : α} :
    (check >>= fun _ => x) = .ok a ↔ check = .ok ⟨⟩ ∧ x = .ok a := by
  rw [bind_eq_ok]
  exact ⟨fun ⟨_, hcheck, h⟩ => ⟨hcheck, h⟩, fun ⟨hcheck, h⟩ => ⟨⟨⟩, hcheck, h⟩⟩

theorem forM_eq_ok_iff {check : α → Except ε PUnit} {l : List α} :
    l.forM check = .ok ⟨⟩ ↔ ∀ x ∈ l, check x = .ok ⟨⟩ := by
  rw [List.forM_eq_forM]
  induction l with
  | nil => simp [pure, Except.pure]
  | cons x l ih =>
    rw [List.forM_cons, List.forall_mem_cons, ← ih]
    cases check x <;> simp [bind, Except.bind]

theorem exists_of_forM_eq_error {check : α → Except ε PUnit} {l : List α} {e : ε}
    (h : l.forM check = .error e) : ∃ x ∈ l, check x = .error e := by
  rw [List.forM_eq_forM] at h
  induction l with
  | nil => cases h
  | cons x l ih =>
    rw [List.forM_cons] at h
    cases hx : check x with
    | error e' =>
      rw [hx] at h
      exact ⟨x, List.mem_cons_self, hx.trans h⟩
    | ok _ =>
      rw [hx] at h
      obtain ⟨y, hy, hcheck⟩ := ih h
      exact ⟨y, List.mem_cons_of_mem x hy, hcheck⟩

theorem exists_anyM_eq_ok {test : α → Except ε Bool} {l : List α}
    (h : ∀ x ∈ l, ∃ b, test x = .ok b) : ∃ b, l.anyM test = .ok b := by
  induction l with
  | nil => exact ⟨false, rfl⟩
  | cons x l ih =>
    obtain ⟨hx, hl⟩ := List.forall_mem_cons.mp h
    obtain ⟨b, hb⟩ := hx
    rw [List.anyM_cons, hb]
    cases b with
    | true => exact ⟨true, rfl⟩
    | false => exact ih hl

theorem anyM_eq_true_of_mem {test : α → Except ε Bool} {l : List α} {b : Bool}
    (h : l.anyM test = .ok b) {x : α} (hx : x ∈ l) (htest : test x = .ok true) : b = true := by
  induction l with
  | nil => cases hx
  | cons y l ih =>
    rw [List.anyM_cons] at h
    obtain ⟨found, hfound, h⟩ := exists_of_bind_eq_ok h
    cases found with
    | true => exact (Except.ok.inj h).symm
    | false =>
      rcases List.mem_cons.mp hx with rfl | hx
      · cases htest.symm.trans hfound
      · exact ih h hx

theorem map_eq_ok_iff {result : Except ε α} {f : α → β} {b : β} :
    result.map f = .ok b ↔ ∃ a, result = .ok a ∧ f a = b := by
  cases result with
  | ok a => simp [Except.map]
  | error e => simp [Except.map]

/-- Two verdicts agree on what is thrown when one of them is a refusal. -/
theorem map_eq_map_error_iff {result : Except ε α} {thrown : ε} :
    (Except.error thrown : Except ε α).map (fun _ => ()) = result.map (fun _ => ()) ↔ result = .error thrown := by
  cases result with
  | ok a => simp [Except.map]
  | error other =>
    simp only [Except.map, Except.error.injEq]
    exact eq_comm

end Pinout.Foundation
