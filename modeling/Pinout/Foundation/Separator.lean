import Mathlib.Data.List.Infix

/-! # A doubled letter as a separator

Where a letter first stands twice in a row (`indexOfPair`), and what that tells of a list with a doubled letter put
between two parts: the place is the end of the first part exactly when that part neither has the letter doubled nor ends
in it. Replacing one letter by another can be undone exactly where the other letter does not occur. -/

namespace Pinout.Foundation

variable {α β : Type*} [DecidableEq α] [DecidableEq β] {a b c : α} {l r : List α} {n : Nat}

/-! ## Where a letter is doubled -/

/-- Where a letter first stands twice in a row. -/
def indexOfPair (c : α) : List α → Option Nat
  | a :: b :: rest => if a = c ∧ b = c then some 0 else (indexOfPair c (b :: rest)).map (· + 1)
  | _ => none

@[simp] theorem indexOfPair_nil (c : α) : indexOfPair c [] = none := rfl

@[simp] theorem indexOfPair_singleton (c a : α) : indexOfPair c [a] = none := rfl

theorem indexOfPair_cons_cons (c a b : α) (rest : List α) :
    indexOfPair c (a :: b :: rest) =
      if a = c ∧ b = c then some 0 else (indexOfPair c (b :: rest)).map (· + 1) := rfl

theorem indexOfPair_eq_zero_iff : indexOfPair c l = some 0 ↔ [c, c] <+: l := by
  match l with
  | [] => simp
  | [a] => simp
  | a :: b :: rest =>
    rw [indexOfPair_cons_cons, List.cons_prefix_cons, List.cons_prefix_cons]
    by_cases h : a = c ∧ b = c
    · obtain ⟨rfl, rfl⟩ := h
      simp
    · rw [if_neg h]
      constructor
      · intro hsome
        obtain ⟨n, -, hn⟩ := Option.map_eq_some_iff.mp hsome
        cases hn
      · rintro ⟨rfl, rfl, -⟩
        exact absurd ⟨rfl, rfl⟩ h

/-- It does not at all exactly when the doubled letter is no part of the list. -/
theorem indexOfPair_eq_none_iff : indexOfPair c l = none ↔ ¬ [c, c] <:+: l := by
  induction l with
  | nil => simp
  | cons a rest ih =>
    cases rest with
    | nil => simp [List.infix_cons_iff]
    | cons b rest =>
      rw [indexOfPair_cons_cons, List.infix_cons_iff, List.cons_prefix_cons, List.cons_prefix_cons, not_or, ← ih]
      by_cases h : a = c ∧ b = c
      · obtain ⟨rfl, rfl⟩ := h
        simp
      · rw [if_neg h, Option.map_eq_none_iff]
        refine ⟨fun hnone => ⟨?_, hnone⟩, And.right⟩
        rintro ⟨rfl, rfl, -⟩
        exact h ⟨rfl, rfl⟩

/-- With the doubled letter after it, a list has it where it has it with the letter after it once, or at its end. -/
theorem indexOfPair_append (c : α) (l r : List α) :
    indexOfPair c (l ++ c :: c :: r) = some ((indexOfPair c (l ++ [c])).getD l.length) := by
  induction l with
  | nil => simp [indexOfPair_cons_cons]
  | cons a rest ih =>
    cases rest with
    | nil =>
      by_cases h : a = c
      · simp [indexOfPair_cons_cons, h]
      · simp [indexOfPair_cons_cons, h]
    | cons b rest =>
      rw [List.cons_append, List.cons_append] at ih ⊢
      rw [List.cons_append, List.cons_append, indexOfPair_cons_cons, indexOfPair_cons_cons]
      by_cases h : a = c ∧ b = c
      · rw [if_pos h, if_pos h]
        rfl
      · rw [if_neg h, if_neg h, ih]
        cases indexOfPair c (b :: (rest ++ [c])) <;> rfl

/-- What is found with the letter after it once is found in the list. -/
theorem lt_length_of_indexOfPair (h : indexOfPair c (l ++ [c]) = some n) : n < l.length := by
  induction l generalizing n with
  | nil => cases h
  | cons a rest ih =>
    cases rest with
    | nil =>
      rw [List.cons_append, List.nil_append, indexOfPair_cons_cons] at h
      split at h
      · rw [← Option.some.inj h]
        exact Nat.one_pos
      · cases h
    | cons b rest =>
      rw [List.cons_append, List.cons_append, indexOfPair_cons_cons] at h
      split at h
      · rw [← Option.some.inj h]
        exact Nat.succ_pos _
      · obtain ⟨m, hm, rfl⟩ := Option.map_eq_some_iff.mp h
        exact Nat.succ_lt_succ (ih hm)

/-- Nothing is found with the letter after it once exactly when the list neither has it doubled nor ends in it. -/
theorem indexOfPair_concat_eq_none_iff : indexOfPair c (l ++ [c]) = none ↔ ¬ [c, c] <:+: l ∧ ¬ [c] <:+ l := by
  rw [indexOfPair_eq_none_iff, List.infix_concat_iff, not_or, and_comm]
  refine and_congr_right fun _ => not_congr ?_
  constructor
  · rintro h
    obtain ⟨t, ht⟩ := h
    have hsplit : (t ++ [c]) ++ [c] = l ++ [c] := by rw [← ht, List.append_assoc]; rfl
    exact ⟨t, List.append_cancel_right hsplit⟩
  · rintro ⟨t, rfl⟩
    exact ⟨t, by rw [List.append_assoc]; rfl⟩

/-- A letter is doubled where its image is, when nothing else has that image. -/
theorem indexOfPair_map (f : α → β) (h : ∀ u ∈ l, f u = f c ↔ u = c) :
    indexOfPair (f c) (l.map f) = indexOfPair c l := by
  induction l with
  | nil => rfl
  | cons a rest ih =>
    cases rest with
    | nil => rfl
    | cons b rest =>
      specialize ih fun u hu => h u (List.mem_cons_of_mem _ hu)
      rw [List.map_cons] at ih
      rw [List.map_cons, List.map_cons, indexOfPair_cons_cons, indexOfPair_cons_cons, ih]
      have hguard : (f a = f c ∧ f b = f c) ↔ (a = c ∧ b = c) := and_congr (h a (by simp)) (h b (by simp))
      by_cases hpair : a = c ∧ b = c
      · rw [if_pos hpair, if_pos (hguard.mpr hpair)]
      · rw [if_neg hpair, if_neg fun hf => hpair (hguard.mp hf)]

/-! ## Replacing a letter -/

/-- Every occurrence of a letter replaced by another. -/
def replaceAll (a b : α) (l : List α) : List α := l.map fun u => if u = a then b else u

@[simp] theorem length_replaceAll (a b : α) (l : List α) : (replaceAll a b l).length = l.length := List.length_map _

theorem replaceAll_eq_self_iff (hne : a ≠ b) : replaceAll a b l = l ↔ a ∉ l := by
  induction l with
  | nil => simp [replaceAll]
  | cons u l ih =>
    rw [replaceAll, List.map_cons, List.cons.injEq, List.mem_cons, not_or]
    refine and_congr ?_ ih
    by_cases hu : u = a
    · subst hu
      simp [hne.symm]
    · simp [hu, Ne.symm hu]

theorem replaceAll_replaceAll (a b : α) (l : List α) : replaceAll b a (replaceAll a b l) = replaceAll b a l := by
  rw [replaceAll, replaceAll, replaceAll, List.map_map]
  refine List.map_congr_left fun u _ => ?_
  by_cases hu : u = a
  · subst hu
    simp
  · simp [hu]

end Pinout.Foundation
