import Mathlib.Data.List.Basic

/-! # Cutting a stream at a separator

`cutLines` cuts a list at a separator into the lines that are complete and the rest after the last
separator; `joinLines` is its inverse. A stream that arrives in parts is cut part by part: the rest of
what came first goes in front of what comes next (`cutLines_append`). -/

namespace Pinout.Foundation

universe u

variable {α : Type u} [DecidableEq α] {sep : α}

/-- The complete lines of a list and the rest after the last separator. -/
def cutLines (sep : α) : List α → List (List α) × List α
  | [] => ([], [])
  | a :: l =>
    if a = sep then ([] :: (cutLines sep l).1, (cutLines sep l).2)
    else match (cutLines sep l).1 with
      | [] => ([], a :: (cutLines sep l).2)
      | line :: lines => ((a :: line) :: lines, (cutLines sep l).2)

theorem cutLines_cons (a : α) (l : List α) : cutLines sep (a :: l) =
    if a = sep then ([] :: (cutLines sep l).1, (cutLines sep l).2)
    else match (cutLines sep l).1 with
      | [] => ([], a :: (cutLines sep l).2)
      | line :: lines => ((a :: line) :: lines, (cutLines sep l).2) := rfl

omit [DecidableEq α] in
/-- Complete lines and a rest, put together again. -/
def joinLines (sep : α) (lines : List (List α)) (rest : List α) : List α :=
  lines.flatMap (fun line => line ++ [sep]) ++ rest

/-- A list without separator in front of another goes to the first line, or to the rest. -/
theorem cutLines_append_of_not_mem {a : List α} (ha : sep ∉ a) (l : List α) :
    cutLines sep (a ++ l) =
      match (cutLines sep l).1 with
      | [] => ([], a ++ (cutLines sep l).2)
      | line :: lines => ((a ++ line) :: lines, (cutLines sep l).2) := by
  induction a with
  | nil =>
    rw [List.nil_append]
    cases h : (cutLines sep l).1 with
    | nil => exact Prod.ext h rfl
    | cons line lines => exact Prod.ext h rfl
  | cons x a ih =>
    have hx : x ≠ sep := fun h => ha (h ▸ List.mem_cons_self)
    have ih := ih fun h => ha (List.mem_cons_of_mem x h)
    rw [List.cons_append, cutLines_cons, if_neg hx, ih]
    cases (cutLines sep l).1 <;> rfl

theorem cutLines_of_not_mem {a : List α} (ha : sep ∉ a) : cutLines sep a = ([], a) := by
  have h : cutLines sep (a ++ []) = ([], a ++ []) := cutLines_append_of_not_mem ha []
  rwa [List.append_nil] at h

variable (sep) in
theorem not_mem_cutLines (l : List α) :
    (∀ line ∈ (cutLines sep l).1, sep ∉ line) ∧ sep ∉ (cutLines sep l).2 := by
  induction l with
  | nil => exact ⟨nofun, List.not_mem_nil⟩
  | cons a l ih =>
    obtain ⟨hlines, hrest⟩ := ih
    rw [cutLines_cons]
    split
    · refine ⟨fun line hline => ?_, hrest⟩
      rcases List.mem_cons.mp hline with rfl | hline
      · exact List.not_mem_nil
      · exact hlines line hline
    · next ha =>
      split
      · refine ⟨nofun, fun h => ?_⟩
        rcases List.mem_cons.mp h with h | h
        · exact ha h.symm
        · exact hrest h
      · next first lines hcut =>
        rw [hcut] at hlines
        refine ⟨fun line hline => ?_, hrest⟩
        rcases List.mem_cons.mp hline with rfl | hline
        · intro h
          rcases List.mem_cons.mp h with h | h
          · exact ha h.symm
          · exact hlines first List.mem_cons_self h
        · exact hlines line (List.mem_cons_of_mem first hline)

variable (sep) in
theorem joinLines_cutLines (l : List α) :
    joinLines sep (cutLines sep l).1 (cutLines sep l).2 = l := by
  induction l with
  | nil => rfl
  | cons a l ih =>
    rw [cutLines_cons]
    split
    · next ha =>
      subst ha
      show [] ++ [a] ++ joinLines a (cutLines a l).1 (cutLines a l).2 = a :: l
      rw [ih]
      rfl
    · split
      · next hcut =>
        rw [hcut] at ih
        exact congrArg (List.cons a) ih
      · next first lines hcut =>
        rw [hcut] at ih
        exact congrArg (List.cons a) ih

theorem cutLines_joinLines {lines : List (List α)} {rest : List α}
    (hlines : ∀ line ∈ lines, sep ∉ line) (hrest : sep ∉ rest) :
    cutLines sep (joinLines sep lines rest) = (lines, rest) := by
  induction lines with
  | nil => exact cutLines_of_not_mem hrest
  | cons line lines ih =>
    have ih := ih fun l hl => hlines l (List.mem_cons_of_mem line hl)
    have hcons : joinLines sep (line :: lines) rest =
        line ++ sep :: joinLines sep lines rest := by
      simp [joinLines]
    rw [hcons, cutLines_append_of_not_mem (hlines line List.mem_cons_self), cutLines_cons, if_pos rfl, ih]
    simp

/-- **Cutting part by part.** The rest of the first part goes in front of the second. -/
theorem cutLines_append (l m : List α) :
    cutLines sep (l ++ m) =
      ((cutLines sep l).1 ++ (cutLines sep ((cutLines sep l).2 ++ m)).1,
        (cutLines sep ((cutLines sep l).2 ++ m)).2) := by
  obtain ⟨hlines, -⟩ := not_mem_cutLines sep l
  set after := cutLines sep ((cutLines sep l).2 ++ m) with hafter
  obtain ⟨hlines', hrest'⟩ := not_mem_cutLines sep ((cutLines sep l).2 ++ m)
  rw [← hafter] at hlines' hrest'
  have hjoin : l ++ m = joinLines sep ((cutLines sep l).1 ++ after.1) after.2 := by
    have h := joinLines_cutLines sep ((cutLines sep l).2 ++ m)
    rw [← hafter, joinLines] at h
    conv_lhs => rw [← joinLines_cutLines sep l]
    rw [joinLines, joinLines, List.append_assoc, ← h, List.flatMap_append, List.append_assoc]
  rw [hjoin]
  refine cutLines_joinLines (fun line hline => ?_) hrest'
  rcases List.mem_append.mp hline with hline | hline
  · exact hlines line hline
  · exact hlines' line hline

/-- **The beginning of complete lines** has the first of them as its lines. -/
theorem cutLines_isPrefix {lines : List (List α)} {l m : List α} (hlines : ∀ line ∈ lines, sep ∉ line)
    (h : l ++ m = lines.flatMap fun line => line ++ [sep]) : (cutLines sep l).1 <+: lines := by
  have hcut : cutLines sep (joinLines sep lines []) = (lines, []) :=
    cutLines_joinLines hlines List.not_mem_nil
  rw [joinLines, List.append_nil, ← h, cutLines_append] at hcut
  exact ⟨_, congrArg Prod.fst hcut⟩

theorem exists_eq_of_getElem?_cutLines {l line : List α} {n : Nat}
    (h : (cutLines sep l).1[n]? = some line) :
    ∃ before after, l = before ++ line ++ sep :: after ∧
      cutLines sep (before ++ line) = ((cutLines sep l).1.take n, line) := by
  obtain ⟨hlines, -⟩ := not_mem_cutLines sep l
  obtain ⟨hn, hline⟩ := List.getElem?_eq_some_iff.mp h
  have hsplit : (cutLines sep l).1 =
      (cutLines sep l).1.take n ++ line :: (cutLines sep l).1.drop (n + 1) := by
    rw [← hline, List.getElem_cons_drop, List.take_append_drop]
  refine ⟨((cutLines sep l).1.take n).flatMap fun line => line ++ [sep],
    joinLines sep ((cutLines sep l).1.drop (n + 1)) (cutLines sep l).2, ?_, ?_⟩
  · conv_lhs => rw [← joinLines_cutLines sep l, joinLines, hsplit]
    simp [joinLines]
  · refine cutLines_joinLines (fun m hm => hlines m (List.mem_of_mem_take hm)) ?_
    exact hlines line (List.mem_of_getElem? h)

end Pinout.Foundation
