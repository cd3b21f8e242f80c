import Mathlib.Data.List.DropRight
import Mathlib.Data.List.TakeWhile

/-! # A list and its parts

Where a list is cut by a predicate: behind the longest first part that meets it. What `List.splitOn` keeps: everything
but the separators, and where the list begins. -/

namespace Pinout.Foundation

section Cutting

variable {α : Type*} {p : α → Bool} {body rest : List α}

theorem dropWhile_eq_self_of_head (h : ∀ a ∈ rest.head?, p a = false) : rest.dropWhile p = rest := by
  cases rest with
  | nil => rfl
  | cons a rest => exact List.dropWhile_cons_of_neg (by rw [h a rfl]; nofun)

/-- **Where a list is cut**: behind what meets the predicate, when what follows does not begin so. -/
theorem dropWhile_append_of_head (hbody : ∀ a ∈ body, p a = true) (hrest : ∀ a ∈ rest.head?, p a = false) :
    (body ++ rest).dropWhile p = rest := by
  rw [List.dropWhile_append_of_pos hbody, dropWhile_eq_self_of_head hrest]

theorem takeWhile_append_of_head (hbody : ∀ a ∈ body, p a = true) (hrest : ∀ a ∈ rest.head?, p a = false) :
    (body ++ rest).takeWhile p = body := by
  have hparts := List.takeWhile_append_dropWhile (p := p) (l := body ++ rest)
  rw [dropWhile_append_of_head hbody hrest] at hparts
  exact List.append_cancel_right hparts

/-- Where a list that does not meet the predicate throughout fails to first. -/
theorem exists_first_of_not_forall {l : List α} (h : ¬ ∀ a ∈ l, p a = true) :
    ∃ front a back, l = front ++ a :: back ∧ (∀ b ∈ front, p b = true) ∧ p a = false := by
  have hdrop : l.dropWhile p ≠ [] := by rwa [Ne, List.dropWhile_eq_nil_iff]
  refine ⟨l.takeWhile p, (l.dropWhile p).head hdrop, (l.dropWhile p).tail, ?_, fun _ => List.mem_takeWhile_imp,
    List.head_dropWhile_not p hdrop⟩
  rw [List.cons_head_tail, List.takeWhile_append_dropWhile]

/-- **What stands behind two kinds of units**: a list begins with units of the first kind, then there are some of the
second, then that. -/
theorem head?_dropWhile_dropWhile_iff {q : α → Bool} {l : List α} {c : α} (hpc : p c = false) (hqc : q c = false)
    (hpq : ∀ a, q a = true → p a = false) :
    (∃ a ∈ l.head?, p a = true) ∧ ((l.dropWhile p).dropWhile q).head? = some c ↔
      ∃ name blanks more, l = name ++ (blanks ++ c :: more) ∧ name ≠ [] ∧ (∀ a ∈ name, p a = true) ∧
        ∀ a ∈ blanks, q a = true := by
  constructor
  · rintro ⟨⟨a, ha, hpa⟩, h⟩
    obtain ⟨more, hmore⟩ : ∃ more, (l.dropWhile p).dropWhile q = c :: more := ⟨_, (List.cons_head?_tail h).symm⟩
    refine ⟨l.takeWhile p, (l.dropWhile p).takeWhile q, more, ?_, ?_, fun _ => List.mem_takeWhile_imp,
      fun _ => List.mem_takeWhile_imp⟩
    · rw [← hmore, List.takeWhile_append_dropWhile, List.takeWhile_append_dropWhile]
    · rw [← List.cons_head?_tail ha, List.takeWhile_cons_of_pos hpa]
      exact List.cons_ne_nil _ _
  · rintro ⟨name, blanks, more, rfl, hne, hname, hblanks⟩
    obtain ⟨b, name, rfl⟩ := List.exists_cons_of_ne_nil hne
    refine ⟨⟨b, rfl, hname b List.mem_cons_self⟩, ?_⟩
    rw [dropWhile_append_of_head hname, dropWhile_append_of_head hblanks]
    · rfl
    · rintro a ⟨⟩
      exact hqc
    · intro a ha
      cases blanks with
      | nil =>
        obtain rfl := Option.some.inj ha
        exact hpc
      | cons b blanks =>
        obtain rfl := Option.some.inj ha
        exact hpq b (hblanks b List.mem_cons_self)

/-- What is dropped from the end of a list ends in front of what is not dropped. -/
theorem rdropWhile_append_cons {a : α} (ha : p a = false) (l rest : List α) :
    (l ++ a :: rest).rdropWhile p = l ++ a :: rest.rdropWhile p := by
  induction rest using List.reverseRecOn with
  | nil => rw [List.rdropWhile_concat_neg _ _ _ (by rw [ha]; nofun), List.rdropWhile_nil]
  | append_singleton rest b ih =>
    rw [← List.cons_append, ← List.append_assoc]
    by_cases hb : p b = true
    · rw [List.rdropWhile_concat_pos _ _ _ hb, List.rdropWhile_concat_pos _ _ _ hb, ih]
    · rw [List.rdropWhile_concat_neg _ _ _ hb, List.rdropWhile_concat_neg _ _ _ hb, List.append_assoc, List.cons_append]

end Cutting

variable {α : Type*} [BEq α] {separator : α} {l part : List α}

theorem mem_of_mem_splitOn (hpart : part ∈ l.splitOn separator) {a : α} (ha : a ∈ part) : a ∈ l := by
  induction l generalizing part with
  | nil =>
    simp only [List.splitOn, List.splitOnP_nil, List.mem_singleton] at hpart
    rw [hpart] at ha
    exact ha
  | cons x l ih =>
    rw [List.splitOn, List.splitOnP_cons_eq_if_modifyHead, ← List.splitOn] at hpart
    split at hpart
    · rcases List.mem_cons.mp hpart with rfl | hlater
      · cases ha
      · exact List.mem_cons_of_mem x (ih hlater ha)
    · cases hsplit : l.splitOn separator with
      | nil => exact absurd hsplit (List.splitOnP_ne_nil _ _)
      | cons first rest =>
        rw [hsplit, List.modifyHead_cons] at hpart
        rcases List.mem_cons.mp hpart with rfl | hlater
        · rcases List.mem_cons.mp ha with rfl | ha
          · exact List.mem_cons_self ..
          · exact List.mem_cons_of_mem x (ih (hsplit ▸ List.mem_cons_self ..) ha)
        · exact List.mem_cons_of_mem x (ih (hsplit ▸ List.mem_cons_of_mem _ hlater) ha)

/-- A list and its first part begin alike, but for one that begins with the separator. -/
theorem head?_of_splitOn [LawfulBEq α] {first : List α} {rest : List (List α)} (h : l.splitOn separator = first :: rest)
    {a : α} (ha : a ≠ separator) : l.head? = some a ↔ first.head? = some a := by
  cases l with
  | nil =>
    simp only [List.splitOn, List.splitOnP_nil, List.cons.injEq] at h
    rw [← h.1]
  | cons x l =>
    rw [List.splitOn, List.splitOnP_cons_eq_if_modifyHead, ← List.splitOn] at h
    split at h
    · next hx =>
      obtain rfl := LawfulBEq.eq_of_beq hx
      rw [← (List.cons.inj h).1]
      exact ⟨fun hsome => absurd (Option.some.inj hsome).symm ha, nofun⟩
    · cases hsplit : l.splitOn separator with
      | nil => exact absurd hsplit (List.splitOnP_ne_nil _ _)
      | cons part parts =>
        rw [hsplit, List.modifyHead_cons] at h
        rw [← (List.cons.inj h).1]
        exact Iff.rfl

theorem eq_or_mem_of_splitOn [LawfulBEq α] {a : α} (ha : a ∈ l) :
    a = separator ∨ ∃ part ∈ l.splitOn separator, a ∈ part := by
  induction l with
  | nil => cases ha
  | cons x l ih =>
    rw [List.splitOn, List.splitOnP_cons_eq_if_modifyHead, ← List.splitOn]
    split
    · next hx =>
      rcases List.mem_cons.mp ha with rfl | ha
      · exact .inl (LawfulBEq.eq_of_beq hx)
      · refine (ih ha).imp_right ?_
        rintro ⟨part, hpart, hin⟩
        exact ⟨part, List.mem_cons_of_mem _ hpart, hin⟩
    · cases hsplit : l.splitOn separator with
      | nil => exact absurd hsplit (List.splitOnP_ne_nil _ _)
      | cons first rest =>
        rw [hsplit] at ih
        rw [List.modifyHead_cons]
        rcases List.mem_cons.mp ha with rfl | ha
        · exact .inr ⟨_, List.mem_cons_self, List.mem_cons_self⟩
        · refine (ih ha).imp_right ?_
          rintro ⟨part, hpart, hin⟩
          rcases List.mem_cons.mp hpart with rfl | hlater
          · exact ⟨_, List.mem_cons_self, List.mem_cons_of_mem x hin⟩
          · exact ⟨part, List.mem_cons_of_mem _ hlater, hin⟩

end Pinout.Foundation
