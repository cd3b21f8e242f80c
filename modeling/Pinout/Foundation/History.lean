import Mathlib.Data.List.Basic
import Mathlib.Data.List.Induction

/-! # Past-time patterns in a history

A history is the list of what has happened so far, oldest first. `Since P Q h` says that somewhere
in `h` there is an event with `P`, and that what happened after it satisfies `Q`. `since_concat`
unfolds the pattern at the newest event, which is the only event a step adds. `Ordered R h` says that
every event of `h` stands in the relation `R` to what came before it. -/

namespace Pinout.Foundation

universe u

variable {α : Type u} {P P' : α → Prop} {Q Q' : List α → Prop}

/-- Some event of the history satisfies `P`, and the events after it satisfy `Q`. -/
def Since (P : α → Prop) (Q : List α → Prop) (history : List α) : Prop :=
  ∃ before event after, history = before ++ event :: after ∧ P event ∧ Q after

/-- A place in `history ++ [newest]` is the newest event or a place in the history. -/
theorem concat_eq_append_cons {history before after : List α} {newest event : α}
    (h : history ++ [newest] = before ++ event :: after) :
    (before = history ∧ event = newest ∧ after = []) ∨
      ∃ after', after = after' ++ [newest] ∧ history = before ++ event :: after' := by
  rcases List.eq_nil_or_concat after with rfl | ⟨after', last, rfl⟩
  · obtain ⟨hbefore, hlast⟩ := List.append_inj' h rfl
    exact Or.inl ⟨hbefore.symm, (List.singleton_inj.mp hlast).symm, rfl⟩
  · have h' : history ++ [newest] = (before ++ event :: after') ++ [last] := by simpa using h
    obtain ⟨hhistory, hlast⟩ := List.append_inj' h' rfl
    obtain rfl := List.singleton_inj.mp hlast
    exact Or.inr ⟨after', by simp, hhistory⟩

@[simp] theorem not_since_nil : ¬ Since P Q [] := by
  rintro ⟨before, event, after, h, -⟩
  simp at h

theorem since_concat {history : List α} {newest : α} :
    Since P Q (history ++ [newest]) ↔
      (P newest ∧ Q []) ∨ Since P (fun after => Q (after ++ [newest])) history := by
  constructor
  · rintro ⟨before, event, after, h, hP, hQ⟩
    rcases concat_eq_append_cons h with ⟨-, rfl, rfl⟩ | ⟨after', rfl, hhistory⟩
    · exact Or.inl ⟨hP, hQ⟩
    · exact Or.inr ⟨before, event, after', hhistory, hP, hQ⟩
  · rintro (⟨hP, hQ⟩ | ⟨before, event, after, rfl, hP, hQ⟩)
    · exact ⟨history, newest, [], rfl, hP, hQ⟩
    · exact ⟨before, event, after ++ [newest], by simp, hP, hQ⟩

theorem Since.imp (hP : ∀ e, P e → P' e) (hQ : ∀ after, Q after → Q' after) {history : List α}
    (h : Since P Q history) : Since P' Q' history := by
  obtain ⟨before, event, after, rfl, he, ha⟩ := h
  exact ⟨before, event, after, rfl, hP event he, hQ after ha⟩

theorem since_congr (hQ : ∀ after, Q after ↔ Q' after) {history : List α} :
    Since P Q history ↔ Since P Q' history :=
  ⟨Since.imp (fun _ h => h) fun after => (hQ after).mp,
    Since.imp (fun _ h => h) fun after => (hQ after).mpr⟩

/-- A pattern whose continuation fails at every history does not occur. -/
theorem not_since_of_forall (hQ : ∀ after, ¬ Q after) {history : List α} : ¬ Since P Q history := by
  rintro ⟨before, event, after, -, -, h⟩
  exact hQ after h

/-- A pattern with no condition on what came after is plain occurrence. -/
theorem since_true_iff {history : List α} :
    Since P (fun _ => True) history ↔ ∃ e ∈ history, P e := by
  constructor
  · rintro ⟨before, event, after, rfl, hP, -⟩
    exact ⟨event, by simp, hP⟩
  · rintro ⟨e, he, hP⟩
    obtain ⟨before, after, rfl⟩ := List.append_of_mem he
    exact ⟨before, e, after, rfl, hP, trivial⟩

theorem Since.exists_mem {history : List α} (h : Since P Q history) : ∃ e ∈ history, P e :=
  since_true_iff.mp (h.imp (fun _ hP => hP) fun _ _ => trivial)

/-! ## Orders -/

/-- Every event of the history stands in the relation to what came before it. -/
def Ordered (R : List α → α → Prop) (history : List α) : Prop :=
  ∀ before event after, history = before ++ event :: after → R before event

section Ordered

variable {R : List α → α → Prop} {history shown : List α} {newest : α}

@[simp] theorem ordered_nil : Ordered R [] := by
  intro before event after h
  simp at h

/-- A history is in order when it is up to its newest event, and that event is. -/
theorem ordered_concat :
    Ordered R (history ++ [newest]) ↔ Ordered R history ∧ R history newest := by
  constructor
  · intro h
    refine ⟨fun before event after hhistory => ?_, h history newest [] rfl⟩
    exact h before event (after ++ [newest]) (by rw [hhistory]; simp)
  · rintro ⟨hhistory, hnewest⟩ before event after h
    rcases concat_eq_append_cons h with ⟨rfl, rfl, -⟩ | ⟨after', -, heq⟩
    · exact hnewest
    · exact hhistory before event after' heq

theorem Ordered.of_prefix (h : Ordered R history) (hp : shown <+: history) : Ordered R shown := by
  obtain ⟨rest, rfl⟩ := hp
  intro before event after heq
  exact h before event (after ++ rest) (by rw [heq]; simp)

/-- Events that are in order after anything extend a history in order. -/
theorem Ordered.append_of_forall (h : Ordered R history)
    (hshown : ∀ e ∈ shown, ∀ before, R before e) : Ordered R (history ++ shown) := by
  induction shown using List.reverseRecOn with
  | nil => rwa [List.append_nil]
  | append_singleton shown e ih =>
    rw [← List.append_assoc, ordered_concat]
    exact ⟨ih fun e' he' => hshown e' (by simp [he']), hshown e (by simp) _⟩

/-- An event of a history in order stands in the relation to some beginning of it. -/
theorem Ordered.of_mem (h : Ordered R history) {e : α} (he : e ∈ history) :
    ∃ before after, history = before ++ e :: after ∧ R before e := by
  obtain ⟨before, after, rfl⟩ := List.append_of_mem he
  exact ⟨before, after, rfl, h before e after rfl⟩

/-- Of two events, one came before the other unless they are the same. -/
theorem Ordered.trichotomy (h : Ordered R history) {e e' : α} (he : e ∈ history)
    (he' : e' ∈ history) :
    e = e' ∨ (∃ before, e' ∈ before ∧ R before e) ∨ ∃ before, e ∈ before ∧ R before e' := by
  obtain ⟨before, after, rfl, hR⟩ := h.of_mem he
  rcases List.mem_append.mp he' with hbefore | htail
  · exact Or.inr (Or.inl ⟨before, hbefore, hR⟩)
  · rcases List.mem_cons.mp htail with rfl | hafter
    · exact Or.inl rfl
    · obtain ⟨between, rest, rfl⟩ := List.append_of_mem hafter
      refine Or.inr (Or.inr ⟨before ++ e :: between, by simp, ?_⟩)
      exact h (before ++ e :: between) e' rest (by simp)

end Ordered

end Pinout.Foundation
