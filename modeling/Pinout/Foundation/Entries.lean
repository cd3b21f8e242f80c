import Mathlib.Data.List.Basic

/-! # Numbered entries

Lists as tables whose entries are numbered by their place: what is appended gets the next number, and what
is modified keeps its own. `Entries P` says that every entry meets a property, which may depend on its
number. -/

namespace Pinout.Foundation

universe u

variable {α : Type u} {l : List α} {n k : Nat} {a b : α}

theorem getElem?_append_singleton_eq_some (h : (l ++ [b])[n]? = some a) :
    l[n]? = some a ∨ n = l.length ∧ a = b := by
  by_cases hlt : n < l.length
  · rw [List.getElem?_append_left hlt] at h
    exact .inl h
  · rw [List.getElem?_append_right (by omega)] at h
    have hzero : n - l.length = 0 := by
      have h := (List.getElem?_eq_some_iff.mp h).1
      rw [List.length_singleton] at h
      omega
    rw [hzero] at h
    exact .inr ⟨by omega, (Option.some.inj h).symm⟩

theorem getElem?_modify_eq_some {f : α → α} (h : (l.modify k f)[n]? = some a) :
    (k ≠ n ∧ l[n]? = some a) ∨ k = n ∧ ∃ b, l[n]? = some b ∧ a = f b := by
  rw [List.getElem?_modify] at h
  obtain ⟨b, hb, h⟩ := Option.map_eq_some_iff.mp h
  by_cases hk : k = n
  · rw [if_pos hk] at h
    exact .inr ⟨hk, b, hb, h.symm⟩
  · rw [if_neg hk] at h
    exact .inl ⟨hk, by rw [hb, ← h]⟩

theorem getElem?_modify_cases {f : α → α} (ha : l[k]? = some a) (h : (l.modify k f)[n]? = some b) :
    (k ≠ n ∧ l[n]? = some b) ∨ k = n ∧ b = f a := by
  rcases getElem?_modify_eq_some h with hother | ⟨rfl, b', hb, rfl⟩
  · exact .inl hother
  · exact .inr ⟨rfl, congrArg f (Option.some.inj (hb.symm.trans ha))⟩

theorem getElem?_modify_self (f : α → α) (h : l[k]? = some a) : (l.modify k f)[k]? = some (f a) := by
  simp [h]

theorem getElem?_modify_of_ne (f : α → α) (h : k ≠ n) : (l.modify k f)[n]? = l[n]? := by
  simp [h]

theorem map_modify_of_eq {β : Type*} {f : α → α} {g : α → β} (h : ∀ a ∈ l, g (f a) = g a) :
    (l.modify k f).map g = l.map g := by
  refine List.ext_getElem? fun n => ?_
  rw [List.getElem?_map, List.getElem?_map, List.getElem?_modify]
  cases ha : l[n]? with
  | none => rfl
  | some a =>
    have hmem := List.mem_of_getElem? ha
    by_cases hk : k = n <;> simp [hk, h a hmem]

theorem getElem?_append_of_eq_some (m : List α) (h : l[n]? = some a) : (l ++ m)[n]? = some a :=
  (List.getElem?_append_left (List.getElem?_eq_some_iff.mp h).1).trans h

def Entries (P : Nat → α → Prop) (l : List α) : Prop := ∀ (n : Nat) (a : α), l[n]? = some a → P n a

variable {P : Nat → α → Prop}

theorem Entries.nil : Entries P ([] : List α) := nofun

theorem Entries.append (h : Entries P l) (hb : P l.length b) : Entries P (l ++ [b]) := by
  intro n a ha
  rcases getElem?_append_singleton_eq_some ha with hold | ⟨rfl, rfl⟩
  · exact h n a hold
  · exact hb

theorem Entries.modify {f : α → α} (h : Entries P l) (hf : ∀ a, P k a → P k (f a)) :
    Entries P (l.modify k f) := by
  intro n a ha
  rcases getElem?_modify_eq_some ha with ⟨-, hold⟩ | ⟨rfl, b, hold, rfl⟩
  · exact h n a hold
  · exact hf b (h k b hold)

theorem Entries.map {Q : Nat → α → Prop} {f : α → α} (h : Entries P l) (hf : ∀ n a, P n a → Q n (f a)) :
    Entries Q (l.map f) := by
  intro n a ha
  rw [List.getElem?_map] at ha
  obtain ⟨b, hb, rfl⟩ := Option.map_eq_some_iff.mp ha
  exact hf n b (h n b hb)

theorem Entries.mono {Q : Nat → α → Prop} (h : Entries P l) (hPQ : ∀ n a, P n a → Q n a) : Entries Q l :=
  fun n a ha => hPQ n a (h n a ha)

end Pinout.Foundation
