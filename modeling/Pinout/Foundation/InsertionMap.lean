import Mathlib.Data.List.Basic
import Mathlib.Data.List.Dedup
import Mathlib.Data.List.Nodup
import Mathlib.Data.List.Perm.Subperm
import Mathlib.Data.List.TakeWhile
import Mathlib.Data.List.Lookmap

/-! # Insertion-ordered maps

A finite map that remembers the order in which its keys were first inserted, as `Map` of JavaScript
does: `insert` keeps the position of a key that is present and appends one that is not, `erase`
forgets the position, and iteration follows the order of `entries`. The keys of an `InsertionMap`
are distinct by construction, so a key is looked up exactly when its pair is an entry
(`get?_eq_some_iff`); every other lemma goes through that reading. -/

namespace Pinout.Foundation

universe u v

/-- An insertion-ordered map: pairs in insertion order with pairwise distinct keys. -/
structure InsertionMap (κ : Type u) (ν : Type v) where
  entries : List (κ × ν)
  nodup : (entries.map Prod.fst).Nodup

namespace InsertionMap

variable {κ : Type u} {ν : Type v}

def empty : InsertionMap κ ν := ⟨[], List.nodup_nil⟩

instance : Inhabited (InsertionMap κ ν) := ⟨empty⟩

def size (m : InsertionMap κ ν) : Nat := m.entries.length

def restrict (m : InsertionMap κ ν) (l : List (κ × ν)) (h : l.Sublist m.entries) :
    InsertionMap κ ν :=
  ⟨l, m.nodup.sublist (h.map Prod.fst)⟩

/-- Keep the entries that satisfy `p`. -/
def filter (m : InsertionMap κ ν) (p : κ × ν → Bool) : InsertionMap κ ν :=
  m.restrict (m.entries.filter p) List.filter_sublist

/-- Change every value, keeping every position. -/
def mapValues (m : InsertionMap κ ν) (f : ν → ν) : InsertionMap κ ν :=
  ⟨m.entries.map fun e => (e.1, f e.2), by rw [List.map_map]; exact m.nodup⟩

@[simp] theorem entries_empty : (empty : InsertionMap κ ν).entries = [] := rfl

@[simp] theorem entries_restrict (m : InsertionMap κ ν) (l : List (κ × ν))
    (h : l.Sublist m.entries) : (m.restrict l h).entries = l := rfl

@[simp] theorem entries_filter (m : InsertionMap κ ν) (p : κ × ν → Bool) :
    (m.filter p).entries = m.entries.filter p := rfl

theorem eq_of_mem {m : InsertionMap κ ν} {k : κ} {v w : ν} (hv : (k, v) ∈ m.entries)
    (hw : (k, w) ∈ m.entries) : v = w :=
  (Prod.mk.inj (List.inj_on_of_nodup_map m.nodup hv hw rfl)).2

variable [DecidableEq κ]

def get? (m : InsertionMap κ ν) (k : κ) : Option ν :=
  (m.entries.find? fun e => e.1 = k).map Prod.snd

def contains (m : InsertionMap κ ν) (k : κ) : Bool := (m.get? k).isSome

/-- Replace the value of a key that is present, keeping every position. -/
def replace (l : List (κ × ν)) (k : κ) (v : ν) : List (κ × ν) :=
  l.map fun e => if e.1 = k then (k, v) else e

theorem map_fst_replace (l : List (κ × ν)) (k : κ) (v : ν) :
    (replace l k v).map Prod.fst = l.map Prod.fst := by
  induction l with
  | nil => rfl
  | cons e l ih =>
    simp only [replace, List.map_cons, List.cons.injEq] at ih ⊢
    refine ⟨?_, ih⟩
    split
    · next h => exact h.symm
    · rfl

/-- Insert a pair: a key that is present keeps its position, a new key goes to the end. -/
def insert (m : InsertionMap κ ν) (k : κ) (v : ν) : InsertionMap κ ν :=
  if h : k ∈ m.entries.map Prod.fst then
    ⟨replace m.entries k v, by rw [map_fst_replace]; exact m.nodup⟩
  else
    ⟨m.entries ++ [(k, v)], by
      rw [List.map_append]
      refine List.Nodup.append m.nodup (List.nodup_singleton k) ?_
      rintro x hx hxk
      obtain rfl : x = k := by simpa using hxk
      exact h hx⟩

def erase (m : InsertionMap κ ν) (k : κ) : InsertionMap κ ν := m.filter fun e => e.1 ≠ k

/-! ## Lookup -/

theorem get?_eq_some_iff {m : InsertionMap κ ν} {k : κ} {v : ν} :
    m.get? k = some v ↔ (k, v) ∈ m.entries := by
  constructor
  · intro h
    obtain ⟨⟨k', v'⟩, hfind, rfl⟩ := Option.map_eq_some_iff.mp h
    have hkey : k' = k := by simpa using List.find?_some hfind
    subst hkey
    exact List.mem_of_find?_eq_some hfind
  · intro h
    cases hfind : m.entries.find? fun e => e.1 = k with
    | none =>
      have := List.find?_eq_none.mp hfind (k, v) h
      simp at this
    | some e =>
      obtain ⟨k', v'⟩ := e
      have hkey : k' = k := by simpa using List.find?_some hfind
      subst hkey
      rw [get?, hfind, Option.map_some]
      exact congrArg some (eq_of_mem (List.mem_of_find?_eq_some hfind) h)

theorem get?_eq_none_iff {m : InsertionMap κ ν} {k : κ} :
    m.get? k = none ↔ ∀ v, (k, v) ∉ m.entries := by
  rw [Option.eq_none_iff_forall_ne_some]
  exact forall_congr' fun v => not_congr get?_eq_some_iff

@[simp] theorem get?_empty (k : κ) : (empty : InsertionMap κ ν).get? k = none := rfl

theorem contains_iff {m : InsertionMap κ ν} {k : κ} :
    m.contains k = true ↔ ∃ v, m.get? k = some v := Option.isSome_iff_exists

theorem contains_eq_false_iff {m : InsertionMap κ ν} {k : κ} :
    m.contains k = false ↔ m.get? k = none := by
  unfold contains
  cases m.get? k <;> simp

/-- The entries after an insertion: the inserted pair, and the old entries of the other keys. -/
theorem mem_entries_insert {m : InsertionMap κ ν} {k j : κ} {v w : ν} :
    (j, w) ∈ (m.insert k v).entries ↔ (j = k ∧ w = v) ∨ (j ≠ k ∧ (j, w) ∈ m.entries) := by
  unfold insert
  split
  · next h =>
    obtain ⟨⟨k', u⟩, hu, rfl⟩ := List.mem_map.mp h
    simp only [replace, List.mem_map, Prod.exists]
    constructor
    · rintro ⟨a, b, hab, heq⟩
      split at heq
      · obtain ⟨rfl, rfl⟩ := Prod.mk.inj heq
        exact Or.inl ⟨rfl, rfl⟩
      · next hne =>
        obtain ⟨rfl, rfl⟩ := Prod.mk.inj heq
        exact Or.inr ⟨hne, hab⟩
    · rintro (⟨rfl, rfl⟩ | ⟨hne, hmem⟩)
      · exact ⟨j, u, hu, if_pos rfl⟩
      · exact ⟨j, w, hmem, if_neg hne⟩
  · next h =>
    simp only [List.mem_append, List.mem_singleton, Prod.mk.injEq]
    constructor
    · rintro (hmem | ⟨rfl, rfl⟩)
      · refine Or.inr ⟨?_, hmem⟩
        rintro rfl
        exact h (List.mem_map_of_mem hmem)
      · exact Or.inl ⟨rfl, rfl⟩
    · rintro (⟨rfl, rfl⟩ | ⟨-, hmem⟩)
      · exact Or.inr ⟨rfl, rfl⟩
      · exact Or.inl hmem

theorem get?_insert (m : InsertionMap κ ν) (k j : κ) (v : ν) :
    (m.insert k v).get? j = if j = k then some v else m.get? j := by
  by_cases h : j = k
  · rw [if_pos h, get?_eq_some_iff, mem_entries_insert]
    exact Or.inl ⟨h, rfl⟩
  · rw [if_neg h]
    refine Option.ext fun w => ?_
    rw [get?_eq_some_iff, get?_eq_some_iff, mem_entries_insert]
    simp [h]

@[simp] theorem get?_insert_self (m : InsertionMap κ ν) (k : κ) (v : ν) :
    (m.insert k v).get? k = some v := by
  rw [get?_insert, if_pos rfl]

theorem get?_insert_of_ne (m : InsertionMap κ ν) {k j : κ} (v : ν) (h : j ≠ k) :
    (m.insert k v).get? j = m.get? j := by
  rw [get?_insert, if_neg h]

/-- Lookup after a filter whose verdict on the key's own entry is known. -/
theorem get?_filter_eq_some_iff {m : InsertionMap κ ν} {p : κ × ν → Bool} {k : κ} {v : ν} :
    (m.filter p).get? k = some v ↔ m.get? k = some v ∧ p (k, v) = true := by
  rw [get?_eq_some_iff, get?_eq_some_iff, entries_filter, List.mem_filter]

theorem get?_erase (m : InsertionMap κ ν) (k j : κ) :
    (m.erase k).get? j = if j = k then none else m.get? j := by
  refine Option.ext fun w => ?_
  rw [erase, get?_filter_eq_some_iff]
  by_cases h : j = k <;> simp [h]

@[simp] theorem get?_erase_self (m : InsertionMap κ ν) (k : κ) : (m.erase k).get? k = none := by
  rw [get?_erase, if_pos rfl]

theorem get?_erase_of_ne (m : InsertionMap κ ν) {k j : κ} (h : j ≠ k) :
    (m.erase k).get? j = m.get? j := by
  rw [get?_erase, if_neg h]

theorem get?_mapValues (m : InsertionMap κ ν) (f : ν → ν) (k : κ) :
    (m.mapValues f).get? k = (m.get? k).map f := by
  refine Option.ext fun w => ?_
  rw [get?_eq_some_iff, Option.map_eq_some_iff]
  show (k, w) ∈ m.entries.map _ ↔ _
  rw [List.mem_map]
  constructor
  · rintro ⟨⟨j, v⟩, hv, heq⟩
    obtain ⟨rfl, rfl⟩ := Prod.mk.inj heq
    exact ⟨v, get?_eq_some_iff.mpr hv, rfl⟩
  · rintro ⟨v, hv, rfl⟩
    exact ⟨(k, v), get?_eq_some_iff.mp hv, rfl⟩

theorem dropWhile_ne_key {m : InsertionMap κ ν} {k : κ} {v : ν} (h : (k, v) ∈ m.entries) :
    ∃ rest, m.entries.dropWhile (fun e => e.1 ≠ k) = (k, v) :: rest := by
  have hget : (m.entries.find? fun e => e.1 = k).map Prod.snd = some v := get?_eq_some_iff.mpr h
  rw [List.find?_eq_head?_dropWhile_not] at hget
  obtain ⟨⟨k', v'⟩, hhead, rfl⟩ := Option.map_eq_some_iff.mp hget
  obtain ⟨rest, hdrop⟩ := List.head?_eq_some_iff.mp hhead
  have hkey : k' = k := by
    have hfind : (m.entries.find? fun e => e.1 = k) = some (k', v') := by
      rw [List.find?_eq_head?_dropWhile_not, hhead]
    simpa using List.find?_some hfind
  subst hkey
  refine ⟨rest, ?_⟩
  simp only [ne_eq, decide_not]
  exact hdrop

/-! ## Size -/

theorem entries_insert_of_not_mem {m : InsertionMap κ ν} {k : κ} {v : ν} (h : m.get? k = none) :
    (m.insert k v).entries = m.entries ++ [(k, v)] := by
  have hk : k ∉ m.entries.map Prod.fst := by
    intro hmem
    obtain ⟨⟨k', w⟩, hw, rfl⟩ := List.mem_map.mp hmem
    exact get?_eq_none_iff.mp h w hw
  simp [insert, hk]

/-- The keys after an insertion are the old keys and the inserted one. -/
theorem mem_keys_insert {m : InsertionMap κ ν} {k j : κ} {v : ν} :
    j ∈ (m.insert k v).entries.map Prod.fst ↔ j = k ∨ j ∈ m.entries.map Prod.fst := by
  simp only [List.mem_map, Prod.exists, exists_and_right, exists_eq_right, mem_entries_insert]
  constructor
  · rintro ⟨w, ⟨rfl, rfl⟩ | ⟨-, hw⟩⟩
    · exact Or.inl rfl
    · exact Or.inr ⟨w, hw⟩
  · rintro (rfl | ⟨w, hw⟩)
    · exact ⟨v, Or.inl ⟨rfl, rfl⟩⟩
    · by_cases h : j = k
      · exact ⟨v, Or.inl ⟨h, rfl⟩⟩
      · exact ⟨w, Or.inr ⟨h, hw⟩⟩

/-- A new value that looks like the old one leaves what one sees of the entries as it is. -/
theorem map_entries_insert {β : Type*} {m : InsertionMap κ ν} {k : κ} {v w : ν} (f : ν → β)
    (h : m.get? k = some w) (hf : f v = f w) :
    (m.insert k v).entries.map (fun e => f e.2) = m.entries.map fun e => f e.2 := by
  have hmem : (k, w) ∈ m.entries := get?_eq_some_iff.mp h
  have hk : k ∈ m.entries.map Prod.fst := List.mem_map_of_mem hmem
  rw [insert, dif_pos hk]
  show (replace m.entries k v).map _ = _
  rw [replace, List.map_map]
  refine List.map_congr_left fun e he => ?_
  show f (if e.1 = k then (k, v) else e).2 = f e.2
  split
  · next hek =>
    obtain ⟨k', v'⟩ := e
    obtain rfl : k' = k := hek
    rw [eq_of_mem he hmem]
    exact hf
  · rfl

theorem size_le_of_subset {m : InsertionMap κ ν} {l : List κ}
    (h : ∀ k ∈ m.entries.map Prod.fst, k ∈ l) : m.size ≤ l.dedup.length := by
  have hsub : m.entries.map Prod.fst ⊆ l.dedup := fun k hk => List.mem_dedup.mpr (h k hk)
  have hle := (List.subperm_of_subset m.nodup hsub).length_le
  rwa [List.length_map] at hle

end InsertionMap

end Pinout.Foundation
