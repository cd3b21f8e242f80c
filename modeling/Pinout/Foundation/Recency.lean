import Mathlib.Order.Defs.LinearOrder
import Pinout.Foundation.InsertionMap

/-! # Insertion order as order of use

A map whose values carry a stamp, such as the time of last use. As long as what is touched goes to the end, the entries
are in the order of their stamps (`InStampOrder`), and dropping entries from the front drops the least stamp each time
(`evictsLeast`). Writing under a key that is not the newest (`NewestOrAbsent`) keeps the key's old place and breaks the
order. -/

namespace Pinout.Foundation.InsertionMap

universe u v w

variable {κ : Type u} {ν : Type v} {τ : Type w}

def NewestOrAbsent [DecidableEq κ] (m : InsertionMap κ ν) (k : κ) : Bool :=
  k ∉ m.entries.dropLast.map Prod.fst

section Insert

variable [DecidableEq κ] {m : InsertionMap κ ν} {k : κ} {v : ν}

theorem entries_erase (m : InsertionMap κ ν) (k : κ) : (m.erase k).entries = m.entries.filter fun e => e.1 ≠ k := rfl

/-- Inserting under the newest key, or a new one, puts the pair at the end. -/
theorem entries_insert_of_newestOrAbsent (h : m.NewestOrAbsent k = true) :
    (m.insert k v).entries = (m.erase k).entries ++ [(k, v)] := by
  have hother : ∀ {l : List (κ × ν)}, k ∉ l.map Prod.fst → ∀ e ∈ l, e.1 ≠ k := by
    rintro l hk e he rfl
    exact hk (List.mem_map_of_mem he)
  have hfront : k ∉ m.entries.dropLast.map Prod.fst := by simpa [NewestOrAbsent] using h
  rw [entries_erase]
  by_cases hk : k ∈ m.entries.map Prod.fst
  · rcases List.eq_nil_or_concat m.entries with hnil | ⟨front, ⟨j, w⟩, hentries⟩
    · rw [hnil] at hk
      cases hk
    · rw [List.concat_eq_append] at hentries
      rw [hentries, List.dropLast_concat] at hfront
      rw [hentries, List.map_append, List.mem_append] at hk
      obtain rfl : k = j := by simpa using hk.resolve_left hfront
      have hkeep : front.map (fun e => if e.1 = k then (k, v) else e) = front := by
        conv_rhs => rw [← List.map_id front]
        exact List.map_congr_left fun e he => if_neg (hother hfront e he)
      have hfilter : front.filter (fun e => e.1 ≠ k) = front :=
        List.filter_eq_self.mpr fun e he => by simpa using hother hfront e he
      rw [insert, dif_pos (by rw [hentries]; simp)]
      show replace m.entries k v = _
      rw [hentries, List.filter_append, hfilter]
      simp [replace, hkeep]
  · have hfilter : m.entries.filter (fun e => e.1 ≠ k) = m.entries :=
      List.filter_eq_self.mpr fun e he => by simpa using hother hk e he
    rw [insert, dif_neg hk, hfilter]

theorem newestOrAbsent_erase (m : InsertionMap κ ν) (k : κ) : (m.erase k).NewestOrAbsent k = true := by
  rw [NewestOrAbsent, decide_eq_true_eq]
  intro hk
  obtain ⟨e, he, rfl⟩ := List.mem_map.mp hk
  have hmem := (List.dropLast_sublist _).subset he
  rw [entries_erase, List.mem_filter] at hmem
  simp at hmem

end Insert

/-- The entries are in the order of their stamps. -/
def InStampOrder [LE τ] (stamp : ν → τ) (m : InsertionMap κ ν) : Prop :=
  m.entries.Pairwise fun a b => stamp a.2 ≤ stamp b.2

/-- Dropping entries from the front while there are more than `bound` drops one with the least stamp each time. -/
def EvictsLeast [LE τ] (stamp : ν → τ) (bound : Nat) : List (κ × ν) → Prop
  | [] => True
  | e :: rest => bound < (e :: rest).length → (∀ x ∈ rest, stamp e.2 ≤ stamp x.2) ∧ EvictsLeast stamp bound rest

instance decidableEvictsLeast [LE τ] [DecidableLE τ] (stamp : ν → τ) (bound : Nat) :
    ∀ l : List (κ × ν), Decidable (EvictsLeast stamp bound l)
  | [] => isTrue trivial
  | e :: rest =>
    have := decidableEvictsLeast stamp bound rest
    inferInstanceAs (Decidable (bound < (e :: rest).length → (∀ x ∈ rest, stamp e.2 ≤ stamp x.2) ∧ _))

section Order

variable [LE τ] {stamp : ν → τ} {bound : Nat}

/-- Entries in the order of their stamps are evicted least stamp first. -/
theorem evictsLeast_of_pairwise {l : List (κ × ν)} (h : l.Pairwise fun a b => stamp a.2 ≤ stamp b.2) :
    EvictsLeast stamp bound l := by
  induction l with
  | nil => trivial
  | cons e rest ih =>
    obtain ⟨hfirst, hrest⟩ := List.pairwise_cons.mp h
    exact fun _ => ⟨hfirst, ih hrest⟩

theorem inStampOrder_empty : (empty : InsertionMap κ ν).InStampOrder stamp := List.Pairwise.nil

/-- Part of the entries, in order, are in the order of their stamps. -/
theorem InStampOrder.restrict {m : InsertionMap κ ν} (h : m.InStampOrder stamp) {l : List (κ × ν)}
    (hl : l.Sublist m.entries) :
    (m.restrict l hl).InStampOrder stamp :=
  List.Pairwise.sublist hl h

theorem InStampOrder.erase [DecidableEq κ] {m : InsertionMap κ ν} (h : m.InStampOrder stamp) (k : κ) :
    (m.erase k).InStampOrder stamp :=
  h.restrict List.filter_sublist

/-- A write under the newest key, or a new one, keeps the order if its stamp is none the less. -/
theorem InStampOrder.insert [DecidableEq κ] {m : InsertionMap κ ν} (h : m.InStampOrder stamp) {k : κ} {v : ν}
    (hk : m.NewestOrAbsent k = true) (hv : ∀ e ∈ (m.erase k).entries, stamp e.2 ≤ stamp v) :
    (m.insert k v).InStampOrder stamp := by
  rw [InStampOrder, entries_insert_of_newestOrAbsent hk, List.pairwise_append]
  refine ⟨h.erase k, List.pairwise_singleton _ _, fun e he x hx => ?_⟩
  obtain rfl := List.mem_singleton.mp hx
  exact hv e he

end Order

end Pinout.Foundation.InsertionMap
