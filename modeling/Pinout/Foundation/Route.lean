import Mathlib.Combinatorics.SimpleGraph.Acyclic

/-! # Routes

Lists of directed edges in which each one starts where the one before it ends. Where the edges form a forest, whichever
way they point, there is at most one route from one vertex to another. -/

namespace Pinout.Foundation

universe u v

variable {V : Type u} {E : Type v} (src tgt : E → V)

/-- The edges of a route from one vertex to another, in the order they are followed. -/
inductive Route (edges : List E) : V → V → List E → Prop
  | nil (v : V) : Route edges v v []
  | cons {e : E} {w : V} {path : List E} (hmem : e ∈ edges) (hrest : Route edges (tgt e) w path) :
      Route edges (src e) w (e :: path)

/-- The vertices an edge joins, in either order. -/
def ends (e : E) : Sym2 V :=
  s(src e, tgt e)

def routeGraph (edges : List E) : SimpleGraph V :=
  SimpleGraph.fromRel fun v w => ∃ e ∈ edges, src e = v ∧ tgt e = w

/-- The edges form a forest: none of them is a loop, no two of them join the same vertices, and there is no cycle. -/
structure EdgeForest (edges : List E) : Prop where
  loopless : ∀ e ∈ edges, src e ≠ tgt e
  simple : ∀ e ∈ edges, ∀ e' ∈ edges, ends src tgt e = ends src tgt e' → e = e'
  acyclic : (routeGraph src tgt edges).IsAcyclic

variable {src tgt} {edges : List E}

theorem Route.mem {v w : V} {path : List E} (hroute : Route src tgt edges v w path) : ∀ e ∈ path, e ∈ edges := by
  induction hroute with
  | nil v => simp
  | cons hmem _ ih => simpa using ⟨hmem, ih⟩

theorem Route.mono {more : List E} (hsub : ∀ e ∈ edges, e ∈ more) {v w : V} {path : List E}
    (hroute : Route src tgt edges v w path) : Route src tgt more v w path := by
  induction hroute with
  | nil v => exact .nil v
  | cons hmem _ ih => exact .cons (hsub _ hmem) ih

theorem Route.nil_iff {v w : V} : Route src tgt edges v w [] ↔ v = w := by
  constructor
  · rintro ⟨⟩
    rfl
  · rintro rfl
    exact .nil v

theorem Route.cons_iff {v w : V} {e : E} {path : List E} :
    Route src tgt edges v w (e :: path) ↔ src e = v ∧ e ∈ edges ∧ Route src tgt edges (tgt e) w path := by
  constructor
  · rintro (_ | ⟨hmem, hrest⟩)
    exact ⟨rfl, hmem, hrest⟩
  · rintro ⟨rfl, hmem, hrest⟩
    exact .cons hmem hrest

theorem EdgeForest.nil : EdgeForest src tgt ([] : List E) where
  loopless := by simp
  simple := by simp
  acyclic := by
    have hbot : routeGraph src tgt ([] : List E) = ⊥ := by
      ext v w
      simp [routeGraph]
    rw [hbot]
    exact SimpleGraph.isAcyclic_bot

theorem exists_mem_ends_of_adj {v w : V} (hadj : (routeGraph src tgt edges).Adj v w) :
    ∃ e ∈ edges, v ∈ ends src tgt e := by
  obtain ⟨-, ⟨e, hmem, rfl, -⟩ | ⟨e, hmem, -, rfl⟩⟩ := (SimpleGraph.fromRel_adj _ _ _).mp hadj
  · exact ⟨e, hmem, Sym2.mem_mk_left _ _⟩
  · exact ⟨e, hmem, Sym2.mem_mk_right _ _⟩

/-- A forest grows by an edge to a vertex that no other edge touches. -/
theorem EdgeForest.cons {e : E} (hforest : EdgeForest src tgt edges) (fresh : V) (hne : src e ≠ tgt e)
    (hend : fresh ∈ ends src tgt e) (hfresh : ∀ e' ∈ edges, fresh ∉ ends src tgt e') :
    EdgeForest src tgt (e :: edges) where
  loopless := List.forall_mem_cons.mpr ⟨hne, hforest.loopless⟩
  simple := by
    have hother : ∀ e' ∈ edges, ends src tgt e ≠ ends src tgt e' := by
      intro e' hmem heq
      exact hfresh e' hmem (heq ▸ hend)
    intro a ha b hb heq
    rcases List.mem_cons.mp ha with hae | hae <;> rcases List.mem_cons.mp hb with hbe | hbe
    · rw [hae, hbe]
    · exact absurd (hae ▸ heq) (hother b hbe)
    · exact absurd (hbe ▸ heq.symm) (hother a hae)
    · exact hforest.simple a hae b hbe heq
  acyclic := by
    have hgraph : routeGraph src tgt (e :: edges) = routeGraph src tgt edges ⊔ SimpleGraph.edge (src e) (tgt e) := by
      ext v w
      simp only [routeGraph, SimpleGraph.fromRel_adj, SimpleGraph.sup_adj, SimpleGraph.edge_adj,
        List.exists_mem_cons_iff]
      grind
    have hisolated : ∀ w, ¬ (routeGraph src tgt edges).Adj fresh w := by
      intro w hadj
      obtain ⟨e', hmem, htouches⟩ := exists_mem_ends_of_adj hadj
      exact hfresh e' hmem htouches
    rw [hgraph, SimpleGraph.isAcyclic_add_edge_iff_of_not_reachable]
    · exact hforest.acyclic
    · rintro ⟨walk⟩
      rcases Sym2.mem_iff.mp hend with rfl | rfl
      · exact hisolated _ (walk.adj_snd (SimpleGraph.Walk.not_nil_of_ne hne))
      · exact hisolated _ (walk.reverse.adj_snd (SimpleGraph.Walk.not_nil_of_ne hne.symm))

theorem EdgeForest.adj (hforest : EdgeForest src tgt edges) {e : E} (hmem : e ∈ edges) :
    (routeGraph src tgt edges).Adj (src e) (tgt e) :=
  (SimpleGraph.fromRel_adj _ _ _).mpr ⟨hforest.loopless e hmem, .inl ⟨e, hmem, rfl, rfl⟩⟩

theorem Route.exists_walk (hforest : EdgeForest src tgt edges) {v w : V} {path : List E}
    (hroute : Route src tgt edges v w path) :
    ∃ walk : (routeGraph src tgt edges).Walk v w, walk.edges = path.map (ends src tgt) := by
  induction hroute with
  | nil v => exact ⟨.nil, rfl⟩
  | cons hmem _ ih =>
    obtain ⟨walk, hwalk⟩ := ih
    exact ⟨.cons (hforest.adj hmem) walk, by rw [SimpleGraph.Walk.edges_cons, hwalk]; rfl⟩

theorem Route.isChain_ends (hforest : EdgeForest src tgt edges) {v w : V} {path : List E}
    (hroute : Route src tgt edges v w path) : (path.map (ends src tgt)).IsChain (· ≠ ·) := by
  induction hroute with
  | nil v => simp
  | @cons e w path hmem hrest ih =>
    rw [List.map_cons, List.isChain_cons]
    refine ⟨fun joined hjoined heq => ?_, ih⟩
    cases path with
    | nil => simp at hjoined
    | cons e' path =>
      obtain ⟨hsrc, hmem', -⟩ := Route.cons_iff.mp hrest
      obtain rfl : ends src tgt e' = joined := by simpa using hjoined
      -- an edge that joins the same vertices is the same one, and starts where it ends
      obtain rfl := hforest.simple e hmem e' hmem' heq
      exact hforest.loopless e hmem hsrc

/-- Lists with the same image are the same where the function tells their elements apart. -/
theorem eq_of_map_eq {α β : Type*} {f : α → β} {l l' : List α} (hinj : ∀ x ∈ l, ∀ y ∈ l', f x = f y → x = y)
    (hmap : l.map f = l'.map f) : l = l' := by
  induction l generalizing l' with
  | nil => simpa [eq_comm] using hmap
  | cons x l ih =>
    cases l' with
    | nil => simp at hmap
    | cons y l' =>
      rw [List.map_cons, List.map_cons, List.cons.injEq] at hmap
      have htail := ih (fun a ha b hb => hinj a (.tail x ha) b (.tail y hb)) hmap.2
      rw [hinj x (.head l) y (.head l') hmap.1, htail]

/-- In a forest there is at most one route from one vertex to another. -/
theorem Route.unique (hforest : EdgeForest src tgt edges) {v w : V} {path path' : List E}
    (hroute : Route src tgt edges v w path) (hroute' : Route src tgt edges v w path') : path = path' := by
  obtain ⟨walk, hwalk⟩ := hroute.exists_walk hforest
  obtain ⟨walk', hwalk'⟩ := hroute'.exists_walk hforest
  have hpath : walk.IsPath := by
    rw [hforest.acyclic.isPath_iff_isChain, hwalk]
    exact hroute.isChain_ends hforest
  have hpath' : walk'.IsPath := by
    rw [hforest.acyclic.isPath_iff_isChain, hwalk']
    exact hroute'.isChain_ends hforest
  have hwalks : walk = walk' := congrArg Subtype.val
    ((hforest.acyclic.subsingleton_path v w).elim ⟨walk, hpath⟩ ⟨walk', hpath'⟩)
  have hends : path.map (ends src tgt) = path'.map (ends src tgt) := by rw [← hwalk, ← hwalk', hwalks]
  exact eq_of_map_eq (fun e he e' he' => hforest.simple e (hroute.mem e he) e' (hroute'.mem e' he')) hends

end Pinout.Foundation
