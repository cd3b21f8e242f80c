import Mathlib.Data.List.Nodup
import Mathlib.Data.List.Perm.Subperm
import Mathlib.Logic.Relation

/-! # Parent pointers and child lists

The two ways a forest is stored. Over a **parent pointer** for each node: walking up from a node
(`ascend`) answers whether a target is on the way, and comes to an end because the pointers have no
cycle (`Acyclic`); pointing one node at a new parent keeps that when the parent is not below the node
(`Acyclic.update`). Over a **list of children** for each node: the breadth-first sweep (`sweep`) of a
forest (`IsForest`) comes to an end and lists every descendant once (`IsForest.sweep`). Both loops
take fuel, and `none` is a loop that has run out of it. -/

namespace Pinout.Foundation

universe u v

variable {κ : Type u} {ε : Type v}

/-! ## Parent pointers -/

def Up (parent : κ → Option κ) (c p : κ) : Prop := parent c = some p

def Acyclic (parent : κ → Option κ) : Prop := ∀ x, ¬ Relation.TransGen (Up parent) x x

theorem Acyclic.of_none {parent : κ → Option κ} (h : ∀ x, parent x = none) : Acyclic parent := by
  intro x hx
  obtain ⟨y, hy, -⟩ := Relation.TransGen.head'_iff.mp hx
  rw [Up, h] at hy
  cases hy

variable [DecidableEq κ]

/-- What is above a node after `c` has been pointed at `p`: what was above it before, or, when it is at
or below `c`, what was at or above `p`. -/
theorem above_update {parent : κ → Option κ} {c p x y : κ}
    (h : Relation.TransGen (Up (Function.update parent c (some p))) x y) :
    Relation.TransGen (Up parent) x y ∨
      (Relation.ReflTransGen (Up parent) x c ∧ Relation.ReflTransGen (Up parent) p y) := by
  have hstep : ∀ {z w : κ}, Up (Function.update parent c (some p)) z w →
      (z = c ∧ w = p) ∨ Up parent z w := by
    intro z w hzw
    rw [Up, Function.update_apply] at hzw
    split at hzw
    · next hz => exact Or.inl ⟨hz, (Option.some.inj hzw).symm⟩
    · exact Or.inr hzw
  induction h with
  | single hxy =>
    rcases hstep hxy with ⟨rfl, rfl⟩ | hxy
    · exact Or.inr ⟨.refl, .refl⟩
    · exact Or.inl (.single hxy)
  | tail _ hzw ih =>
    rcases hstep hzw with ⟨rfl, rfl⟩ | hzw
    · refine Or.inr ⟨?_, .refl⟩
      rcases ih with ih | ⟨hxc, -⟩
      · exact ih.to_reflTransGen
      · exact hxc
    · rcases ih with ih | ⟨hxc, hpz⟩
      · exact Or.inl (ih.tail hzw)
      · exact Or.inr ⟨hxc, hpz.tail hzw⟩

/-- Pointing `c` at a `p` that is neither `c` nor below it makes no cycle. -/
theorem Acyclic.update {parent : κ → Option κ} (h : Acyclic parent) {c p : κ}
    (hnot : ¬ Relation.ReflTransGen (Up parent) p c) :
    Acyclic (Function.update parent c (some p)) := by
  intro x hx
  rcases above_update hx with hx | ⟨hxc, hpx⟩
  · exact h x hx
  · exact hnot (hpx.trans hxc)

/-- Walk up from a node until the target or a root is met. -/
def ascend (parent : κ → Option κ) (target : κ) : Nat → Option κ → Option Bool
  | _, none => some false
  | 0, some _ => none
  | fuel + 1, some current =>
    if current = target then some true else ascend parent target fuel (parent current)

/-- What the walk up answers, when it answers: whether the target is at or above the start. -/
theorem ascend_eq_some {parent : κ → Option κ} {target : κ} {fuel : Nat} {start : Option κ}
    {b : Bool} (h : ascend parent target fuel start = some b) :
    b = true ↔ ∃ x, start = some x ∧ Relation.ReflTransGen (Up parent) x target := by
  induction fuel generalizing start with
  | zero =>
    cases start with
    | none =>
      obtain rfl := Option.some.inj h
      simp
    | some x => cases h
  | succ fuel ih =>
    cases start with
    | none =>
      obtain rfl := Option.some.inj h
      simp
    | some x =>
      rw [ascend] at h
      split at h
      · next hx =>
        obtain rfl := Option.some.inj h
        exact iff_of_true rfl ⟨x, rfl, hx ▸ .refl⟩
      · next hx =>
        rw [ih h]
        constructor
        · rintro ⟨y, hy, htarget⟩
          exact ⟨x, rfl, .head hy htarget⟩
        · rintro ⟨_, hxx', htarget⟩
          obtain rfl := Option.some.inj hxx'
          rcases Relation.ReflTransGen.cases_head htarget with heq | ⟨y, hy, htarget⟩
          · exact absurd heq hx
          · exact ⟨y, hy, htarget⟩

/-- A walk up that has seen `seen` so far comes to an end: it meets no node twice, and there are only
so many. -/
theorem ascend_isSome_of_seen {parent : κ → Option κ} {nodes : List κ} (hacyclic : Acyclic parent)
    (hknown : ∀ x p, parent x = some p → p ∈ nodes) (target : κ) {fuel : Nat} {seen : List κ}
    {start : Option κ} (hstart : ∀ x, start = some x → x ∈ nodes) (hnodup : seen.Nodup)
    (hsub : ∀ s ∈ seen, s ∈ nodes)
    (habove : ∀ x, start = some x → ∀ s ∈ seen, Relation.TransGen (Up parent) s x)
    (hfuel : nodes.length ≤ fuel + seen.length) :
    (ascend parent target fuel start).isSome = true := by
  induction fuel generalizing seen start with
  | zero =>
    cases start with
    | none => rfl
    | some x =>
      have hx : x ∉ seen := fun hmem => hacyclic x (habove x rfl x hmem)
      have hlen := (List.subperm_of_subset (List.nodup_cons.mpr ⟨hx, hnodup⟩)
        (List.cons_subset.mpr ⟨hstart x rfl, hsub⟩)).length_le
      rw [List.length_cons] at hlen
      omega
  | succ fuel ih =>
    cases start with
    | none => rfl
    | some x =>
      have hx : x ∉ seen := fun hmem => hacyclic x (habove x rfl x hmem)
      rw [ascend]
      split
      · rfl
      · refine ih (hknown x) (List.nodup_cons.mpr ⟨hx, hnodup⟩) ?_ ?_ ?_
        · intro s hs
          rcases List.mem_cons.mp hs with rfl | hs
          · exact hstart s rfl
          · exact hsub s hs
        · intro y hy s hs
          rcases List.mem_cons.mp hs with rfl | hs
          · exact .single hy
          · exact (habove x rfl s hs).tail hy
        · rw [List.length_cons]
          omega

/-- **Walking up ends.** With acyclic pointers into `nodes`, as much fuel as there are nodes is
enough. -/
theorem ascend_isSome {parent : κ → Option κ} {nodes : List κ} (hacyclic : Acyclic parent)
    (hknown : ∀ x p, parent x = some p → p ∈ nodes) (target : κ) {start : Option κ}
    (hstart : ∀ x, start = some x → x ∈ nodes) :
    (ascend parent target nodes.length start).isSome = true :=
  ascend_isSome_of_seen hacyclic hknown target hstart List.nodup_nil nofun nofun (by simp)

/-! ## Child lists -/

omit [DecidableEq κ]

/-- `c` is in the list of children of `p`. -/
def Down (children : κ → Except ε (List κ)) (p c : κ) : Prop :=
  ∃ cs, children p = .ok cs ∧ c ∈ cs

/-- The breadth-first sweep: `out` has been listed, `queue` is to be listed next. -/
def sweep (children : κ → Except ε (List κ)) :
    Nat → List κ → List κ → Option (Except ε (List κ))
  | _, out, [] => some (.ok out)
  | 0, _, _ :: _ => none
  | fuel + 1, out, next :: queue =>
    match children next with
    | .ok cs => sweep children fuel (out ++ [next]) (queue ++ cs)
    | .error e => some (.error e)

/-- **A forest over `nodes`.** Every node has a list of children among the nodes, without
repetition; no node is in two lists; and no node is below itself. -/
structure IsForest (children : κ → Except ε (List κ)) (nodes : List κ) : Prop where
  known : ∀ x ∈ nodes, ∃ cs, children x = .ok cs ∧ cs.Nodup ∧ ∀ c ∈ cs, c ∈ nodes
  unique : ∀ p q c, Down children p c → Down children q c → p = q
  acyclic : ∀ x, ¬ Relation.TransGen (Down children) x x

/-- Where a sweep from `root` stands: what has been listed or queued is below the root, without
repetition; each of it is in the list of the root or of something listed; and what is in such a list
has been listed or queued. -/
structure Sweeping (children : κ → Except ε (List κ)) (root : κ) (out queue : List κ) : Prop where
  nodup : (out ++ queue).Nodup
  below : ∀ x ∈ out ++ queue, Relation.TransGen (Down children) root x
  /-- Everything listed or queued got there from the list of a node that was visited. -/
  origin : ∀ x ∈ out ++ queue, ∃ p ∈ root :: out, Down children p x
  /-- The lists of the visited nodes have been listed or queued. -/
  closed : ∀ p ∈ root :: out, ∀ c, Down children p c → c ∈ out ++ queue

namespace IsForest

variable {children : κ → Except ε (List κ)} {nodes : List κ} {root next : κ} {out queue cs : List κ}

theorem mem_of_below (h : IsForest children nodes) (hroot : root ∈ nodes) {x : κ}
    (hx : Relation.TransGen (Down children) root x) : x ∈ nodes := by
  have hdown : ∀ {p c : κ}, p ∈ nodes → Down children p c → c ∈ nodes := by
    rintro p c hp ⟨cs, hcs, hc⟩
    obtain ⟨cs', hcs', -, hsub⟩ := h.known p hp
    obtain rfl := Except.ok.inj (hcs.symm.trans hcs')
    exact hsub c hc
  induction hx with
  | single hx => exact hdown hroot hx
  | tail _ hx ih => exact hdown ih hx

theorem sweeping_start (h : IsForest children nodes) (hroot : root ∈ nodes)
    (hcs : children root = .ok cs) : Sweeping children root [] cs := by
  obtain ⟨cs', hcs', hnodup, -⟩ := h.known root hroot
  obtain rfl := Except.ok.inj (hcs.symm.trans hcs')
  have hdown : ∀ x ∈ cs, Down children root x := fun x hx => ⟨cs, hcs, hx⟩
  refine ⟨hnodup, fun x hx => .single (hdown x hx),
    fun x hx => ⟨root, List.mem_cons_self, hdown x hx⟩, ?_⟩
  intro p hp c hc
  obtain rfl := List.mem_singleton.mp hp
  obtain ⟨cs', hcs', hc⟩ := hc
  obtain rfl := Except.ok.inj (hcs.symm.trans hcs')
  exact hc

theorem sweeping_step (h : IsForest children nodes) (hroot : root ∈ nodes)
    (hs : Sweeping children root out (next :: queue)) (hcs : children next = .ok cs) :
    Sweeping children root (out ++ [next]) (queue ++ cs) := by
  have hmem : ∀ x, x ∈ (out ++ [next]) ++ (queue ++ cs) ↔ x ∈ out ++ next :: queue ∨ x ∈ cs := by
    intro x
    simp [or_assoc, or_left_comm]
  have hnext : Relation.TransGen (Down children) root next := hs.below next (by simp)
  obtain ⟨cs', hcs', hcsNodup, -⟩ := h.known next (h.mem_of_below hroot hnext)
  obtain rfl := Except.ok.inj (hcs.symm.trans hcs')
  have hdown : ∀ x ∈ cs, Down children next x := fun x hx => ⟨cs, hcs, hx⟩
  -- A child of `next` that is there already came from a visited node, which can only be `next`.
  have hfresh : ∀ x ∈ cs, x ∉ out ++ next :: queue := by
    intro x hx hold
    obtain ⟨p, hp, hpx⟩ := hs.origin x hold
    obtain rfl := h.unique p next x hpx (hdown x hx)
    rcases List.mem_cons.mp hp with rfl | hp
    · exact h.acyclic p hnext
    · exact List.disjoint_of_nodup_append hs.nodup hp List.mem_cons_self
  have happend : (out ++ [next]) ++ (queue ++ cs) = (out ++ next :: queue) ++ cs := by simp
  refine ⟨?_, ?_, ?_, ?_⟩
  · rw [happend]
    exact List.Nodup.append hs.nodup hcsNodup fun x hold hx => hfresh x hx hold
  · intro x hx
    rcases (hmem x).mp hx with hx | hx
    · exact hs.below x hx
    · exact hnext.tail (hdown x hx)
  · intro x hx
    rcases (hmem x).mp hx with hx | hx
    · obtain ⟨p, hp, hpx⟩ := hs.origin x hx
      exact ⟨p, List.cons_subset_cons root (List.subset_append_left out [next]) hp, hpx⟩
    · exact ⟨next, by simp, hdown x hx⟩
  · intro p hp c hc
    rw [hmem]
    have hp : p ∈ root :: out ∨ p = next := by simpa [or_assoc] using hp
    rcases hp with hp | rfl
    · exact Or.inl (hs.closed p hp c hc)
    · obtain ⟨cs', hcs', hc⟩ := hc
      obtain rfl := Except.ok.inj (hcs.symm.trans hcs')
      exact Or.inr hc

theorem mem_iff_below (hs : Sweeping children root out []) (x : κ) :
    x ∈ out ↔ Relation.TransGen (Down children) root x := by
  have hclosed : ∀ p ∈ root :: out, ∀ c, Down children p c → c ∈ out := by
    simpa using hs.closed
  refine ⟨fun hx => hs.below x (by simpa using hx), fun hx => ?_⟩
  induction hx with
  | single hx => exact hclosed root List.mem_cons_self _ hx
  | tail _ hx ih => exact hclosed _ (List.mem_cons_of_mem root ih) _ hx

theorem sweep_of_sweeping (h : IsForest children nodes) (hroot : root ∈ nodes) {fuel : Nat}
    (hs : Sweeping children root out queue) (hfuel : nodes.length ≤ fuel + out.length) :
    ∃ all, sweep children fuel out queue = some (.ok all) ∧ all.Nodup ∧
      ∀ x, x ∈ all ↔ Relation.TransGen (Down children) root x := by
  induction fuel generalizing out queue with
  | zero =>
    cases queue with
    | nil => exact ⟨out, rfl, by simpa using hs.nodup, mem_iff_below hs⟩
    | cons next queue =>
      have hsub : out ++ next :: queue ⊆ nodes := fun x hx => h.mem_of_below hroot (hs.below x hx)
      have hlen := (List.subperm_of_subset hs.nodup hsub).length_le
      rw [List.length_append, List.length_cons] at hlen
      omega
  | succ fuel ih =>
    cases queue with
    | nil => exact ⟨out, rfl, by simpa using hs.nodup, mem_iff_below hs⟩
    | cons next queue =>
      obtain ⟨cs, hcs, -⟩ := h.known next (h.mem_of_below hroot (hs.below next (by simp)))
      rw [sweep, hcs]
      refine ih (h.sweeping_step hroot hs hcs) ?_
      rw [List.length_append, List.length_singleton]
      omega

/-- **The sweep of a forest** comes to an end, with as much fuel as there are nodes, and lists every
descendant of the root once. -/
theorem sweep (h : IsForest children nodes) (hroot : root ∈ nodes) (hcs : children root = .ok cs) :
    ∃ all, Foundation.sweep children nodes.length [] cs = some (.ok all) ∧ all.Nodup ∧
      ∀ x, x ∈ all ↔ Relation.TransGen (Down children) root x :=
  h.sweep_of_sweeping hroot (h.sweeping_start hroot hcs) (by simp)

end IsForest

end Pinout.Foundation
