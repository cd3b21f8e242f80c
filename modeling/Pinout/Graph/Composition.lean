import Pinout.Graph.DeviceGraph

/-! # The composition of devices

After every history of calls the parent pointers have no cycle, and a device is in the child list of
the device it points at (`Sound`). The graph is a forest (`Forest`) when, the other way round, a device
points at every device in whose child list it is. That is so exactly as long as no link gives a device
that has a parent another one: `link` writes the new pointer, and leaves the device in the child list
of its old parent. -/

namespace Pinout.Graph

open Foundation

namespace DeviceGraph

variable {g h : DeviceGraph} {p c : JsString} {parent child : DeviceDescriptor}

/-! ## The two copies -/

theorem mem_ids {id : JsString} : id ∈ g.ids ↔ ∃ node, g.nodes.get? id = some node := by
  simp [ids, InsertionMap.get?_eq_some_iff]

theorem parentOf_put (g : DeviceGraph) (id x : JsString) (node : DeviceDescriptor) :
    (g.put id node).parentOf x = if x = id then node.parent else g.parentOf x := by
  unfold parentOf put
  rw [InsertionMap.get?_insert]
  split <;> rfl

theorem childrenOf_put (g : DeviceGraph) (id x : JsString) (node : DeviceDescriptor) :
    (g.put id node).childrenOf x = if x = id then node.children else g.childrenOf x := by
  unfold childrenOf put
  rw [InsertionMap.get?_insert]
  split <;> rfl

theorem mem_ids_put {id x : JsString} {node : DeviceDescriptor} :
    x ∈ (g.put id node).ids ↔ x = id ∨ x ∈ g.ids :=
  InsertionMap.mem_keys_insert

theorem parentOf_of_get? (hc : g.nodes.get? c = some child) : g.parentOf c = child.parent := by
  rw [parentOf, hc, Option.bind_some]

theorem childrenOf_of_get? (hp : g.nodes.get? p = some parent) :
    g.childrenOf p = parent.children := by
  rw [childrenOf, hp, Option.map_some, Option.getD_some]

theorem mem_ids_of_mem_childrenOf (hc : c ∈ g.childrenOf p) : p ∈ g.ids := by
  rw [mem_ids]
  unfold childrenOf at hc
  cases hp : g.nodes.get? p with
  | none =>
    rw [hp] at hc
    cases hc
  | some node => exact ⟨node, rfl⟩

/-! ## What a call does -/

/-- The composition is the same in both graphs, and no device has gone. -/
structure Same (g h : DeviceGraph) : Prop where
  parentOf : ∀ x, h.parentOf x = g.parentOf x
  childrenOf : ∀ x, h.childrenOf x = g.childrenOf x
  ids : ∀ x ∈ g.ids, x ∈ h.ids

theorem Same.refl (g : DeviceGraph) : Same g g := ⟨fun _ => rfl, fun _ => rfl, fun _ hx => hx⟩

/-- Storing a descriptor with the pointer and the children the device has leaves the composition. -/
theorem same_put {id : JsString} {node : DeviceDescriptor} (hparent : node.parent = g.parentOf id)
    (hchildren : node.children = g.childrenOf id) : Same g (g.put id node) where
  parentOf x := by
    rw [parentOf_put]
    split
    · next hx => rw [hparent, hx]
    · rfl
  childrenOf x := by
    rw [childrenOf_put]
    split
    · next hx => rw [hchildren, hx]
    · rfl
  ids _ hx := mem_ids_put.mpr (Or.inr hx)

/-- Registering adds a device without parent and children. -/
theorem same_register (g : DeviceGraph) (input : DeviceGraphNodeInput) :
    Same g (g.register input).1 := by
  unfold register
  split
  · exact Same.refl g
  · next hnew =>
    have hnone : g.nodes.get? input.id = none :=
      InsertionMap.contains_eq_false_iff.mp (by simpa using hnew)
    refine same_put ?_ ?_
    · rw [parentOf, hnone]
      rfl
    · rw [childrenOf, hnone]
      rfl

/-- Changing something else of a device leaves the composition. -/
theorem same_modify (g : DeviceGraph) (id : JsString) {f : DeviceDescriptor → DeviceDescriptor}
    (hparent : ∀ node, (f node).parent = node.parent)
    (hchildren : ∀ node, (f node).children = node.children) : Same g (g.modify id f).1 := by
  unfold modify
  cases hget : g.nodes.get? id with
  | none => exact Same.refl g
  | some node =>
    refine same_put ?_ ?_
    · rw [hparent, parentOf_of_get? hget]
    · rw [hchildren, childrenOf_of_get? hget]

/-- Refreshing a device leaves the composition, and so does registering it. -/
theorem same_upsert (g : DeviceGraph) (input : DeviceGraphNodeInput) :
    Same g (g.upsert input).1 := by
  unfold upsert
  cases hget : g.nodes.get? input.id with
  | none => exact same_register g input
  | some existing =>
    refine same_put ?_ ?_
    · rw [parentOf_of_get? hget]
      rfl
    · rw [childrenOf_of_get? hget]
      rfl

/-- A link is accepted: both devices are registered and differ, and the child is not an ancestor of
the parent. -/
structure Accepts (g : DeviceGraph) (p c : JsString) : Prop where
  parent : p ∈ g.ids
  child : c ∈ g.ids
  ne : c ≠ p
  descendsFrom : g.descendsFrom p c = some false

/-- `h` is `g` with `c` attached to `p`: the pointer of `c` is `p`, and `c` is in the list of `p`, at the
end when it was not in it before. -/
structure Attached (g h : DeviceGraph) (p c : JsString) : Prop where
  parentOf : h.parentOf = Function.update g.parentOf c (some p)
  childrenOf_parent : h.childrenOf p =
    if c ∈ g.childrenOf p then g.childrenOf p else g.childrenOf p ++ [c]
  childrenOf_of_ne : ∀ x, x ≠ p → h.childrenOf x = g.childrenOf x
  ids : ∀ x ∈ g.ids, x ∈ h.ids

theorem attached_attach (hne : c ≠ p) (hp : g.nodes.get? p = some parent)
    (hc : g.nodes.get? c = some child) : Attached g (g.attach p c parent child) p c where
  parentOf := by
    funext x
    rw [attach, parentOf_put, parentOf_put, Function.update_apply]
    split
    · rfl
    · split
      · next hx => rw [hx, parentOf_of_get? hp]
      · rfl
  childrenOf_parent := by
    rw [attach, childrenOf_put, if_neg hne.symm, childrenOf_put, if_pos rfl, childrenOf_of_get? hp]
  childrenOf_of_ne x hx := by
    rw [attach, childrenOf_put]
    split
    · next hxc => rw [hxc, childrenOf_of_get? hc]
    · rw [childrenOf_put, if_neg hx]
  ids _ hx := mem_ids_put.mpr (Or.inr (mem_ids_put.mpr (Or.inr hx)))

/-- What a call does to the composition: nothing, unless it is a link that is accepted. -/
theorem step_cases {a : Call} (hstep : machine.step g a = some h) :
    (Same g h ∧ ∀ p c, a = .link p c → ¬ g.Accepts p c) ∨
      ∃ p c, a = .link p c ∧ g.Accepts p c ∧ Attached g h p c := by
  cases a with
  | register input =>
    obtain rfl := Option.some.inj hstep
    exact Or.inl ⟨same_register g input, nofun⟩
  | upsert input =>
    obtain rfl := Option.some.inj hstep
    exact Or.inl ⟨same_upsert g input, nofun⟩
  | updateHealth id health now =>
    obtain rfl := Option.some.inj hstep
    exact Or.inl ⟨same_modify g id (fun _ => rfl) fun _ => rfl, nofun⟩
  | updateSupport id support =>
    obtain rfl := Option.some.inj hstep
    exact Or.inl ⟨same_modify g id (fun _ => rfl) fun _ => rfl, nofun⟩
  | updateTransport id transport =>
    obtain rfl := Option.some.inj hstep
    exact Or.inl ⟨same_modify g id (fun _ => rfl) fun _ => rfl, nofun⟩
  | link p c =>
    obtain ⟨⟨h', result⟩, hlink, rfl⟩ := Option.map_eq_some_iff.mp hstep
    unfold link at hlink
    split at hlink
    · next parent child hp hc =>
      split at hlink
      · next heq =>
        obtain ⟨rfl, -⟩ := Prod.mk.inj (Option.some.inj hlink)
        refine Or.inl ⟨Same.refl _, ?_⟩
        rintro _ _ ⟨⟩ haccepts
        exact haccepts.ne heq
      · next hne =>
        split at hlink
        · cases hlink
        · next hdescends =>
          obtain ⟨rfl, -⟩ := Prod.mk.inj (Option.some.inj hlink)
          refine Or.inl ⟨Same.refl _, ?_⟩
          rintro _ _ ⟨⟩ haccepts
          rw [haccepts.descendsFrom] at hdescends
          cases hdescends
        · next hdescends =>
          obtain ⟨rfl, -⟩ := Prod.mk.inj (Option.some.inj hlink)
          exact Or.inr ⟨p, c, rfl, ⟨mem_ids.mpr ⟨parent, hp⟩, mem_ids.mpr ⟨child, hc⟩, hne, hdescends⟩,
            attached_attach hne hp hc⟩
    · next hnone =>
      obtain ⟨rfl, -⟩ := Prod.mk.inj (Option.some.inj hlink)
      refine Or.inl ⟨Same.refl _, ?_⟩
      rintro _ _ ⟨⟩ haccepts
      obtain ⟨parent, hp⟩ := mem_ids.mp haccepts.parent
      obtain ⟨child, hc⟩ := mem_ids.mp haccepts.child
      exact hnone parent child hp hc

theorem mem_childrenOf_of_step {a : Call} (hstep : machine.step g a = some h) {x y : JsString}
    (hy : y ∈ g.childrenOf x) : y ∈ h.childrenOf x := by
  rcases step_cases hstep with ⟨hsame, -⟩ | ⟨p, c, -, -, hattached⟩
  · rwa [hsame.childrenOf]
  · by_cases hx : x = p
    · subst hx
      rw [hattached.childrenOf_parent]
      split
      · exact hy
      · exact List.mem_append_left _ hy
    · rwa [hattached.childrenOf_of_ne x hx]

theorem Attached.mem_childrenOf (hattached : Attached g h p c) {x y : JsString} :
    y ∈ h.childrenOf x ↔ y ∈ g.childrenOf x ∨ (x = p ∧ y = c) := by
  by_cases hx : x = p
  · subst hx
    rw [hattached.childrenOf_parent]
    split
    · next hmem =>
      refine ⟨Or.inl, ?_⟩
      rintro (hy | ⟨-, rfl⟩)
      · exact hy
      · exact hmem
    · simp
  · rw [hattached.childrenOf_of_ne x hx]
    simp [hx]

/-! ## What holds after every history -/

/-- The pointers have no cycle, the child lists are of registered devices, without repetition, and a
device is in the list of the device it points at. -/
structure Sound (g : DeviceGraph) : Prop where
  listed : ∀ p c, g.parentOf c = some p → c ∈ g.childrenOf p
  known : ∀ p c, c ∈ g.childrenOf p → c ∈ g.ids
  nodup : ∀ p, (g.childrenOf p).Nodup
  acyclic : Acyclic g.parentOf

namespace Sound

theorem empty : Sound empty where
  listed _ _ hparent := by cases hparent
  known _ _ hchild := by cases hchild
  nodup _ := List.nodup_nil
  acyclic := Acyclic.of_none fun _ => rfl

/-- The check of `link` walks over as many devices as there are at most. -/
theorem descendsFrom_isSome (hsound : Sound g) (p c : JsString) :
    (g.descendsFrom p c).isSome = true := by
  have hknown : ∀ x q, g.parentOf x = some q → q ∈ g.ids := fun x q hq =>
    mem_ids_of_mem_childrenOf (hsound.listed q x hq)
  have hlen : g.nodes.size = g.ids.length := by simp [InsertionMap.size, ids]
  rw [descendsFrom, hlen]
  exact ascend_isSome hsound.acyclic hknown c (hknown p)

/-- An accepted link is to a device that is not below the child. -/
theorem not_above (haccepts : g.Accepts p c) :
    ¬ Relation.ReflTransGen (Up g.parentOf) p c := by
  intro hpc
  rcases Relation.ReflTransGen.cases_head hpc with heq | ⟨x, hx, hxc⟩
  · exact haccepts.ne heq.symm
  · have hdescends : g.descendsFrom p c = some false := haccepts.descendsFrom
    have htrue := (ascend_eq_some hdescends).mpr ⟨x, hx, hxc⟩
    cases htrue

theorem step (hsound : Sound g) {a : Call} (hstep : machine.step g a = some h) : Sound h := by
  rcases step_cases hstep with ⟨hsame, -⟩ | ⟨p, c, -, haccepts, hattached⟩
  · have hparents : h.parentOf = g.parentOf := funext hsame.parentOf
    have hchildren : h.childrenOf = g.childrenOf := funext hsame.childrenOf
    refine ⟨?_, ?_, ?_, ?_⟩
    · rw [hparents, hchildren]
      exact hsound.listed
    · rw [hchildren]
      exact fun p c hc => hsame.ids c (hsound.known p c hc)
    · rw [hchildren]
      exact hsound.nodup
    · rw [hparents]
      exact hsound.acyclic
  · refine ⟨fun x y hxy => ?_, fun x y hy => ?_, fun x => ?_, ?_⟩
    · rw [hattached.parentOf, Function.update_apply] at hxy
      rw [hattached.mem_childrenOf]
      split at hxy
      · next hy => exact Or.inr ⟨(Option.some.inj hxy).symm, hy⟩
      · exact Or.inl (hsound.listed x y hxy)
    · rcases hattached.mem_childrenOf.mp hy with hy | ⟨-, rfl⟩
      · exact hattached.ids y (hsound.known x y hy)
      · exact hattached.ids y haccepts.child
    · by_cases hx : x = p
      · subst hx
        rw [hattached.childrenOf_parent]
        split
        · exact hsound.nodup x
        · next hnew => exact (List.nodup_append_comm.mp (List.nodup_cons.mpr ⟨hnew, hsound.nodup x⟩))
      · rw [hattached.childrenOf_of_ne x hx]
        exact hsound.nodup x
    · rw [hattached.parentOf]
      exact hsound.acyclic.update (not_above haccepts)

theorem returns (hsound : Sound g) (a : Call) : ∃ h, machine.step g a = some h := by
  cases a with
  | link p c =>
    obtain ⟨b, hb⟩ := Option.isSome_iff_exists.mp (hsound.descendsFrom_isSome p c)
    show ∃ h, (g.link p c).map Prod.fst = some h
    unfold link
    rw [hb]
    split
    · split
      · exact ⟨_, rfl⟩
      · cases b <;> exact ⟨_, rfl⟩
    · exact ⟨_, rfl⟩
  | register | upsert | updateHealth | updateSupport | updateTransport => exact ⟨_, rfl⟩

/-- Every history of calls on a sound graph runs to its end. -/
theorem run (hsound : Sound g) (calls : List Call) : ∃ h, machine.run g calls = some h := by
  induction calls generalizing g with
  | nil => exact ⟨g, rfl⟩
  | cons a calls ih =>
    obtain ⟨m, hm⟩ := hsound.returns a
    obtain ⟨h, hh⟩ := ih (hsound.step hm)
    exact ⟨h, machine.run_cons_eq_some.mpr ⟨m, hm, hh⟩⟩

end Sound

/-! ## The forest -/

/-- `c` is in the child list of `p`. -/
def HasChild (g : DeviceGraph) (p c : JsString) : Prop := c ∈ g.childrenOf p

/-- **The graph is a forest.** A device is in the child list of exactly the device it points at; no
device is in a list twice; following children never returns; and `subtree` comes to an end and lists
every descendant once. -/
structure Forest (g : DeviceGraph) : Prop where
  linked : ∀ p c, c ∈ g.childrenOf p ↔ g.parentOf c = some p
  nodup : ∀ p, (g.childrenOf p).Nodup
  acyclic : ∀ x, ¬ Relation.TransGen g.HasChild x x
  subtree : ∀ id ∈ g.ids, ∃ fuel all, g.subtree fuel id = some (.ok all) ∧ all.Nodup ∧
    ∀ x, x ∈ all ↔ Relation.TransGen g.HasChild id x

theorem childIds_of_mem {id : JsString} (hid : id ∈ g.ids) : g.childIds id = .ok (g.childrenOf id) := by
  obtain ⟨node, hnode⟩ := mem_ids.mp hid
  rw [childrenOf_of_get? hnode, childIds, require, get, hnode]
  rfl

theorem down_childIds : Down g.childIds = g.HasChild := by
  funext p c
  refine propext ⟨?_, fun hc => ⟨_, childIds_of_mem (mem_ids_of_mem_childrenOf hc), hc⟩⟩
  rintro ⟨cs, hcs, hc⟩
  unfold childIds require get at hcs
  split at hcs
  · next node hnode =>
    obtain rfl := Except.ok.inj hcs
    rwa [HasChild, childrenOf_of_get? hnode]
  · cases hcs

theorem acyclic_of_linked (hacyclic : Acyclic g.parentOf)
    (hlinked : ∀ p c, c ∈ g.childrenOf p → g.parentOf c = some p) (x : JsString) :
    ¬ Relation.TransGen g.HasChild x x := by
  intro hx
  have hup : Relation.TransGen (Function.swap (Up g.parentOf)) x x :=
    Relation.TransGen.mono hlinked x x hx
  exact hacyclic x (Relation.transGen_swap.mp hup)

/-- **A sound graph is a forest** when every device points at the devices in whose lists it is. -/
theorem forest_of_linked (hsound : Sound g)
    (hlinked : ∀ p c, c ∈ g.childrenOf p → g.parentOf c = some p) : g.Forest := by
  have hforest : IsForest g.childIds g.ids := by
    refine ⟨fun x hx => ?_, fun p q c hp hq => ?_, ?_⟩
    · exact ⟨g.childrenOf x, childIds_of_mem hx, hsound.nodup x, fun c hc => hsound.known x c hc⟩
    · rw [down_childIds] at hp hq
      exact Option.some.inj ((hlinked p c hp).symm.trans (hlinked q c hq))
    · rw [down_childIds]
      exact acyclic_of_linked hsound.acyclic hlinked
  refine ⟨fun p c => ⟨hlinked p c, hsound.listed p c⟩, hsound.nodup,
    acyclic_of_linked hsound.acyclic hlinked, fun id hid => ?_⟩
  obtain ⟨all, hall, hnodup, hmem⟩ := hforest.sweep hid (childIds_of_mem hid)
  rw [down_childIds] at hmem
  refine ⟨g.ids.length, all, ?_, hnodup, hmem⟩
  rw [DeviceGraph.subtree, childIds_of_mem hid]
  exact hall

/-- The guard: a link that is accepted is of a device without a parent, or of one whose parent is the
one it is linked to. -/
def KeepsParent (g : DeviceGraph) : Call → Prop
  | .link p c => g.Accepts p c → g.parentOf c = none ∨ g.parentOf c = some p
  | _ => True

/-- A guarded call leaves every device pointing at the devices in whose lists it is. -/
theorem linked_of_step {a : Call} (hlinked : ∀ p c, c ∈ g.childrenOf p → g.parentOf c = some p)
    (hguard : g.KeepsParent a) (hstep : machine.step g a = some h) :
    ∀ p c, c ∈ h.childrenOf p → h.parentOf c = some p := by
  rcases step_cases hstep with ⟨hsame, -⟩ | ⟨p, c, rfl, haccepts, hattached⟩
  · intro p c hc
    rw [hsame.childrenOf] at hc
    rw [hsame.parentOf]
    exact hlinked p c hc
  · intro q x hx
    rw [hattached.parentOf, Function.update_apply]
    rcases hattached.mem_childrenOf.mp hx with hx | ⟨rfl, rfl⟩
    · split
      · next hxc =>
        subst hxc
        have hq := hlinked q x hx
        rcases hguard haccepts with hnone | hp
        · rw [hnone] at hq
          cases hq
        · exact hp.symm.trans hq
      · exact hlinked q x hx
    · rw [if_pos rfl]

def Torn (g : DeviceGraph) : Prop :=
  ∃ p q c, p ≠ q ∧ c ∈ g.childrenOf p ∧ c ∈ g.childrenOf q

theorem Torn.not_forest (htorn : g.Torn) : ¬ g.Forest := by
  rintro hforest
  obtain ⟨p, q, c, hne, hp, hq⟩ := htorn
  exact hne (Option.some.inj (((hforest.linked p c).mp hp).symm.trans ((hforest.linked q c).mp hq)))

theorem Torn.step (htorn : g.Torn) {a : Call} (hstep : machine.step g a = some h) : h.Torn := by
  obtain ⟨p, q, c, hne, hp, hq⟩ := htorn
  exact ⟨p, q, c, hne, mem_childrenOf_of_step hstep hp, mem_childrenOf_of_step hstep hq⟩

theorem torn_of_not_keepsParent (hsound : Sound g) {a : Call} (hguard : ¬ g.KeepsParent a)
    (hstep : machine.step g a = some h) : h.Torn := by
  rcases step_cases hstep with ⟨-, hrejected⟩ | ⟨p, c, rfl, haccepts, hattached⟩
  · cases a with
    | link p c =>
      exact absurd (fun haccepts => absurd haccepts (hrejected p c rfl)) hguard
    | register | upsert | updateHealth | updateSupport | updateTransport =>
      exact absurd trivial hguard
  · have hother : ∃ q, g.parentOf c = some q ∧ q ≠ p := by
      cases hq : g.parentOf c with
      | none => exact absurd (fun _ => Or.inl hq) hguard
      | some q =>
        refine ⟨q, rfl, ?_⟩
        rintro rfl
        exact hguard fun _ => Or.inr hq
    obtain ⟨q, hq, hne⟩ := hother
    exact ⟨q, p, c, hne, hattached.mem_childrenOf.mpr (Or.inl (hsound.listed q c hq)),
      hattached.mem_childrenOf.mpr (Or.inr ⟨rfl, rfl⟩)⟩

/-- **The graph is a forest exactly when no device was given a second parent.** Every history of calls
runs to its end, and leaves a forest if and only if every link it accepts is of a device that has no
parent yet, or has that one already. -/
theorem forest_iff_keepsParent (calls : List Call) :
    ∃ g, machine.run empty calls = some g ∧
      (g.Forest ↔ machine.Guarded KeepsParent empty calls) := by
  obtain ⟨g, hrun⟩ := Sound.empty.run calls
  have hsoundOf : ∀ {as : List Call} {m : DeviceGraph}, machine.run empty as = some m → Sound m :=
    fun hm => machine.run_invariant (fun _ _ _ hs hstep => hs.step hstep) Sound.empty hm
  refine ⟨g, hrun, fun hforest => ?_, fun hguarded => ?_⟩
  · by_contra hnot
    obtain ⟨before, a, after, m, m', rfl, hm, -, hguard, hm'⟩ := machine.exists_of_not_guarded hrun hnot
    obtain ⟨m₁, hm₁, hrest⟩ := machine.run_append_eq_some.mp hrun
    obtain rfl := Option.some.inj (hm.symm.trans hm₁)
    obtain ⟨m₂, hm₂, hrest⟩ := machine.run_cons_eq_some.mp hrest
    obtain rfl := Option.some.inj (hm'.symm.trans hm₂)
    have htorn : g.Torn := machine.run_invariant (fun _ _ _ ht hstep => ht.step hstep)
      (torn_of_not_keepsParent (hsoundOf hm) hguard hm') hrest
    exact htorn.not_forest hforest
  · refine forest_of_linked (hsoundOf hrun) ?_
    exact machine.run_guarded_invariant (I := fun g => ∀ p c, c ∈ g.childrenOf p →
      g.parentOf c = some p) (fun _ _ _ hlinked hguard hstep => linked_of_step hlinked hguard hstep)
      (fun _ _ hc => by cases hc) hguarded hrun

/-- A device with an id and nothing else of interest. -/
def nodeInput (id : JsString) : DeviceGraphNodeInput :=
  { id := id, deviceClass := js "x", moduleId := js "m", capabilities := [] }

/-- Two devices of which each has come to be in the child list of the other: `c` was linked under `a`
and then under `b`, which leaves no way up from `a` to `c`, so `a` may be linked under `c`. -/
def relinked : List Call :=
  [.register (nodeInput (js "a")), .register (nodeInput (js "b")), .register (nodeInput (js "c")),
    .link (js "a") (js "c"), .link (js "b") (js "c"), .link (js "c") (js "a")]

/-- **A second parent tears the graph.** After these calls `c` is in the child list of `a` and points
at `b`, following children leads from `a` back to `a`, and `subtree` of `a` does not end. -/
theorem not_forest_relinked :
    ∃ g, machine.run empty relinked = some g ∧ js "c" ∈ g.childrenOf (js "a") ∧
      g.parentOf (js "c") = some (js "b") ∧ ¬ g.Forest ∧
      Relation.TransGen g.HasChild (js "a") (js "a") ∧
      ∀ fuel, g.subtree fuel (js "a") = none := by
  have hview : (machine.run empty relinked).map (fun g =>
      decide (g.childrenOf (js "a") = [js "c"]) && decide (g.childrenOf (js "c") = [js "a"]) &&
        decide (g.parentOf (js "c") = some (js "b"))) = some true := by decide +kernel
  obtain ⟨g, hg, hview⟩ := Option.map_eq_some_iff.mp hview
  simp only [Bool.and_eq_true, decide_eq_true_eq] at hview
  obtain ⟨⟨ha, hc⟩, hparent⟩ := hview
  have hac : g.HasChild (js "a") (js "c") := by simp [HasChild, ha]
  have hca : g.HasChild (js "c") (js "a") := by simp [HasChild, hc]
  have hidsA := childIds_of_mem (mem_ids_of_mem_childrenOf hac)
  have hidsC := childIds_of_mem (mem_ids_of_mem_childrenOf hca)
  rw [ha] at hidsA
  rw [hc] at hidsC
  have hsweep : ∀ fuel out, sweep g.childIds fuel out [js "c"] = none ∧
      sweep g.childIds fuel out [js "a"] = none := by
    intro fuel
    induction fuel with
    | zero => exact fun out => ⟨rfl, rfl⟩
    | succ fuel ih =>
      intro out
      rw [sweep, hidsC, sweep, hidsA]
      exact ⟨(ih _).2, (ih _).1⟩
  refine ⟨g, hg, hac, hparent, fun hforest => ?_, .tail (.single hac) hca, fun fuel => ?_⟩
  · exact hforest.acyclic (js "a") (.tail (.single hac) hca)
  · rw [subtree, hidsA]
    exact (hsweep fuel []).1

end DeviceGraph

end Pinout.Graph
