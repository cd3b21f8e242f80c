import Pinout.Operation.Steps

/-! # The registry of operation objects

What holds of the heap, the map and the idempotency store in every reachable state of the manager,
whatever the continuations of `start` do (`Registry`): the map gives the latest object of an id; an
object that is not the first of its id was restored from a tombstone and is inert; ids are not
numbered higher than the manager has counted; and a tombstone that is not terminal is that of a live
operation in the map. -/

namespace Pinout.Operation

open Foundation

/-- An object that only `reconcile` writes to: it is terminal and has no callback left. -/
structure LiveOperation.Inert (op : LiveOperation) : Prop where
  terminal : op.status.isTerminal = true
  idle : op.phase = .idle
  disarmed : op.deadlineTimer = none

/-- Who asked for what, and when: the fields of an object that never change. -/
def LiveOperation.scope (op : LiveOperation) :
    JsString × JsString × JsString × Option JsString × Option JsString × Int :=
  (op.id, op.deviceId, op.capability, op.owner, op.idempotencyKey, op.createdAt)

theorem scopedKey?_of_scope {op op' : LiveOperation} (h : op'.scope = op.scope) :
    op'.scopedKey? = op.scopedKey? := by
  simp only [LiveOperation.scope, Prod.mk.injEq] at h
  obtain ⟨-, hdevice, hcapability, howner, hkey, -⟩ := h
  simp only [LiveOperation.scopedKey?, hdevice, hcapability, howner, hkey]

structure Rewrites (op op' : LiveOperation) : Prop where
  scope : op'.scope = op.scope
  inert : op.Inert → op'.Inert

namespace Rewrites

variable {op op' : LiveOperation}

theorem id (h : Rewrites op op') : op'.id = op.id := congrArg Prod.fst h.scope

theorem scopedKey? (h : Rewrites op op') : op'.scopedKey? = op.scopedKey? :=
  scopedKey?_of_scope h.scope

theorem of_phase (hscope : op'.scope = op.scope) (hphase : op.phase ≠ .idle) : Rewrites op op' :=
  ⟨hscope, fun h => absurd h.idle hphase⟩

theorem of_live (hscope : op'.scope = op.scope) (hlive : op.status.isTerminal = false) :
    Rewrites op op' := by
  refine ⟨hscope, fun h => ?_⟩
  rw [h.terminal] at hlive
  cases hlive

theorem of_timer {due : Int} (hscope : op'.scope = op.scope)
    (hdue : op.deadlineTimer = some due) : Rewrites op op' := by
  refine ⟨hscope, fun h => ?_⟩
  rw [h.disarmed] at hdue
  cases hdue

end Rewrites

theorem reconciledBy_terminal (op : LiveOperation) (options : ReconcileOptions) (now : Int) :
    (OperationManager.reconciledBy op options now).status.isTerminal = true := by
  unfold OperationManager.reconciledBy
  cases options.resolution <;> rfl

/-- Reconciling writes no field but the outcome and its record. -/
theorem reconciledBy_rewrites {op : LiveOperation} (options : ReconcileOptions) (now : Int) :
    Rewrites op (OperationManager.reconciledBy op options now) where
  scope := by
    unfold OperationManager.reconciledBy
    cases options.resolution <;> rfl
  inert h := by
    refine ⟨reconciledBy_terminal op options now, ?_, ?_⟩
    · have := h.idle
      unfold OperationManager.reconciledBy
      cases options.resolution <;> exact this
    · have := h.disarmed
      unfold OperationManager.reconciledBy
      cases options.resolution <;> exact this

namespace OperationManager

variable {s t : OperationManager}

/-- A conclusion writes to a live object or to one that has a callback. -/
theorem Concluding.rewrites {a : Action} {address : Nat} {op op' : LiveOperation} {c : Conclusion}
    (h : Concluding s a address op op' c) (now : Int) : Rewrites op (op'.concluded c now) := by
  cases h with
  | cancel hfind hstatus => exact Rewrites.of_live rfl (by rw [hstatus]; rfl)
  | deadline hop hdue hstatus => exact Rewrites.of_live rfl (by rw [hstatus]; rfl)
  | beforeDispatchRejected hop hphase => exact Rewrites.of_phase rfl (by rw [hphase]; nofun)
  | runRejected hop hphase hlive => exact Rewrites.of_live rfl hlive
  | acknowledged hop hphase => exact Rewrites.of_phase rfl (by rw [hphase]; nofun)
  | afterDispatchRejected hop hphase => exact Rewrites.of_phase rfl (by rw [hphase]; nofun)

/-- What the microtask and the timer do besides writes to an object that has a callback. -/
theorem Advancing.rewrites {a : Action} {op op' : LiveOperation} (h : Advancing s a op op') :
    Rewrites op op' := by
  cases h with
  | expired hdue hstatus => exact Rewrites.of_timer rfl hdue
  | skipped hphase hterminal => exact Rewrites.of_phase rfl (by rw [hphase]; nofun)
  | suspended hphase hlive => exact Rewrites.of_phase rfl (by rw [hphase]; nofun)
  | resolved hphase hlive => exact Rewrites.of_phase rfl (by rw [hphase]; nofun)
  | ignoredResult hphase hterminal => exact Rewrites.of_phase rfl (by rw [hphase]; nofun)
  | ignoredError hphase hterminal => exact Rewrites.of_phase rfl (by rw [hphase]; nofun)

theorem Advancing.snapshot {a : Action} {op op' : LiveOperation} (h : Advancing s a op op') :
    op'.toOperationSnapshot = op.toOperationSnapshot := by
  cases h <;> rfl

/-! ## Objects across a step -/

section Objects

variable {i j : Nat} {op op' o : LiveOperation}

theorem of_getElem?_set (hop : s.heap[i]? = some op) (h : (s.heap.set i op')[j]? = some o) :
    (j = i ∧ o = op') ∨ (j ≠ i ∧ s.heap[j]? = some o) := by
  have hilt : i < s.heap.length := (List.getElem?_eq_some_iff.mp hop).1
  by_cases hji : i = j
  · subst hji
    rw [List.getElem?_set_self hilt] at h
    exact Or.inl ⟨rfl, (Option.some.inj h).symm⟩
  · rw [List.getElem?_set_ne hji] at h
    exact Or.inr ⟨Ne.symm hji, h⟩

theorem of_getElem?_append (h : (s.heap ++ [op'])[j]? = some o) :
    (j = s.heap.length ∧ o = op') ∨ s.heap[j]? = some o := by
  rcases Nat.lt_trichotomy j s.heap.length with hlt | heq | hgt
  · rw [List.getElem?_append_left hlt] at h
    exact Or.inr h
  · subst heq
    rw [List.getElem?_concat_length] at h
    exact Or.inl ⟨rfl, (Option.some.inj h).symm⟩
  · rw [List.getElem?_eq_none (by rw [List.length_append, List.length_singleton]; omega)] at h
    cases h

end Objects

/-! ## The invariant -/

/-- The operation in the map under an id is live and has the given scoped key. -/
def LiveUnder (s : OperationManager) (operationId scopedKey : JsString) : Prop :=
  ∃ i op, s.operations.get? operationId = some i ∧ s.heap[i]? = some op ∧
    op.status.isTerminal = false ∧ op.scopedKey? = some scopedKey

structure Tombstoned (s : OperationManager) (scopedKey : JsString) (τ : IdempotencyTombstone) :
    Prop where
  keyed : IdempotencyStore.scopedKeyOf τ = scopedKey
  fresh : ∀ n, sequenceOf? τ.operationId = some n → n ≤ s.sequence
  /-- It has an outcome, or its operation is live and in the map. -/
  settled : τ.status.isTerminal = true ∨ s.LiveUnder τ.operationId scopedKey

structure Registry (s : OperationManager) : Prop where
  latest : ∀ (id : JsString) (i : Nat), s.operations.get? id = some i →
    ∃ op, s.heap[i]? = some op ∧ op.id = id ∧
      ∀ (j : Nat) (op' : LiveOperation), s.heap[j]? = some op' → op'.id = id → j ≤ i
  inert : ∀ (i j : Nat) (op op' : LiveOperation), i < j → s.heap[i]? = some op →
    s.heap[j]? = some op' → op.id = op'.id → op'.Inert
  fresh : ∀ op ∈ s.heap, ∀ n, sequenceOf? op.id = some n → n ≤ s.sequence
  tombstoned : ∀ scopedKey τ, s.idempotencyStore.tombstones.get? scopedKey = some τ →
    s.Tombstoned scopedKey τ

namespace Registry

theorem new {retentionMs : Int} {maxOperations : Nat} {store : IdempotencyStore} {now : Int}
    (hstore : store.tombstones = .empty) :
    ({ retentionMs, maxOperations, idempotencyStore := store, now } : OperationManager).Registry where
  latest := by simp
  inert := by simp
  fresh := by simp
  tombstoned := by simp [hstore]

theorem live_unique (h : s.Registry) {id : JsString} {i j : Nat} {op op' : LiveOperation}
    (hin : s.operations.get? id = some i) (hop : s.heap[i]? = some op)
    (hlive : op.status.isTerminal = false) (hop' : s.heap[j]? = some op') (hid : op'.id = id) :
    j = i := by
  obtain ⟨o, ho, hoid, hmax⟩ := h.latest id i hin
  obtain rfl : op = o := Option.some.inj (hop.symm.trans ho)
  have hle : j ≤ i := hmax j op' hop' hid
  by_contra hne
  have hinert := h.inert j i op' op (by omega) hop' hop (hid.trans hoid.symm)
  rw [hinert.terminal] at hlive
  cases hlive

/-- The registry does not depend on anything but the heap, the map, the count and the store; and of a
tombstone, not on when it was last used. -/
theorem of_store (h : s.Registry) (hheap : t.heap = s.heap)
    (hoperations : t.operations = s.operations) (hsequence : t.sequence = s.sequence)
    (hstore : ∀ k τ', t.idempotencyStore.tombstones.get? k = some τ' → ∃ τ lastUsedAt,
      s.idempotencyStore.tombstones.get? k = some τ ∧ τ' = { τ with lastUsedAt := lastUsedAt }) :
    t.Registry where
  latest := by rw [hheap, hoperations]; exact h.latest
  inert := by rw [hheap]; exact h.inert
  fresh := by rw [hheap, hsequence]; exact h.fresh
  tombstoned := by
    intro k τ' hget
    obtain ⟨τ, lastUsedAt, hτ, rfl⟩ := hstore k τ' hget
    obtain ⟨hkeyed, hfresh, hsettled⟩ := h.tombstoned k τ hτ
    refine ⟨hkeyed, by rw [hsequence]; exact hfresh, ?_⟩
    unfold LiveUnder at hsettled ⊢
    rw [hheap, hoperations]
    exact hsettled

theorem congr (h : s.Registry) (hheap : t.heap = s.heap)
    (hoperations : t.operations = s.operations) (hsequence : t.sequence = s.sequence)
    (hstore : t.idempotencyStore = s.idempotencyStore) : t.Registry :=
  h.of_store hheap hoperations hsequence fun k τ' hget => by
    rw [hstore] at hget
    exact ⟨τ', τ'.lastUsedAt, hget, rfl⟩

/-- A write to an object keeps the registry when retention only drops terminal operations, and a
live operation that becomes terminal patches its tombstone. -/
theorem write (h : s.Registry) {i : Nat} {op op' : LiveOperation} (hop : s.heap[i]? = some op)
    (hrw : Rewrites op op') (hheap : t.heap = s.heap.set i op') (hsequence : t.sequence = s.sequence)
    (hdrop : ∀ (id : JsString) (j : Nat), t.operations.get? id = some j →
      s.operations.get? id = some j)
    (hkeep : ∀ (id : JsString) (j : Nat) (o : LiveOperation), s.operations.get? id = some j →
      t.heap[j]? = some o → o.status.isTerminal = false → t.operations.get? id = some j)
    (hstore : ∀ k τ', t.idempotencyStore.tombstones.get? k = some τ' → ∃ τ,
      s.idempotencyStore.tombstones.get? k = some τ ∧ τ'.operationId = τ.operationId ∧
        IdempotencyStore.scopedKeyOf τ' = IdempotencyStore.scopedKeyOf τ ∧
        (τ'.status.isTerminal = true ∨
          τ'.status = τ.status ∧ (op'.status.isTerminal = op.status.isTerminal ∨
            op'.status.isTerminal = false ∨ op.scopedKey? ≠ some k))) :
    t.Registry := by
  have hilt : i < s.heap.length := (List.getElem?_eq_some_iff.mp hop).1
  -- Every object of the new heap is a rewriting of the old one at its place.
  have hget : ∀ (j : Nat) (o : LiveOperation), t.heap[j]? = some o →
      ∃ o', s.heap[j]? = some o' ∧ Rewrites o' o ∧ (j ≠ i → o = o') := by
    intro j o hj
    rw [hheap] at hj
    rcases of_getElem?_set hop hj with ⟨rfl, rfl⟩ | ⟨-, hj⟩
    · exact ⟨op, hop, hrw, fun hne => absurd rfl hne⟩
    · exact ⟨o, hj, ⟨rfl, fun hi => hi⟩, fun _ => rfl⟩
  have hget' : ∀ (j : Nat) (o : LiveOperation), s.heap[j]? = some o →
      ∃ o', t.heap[j]? = some o' ∧ Rewrites o o' ∧ (j ≠ i → o' = o) := by
    intro j o hj
    rw [hheap]
    by_cases hji : i = j
    · subst hji
      obtain rfl := Option.some.inj (hop.symm.trans hj)
      exact ⟨op', List.getElem?_set_self hilt, hrw, fun hne => absurd rfl hne⟩
    · exact ⟨o, by rw [List.getElem?_set_ne hji]; exact hj, ⟨rfl, fun hi => hi⟩, fun _ => rfl⟩
  constructor
  · intro id j hj
    obtain ⟨o, ho, hid, hmax⟩ := h.latest id j (hdrop id j hj)
    obtain ⟨o', ho', hrw', -⟩ := hget' j o ho
    refine ⟨o', ho', hrw'.id.trans hid, fun k ok hk hkid => ?_⟩
    obtain ⟨ok', hok', hrwk, -⟩ := hget k ok hk
    exact hmax k ok' hok' (hrwk.id.symm.trans hkid)
  · intro j k oj ok hlt hj hk hid
    obtain ⟨oj', hj', hrwj, -⟩ := hget j oj hj
    obtain ⟨ok', hk', hrwk, -⟩ := hget k ok hk
    exact hrwk.inert (h.inert j k oj' ok' hlt hj' hk' (by rw [← hrwj.id, ← hrwk.id, hid]))
  · intro o ho n hn
    obtain ⟨j, hj⟩ := List.mem_iff_getElem?.mp ho
    obtain ⟨o', hj', hrwj, -⟩ := hget j o hj
    rw [hsequence]
    exact h.fresh o' (List.mem_of_getElem? hj') n (by rw [← hrwj.id]; exact hn)
  · intro k τ' hτ'
    obtain ⟨τ, hτ, hid, hkey, hstatus⟩ := hstore k τ' hτ'
    obtain ⟨hkeyed, hfresh, hsettled⟩ := h.tombstoned k τ hτ
    refine ⟨hkey.trans hkeyed, ?_, ?_⟩
    · rw [hsequence, hid]
      exact hfresh
    · rcases hstatus with hterminal | ⟨hstatus, hside⟩
      · exact Or.inl hterminal
      · rw [hstatus, hid]
        refine hsettled.imp_right ?_
        rintro ⟨j, o, hin, ho, hlive, hscoped⟩
        obtain ⟨o', ho', hrw', hsame⟩ := hget' j o ho
        have hlive' : o'.status.isTerminal = false := by
          by_cases hji : j = i
          · subst hji
            obtain rfl := Option.some.inj (hop.symm.trans ho)
            rw [hheap, List.getElem?_set_self hilt] at ho'
            obtain rfl := Option.some.inj ho'
            rcases hside with hsame | hlive' | hother
            · rw [hsame]
              exact hlive
            · exact hlive'
            · exact absurd hscoped hother
          · rw [hsame hji]
            exact hlive
        exact ⟨j, o', hkeep _ j o' hin ho' hlive', ho', hlive',
          hrw'.scopedKey?.trans hscoped⟩

/-- A new object keeps the registry when its id is not in the map, and is of no other object unless
it is inert. -/
theorem append (h : s.Registry) {op : LiveOperation} (hheap : t.heap = s.heap ++ [op])
    (hoperations : t.operations = s.operations.insert op.id s.heap.length)
    (hsequence : s.sequence ≤ t.sequence) (hout : s.operations.get? op.id = none)
    (hinert : (∃ o ∈ s.heap, o.id = op.id) → op.Inert)
    (hfresh : ∀ n, sequenceOf? op.id = some n → n ≤ t.sequence)
    (hstore : ∀ k τ', t.idempotencyStore.tombstones.get? k = some τ' →
      (∃ τ lastUsedAt, s.idempotencyStore.tombstones.get? k = some τ ∧
        τ' = { τ with lastUsedAt := lastUsedAt }) ∨
      (IdempotencyStore.scopedKeyOf τ' = k ∧ τ'.operationId = op.id ∧
        op.status.isTerminal = false ∧ op.scopedKey? = some k)) :
    t.Registry := by
  -- An object of the new heap is the new one or an old one.
  have hget : ∀ (j : Nat) (o : LiveOperation), t.heap[j]? = some o →
      s.heap[j]? = some o ∨ (j = s.heap.length ∧ o = op) := by
    intro j o hj
    rw [hheap] at hj
    exact (of_getElem?_append hj).symm
  have hnew : t.heap[s.heap.length]? = some op := by rw [hheap, List.getElem?_concat_length]
  have hold : ∀ (j : Nat) (o : LiveOperation), s.heap[j]? = some o → t.heap[j]? = some o := by
    intro j o hj
    rw [hheap, List.getElem?_append_left (List.getElem?_eq_some_iff.mp hj).1]
    exact hj
  constructor
  · intro id j hj
    rw [hoperations, InsertionMap.get?_insert] at hj
    split at hj
    · next hid =>
      obtain rfl := Option.some.inj hj
      refine ⟨op, hnew, hid.symm, fun k ok hk _ => ?_⟩
      rcases hget k ok hk with hk | ⟨rfl, -⟩
      · exact Nat.le_of_lt (List.getElem?_eq_some_iff.mp hk).1
      · exact Nat.le_refl _
    · next hid =>
      obtain ⟨o, ho, hoid, hmax⟩ := h.latest id j hj
      refine ⟨o, hold j o ho, hoid, fun k ok hk hkid => ?_⟩
      rcases hget k ok hk with hk | ⟨rfl, rfl⟩
      · exact hmax k ok hk hkid
      · exact absurd hkid.symm hid
  · intro j k oj ok hlt hj hk hid
    rcases hget k ok hk with hk' | ⟨rfl, rfl⟩
    · rcases hget j oj hj with hj' | ⟨rfl, -⟩
      · exact h.inert j k oj ok hlt hj' hk' hid
      · have := (List.getElem?_eq_some_iff.mp hk').1
        omega
    · rcases hget j oj hj with hj' | ⟨rfl, -⟩
      · exact hinert ⟨oj, List.mem_of_getElem? hj', hid⟩
      · exact absurd hlt (Nat.lt_irrefl _)
  · intro o ho n hn
    rw [hheap] at ho
    rcases List.mem_append.mp ho with ho | ho
    · exact (h.fresh o ho n hn).trans hsequence
    · rw [List.mem_singleton.mp ho] at hn
      exact hfresh n hn
  · intro k τ' hτ'
    rcases hstore k τ' hτ' with ⟨τ, lastUsedAt, hτ, rfl⟩ | ⟨hkeyed, hid, hlive, hscoped⟩
    · obtain ⟨hkeyed, hfresh', hsettled⟩ := h.tombstoned k τ hτ
      refine ⟨hkeyed, fun n hn => (hfresh' n hn).trans hsequence, hsettled.imp_right ?_⟩
      rintro ⟨j, o, hin, ho, hlive, hscoped⟩
      refine ⟨j, o, ?_, hold j o ho, hlive, hscoped⟩
      rw [hoperations]
      refine (InsertionMap.get?_insert_of_ne _ _ ?_).trans hin
      intro heq
      dsimp only at heq hin
      rw [heq, hout] at hin
      cases hin
    · refine ⟨hkeyed, by rw [hid]; exact hfresh, Or.inr ⟨_, op, ?_, hnew, hlive, hscoped⟩⟩
      rw [hid, hoperations]
      exact InsertionMap.get?_insert_self _ _ _

/-- A write that keeps the status of its object and nothing else. -/
theorem rewrite (h : s.Registry) {i : Nat} {op op' : LiveOperation} (hop : s.heap[i]? = some op)
    (hheap : t.heap = s.heap.set i op') (hrw : Rewrites op op')
    (hlive : op'.status.isTerminal = op.status.isTerminal ∨ op'.status.isTerminal = false)
    (hoperations : t.operations = s.operations) (hsequence : t.sequence = s.sequence)
    (hstore : t.idempotencyStore = s.idempotencyStore) : t.Registry := by
  refine h.write hop hrw hheap hsequence (fun id j hj => hoperations ▸ hj)
    (fun id j o hj _ _ => hoperations ▸ hj) fun k τ hτ => ?_
  rw [hstore] at hτ
  exact ⟨τ, hτ, rfl, rfl, Or.inr ⟨rfl, hlive.imp_right Or.inl⟩⟩

/-- A write that brings an object to a terminal status, patches its tombstone and retains. -/
theorem conclude (h : s.Registry) {i : Nat} {op op' o : LiveOperation} {patch : TombstonePatch}
    (hop : s.heap[i]? = some op) (hrw : Rewrites op op') (hpatch : patch.status.isTerminal = true)
    (hheap : t.heap = s.heap.set i op')
    (hoperations : t.operations = (s.update i op').retainOperations.operations)
    (hsequence : t.sequence = s.sequence)
    (hstore : t.idempotencyStore = (s.patchStore o patch).idempotencyStore)
    (hkey : o.scopedKey? = op.scopedKey?) : t.Registry := by
  refine h.write hop hrw hheap hsequence ?_ ?_ fun k τ' hτ => ?_
  · intro id j hj
    rw [hoperations] at hj
    exact get?_of_retainOperations (s := s.update i op') hj
  · intro id j o hj ho hlive
    rw [hoperations]
    rw [hheap] at ho
    exact retainOperations_get? (s := s.update i op') hj ho hlive
  · rw [hstore, get?_patchStore, hkey] at hτ
    split at hτ
    · obtain ⟨τ, hget, rfl⟩ := Option.map_eq_some_iff.mp hτ
      exact ⟨τ, hget, rfl, rfl, Or.inl hpatch⟩
    · next hkey => exact ⟨τ', hτ, rfl, rfl, Or.inr ⟨rfl, Or.inr (Or.inr hkey)⟩⟩

theorem ne_operationId (h : s.Registry) (randomId : JsString) :
    ∀ o ∈ s.heap, o.id ≠ operationId (s.sequence + 1) randomId := by
  intro o ho heq
  have := h.fresh o ho (s.sequence + 1) (by rw [heq]; exact sequenceOf?_operationId _ _)
  omega

theorem get?_operationId (h : s.Registry) (randomId : JsString) :
    s.operations.get? (operationId (s.sequence + 1) randomId) = none := by
  cases hin : s.operations.get? (operationId (s.sequence + 1) randomId) with
  | none => rfl
  | some i =>
    obtain ⟨op, hop, hid, -⟩ := h.latest _ i hin
    exact absurd hid (h.ne_operationId randomId op (List.mem_of_getElem? hop))

/-- What a lookup hits has the fields of its tombstone that do not depend on use. -/
theorem tombstoned_of_lookup (h : s.Registry) {scopedKey : JsString} {store : IdempotencyStore}
    {tombstone : IdempotencyTombstone}
    (hlookup : s.idempotencyStore.lookup scopedKey s.now = (store, some tombstone)) :
    s.Tombstoned scopedKey tombstone := by
  have hhit : (s.idempotencyStore.lookup scopedKey s.now).2 = some tombstone := by rw [hlookup]
  obtain ⟨τ, hτ, -, rfl⟩ := IdempotencyStore.lookup_eq_some.mp hhit
  obtain ⟨hkeyed, hfresh, hsettled⟩ := h.tombstoned scopedKey τ hτ
  exact ⟨hkeyed, hfresh, hsettled⟩

/-- An operation that is restored, not being in the map, has an outcome. -/
theorem restored_inert (h : s.Registry) {scopedKey : JsString} {store : IdempotencyStore}
    {tombstone : IdempotencyTombstone}
    (hlookup : s.idempotencyStore.lookup scopedKey s.now = (store, some tombstone))
    (hout : s.operations.contains tombstone.operationId = false) :
    (restoredFrom tombstone).Inert := by
  refine ⟨?_, rfl, rfl⟩
  rcases (h.tombstoned_of_lookup hlookup).settled with hterminal | ⟨i, op, hin, -⟩
  · exact hterminal
  · rw [InsertionMap.contains_eq_false_iff.mp hout] at hin
    cases hin

/-- **Step lemma.** Every step keeps the registry. -/
theorem step {a : Action} (h : s.Registry) (hs : s.step a = some t) : t.Registry := by
  cases steps_of_step hs with
  | tick => exact h.congr rfl rfl rfl rfl
  | unchanged => exact h
  | answered hanswer => exact h.congr rfl rfl rfl rfl
  | lookedUp => exact h.of_store rfl rfl rfl fun k τ' hτ => IdempotencyStore.of_get?_lookup rfl hτ
  | removed =>
    refine h.of_store rfl rfl rfl fun k τ' hτ => ?_
    have hτ' := InsertionMap.get?_filter_eq_some_iff.mp hτ
    exact ⟨τ', τ'.lastUsedAt, hτ'.1, rfl⟩
  | deduped hkey hlookup hin =>
    exact h.of_store rfl rfl rfl fun k τ' hτ => IdempotencyStore.of_get?_lookup hlookup hτ
  | restored hkey hlookup hout =>
    have hinert := h.restored_inert hlookup hout
    refine h.append rfl rfl (Nat.le_refl _) (InsertionMap.contains_eq_false_iff.mp hout)
      (fun _ => hinert) (h.tombstoned_of_lookup hlookup).fresh ?_
    exact fun k τ' hτ' => Or.inl (IdempotencyStore.of_get?_lookup hlookup hτ')
  | @opened options randomId store hstore =>
    have hfresh : ∀ n, sequenceOf? (operationId (s.sequence + 1) randomId) = some n →
        n ≤ s.sequence + 1 := by
      intro n hn
      rw [sequenceOf?_operationId] at hn
      exact Nat.le_of_eq (Option.some.inj hn).symm
    refine h.append rfl rfl (Nat.le_succ _) (h.get?_operationId randomId) ?_ hfresh ?_
    · rintro ⟨o, ho, hid⟩
      exact absurd hid (h.ne_operationId randomId o ho)
    · intro k τ' hτ'
      rcases hstore with ⟨hkey, rfl⟩ | ⟨key, hkey, hlookup⟩
      · rw [openNew_store_of_none hkey] at hτ'
        exact Or.inl ⟨τ', τ'.lastUsedAt, hτ', rfl⟩
      · rw [openNew_store_of_some hkey] at hτ'
        rcases IdempotencyStore.of_get?_recordUnder hτ' with ⟨rfl, rfl⟩ | ⟨-, hold⟩
        · refine Or.inr ⟨rfl, rfl, rfl, ?_⟩
          simp [LiveOperation.scopedKey?, queued, hkey, scopedKeyFor]
        · exact Or.inl (IdempotencyStore.of_get?_lookup hlookup hold)
  | registered hop hin hlive => exact h.congr rfl rfl rfl rfl
  | @cancelling _ _ address op _ hop hin hlive hstatus =>
    exact h.rewrite hop rfl (Rewrites.of_live rfl hlive) (Or.inr rfl) rfl rfl rfl
  | advanced hop hadv =>
    exact h.rewrite hop rfl hadv.rewrites (Or.inl (by rw [hadv.snapshot])) rfl rfl rfl
  | dispatched hop hphase =>
    exact h.rewrite hop rfl (Rewrites.of_phase rfl (by rw [hphase]; nofun)) (Or.inr rfl) rfl rfl rfl
  | reported hop hphase hlive =>
    exact h.rewrite hop rfl (Rewrites.of_live rfl hlive) (Or.inl rfl) rfl rfl rfl
  | @concluded _ _ op op' c _ hop hc hanswers =>
    have hrw : Rewrites op (op'.concluded c s.now) := hc.rewrites s.now
    exact h.conclude hop hrw c.terminal (conclude_heap _ _ _) (conclude_operations _ _ _)
      (conclude_sequence _ _ _) (conclude_store _ _ _) hrw.scopedKey?
  | reconciled hop hin huncertain =>
    exact h.conclude hop (reconciledBy_rewrites _ _) (reconciledBy_terminal _ _ _)
      (reconcileAt_heap _ _ _) (reconcileAt_operations _ _ _) (reconcileAt_sequence _ _ _)
      (reconcileAt_store _ _ _) rfl

end Registry

end OperationManager

end Pinout.Operation
