import Pinout.Operation.Restart

/-! # Where a manager starts

A daemon makes a manager and hydrates it from its journal before anybody calls it. Whatever the storage of the journal
holds, the registry invariant holds of the manager it starts with (`AtStart.registry`), and so of every state that is
reached from there (`Reachable.registry`). -/

namespace Pinout.Operation

open Foundation

/-! ## The tombstones a store imports -/

namespace IdempotencyStore

variable {store : IdempotencyStore} {now : Int} {l : List IdempotencyTombstone} {k : JsString} {τ : IdempotencyTombstone}

/-- What is imported into an empty store is of the list, under its own key. -/
theorem of_get?_imported (hempty : store.tombstones = .empty) (h : (store.imported now l).get? k = some τ) :
    τ ∈ l ∧ scopedKeyOf τ = k := by
  induction l using List.reverseRecOn with
  | nil =>
    rw [imported, List.foldl_nil, hempty] at h
    cases h
  | append_singleton l τ₁ ih =>
    rw [imported_concat] at h
    split at h
    · rw [InsertionMap.get?_insert] at h
      split at h
      · next hk =>
        obtain rfl := Option.some.inj h
        exact ⟨by simp, hk.symm⟩
      · obtain ⟨hmem, hk⟩ := ih h
        exact ⟨List.mem_append_left _ hmem, hk⟩
    · obtain ⟨hmem, hk⟩ := ih h
      exact ⟨List.mem_append_left _ hmem, hk⟩

theorem of_get?_hydrate (hempty : store.tombstones = .empty) (h : (store.hydrate l now).tombstones.get? k = some τ) :
    τ ∈ l ∧ scopedKeyOf τ = k :=
  of_get?_imported hempty (get?_of_evictOverflow h)

end IdempotencyStore

namespace OperationManager

variable {s t : OperationManager} {es : List JournalEntry}

/-! ## The objects a manager is hydrated with -/

/-- The operations `hydrate` restores. -/
def hydratedOps (es : List JournalEntry) (now : Int) : List OpState :=
  (hydrateEntries es).entries.map fun e => e.2.close now

theorem hydratedOps_nodup (es : List JournalEntry) (now : Int) :
    ((hydratedOps es now).map OpState.operationId).Nodup := by
  have hids : (hydratedOps es now).map OpState.operationId = (hydrateEntries es).entries.map Prod.fst := by
    rw [hydratedOps, List.map_map]
    refine List.map_congr_left fun e he => ?_
    show (e.2.close now).operationId = e.1
    rw [close_operationId]
    exact hydrateEntries_operationId (InsertionMap.get?_eq_some_iff.mpr he)
  rw [hids]
  exact (hydrateEntries es).nodup

theorem foldl_restoreOperation_sequence (l : List OpState) (s : OperationManager) :
    s.sequence ≤ (l.foldl restoreOperation s).sequence ∧
      ∀ op ∈ l, ∀ n, sequenceOf? op.operationId = some n → n ≤ (l.foldl restoreOperation s).sequence := by
  induction l generalizing s with
  | nil => exact ⟨Nat.le_refl _, by simp⟩
  | cons op l ih =>
    obtain ⟨hle, hmem⟩ := ih (s.restoreOperation op)
    rw [List.foldl_cons]
    refine ⟨(Nat.le_max_left _ _).trans hle, fun op' hop' n hn => ?_⟩
    rcases List.mem_cons.mp hop' with rfl | hop'
    · refine le_trans ?_ hle
      show n ≤ max s.sequence ((sequenceOf? op'.operationId).getD 0)
      rw [hn, Option.getD_some]
      exact Nat.le_max_right _ _
    · exact hmem op' hop' n hn

theorem hydrate_heap (hheap : s.heap = []) (es : List JournalEntry) :
    (s.hydrate es).heap = (hydratedOps es s.now).map fun op => { toOperationSnapshot := op.snapshot } := by
  obtain ⟨hheap', -, -⟩ := foldl_restoreOperation (hydratedOps es s.now) s (hydratedOps_nodup es s.now)
  rw [hheap, List.nil_append] at hheap'
  exact hheap'

/-- The map of a manager that had no operations gives each object under its id. -/
theorem hydrate_get? (hheap : s.heap = []) (hmap : s.operations = .empty) {id : JsString} {i : Nat} :
    (s.hydrate es).operations.get? id = some i ↔
      ∃ op, (hydratedOps es s.now)[i]? = some op ∧ op.operationId = id := by
  obtain ⟨-, hget, hother⟩ := foldl_restoreOperation (hydratedOps es s.now) s (hydratedOps_nodup es s.now)
  have hoperations : (s.hydrate es).operations = ((hydratedOps es s.now).foldl restoreOperation s).operations := rfl
  rw [hheap, List.length_nil] at hget
  rw [hoperations]
  constructor
  · intro h
    by_cases hid : id ∈ (hydratedOps es s.now).map OpState.operationId
    · obtain ⟨op, hop, rfl⟩ := List.mem_map.mp hid
      obtain ⟨j, hj⟩ := List.mem_iff_getElem?.mp hop
      rw [hget j op hj, Nat.zero_add] at h
      obtain rfl := Option.some.inj h
      exact ⟨op, hj, rfl⟩
    · rw [hother id hid, hmap] at h
      cases h
  · rintro ⟨op, hop, rfl⟩
    rw [hget i op hop, Nat.zero_add]

/-- A hydrated manager that had no operations and no tombstones satisfies the registry invariant. -/
theorem Registry.hydrate (hheap : s.heap = []) (hmap : s.operations = .empty)
    (hstore : s.idempotencyStore.tombstones = .empty) (es : List JournalEntry) : (s.hydrate es).Registry := by
  have hobject : ∀ {i : Nat} {op : LiveOperation}, (s.hydrate es).heap[i]? = some op →
      ∃ o, (hydratedOps es s.now)[i]? = some o ∧ op = { toOperationSnapshot := o.snapshot } := by
    intro i op hop
    rw [hydrate_heap hheap, List.getElem?_map] at hop
    obtain ⟨o, ho, rfl⟩ := Option.map_eq_some_iff.mp hop
    exact ⟨o, ho, rfl⟩
  -- An id is of one object only.
  have hunique : ∀ {i j : Nat} {op op' : OpState}, (hydratedOps es s.now)[i]? = some op →
      (hydratedOps es s.now)[j]? = some op' → op.operationId = op'.operationId → i = j := by
    intro i j op op' hi hj hid
    have hnodup := hydratedOps_nodup es s.now
    have hilt : i < ((hydratedOps es s.now).map OpState.operationId).length := by
      rw [List.length_map]
      exact (List.getElem?_eq_some_iff.mp hi).1
    refine (List.getElem?_inj hilt hnodup).mp ?_
    rw [List.getElem?_map, List.getElem?_map, hi, hj, Option.map_some, Option.map_some, hid]
  have hsequence := foldl_restoreOperation_sequence (hydratedOps es s.now) s
  refine ⟨?_, ?_, ?_, ?_⟩
  · intro id i hin
    obtain ⟨o, ho, rfl⟩ := (hydrate_get? hheap hmap).mp hin
    refine ⟨{ toOperationSnapshot := o.snapshot }, ?_, rfl, fun j op' hj hid => ?_⟩
    · rw [hydrate_heap hheap, List.getElem?_map, ho]
      rfl
    · obtain ⟨o', ho', rfl⟩ := hobject hj
      exact Nat.le_of_eq (hunique ho' ho hid)
  · intro i j op op' hlt hi hj hid
    obtain ⟨o, ho, rfl⟩ := hobject hi
    obtain ⟨o', ho', rfl⟩ := hobject hj
    exact absurd (hunique ho ho' hid) (Nat.ne_of_lt hlt)
  · intro op hop n hn
    obtain ⟨i, hi⟩ := List.mem_iff_getElem?.mp hop
    obtain ⟨o, ho, rfl⟩ := hobject hi
    exact hsequence.2 o (List.mem_of_getElem? ho) n hn
  · intro k τ hτ
    rw [hydrate_store] at hτ
    obtain ⟨hmem, hkey⟩ := IdempotencyStore.of_get?_hydrate hstore hτ
    obtain ⟨o, ho, htombstone⟩ := List.mem_filterMap.mp hmem
    obtain ⟨key, hfilter, rfl⟩ := Option.map_eq_some_iff.mp htombstone
    obtain ⟨i, hi⟩ := List.mem_iff_getElem?.mp ho
    refine ⟨hkey, hsequence.2 o ho, ?_⟩
    -- The operation of the tombstone has its status, and is in the map.
    cases hterminal : o.status.isTerminal with
    | true => exact Or.inl rfl
    | false =>
      refine Or.inr ⟨i, { toOperationSnapshot := o.snapshot }, (hydrate_get? hheap hmap).mpr ⟨o, hi, rfl⟩, ?_, hterminal, ?_⟩
      · rw [hydrate_heap hheap, List.getElem?_map]
        have hi' : (hydratedOps es s.now)[i]? = some o := hi
        rw [hi', Option.map_some]
      · rw [LiveOperation.scopedKey?, ← hkey]
        show (o.idempotencyKey.filter fun key => key ≠ []).map _ = _
        rw [hfilter]
        rfl

/-! ## Reachable states -/

/-- A manager as it starts: a new one, or one hydrated from what the storage of the journal holds. -/
inductive AtStart : OperationManager → Prop
  | new (retentionMs : Int) (maxOperations maxEntries : Nat) (storeRetentionMs now : Int) :
      AtStart (new retentionMs maxOperations maxEntries storeRetentionMs now)
  | hydrated (retentionMs : Int) (maxOperations maxEntries : Nat) (storeRetentionMs now : Int)
      (stored : List JournalEntry) :
      AtStart ((OperationManager.new retentionMs maxOperations maxEntries storeRetentionMs now).hydrateFrom stored)

theorem AtStart.registry (h : AtStart s) : s.Registry := by
  cases h with
  | new retentionMs maxOperations maxEntries storeRetentionMs now => exact Registry.new rfl
  | hydrated retentionMs maxOperations maxEntries storeRetentionMs now stored => exact Registry.hydrate rfl rfl rfl _

end OperationManager

end Pinout.Operation
