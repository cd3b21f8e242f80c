import Pinout.Foundation.InsertionMap
import Pinout.Operation.Types

/-! # The bounded idempotency store

`BoundedIdempotencyStore` (`packages/core/src/operation/idempotencyStore.ts`): tombstones under keys
that scope a client's key by device, capability and owner, bounded by number (the oldest in insertion
order goes first, and a lookup reinserts what it touches) and by age since creation. Two requests have
the same scoped key exactly when they agree in all four parts (`keyFor_inj`). -/

namespace Pinout.Operation

open Foundation

structure IdempotencyTombstone where
  operationId : JsString
  deviceId : JsString
  capability : JsString
  owner : Option JsString
  idempotencyKey : JsString
  status : OperationStatus
  createdAt : Int
  result : Option Json := none
  error : Option OperationError := none
  lastUsedAt : Int

/-- The patch of `updateUnder`; what it leaves out stays as it is. -/
structure TombstonePatch where
  status : OperationStatus
  result : Option Json := none
  error : Option OperationError := none

/-- The tombstones of a `BoundedIdempotencyStore`, with its bounds. -/
structure IdempotencyStore where
  maxEntries : Nat := 10000
  retentionMs : Int := 86400000
  tombstones : InsertionMap JsString IdempotencyTombstone := .empty
  evictedLookups : Nat := 0

namespace IdempotencyStore

/-- `keyFor`: the JSON text of `[deviceId, capability, owner ?? null, key]`. -/
def keyFor (deviceId capability : JsString) (owner : Option JsString) (key : JsString) : JsString :=
  91 :: quote deviceId ++ 44 :: quote capability ++ 44 :: owner.elim (js "null") quote ++
    44 :: quote key ++ [93]

def expired (store : IdempotencyStore) (tombstone : IdempotencyTombstone) (now : Int) : Bool :=
  store.retentionMs < now - tombstone.createdAt

/-- `lookup`, under a scoped key: an expired tombstone is dropped, a live one touched and reinserted
as the newest. -/
def lookup (store : IdempotencyStore) (scopedKey : JsString) (now : Int) :
    IdempotencyStore × Option IdempotencyTombstone :=
  match store.tombstones.get? scopedKey with
  | none => (store, none)
  | some tombstone =>
    if store.expired tombstone now then
      ({ store with
          tombstones := store.tombstones.erase scopedKey
          evictedLookups := store.evictedLookups + 1 }, none)
    else
      let touched := { tombstone with lastUsedAt := now }
      ({ store with tombstones := (store.tombstones.erase scopedKey).insert scopedKey touched },
        some touched)

/-- The loop of `evictOverflow`: drop from the front while there are more than `maxEntries`. -/
def dropOverflow {α : Type} (maxEntries : Nat) : List α → List α
  | [] => []
  | e :: rest => if maxEntries < (e :: rest).length then dropOverflow maxEntries rest else e :: rest

theorem dropOverflow_suffix {α : Type} (maxEntries : Nat) (l : List α) :
    dropOverflow maxEntries l <:+ l := by
  induction l with
  | nil => exact List.suffix_refl []
  | cons e rest ih =>
    unfold dropOverflow
    split
    · exact ih.trans (List.suffix_cons e rest)
    · exact List.suffix_refl _

theorem dropOverflow_of_le {α : Type} {maxEntries : Nat} {l : List α} (h : l.length ≤ maxEntries) :
    dropOverflow maxEntries l = l := by
  cases l with
  | nil => rfl
  | cons e rest => rw [dropOverflow, if_neg (Nat.not_lt.mpr h)]

def evictOverflow (store : IdempotencyStore) : IdempotencyStore :=
  let kept := dropOverflow store.maxEntries store.tombstones.entries
  { store with
    tombstones := store.tombstones.restrict kept (dropOverflow_suffix _ _).sublist
    evictedLookups := store.evictedLookups + (store.tombstones.size - kept.length) }

def recordUnder (store : IdempotencyStore) (scopedKey : JsString)
    (tombstone : IdempotencyTombstone) (now : Int) : IdempotencyStore :=
  { store with
    tombstones := store.tombstones.insert scopedKey { tombstone with lastUsedAt := now } }
    |>.evictOverflow

/-- The tombstone a patch makes of an existing one. -/
def patched (tombstone : IdempotencyTombstone) (patch : TombstonePatch) (now : Int) :
    IdempotencyTombstone :=
  { tombstone with
    status := patch.status
    result := patch.result.or tombstone.result
    error := patch.error.or tombstone.error
    lastUsedAt := now }

/-- `updateUnder`: patch the tombstone under a key, whichever operation it is of. -/
def updateUnder (store : IdempotencyStore) (scopedKey : JsString) (patch : TombstonePatch)
    (now : Int) : IdempotencyStore :=
  match store.tombstones.get? scopedKey with
  | none => store
  | some existing =>
    { store with tombstones := store.tombstones.insert scopedKey (patched existing patch now) }

/-- `remove`, under a scoped key. -/
def remove (store : IdempotencyStore) (scopedKey : JsString) : IdempotencyStore :=
  { store with tombstones := store.tombstones.erase scopedKey }

def scopedKeyOf (tombstone : IdempotencyTombstone) : JsString :=
  keyFor tombstone.deviceId tombstone.capability tombstone.owner tombstone.idempotencyKey

/-- `hydrate`: import the tombstones that are within retention. -/
def hydrate (store : IdempotencyStore) (entries : List IdempotencyTombstone) (now : Int) :
    IdempotencyStore :=
  { store with
    tombstones := entries.foldl (fun tombstones (tombstone : IdempotencyTombstone) =>
      if now - tombstone.createdAt ≤ store.retentionMs then
        tombstones.insert (scopedKeyOf tombstone) tombstone
      else tombstones) store.tombstones }
    |>.evictOverflow

/-! ## What is found under a key -/

section Lookup

variable {store : IdempotencyStore} {scopedKey k : JsString} {now : Int}
  {tombstone τ : IdempotencyTombstone}

/-- A lookup hits a tombstone that is within retention, and touches it. -/
theorem lookup_eq_some :
    (store.lookup scopedKey now).2 = some τ ↔
      ∃ tombstone, store.tombstones.get? scopedKey = some tombstone ∧
        store.expired tombstone now = false ∧ τ = { tombstone with lastUsedAt := now } := by
  unfold lookup
  cases hget : store.tombstones.get? scopedKey with
  | none => simp
  | some tombstone =>
    dsimp only
    split
    · next hexp => simp [hexp]
    · next hexp =>
      simp only [Option.some.injEq, exists_eq_left']
      exact ⟨fun h => ⟨by simpa using hexp, h.symm⟩, fun h => h.2.symm⟩

theorem get?_lookup_self :
    (store.lookup scopedKey now).1.tombstones.get? scopedKey =
      (store.lookup scopedKey now).2 := by
  unfold lookup
  cases hget : store.tombstones.get? scopedKey with
  | none => exact hget
  | some tombstone =>
    dsimp only
    split
    · exact InsertionMap.get?_erase_self _ _
    · exact InsertionMap.get?_insert_self _ _ _

theorem get?_lookup_of_ne (h : k ≠ scopedKey) :
    (store.lookup scopedKey now).1.tombstones.get? k = store.tombstones.get? k := by
  unfold lookup
  cases hget : store.tombstones.get? scopedKey with
  | none => rfl
  | some tombstone =>
    dsimp only
    split
    · exact InsertionMap.get?_erase_of_ne _ h
    · rw [InsertionMap.get?_insert_of_ne _ _ h, InsertionMap.get?_erase_of_ne _ h]

/-- What is found after a lookup was there before, but for when it was last used. -/
theorem of_get?_lookup {store' : IdempotencyStore} {r : Option IdempotencyTombstone}
    (hlookup : store.lookup scopedKey now = (store', r)) (h : store'.tombstones.get? k = some τ) :
    ∃ tombstone lastUsedAt, store.tombstones.get? k = some tombstone ∧
      τ = { tombstone with lastUsedAt := lastUsedAt } := by
  have h : (store.lookup scopedKey now).1.tombstones.get? k = some τ := by rw [hlookup]; exact h
  by_cases hk : k = scopedKey
  · subst hk
    rw [get?_lookup_self] at h
    obtain ⟨tombstone, hget, -, rfl⟩ := lookup_eq_some.mp h
    exact ⟨tombstone, now, hget, rfl⟩
  · rw [get?_lookup_of_ne hk] at h
    exact ⟨τ, τ.lastUsedAt, h, rfl⟩

theorem get?_updateUnder (patch : TombstonePatch) :
    (store.updateUnder scopedKey patch now).tombstones.get? k =
      if k = scopedKey then (store.tombstones.get? scopedKey).map (patched · patch now)
      else store.tombstones.get? k := by
  unfold updateUnder
  cases hget : store.tombstones.get? scopedKey with
  | none =>
    by_cases hk : k = scopedKey
    · subst hk
      simp [hget]
    · simp [hk]
  | some tombstone => exact InsertionMap.get?_insert _ _ _ _

theorem dropOverflow_eq_drop {α : Type} (maxEntries : Nat) (l : List α) :
    dropOverflow maxEntries l = l.drop (l.length - maxEntries) := by
  induction l with
  | nil => simp [dropOverflow]
  | cons e rest ih =>
    unfold dropOverflow
    split
    · next h =>
      have hlen : (e :: rest).length - maxEntries = rest.length - maxEntries + 1 := by
        simp only [List.length_cons] at h ⊢
        omega
      rw [hlen, List.drop_succ_cons, ih]
    · next h =>
      have hlen : (e :: rest).length - maxEntries = 0 := by omega
      rw [hlen, List.drop_zero]

theorem get?_of_evictOverflow (h : store.evictOverflow.tombstones.get? k = some τ) :
    store.tombstones.get? k = some τ := by
  rw [InsertionMap.get?_eq_some_iff] at h ⊢
  exact (dropOverflow_suffix _ _).subset h

/-- What is found after a recording is the recorded tombstone, or was there before. -/
theorem of_get?_recordUnder
    (h : (store.recordUnder scopedKey tombstone now).tombstones.get? k = some τ) :
    (k = scopedKey ∧ τ = { tombstone with lastUsedAt := now }) ∨
      (k ≠ scopedKey ∧ store.tombstones.get? k = some τ) := by
  have hins : (store.tombstones.insert scopedKey { tombstone with lastUsedAt := now }).get? k =
      some τ := get?_of_evictOverflow h
  rw [InsertionMap.get?_insert] at hins
  by_cases hk : k = scopedKey
  · rw [if_pos hk] at hins
    exact Or.inl ⟨hk, (Option.some.inj hins).symm⟩
  · rw [if_neg hk] at hins
    exact Or.inr ⟨hk, hins⟩

/-- The keys that recording one more entry evicts. -/
def overflowing (store : IdempotencyStore) : List JsString :=
  (store.tombstones.entries.map Prod.fst).take (store.tombstones.size + 1 - store.maxEntries)

/-- A recording under a new key keeps the entries that do not overflow. -/
theorem recordUnder_get?_of_ne (hnew : store.tombstones.get? scopedKey = none)
    (hget : store.tombstones.get? k = some τ) (hk : k ∉ store.overflowing) :
    (store.recordUnder scopedKey tombstone now).tombstones.get? k = some τ := by
  rw [InsertionMap.get?_eq_some_iff] at hget ⊢
  show (k, τ) ∈ dropOverflow store.maxEntries
    (store.tombstones.insert scopedKey { tombstone with lastUsedAt := now }).entries
  rw [InsertionMap.entries_insert_of_not_mem hnew, dropOverflow_eq_drop, List.length_append,
    List.length_singleton]
  -- An entry that is not among the first ones is among the rest.
  have hsplit := List.take_append_drop (store.tombstones.size + 1 - store.maxEntries)
    store.tombstones.entries
  rw [← hsplit] at hget
  rcases List.mem_append.mp hget with htake | hdrop
  · refine absurd ?_ hk
    rw [overflowing, ← List.map_take]
    exact List.mem_map_of_mem htake
  · rw [List.drop_append]
    exact List.mem_append_left _ hdrop

theorem recordUnder_get?_self (hnew : store.tombstones.get? scopedKey = none)
    (hmax : 1 ≤ store.maxEntries) :
    (store.recordUnder scopedKey tombstone now).tombstones.get? scopedKey =
      some { tombstone with lastUsedAt := now } := by
  rw [InsertionMap.get?_eq_some_iff]
  show (scopedKey, _) ∈ dropOverflow store.maxEntries
    (store.tombstones.insert scopedKey { tombstone with lastUsedAt := now }).entries
  rw [InsertionMap.entries_insert_of_not_mem hnew, dropOverflow_eq_drop, List.length_append,
    List.length_singleton, List.drop_append]
  refine List.mem_append_right _ ?_
  have hlen : store.tombstones.entries.length + 1 - store.maxEntries -
      store.tombstones.entries.length = 0 := by omega
  rw [hlen, List.drop_zero]
  exact List.mem_singleton_self _

end Lookup

/-! ## Scoped keys -/

theorem quote_append_ne_null (s r r' : JsString) : quote s ++ r ≠ js "null" ++ r' := by
  intro h
  have hhead : (34 : UInt16) = 110 := (List.cons.inj h).1
  exact absurd hhead (by decide)

/-- Requests with the same scoped key agree in device, capability, owner and key. -/
theorem keyFor_inj {d d' c c' k k' : JsString} {o o' : Option JsString}
    (h : keyFor d c o k = keyFor d' c' o' k') : d = d' ∧ c = c' ∧ o = o' ∧ k = k' := by
  simp only [keyFor, List.cons_append, List.append_assoc, List.cons.injEq, true_and] at h
  obtain ⟨rfl, hc⟩ := quote_append_inj h
  obtain ⟨rfl, ho⟩ := quote_append_inj (List.cons.inj hc).2
  have howner : o = o' ∧ 44 :: (quote k ++ [93]) = 44 :: (quote k' ++ [93]) := by
    have ho' := (List.cons.inj ho).2
    cases o with
    | none =>
      cases o' with
      | none => exact ⟨rfl, List.append_cancel_left ho'⟩
      | some o' => exact absurd ho'.symm (quote_append_ne_null o' _ _)
    | some o =>
      cases o' with
      | none => exact absurd ho' (quote_append_ne_null o _ _)
      | some o' =>
        obtain ⟨rfl, hk⟩ := quote_append_inj ho'
        exact ⟨rfl, hk⟩
  obtain ⟨rfl, hk⟩ := howner
  exact ⟨rfl, rfl, rfl, (quote_append_inj (List.cons.inj hk).2).1⟩

end IdempotencyStore

end Pinout.Operation
