import Mathlib.Order.MinMax
import Pinout.Foundation.Machine
import Pinout.Foundation.Recency
import Pinout.Operation.IdempotencyStore

/-! # Which tombstones are evicted

`evictOverflow` drops tombstones from the front of the map, as the least recently used ones. A lookup moves what it
touches to the end; `updateUnder`, a recording under a key that is present, and an import renew a tombstone where it
stands. The order of the map is the order of use in the runs in which these only concern the newest tombstone
(`evictsLeast_of_orderly`). -/

namespace Pinout.Operation

open Foundation

namespace IdempotencyStore

/-- One turn of the loop of `hydrate`, with the clock's reading. -/
def importTombstone (store : IdempotencyStore) (entry : IdempotencyTombstone × Int) : IdempotencyStore :=
  if entry.2 - entry.1.createdAt ≤ store.retentionMs then
    { store with tombstones := store.tombstones.insert (scopedKeyOf entry.1) entry.1 }
  else store

/-- `hydrate`, with the clock's reading at each tombstone. -/
def hydrateAt (store : IdempotencyStore) (entries : List (IdempotencyTombstone × Int)) : IdempotencyStore :=
  (entries.foldl importTombstone store).evictOverflow

/-! ## Runs -/

/-- A call of the store, with the clock's readings. -/
inductive Call
  | lookup (scopedKey : JsString) (now : Int)
  | recordUnder (scopedKey : JsString) (tombstone : IdempotencyTombstone) (now : Int)
  | updateUnder (scopedKey : JsString) (patch : TombstonePatch) (now : Int)
  | remove (scopedKey : JsString)
  | hydrate (entries : List (IdempotencyTombstone × Int))

def Call.readings : Call → List Int
  | lookup _ now => [now]
  | recordUnder _ _ now => [now]
  | updateUnder _ _ now => [now]
  | remove _ => []
  | hydrate entries => entries.map Prod.snd

def call (store : IdempotencyStore) : Call → IdempotencyStore
  | .lookup scopedKey now => (store.lookup scopedKey now).1
  | .recordUnder scopedKey tombstone now => store.recordUnder scopedKey tombstone now
  | .updateUnder scopedKey patch now => store.updateUnder scopedKey patch now
  | .remove scopedKey => store.remove scopedKey
  | .hydrate entries => store.hydrateAt entries

/-- The entries that `evictOverflow` is called on, in the calls that call it. -/
def overflow? (store : IdempotencyStore) : Call → Option (List (JsString × IdempotencyTombstone))
  | .recordUnder scopedKey tombstone now =>
    some (store.tombstones.insert scopedKey { tombstone with lastUsedAt := now }).entries
  | .hydrate entries => some (entries.foldl importTombstone store).tombstones.entries
  | _ => none

end IdempotencyStore

/-- A store and the latest reading of its clock. -/
structure Clocked where
  store : IdempotencyStore
  clock : Int

namespace Clocked

open IdempotencyStore (Call)

def machine : Machine Clocked Call where
  step s call :=
    if (s.clock :: call.readings).IsChain (· < ·) then
      some { store := s.store.call call, clock := call.readings.foldl max s.clock }
    else none

/-- Importing tombstones keeps the order of use: each is new or the newest, last used no earlier than all others, and
not in the future. -/
def Importable : IdempotencyStore → List (IdempotencyTombstone × Int) → Prop
  | _, [] => True
  | store, (tombstone, now) :: entries =>
    (now - tombstone.createdAt ≤ store.retentionMs →
      store.tombstones.NewestOrAbsent (IdempotencyStore.scopedKeyOf tombstone) = true ∧
        (∀ e ∈ (store.tombstones.erase (IdempotencyStore.scopedKeyOf tombstone)).entries,
          e.2.lastUsedAt ≤ tombstone.lastUsedAt) ∧
        tombstone.lastUsedAt ≤ now) ∧
      Importable (store.importTombstone (tombstone, now)) entries

/-- A call that renews the newest tombstone at most: an update finds no tombstone or the newest one, a recording is
under a new key or the newest one, and what is imported is in the order of use. -/
def Orderly (s : Clocked) : Call → Prop
  | .updateUnder scopedKey _ _ => s.store.tombstones.NewestOrAbsent scopedKey = true
  | .recordUnder scopedKey _ _ => s.store.tombstones.NewestOrAbsent scopedKey = true
  | .hydrate entries => Importable s.store entries
  | _ => True

instance decidableImportable : ∀ (store : IdempotencyStore) (entries : List (IdempotencyTombstone × Int)),
    Decidable (Importable store entries)
  | _, [] => isTrue trivial
  | store, entry :: entries =>
    have := decidableImportable (store.importTombstone entry) entries
    inferInstanceAs (Decidable ((_ → _) ∧ _))

instance (s : Clocked) : ∀ call, Decidable (s.Orderly call)
  | .updateUnder _ _ _ => inferInstanceAs (Decidable (_ = true))
  | .recordUnder _ _ _ => inferInstanceAs (Decidable (_ = true))
  | .hydrate entries => inferInstanceAs (Decidable (Importable s.store entries))
  | .lookup _ _ => isTrue trivial
  | .remove _ => isTrue trivial

/-- What the store promises of a call: after a recording or an import there are no more than `maxEntries` tombstones,
and each one evicted had the least time of use among those present. -/
def EvictsLeastRecent (s : Clocked) (call : Call) : Prop :=
  ∀ entries ∈ s.store.overflow? call,
    (s.store.call call).tombstones.size ≤ s.store.maxEntries ∧
      InsertionMap.EvictsLeast IdempotencyTombstone.lastUsedAt s.store.maxEntries entries

/-- The tombstones are in the order of use, none used later than the clock reads. -/
structure InOrder (s : Clocked) : Prop where
  ordered : s.store.tombstones.InStampOrder IdempotencyTombstone.lastUsedAt
  past : ∀ e ∈ s.store.tombstones.entries, e.2.lastUsedAt ≤ s.clock

/-! ## The order of use -/

section Order

variable {s t : Clocked} {store : IdempotencyStore} {clock now : Int} {scopedKey : JsString}

/-- A tombstone touched now, under the newest key or a new one, keeps the order of use. -/
theorem InOrder.insert (h : InOrder ⟨store, clock⟩) (hnewest : store.tombstones.NewestOrAbsent scopedKey = true)
    {tombstone : IdempotencyTombstone} (hleast : ∀ e ∈ (store.tombstones.erase scopedKey).entries,
      e.2.lastUsedAt ≤ tombstone.lastUsedAt)
    (hclock : clock ≤ now) (hpast : tombstone.lastUsedAt ≤ now) :
    InOrder ⟨{ store with tombstones := store.tombstones.insert scopedKey tombstone }, now⟩ where
  ordered := h.ordered.insert hnewest hleast
  past e he := by
    obtain ⟨k, τ⟩ := e
    rcases InsertionMap.mem_entries_insert.mp he with ⟨-, rfl⟩ | ⟨-, hmem⟩
    · exact hpast
    · exact (h.past _ hmem).trans hclock

theorem InOrder.restrict (h : InOrder ⟨store, clock⟩) (hclock : clock ≤ now)
    {l : List (JsString × IdempotencyTombstone)} (hl : l.Sublist store.tombstones.entries) {evicted : Nat} :
    InOrder ⟨{ store with tombstones := store.tombstones.restrict l hl, evictedLookups := evicted }, now⟩ where
  ordered := h.ordered.restrict hl
  past e he := (h.past e (hl.subset he)).trans hclock

theorem InOrder.evictOverflow (h : InOrder ⟨store, clock⟩) : InOrder ⟨store.evictOverflow, clock⟩ :=
  h.restrict le_rfl _

theorem InOrder.lookup (h : InOrder ⟨store, clock⟩) (hclock : clock < now) :
    InOrder ⟨(store.lookup scopedKey now).1, now⟩ := by
  have herase : InOrder ⟨{ store with tombstones := store.tombstones.erase scopedKey }, clock⟩ :=
    h.restrict le_rfl List.filter_sublist
  unfold IdempotencyStore.lookup
  split
  · exact ⟨h.ordered, fun e he => (h.past e he).trans hclock.le⟩
  · dsimp only
    split
    · exact h.restrict hclock.le List.filter_sublist
    · refine herase.insert (InsertionMap.newestOrAbsent_erase _ _) (fun e he => ?_) hclock.le le_rfl
      exact (herase.past e (List.mem_of_mem_filter he)).trans hclock.le

/-- A recording under the newest key or a new one, and the eviction after it. -/
theorem InOrder.recordUnder (h : InOrder ⟨store, clock⟩) (hclock : clock < now)
    (hnewest : store.tombstones.NewestOrAbsent scopedKey = true) (tombstone : IdempotencyTombstone) :
    InOrder ⟨{ store with tombstones := store.tombstones.insert scopedKey { tombstone with lastUsedAt := now } }, now⟩ := by
  refine h.insert hnewest (fun e he => ?_) hclock.le le_rfl
  exact (h.past e (List.mem_of_mem_filter he)).trans hclock.le

theorem InOrder.updateUnder (h : InOrder ⟨store, clock⟩) (hclock : clock < now)
    (hnewest : store.tombstones.NewestOrAbsent scopedKey = true) (patch : TombstonePatch) :
    InOrder ⟨store.updateUnder scopedKey patch now, now⟩ := by
  unfold IdempotencyStore.updateUnder
  split
  · exact ⟨h.ordered, fun e he => (h.past e he).trans hclock.le⟩
  · refine h.insert hnewest (fun e he => ?_) hclock.le le_rfl
    exact (h.past e (List.mem_of_mem_filter he)).trans hclock.le

theorem InOrder.importTombstones {entries : List (IdempotencyTombstone × Int)} (h : InOrder ⟨store, clock⟩)
    (hchain : (clock :: entries.map Prod.snd).IsChain (· < ·)) (himportable : Importable store entries) :
    InOrder ⟨entries.foldl IdempotencyStore.importTombstone store, (entries.map Prod.snd).foldl max clock⟩ := by
  induction entries generalizing store clock with
  | nil => exact h
  | cons entry entries ih =>
    obtain ⟨tombstone, now⟩ := entry
    obtain ⟨hfirst, hrest⟩ := himportable
    rw [List.map_cons, List.isChain_cons_cons] at hchain
    rw [List.foldl_cons, List.map_cons, List.foldl_cons, max_eq_right hchain.1.le]
    refine ih ?_ hchain.2 hrest
    unfold IdempotencyStore.importTombstone
    split
    · next hretained =>
      obtain ⟨hnewest, hleast, hpast⟩ := hfirst hretained
      exact h.insert hnewest hleast hchain.1.le hpast
    · exact ⟨h.ordered, fun e he => (h.past e he).trans hchain.1.le⟩

theorem InOrder.step {call : Call} (h : InOrder s) (horderly : s.Orderly call) (hstep : machine.step s call = some t) :
    InOrder t := by
  simp only [machine, Option.ite_none_right_eq_some, Option.some.injEq] at hstep
  obtain ⟨hchain, rfl⟩ := hstep
  obtain ⟨store, clock⟩ := s
  have hnow : ∀ {now : Int}, [clock, now].IsChain (· < ·) → clock < now := by
    intro now h
    simpa using h
  cases call with
  | lookup scopedKey now =>
    show InOrder ⟨_, max clock now⟩
    rw [max_eq_right (hnow hchain).le]
    exact h.lookup (hnow hchain)
  | recordUnder scopedKey tombstone now =>
    show InOrder ⟨_, max clock now⟩
    rw [max_eq_right (hnow hchain).le]
    exact (h.recordUnder (hnow hchain) horderly tombstone).evictOverflow
  | updateUnder scopedKey patch now =>
    show InOrder ⟨_, max clock now⟩
    rw [max_eq_right (hnow hchain).le]
    exact h.updateUnder (hnow hchain) horderly patch
  | remove scopedKey => exact h.restrict le_rfl List.filter_sublist
  | hydrate entries => exact (h.importTombstones hchain horderly).evictOverflow

/-- In the order of use, an orderly call evicts the least recently used. -/
theorem InOrder.evictsLeast {call : Call} (h : InOrder s) (horderly : s.Orderly call)
    (hstep : machine.step s call = some t) {entries : List (JsString × IdempotencyTombstone)}
    (hoverflow : s.store.overflow? call = some entries) :
    InsertionMap.EvictsLeast IdempotencyTombstone.lastUsedAt s.store.maxEntries entries := by
  simp only [machine, Option.ite_none_right_eq_some] at hstep
  obtain ⟨hchain, -⟩ := hstep
  obtain ⟨store, clock⟩ := s
  refine InsertionMap.evictsLeast_of_pairwise ?_
  cases call with
  | recordUnder scopedKey tombstone now =>
    obtain rfl := Option.some.inj hoverflow
    have hnow : clock < now := by simpa [Call.readings] using hchain
    exact (h.recordUnder hnow horderly tombstone).ordered
  | hydrate imported =>
    obtain rfl := Option.some.inj hoverflow
    exact (h.importTombstones hchain horderly).ordered
  | _ => cases hoverflow

end Order

end Clocked

namespace IdempotencyStore

theorem size_evictOverflow_le (store : IdempotencyStore) : store.evictOverflow.tombstones.size ≤ store.maxEntries := by
  show (dropOverflow store.maxEntries store.tombstones.entries).length ≤ store.maxEntries
  rw [dropOverflow_eq_drop, List.length_drop]
  omega

theorem maxEntries_importTombstones (entries : List (IdempotencyTombstone × Int)) (store : IdempotencyStore) :
    (entries.foldl importTombstone store).maxEntries = store.maxEntries := by
  induction entries generalizing store with
  | nil => rfl
  | cons entry entries ih =>
    rw [List.foldl_cons, ih, importTombstone]
    split <;> rfl

theorem size_call_le {store : IdempotencyStore} {call : Call} {entries : List (JsString × IdempotencyTombstone)}
    (hoverflow : store.overflow? call = some entries) : (store.call call).tombstones.size ≤ store.maxEntries := by
  cases call with
  | recordUnder scopedKey tombstone now => exact size_evictOverflow_le _
  | hydrate imported =>
    refine (size_evictOverflow_le _).trans_eq ?_
    exact maxEntries_importTombstones imported store
  | _ => cases hoverflow

end IdempotencyStore

namespace Clocked

open IdempotencyStore (Call)

theorem inOrder_of_empty {s : Clocked} (h : s.store.tombstones = .empty) : InOrder s := by
  refine ⟨?_, ?_⟩
  · rw [h]
    exact InsertionMap.inStampOrder_empty
  · rw [h]
    simp

/-- **The least recently used goes first.** In a run in which updates, repeated recordings and imports only concern the
newest tombstone, every call evicts only what was used least recently, and leaves no more than `maxEntries`. -/
theorem evictsLeastRecent_of_orderly {s t u : Clocked} {calls : List Call} {call : Call}
    (hempty : s.store.tombstones = .empty)
    (horderly : machine.Guarded Orderly s (calls ++ [call])) (hrun : machine.run s calls = some t)
    (hstep : machine.step t call = some u) : EvictsLeastRecent t call := by
  obtain ⟨hcalls, hcall⟩ := horderly.of_append hrun
  have horder : InOrder t :=
    Machine.run_guarded_invariant (fun _ _ _ h hcall hstep => InOrder.step h hcall hstep)
      (inOrder_of_empty hempty) hcalls hrun
  intro entries hoverflow
  exact ⟨IdempotencyStore.size_call_le hoverflow, horder.evictsLeast hcall.1 hstep hoverflow⟩

/-! ## Two runs -/

/-- A tombstone of an operation that is running, begun at time 0. -/
def running (operationId : JsString) : IdempotencyTombstone :=
  { operationId, deviceId := js "arm", capability := js "move", owner := none, idempotencyKey := operationId
    status := .running, createdAt := 0, lastUsedAt := 0 }

def roomForTwo : Clocked := { store := { maxEntries := 2 }, clock := 0 }

/-- Two operations begin and the first is looked up again. -/
def lookedUp : List Call :=
  [.recordUnder (js "a") (running (js "a")) 1, .recordUnder (js "b") (running (js "b")) 2, .lookup (js "a") 3]

/-- A third operation evicts the second, which was used before the first. -/
theorem evictsLeastRecent_lookedUp :
    ∃ t u, machine.run roomForTwo lookedUp = some t ∧
      machine.step t (.recordUnder (js "c") (running (js "c")) 4) = some u ∧
      EvictsLeastRecent t (.recordUnder (js "c") (running (js "c")) 4) := by
  have horderly : machine.Guarded Orderly roomForTwo (lookedUp ++ [.recordUnder (js "c") (running (js "c")) 4]) := by
    decide
  exact ⟨_, _, rfl, rfl, evictsLeastRecent_of_orderly rfl horderly rfl rfl⟩

/-- Two operations begin and the first completes. -/
def completed : List Call :=
  [.recordUnder (js "a") (running (js "a")) 1, .recordUnder (js "b") (running (js "b")) 2,
    .updateUnder (js "a") { status := .completed } 3]

/-- A third operation evicts the first, although the second was used before it. -/
theorem not_evictsLeastRecent :
    ¬ ∀ (s t u : Clocked) (calls : List Call) (call : Call), s.store.tombstones = .empty →
      machine.run s calls = some t → machine.step t call = some u → EvictsLeastRecent t call := by
  intro h
  have hrun : ∃ t, machine.run roomForTwo completed = some t ∧
      ∃ u, machine.step t (.recordUnder (js "c") (running (js "c")) 4) = some u ∧
        ¬ ∀ entries ∈ t.store.overflow? (.recordUnder (js "c") (running (js "c")) 4),
          InsertionMap.EvictsLeast IdempotencyTombstone.lastUsedAt t.store.maxEntries entries :=
    ⟨_, rfl, _, rfl, by decide⟩
  obtain ⟨t, hrun, u, hstep, hnot⟩ := hrun
  exact hnot fun entries hoverflow => (h roomForTwo t u completed _ rfl hrun hstep entries hoverflow).2

end Clocked

end Pinout.Operation
