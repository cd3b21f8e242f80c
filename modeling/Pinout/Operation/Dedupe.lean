import Pinout.Operation.Terminal

/-! # One run at a time for a key

An operation with an idempotency key is found again through its tombstone. As long as no tombstone of
an unfinished operation leaves the store (`KeepsTombstones`: it overflows, expires or is removed), at
most one operation of a device, capability, owner and key is unfinished, and `begin` with them gives
that operation. -/

namespace Pinout.Operation

open Foundation

/-- Whose action is asked for under which key: the four parts of the scope of a key. -/
def LiveOperation.request (op : LiveOperation) :
    JsString × JsString × Option JsString × Option JsString :=
  (op.deviceId, op.capability, op.owner, op.idempotencyKey)

theorem scopedKey?_congr {op op' : LiveOperation} (h : op.request = op'.request) :
    op.scopedKey? = op'.scopedKey? := by
  simp only [LiveOperation.request, Prod.mk.injEq] at h
  obtain ⟨hdevice, hcapability, howner, hkey⟩ := h
  simp only [LiveOperation.scopedKey?, hdevice, hcapability, howner, hkey]

/-- The request of `begin` with a key that counts. -/
def BeginOperationOptions.request (options : BeginOperationOptions) :
    JsString × JsString × Option JsString × Option JsString :=
  (options.deviceId, options.capability, options.owner, options.key?)

namespace IdempotencyStore

/-- Whether a lookup would find the tombstone under a key expired. -/
def expires (store : IdempotencyStore) (scopedKey : JsString) (now : Int) : Bool :=
  (store.tombstones.get? scopedKey).any fun tombstone => store.expired tombstone now

theorem lookup_maxEntries (store : IdempotencyStore) (scopedKey : JsString) (now : Int) :
    (store.lookup scopedKey now).1.maxEntries = store.maxEntries := by
  unfold lookup
  split
  · rfl
  · split <;> rfl

theorem lookup_retentionMs (store : IdempotencyStore) (scopedKey : JsString) (now : Int) :
    (store.lookup scopedKey now).1.retentionMs = store.retentionMs := by
  unfold lookup
  split
  · rfl
  · split <;> rfl

/-- A lookup keeps what it finds unless it has expired, but for when it was last used. -/
theorem get?_lookup_touched {store : IdempotencyStore} {scopedKey k : JsString} (now : Int)
    {tombstone : IdempotencyTombstone} (hget : store.tombstones.get? k = some tombstone)
    (hkeep : k = scopedKey → store.expired tombstone now = false) :
    ∃ lastUsedAt, (store.lookup scopedKey now).1.tombstones.get? k =
      some { tombstone with lastUsedAt := lastUsedAt } := by
  by_cases hk : k = scopedKey
  · subst hk
    refine ⟨now, ?_⟩
    rw [get?_lookup_self]
    exact lookup_eq_some.mpr ⟨tombstone, hget, hkeep rfl, rfl⟩
  · rw [get?_lookup_of_ne hk]
    exact ⟨tombstone.lastUsedAt, hget⟩

theorem get?_lookup_of_keep {store : IdempotencyStore} {scopedKey k : JsString} (now : Int)
    {tombstone : IdempotencyTombstone} (hget : store.tombstones.get? k = some tombstone)
    (hkeep : k = scopedKey → store.expires scopedKey now = false) :
    ∃ τ, (store.lookup scopedKey now).1.tombstones.get? k = some τ ∧
      τ.operationId = tombstone.operationId := by
  have hfresh : k = scopedKey → store.expired tombstone now = false := by
    rintro rfl
    simpa [expires, hget] using hkeep rfl
  obtain ⟨lastUsedAt, htouched⟩ := get?_lookup_touched now hget hfresh
  exact ⟨_, htouched, rfl⟩

end IdempotencyStore

namespace OperationManager

/-- Some unfinished operation has the scoped key. -/
def Busy (s : OperationManager) (scopedKey : JsString) : Prop :=
  ∃ op ∈ s.heap, op.phase.isUnfinished = true ∧ op.scopedKey? = some scopedKey

instance (s : OperationManager) : DecidablePred s.Busy := fun _ =>
  inferInstanceAs (Decidable (∃ op ∈ s.heap, _))

/-- The step drops no tombstone of an unfinished operation: a lookup under its key does not find it
expired, recording a new operation does not evict it, and nobody removes it. -/
def KeepsTombstones (s : OperationManager) : Action → Prop
  | .begin_ options _ => ∀ key ∈ options.key?,
      (s.Busy (scopedKeyFor options key) →
        s.idempotencyStore.expires (scopedKeyFor options key) s.now = false) ∧
      ((s.idempotencyStore.lookup (scopedKeyFor options key) s.now).2.isNone = true →
        1 ≤ s.idempotencyStore.maxEntries ∧
          ∀ k ∈ (s.idempotencyStore.lookup (scopedKeyFor options key) s.now).1.overflowing,
            ¬ s.Busy k)
  | .lookupKey deviceId capability owner key =>
      s.Busy (IdempotencyStore.keyFor deviceId capability owner key) →
        s.idempotencyStore.expires (IdempotencyStore.keyFor deviceId capability owner key) s.now =
          false
  | .removeKey deviceId capability owner key =>
      ¬ s.Busy (IdempotencyStore.keyFor deviceId capability owner key)
  | _ => True

instance (s : OperationManager) : DecidablePred s.KeepsTombstones := fun a => by
  unfold KeepsTombstones
  split <;> infer_instance

/-- No two unfinished operations are of one request with a key. -/
def SingleFlight (s : OperationManager) : Prop :=
  ∀ (i j : Nat) (op op' : LiveOperation), s.heap[i]? = some op → s.heap[j]? = some op' →
    op.phase.isUnfinished = true → op'.phase.isUnfinished = true → op.idempotencyKey ≠ none →
    op.request = op'.request → i = j

/-- `begin` of a request with a key, of which an operation is live or its run has not settled, gives
that operation, and starts nothing. -/
def Dedupes (s : OperationManager) : Prop :=
  ∀ (options : BeginOperationOptions) (randomId : JsString) (i : Nat) (op : LiveOperation),
    s.KeepsTombstones (.begin_ options randomId) → options.key? ≠ none →
    s.heap[i]? = some op → op.request = options.request →
    (op.status.isTerminal = false ∨ op.phase.isUnfinished = true) →
    (s.begin_ options randomId).trace = s.trace ++ [.began true op.id] ∧
      ∀ o ∈ (s.begin_ options randomId).heap, o.phase.isUnfinished = true → o ∈ s.heap

/-- The invariant: live operations are unfinished, and unfinished operations have a tombstone. -/
structure Remembered (s : OperationManager) : Prop where
  working : ∀ op ∈ s.heap, op.status.isTerminal = false → op.phase.isUnfinished = true
  /-- The tombstone under the key of an unfinished operation is its own. -/
  tombstone : ∀ op ∈ s.heap, op.phase.isUnfinished = true → ∀ k, op.scopedKey? = some k →
    ∃ τ, s.idempotencyStore.tombstones.get? k = some τ ∧ τ.operationId = op.id

variable {s t : OperationManager}

/-! ## Phases across a step -/

theorem Concluding.unfinished {a : Action} {i : Nat} {op op' : LiveOperation} {c : Conclusion}
    (h : Concluding s a i op op' c) (hphase : op'.phase.isUnfinished = true) :
    op.phase.isUnfinished = true := by
  cases h with
  | cancel hfind hstatus => exact hphase
  | deadline hop hdue hstatus => exact hphase
  | beforeDispatchRejected hop _ => cases hphase
  | runRejected hop _ hlive => cases hphase
  | acknowledged hop _ => cases hphase
  | afterDispatchRejected hop _ => cases hphase

/-- Advancing starts nothing, and leaves a live operation unfinished. -/
theorem Advancing.unfinished {a : Action} {op op' : LiveOperation} (h : Advancing s a op op') :
    (op'.phase.isUnfinished = true → op.phase.isUnfinished = true) ∧
      (op.status.isTerminal = false → op.phase.isUnfinished = true →
        op'.phase.isUnfinished = true) := by
  cases h with
  | expired hdue hstatus => exact ⟨fun h => h, fun _ h => h⟩
  | skipped hphase hterminal =>
    refine ⟨fun h => (by cases h), fun hlive _ => ?_⟩
    rw [hterminal] at hlive
    cases hlive
  | suspended hphase hlive => exact ⟨fun _ => by rw [hphase]; rfl, fun _ _ => rfl⟩
  | resolved hphase hlive => exact ⟨fun _ => by rw [hphase]; rfl, fun _ _ => rfl⟩
  | ignoredResult hphase hterminal =>
    refine ⟨fun h => (by cases h), fun hlive _ => ?_⟩
    rw [hterminal] at hlive
    cases hlive
  | ignoredError hphase hterminal =>
    refine ⟨fun h => (by cases h), fun hlive _ => ?_⟩
    rw [hterminal] at hlive
    cases hlive

/-! ## One step -/

namespace Remembered

theorem of_heap_eq_nil (h : s.heap = []) : s.Remembered := by
  constructor <;> simp [h]

/-- With the same heap, tombstones of unfinished operations have to stay. -/
theorem of_store (h : s.Remembered) (hheap : t.heap = s.heap)
    (hstore : ∀ op ∈ s.heap, op.phase.isUnfinished = true → ∀ k τ, op.scopedKey? = some k →
      s.idempotencyStore.tombstones.get? k = some τ →
      ∃ τ', t.idempotencyStore.tombstones.get? k = some τ' ∧ τ'.operationId = τ.operationId) :
    t.Remembered where
  working := by rw [hheap]; exact h.working
  tombstone := by
    rw [hheap]
    intro op hop hphase k hkey
    obtain ⟨τ, hτ, hid⟩ := h.tombstone op hop hphase k hkey
    obtain ⟨τ', hτ', hid'⟩ := hstore op hop hphase k τ hkey hτ
    exact ⟨τ', hτ', hid'.trans hid⟩

/-- A write keeps it when it starts nothing, keeps live operations unfinished and drops no
tombstone. -/
theorem write (h : s.Remembered) {i : Nat} {op op' : LiveOperation} (hop : s.heap[i]? = some op)
    (hheap : t.heap = s.heap.set i op') (hrw : Rewrites op op')
    (hphase : op'.phase.isUnfinished = true → op.phase.isUnfinished = true)
    (hworking : op'.status.isTerminal = false → op'.phase.isUnfinished = true)
    (hstore : ∀ k τ, s.idempotencyStore.tombstones.get? k = some τ →
      ∃ τ', t.idempotencyStore.tombstones.get? k = some τ' ∧ τ'.operationId = τ.operationId) :
    t.Remembered where
  working := by
    intro o ho hlive
    obtain ⟨j, hj⟩ := List.mem_iff_getElem?.mp ho
    rw [hheap] at hj
    rcases of_getElem?_set hop hj with ⟨-, rfl⟩ | ⟨-, hold⟩
    · exact hworking hlive
    · exact h.working o (List.mem_of_getElem? hold) hlive
  tombstone := by
    intro o ho hunf k hkey
    obtain ⟨j, hj⟩ := List.mem_iff_getElem?.mp ho
    rw [hheap] at hj
    have hold : ∃ τ, s.idempotencyStore.tombstones.get? k = some τ ∧ τ.operationId = o.id := by
      rcases of_getElem?_set hop hj with ⟨-, rfl⟩ | ⟨-, hold⟩
      · rw [hrw.id]
        exact h.tombstone op (List.mem_of_getElem? hop) (hphase hunf) k
          (hrw.scopedKey?.symm.trans hkey)
      · exact h.tombstone o (List.mem_of_getElem? hold) hunf k hkey
    obtain ⟨τ, hτ, hid⟩ := hold
    obtain ⟨τ', hτ', hid'⟩ := hstore k τ hτ
    exact ⟨τ', hτ', hid'.trans hid⟩

theorem patchStore_keeps (op : LiveOperation) (patch : TombstonePatch) (k : JsString)
    (τ : IdempotencyTombstone) (hτ : s.idempotencyStore.tombstones.get? k = some τ) :
    ∃ τ', (s.patchStore op patch).idempotencyStore.tombstones.get? k = some τ' ∧
      τ'.operationId = τ.operationId := by
  rw [get?_patchStore]
  split
  · rw [hτ]
    exact ⟨_, rfl, rfl⟩
  · exact ⟨τ, hτ, rfl⟩

/-- A new operation keeps it when recording it evicts no tombstone of an unfinished operation. -/
theorem openNew (h : s.Remembered) {options : BeginOperationOptions} {randomId : JsString}
    {store : IdempotencyStore} (hkeeps : s.KeepsTombstones (.begin_ options randomId))
    (hstore : (options.key? = none ∧ store = s.idempotencyStore) ∨
      ∃ key, options.key? = some key ∧
        s.idempotencyStore.lookup (scopedKeyFor options key) s.now = (store, none)) :
    ({ s with idempotencyStore := store }.openNew options randomId).Remembered where
  working := by
    intro op hop hlive
    rcases List.mem_append.mp hop with hop | hop
    · exact h.working op hop hlive
    · rw [List.mem_singleton.mp hop]
      rfl
  tombstone := by
    intro op hop hphase k hkey
    rcases hstore with ⟨hnone, rfl⟩ | ⟨key, hsome, hlookup⟩
    · rw [openNew_store_of_none hnone]
      rcases List.mem_append.mp hop with hop | hop
      · exact h.tombstone op hop hphase k hkey
      · -- The new operation has no key.
        rw [List.mem_singleton.mp hop] at hkey
        simp [LiveOperation.scopedKey?, queued, hnone] at hkey
    · obtain ⟨hfresh, hroom⟩ := hkeeps key hsome
      rw [hlookup] at hroom
      obtain ⟨hmax, hoverflow⟩ := hroom rfl
      have hmiss : store.tombstones.get? (scopedKeyFor options key) = none := by
        have hself := @IdempotencyStore.get?_lookup_self s.idempotencyStore
          (scopedKeyFor options key) s.now
        rwa [hlookup] at hself
      rw [openNew_store_of_some hsome]
      rcases List.mem_append.mp hop with hop | hop
      · have hbusy : s.Busy k := ⟨op, hop, hphase, hkey⟩
        obtain ⟨τ, hτ, hid⟩ := h.tombstone op hop hphase k hkey
        obtain ⟨τ', hτ', hid'⟩ := IdempotencyStore.get?_lookup_of_keep s.now hτ
          fun heq => hfresh (heq ▸ hbusy)
        rw [hlookup] at hτ'
        exact ⟨τ', IdempotencyStore.recordUnder_get?_of_ne hmiss hτ'
          fun hmem => hoverflow k hmem hbusy, hid'.trans hid⟩
      · rw [List.mem_singleton.mp hop] at hkey ⊢
        obtain rfl : scopedKeyFor options key = k := by
          simpa [LiveOperation.scopedKey?, queued, hsome, scopedKeyFor] using hkey
        have hmax' : 1 ≤ store.maxEntries := by
          have := IdempotencyStore.lookup_maxEntries s.idempotencyStore
            (scopedKeyFor options key) s.now
          rw [hlookup] at this
          rw [this]
          exact hmax
        exact ⟨_, IdempotencyStore.recordUnder_get?_self hmiss hmax', rfl⟩

/-- **Step lemma.** A step that drops no tombstone of an unfinished operation keeps the
invariant. -/
theorem step {a : Action} (h : s.Remembered) (hreg : s.Registry) (hkeeps : s.KeepsTombstones a)
    (hs : s.step a = some t) : t.Remembered := by
  cases steps_of_step hs with
  | tick => exact ⟨h.working, h.tombstone⟩
  | unchanged => exact h
  | answered hanswer => exact ⟨h.working, h.tombstone⟩
  | lookedUp =>
    refine h.of_store rfl fun op hop hphase k τ hkey hτ => ?_
    exact IdempotencyStore.get?_lookup_of_keep s.now hτ fun heq => hkeeps ⟨op, hop, hphase, heq ▸ hkey⟩
  | removed =>
    refine h.of_store rfl fun op hop hphase k τ hkey hτ => ⟨τ, ?_, rfl⟩
    refine (InsertionMap.get?_erase_of_ne _ ?_).trans hτ
    rintro rfl
    exact hkeeps ⟨op, hop, hphase, hkey⟩
  | @deduped options randomId key store tombstone hkey hlookup hin =>
    refine h.of_store rfl fun op hop hphase k τ hscoped hτ => ?_
    have := IdempotencyStore.get?_lookup_of_keep s.now hτ
      fun heq => (hkeeps key hkey).1 ⟨op, hop, hphase, heq ▸ hscoped⟩
    rwa [hlookup] at this
  | @restored options randomId key store tombstone hkey hlookup hout =>
    have hmid : ({ s with idempotencyStore := store } : OperationManager).Remembered := by
      refine h.of_store rfl fun op hop hphase k τ hscoped hτ => ?_
      have := IdempotencyStore.get?_lookup_of_keep s.now hτ
        fun heq => (hkeeps key hkey).1 ⟨op, hop, hphase, heq ▸ hscoped⟩
      rwa [hlookup] at this
    constructor
    · intro op hop hlive
      rcases List.mem_append.mp hop with hop | hop
      · exact h.working op hop hlive
      · rw [List.mem_singleton.mp hop, (hreg.restored_inert hlookup hout).terminal] at hlive
        cases hlive
    · intro op hop hphase k hscoped
      rcases List.mem_append.mp hop with hop | hop
      · exact hmid.tombstone op hop hphase k hscoped
      · rw [List.mem_singleton.mp hop] at hphase
        cases hphase
  | opened hstore => exact h.openNew hkeeps hstore
  | registered hop hin hlive => exact ⟨h.working, h.tombstone⟩
  | cancelling hop hin hlive hstatus =>
    have hunf := h.working _ (List.mem_of_getElem? hop) hlive
    exact h.write hop rfl (Rewrites.of_live rfl hlive) (fun hp => hp) (fun _ => hunf)
      fun k τ hτ => ⟨τ, hτ, rfl⟩
  | @advanced _ i op op' hop hadv =>
    refine h.write hop rfl hadv.rewrites hadv.unfinished.1 (fun hlive => ?_)
      fun k τ hτ => ⟨τ, hτ, rfl⟩
    rw [hadv.snapshot] at hlive
    exact hadv.unfinished.2 hlive (h.working op (List.mem_of_getElem? hop) hlive)
  | dispatched hop hphase =>
    exact h.write hop rfl (Rewrites.of_phase rfl (by rw [hphase]; nofun))
      (fun _ => by rw [hphase]; rfl) (fun _ => rfl) fun k τ hτ => ⟨τ, hτ, rfl⟩
  | reported hop hphase hlive =>
    have hunf := h.working _ (List.mem_of_getElem? hop) hlive
    exact h.write hop rfl (Rewrites.of_live rfl hlive) (fun hp => hp) (fun _ => hunf)
      fun k τ hτ => ⟨τ, hτ, rfl⟩
  | @concluded _ i op op' c answers hop hc hanswers =>
    refine h.write hop (conclude_heap _ _ _) (hc.rewrites s.now) hc.unfinished (fun hlive => ?_) ?_
    · rw [show (op'.concluded c s.now).status = c.status from rfl, c.terminal] at hlive
      cases hlive
    · intro k τ hτ
      rw [show ((s.conclude i op' c).answerAll answers).idempotencyStore = _ from
        conclude_store _ _ _]
      exact patchStore_keeps op' c.patch k τ hτ
  | @reconciled _ options i op hop hin huncertain =>
    have hphase : (reconciledBy op options s.now).phase = op.phase := by
      unfold reconciledBy
      cases options.resolution <;> rfl
    refine h.write hop (reconcileAt_heap _ _ _) (reconciledBy_rewrites _ _) (by rw [hphase]; exact id)
      (fun hlive => ?_) ?_
    · rw [reconciledBy_terminal] at hlive
      cases hlive
    · intro k τ hτ
      rw [reconcileAt_store]
      exact patchStore_keeps op _ k τ hτ

end Remembered

/-! ## What the invariant says -/

theorem Remembered.unique (h : s.Remembered) (hreg : s.Registry) {i j : Nat}
    {op op' : LiveOperation} {k : JsString} (hop : s.heap[i]? = some op)
    (hop' : s.heap[j]? = some op') (hphase : op.phase.isUnfinished = true)
    (hphase' : op'.phase.isUnfinished = true) (hkey : op.scopedKey? = some k)
    (hkey' : op'.scopedKey? = some k) : i = j := by
  obtain ⟨τ, hτ, hid⟩ := h.tombstone op (List.mem_of_getElem? hop) hphase k hkey
  obtain ⟨τ', hτ', hid'⟩ := h.tombstone op' (List.mem_of_getElem? hop') hphase' k hkey'
  obtain rfl := Option.some.inj (hτ.symm.trans hτ')
  -- They are of one operation, and only its first object is ever unfinished.
  have hsame : op.id = op'.id := hid.symm.trans hid'
  have hidle : ∀ {o : LiveOperation}, o.phase.isUnfinished = true → ¬ o.Inert := by
    intro o ho hinert
    rw [hinert.idle] at ho
    cases ho
  rcases Nat.lt_trichotomy i j with hlt | heq | hgt
  · exact absurd (hreg.inert i j op op' hlt hop hop' hsame) (hidle hphase')
  · exact heq
  · exact absurd (hreg.inert j i op' op hgt hop' hop hsame.symm) (hidle hphase)

theorem Remembered.singleFlight (h : s.Remembered) (hreg : s.Registry) : s.SingleFlight := by
  intro i j op op' hop hop' hphase hphase' hkey hrequest
  obtain ⟨key, hkey⟩ := Option.ne_none_iff_exists'.mp hkey
  have hscoped : op.scopedKey? =
      some (IdempotencyStore.keyFor op.deviceId op.capability op.owner key) := by
    rw [LiveOperation.scopedKey?, hkey]
    rfl
  exact h.unique hreg hop hop' hphase hphase' hscoped ((scopedKey?_congr hrequest).symm.trans hscoped)

/-- `begin` gives the unfinished operation of its request. -/
theorem Remembered.dedupes (h : s.Remembered) : s.Dedupes := by
  intro options randomId i op hkeeps hkey hop hrequest hbusy
  obtain ⟨key, hkey⟩ := Option.ne_none_iff_exists'.mp hkey
  have hmem := List.mem_of_getElem? hop
  have hphase : op.phase.isUnfinished = true := hbusy.elim (h.working op hmem) fun hphase => hphase
  have hscoped : op.scopedKey? = some (scopedKeyFor options key) := by
    simp only [LiveOperation.request, BeginOperationOptions.request, Prod.mk.injEq] at hrequest
    obtain ⟨hdevice, hcapability, howner, hopkey⟩ := hrequest
    rw [LiveOperation.scopedKey?, hopkey, hkey, hdevice, hcapability, howner]
    rfl
  obtain ⟨τ, hτ, hid⟩ := h.tombstone op hmem hphase _ hscoped
  -- The lookup hits its tombstone.
  have hfresh : s.idempotencyStore.expired τ s.now = false := by
    have := (hkeeps key hkey).1 ⟨op, hmem, hphase, hscoped⟩
    simpa [IdempotencyStore.expires, hτ] using this
  have hhit : (s.idempotencyStore.lookup (scopedKeyFor options key) s.now).2 =
      some { τ with lastUsedAt := s.now } :=
    IdempotencyStore.lookup_eq_some.mpr ⟨τ, hτ, hfresh, rfl⟩
  obtain ⟨store, hlookup⟩ : ∃ store, s.idempotencyStore.lookup (scopedKeyFor options key) s.now =
      (store, some { τ with lastUsedAt := s.now }) := ⟨_, Prod.ext rfl hhit⟩
  have hbegin : s.begin_ options randomId =
      { s with idempotencyStore := store }.dedupe { τ with lastUsedAt := s.now } := by
    unfold begin_
    rw [hkey]
    dsimp only
    rw [hlookup]
  rw [hbegin, ← hid]
  unfold dedupe
  split
  · exact ⟨rfl, fun o ho _ => ho⟩
  · refine ⟨rfl, fun o ho hunf => ?_⟩
    rcases List.mem_append.mp ho with ho | ho
    · exact ho
    · rw [List.mem_singleton.mp ho] at hunf
      cases hunf

/-! ## Runs -/

/-- **One run at a time for a key.** In every run in which no tombstone of an unfinished operation
leaves the store, at most one operation of a device, capability, owner and key is unfinished, and
`begin` with them gives it and starts nothing, whatever became of its status. -/
theorem singleFlight_of_keepsTombstones (retentionMs : Int) (maxOperations maxEntries : Nat)
    (storeRetentionMs now : Int) (calls : List Action) (s : OperationManager)
    (hrun : machine.run (new retentionMs maxOperations maxEntries storeRetentionMs now) calls =
      some s)
    (hkeeps : machine.Guarded KeepsTombstones
      (new retentionMs maxOperations maxEntries storeRetentionMs now) calls) :
    s.SingleFlight ∧ s.Dedupes := by
  obtain ⟨hreg, hrem⟩ := Machine.run_guarded_invariant (I := fun s => s.Registry ∧ s.Remembered)
    (fun _ _ _ h hg hs => ⟨h.1.step hs, h.2.step h.1 hg hs⟩)
    ⟨Registry.new rfl, Remembered.of_heap_eq_nil rfl⟩ hkeeps hrun
  exact ⟨hrem.singleFlight hreg, hrem.dedupes⟩

def keyedBlink : BeginOperationOptions := { blink with idempotencyKey := some (js "k") }

/-- A run that keeps its tombstones: an operation that has timed out while its run goes on is given
to a retry. -/
theorem singleFlight_timedOut :
    ∃ s, machine.run newDefault [.begin_ { keyedBlink with timeoutMs := some 5 } (js "a"),
        .microtask 0, .dispatched 0, .tick 5, .deadline 0, .begin_ keyedBlink (js "b")] = some s ∧
      s.SingleFlight ∧ s.Dedupes := by
  have hsome : (machine.run newDefault [.begin_ { keyedBlink with timeoutMs := some 5 } (js "a"),
      .microtask 0, .dispatched 0, .tick 5, .deadline 0,
      .begin_ keyedBlink (js "b")]).isSome = true := by decide +kernel
  obtain ⟨s, hs⟩ := Option.isSome_iff_exists.mp hsome
  exact ⟨s, hs, singleFlight_of_keepsTombstones _ _ _ _ _ _ s hs (by decide +kernel)⟩

/-- **Not every run is single-flight.** A run that lasts longer than the retention of its tombstone is
joined by a second one. -/
theorem not_singleFlight_expired :
    ∃ s, machine.run newDefault [.begin_ keyedBlink (js "a"), .microtask 0, .dispatched 0,
        .tick 86400001, .begin_ keyedBlink (js "b"), .microtask 1, .dispatched 1] = some s ∧
      ¬ s.SingleFlight := by
  have hview : ((machine.run newDefault [.begin_ keyedBlink (js "a"), .microtask 0, .dispatched 0,
      .tick 86400001, .begin_ keyedBlink (js "b"), .microtask 1, .dispatched 1]).map fun s =>
        s.heap.map fun op => decide (op.request = keyedBlink.request) && op.phase.isUnfinished) =
      some [true, true] := by decide +kernel
  obtain ⟨s, hs, hheap⟩ := Option.map_eq_some_iff.mp hview
  obtain ⟨op, rest, hop, hview, hrest⟩ := List.map_eq_cons_iff.mp hheap
  obtain ⟨op', rest', hop', hview', -⟩ := List.map_eq_cons_iff.mp hrest
  rw [Bool.and_eq_true, decide_eq_true_eq] at hview hview'
  obtain ⟨hrequest, hphase⟩ := hview
  obtain ⟨hrequest', hphase'⟩ := hview'
  refine ⟨s, hs, fun hsingle => ?_⟩
  have hget : s.heap[0]? = some op := by rw [hop]; rfl
  have hget' : s.heap[1]? = some op' := by rw [hop, hop']; rfl
  have hkey : op.idempotencyKey ≠ none := by
    rw [show op.idempotencyKey = op.request.2.2.2 from rfl, hrequest]
    exact Option.some_ne_none _
  cases hsingle 0 1 op op' hget hget' hphase hphase' hkey (hrequest.trans hrequest'.symm)

end OperationManager

end Pinout.Operation
