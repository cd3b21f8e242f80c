import Pinout.Operation.Retention

/-! # What is restored from a tombstone

A tombstone is patched under the scoped key of an operation, whichever operation it is of, and a patch leaves what it
does not mention as it is. In the runs in which a patch finds the tombstone of its own operation, in which a result is
observed of an operation only when no error is on its tombstone, and in which the continuations of `start` find their
operation in the map (`Mirroring`), every tombstone mirrors its operation (`Mirrors`), and an operation that retention
has dropped is restored as it was dropped (`restoresFaithfully_of_mirroring`). -/

namespace Pinout.Operation

open Foundation

/-- What a caller is told of the end of an operation. -/
def OperationSnapshot.ending (op : OperationSnapshot) : OperationStatus × Option Json × Option OperationError :=
  (op.status, op.result, op.error)

namespace OperationManager

variable {s t : OperationManager} {a : Action} {i : Nat} {op op' : LiveOperation} {k id : JsString}
  {τ : IdempotencyTombstone}

/-! ## The promise -/

/-- In the steps, retention last dropped an operation that had ended as given. -/
def DroppedWith (s : OperationManager) (calls : List Action) (id : JsString)
    (ending : OperationStatus × Option Json × Option OperationError) : Prop :=
  ∃ before a after m m' i op, calls = before ++ a :: after ∧ machine.run s before = some m ∧ m.step a = some m' ∧
    m.operations.get? id = some i ∧ m'.operations.get? id = none ∧
    machine.Guarded (fun n _ => n.operations.get? id = none) m' after ∧
    m'.heap[i]? = some op ∧ op.ending = ending

/-- What is promised of the state `t` after the steps: an operation that is not in the map and that `begin` answers a
retry with is as it was when it was dropped. -/
def RestoresFaithfully (s : OperationManager) (calls : List Action) (t : OperationManager) : Prop :=
  ∀ options randomId id u snapshot ending, t.step (.begin_ options randomId) = some u →
    t.operations.get? id = none → u.trace = t.trace ++ [.began true id] → u.get? id = some snapshot →
    s.DroppedWith calls id ending → snapshot.ending = ending

/-! ## The guard -/

/-- The object at an address is that of its id in the map. -/
def InMap (s : OperationManager) (address : Nat) : Prop :=
  ∀ op ∈ s.heap[address]?, s.operations.get? op.id = some address

/-- The tombstone under the key of an operation is its own. -/
def OwnTombstone (s : OperationManager) (op : LiveOperation) : Prop :=
  ∀ k ∈ op.scopedKey?, ∀ τ ∈ s.idempotencyStore.tombstones.get? k, τ.operationId = op.id

/-- The tombstone under the key of an operation has no error. -/
def ErrorFree (s : OperationManager) (op : LiveOperation) : Prop :=
  ∀ k ∈ op.scopedKey?, ∀ τ ∈ s.idempotencyStore.tombstones.get? k, τ.error.isNone = true

/-- The guard: a transition or a reconciliation finds its own tombstone under the key of its operation, a reconciliation
as done finds no error on it, and the continuations of `start` that write a status without looking at it find their
operation in the map. -/
def Mirroring (s : OperationManager) : Action → Prop
  | .dispatched address => s.InMap address
  | .beforeDispatchRejected address _ | .acknowledged address | .afterDispatchRejected address _ =>
    s.InMap address ∧ ∀ op ∈ s.heap[address]?, s.OwnTombstone op
  | .runRejected address _ => ∀ op ∈ s.heap[address]?, op.status.isTerminal = false → s.OwnTombstone op
  | .deadline address => ∀ op ∈ s.heap[address]?, op.status = .running → s.OwnTombstone op
  | .cancel operationId _ _ => ∀ e ∈ s.find? operationId, e.2.status = .queued → s.OwnTombstone e.2
  | .reconcile operationId options => ∀ e ∈ s.find? operationId, e.2.status.isUncertain = true →
      s.OwnTombstone e.2 ∧ (options.resolution = .observedComplete → s.ErrorFree e.2)
  | _ => True

instance (s : OperationManager) (address : Nat) : Decidable (s.InMap address) := by
  unfold InMap
  infer_instance

instance (s : OperationManager) (op : LiveOperation) : Decidable (s.OwnTombstone op) := by
  unfold OwnTombstone
  infer_instance

instance (s : OperationManager) (op : LiveOperation) : Decidable (s.ErrorFree op) := by
  unfold ErrorFree
  infer_instance

instance (s : OperationManager) (a : Action) : Decidable (s.Mirroring a) := by
  unfold Mirroring
  split <;> infer_instance

/-! ## The invariant -/

/-- A tombstone tells of an object what `begin` would restore of it. -/
structure Agrees (op : LiveOperation) (τ : IdempotencyTombstone) : Prop where
  result : op.result = τ.result
  error : op.error = τ.error
  status : op.status.isTerminal = true → op.status = τ.status

/-- The tombstone under a key mirrors the latest object of its operation. -/
structure MirrorsAt (s : OperationManager) (k : JsString) (τ : IdempotencyTombstone) (i : Nat) (op : LiveOperation) :
    Prop where
  latest : s.Latest τ.operationId i op
  key : op.scopedKey? = some k
  agrees : Agrees op τ

def Mirrors (s : OperationManager) : Prop :=
  ∀ k τ, s.idempotencyStore.tombstones.get? k = some τ → ∃ i op, s.MirrorsAt k τ i op

theorem Latest.eq {j : Nat} (h : s.Latest id i op) (h' : s.Latest id j op') : i = j ∧ op = op' := by
  obtain rfl : i = j := Nat.le_antisymm (h'.last i op h.get h.id_eq) (h.last j op' h'.get h'.id_eq)
  exact ⟨rfl, Option.some.inj (h.get.symm.trans h'.get)⟩

namespace Mirrors

theorem of_empty (h : s.idempotencyStore.tombstones = .empty) : s.Mirrors := by
  intro k τ hτ
  rw [h] at hτ
  cases hτ

/-- A hydrated manager, when no operation is restored with a result a tombstone leaves out. -/
theorem hydrate {es : List JournalEntry} (hheap : s.heap = []) (hmap : s.operations = .empty)
    (hstore : s.idempotencyStore.tombstones = .empty)
    (htruthy : ∀ op ∈ (s.hydrate es).heap, op.result.all Json.truthy = true) : (s.hydrate es).Mirrors := by
  have hreg : (s.hydrate es).Registry := Registry.hydrate hheap hmap hstore es
  intro k τ hτ
  rw [hydrate_store] at hτ
  obtain ⟨hmem, hkey⟩ := IdempotencyStore.of_get?_hydrate hstore hτ
  obtain ⟨o, ho, htombstone⟩ := List.mem_filterMap.mp hmem
  obtain ⟨key, hfilter, rfl⟩ := Option.map_eq_some_iff.mp htombstone
  obtain ⟨i, hi⟩ := List.mem_iff_getElem?.mp ho
  have hi' : (hydratedOps es s.now)[i]? = some o := hi
  have hget : (s.hydrate es).heap[i]? = some { toOperationSnapshot := o.snapshot } := by
    rw [hydrate_heap hheap, List.getElem?_map, hi', Option.map_some]
  have hin : (s.hydrate es).operations.get? o.operationId = some i := (hydrate_get? hheap hmap).mpr ⟨o, hi', rfl⟩
  refine ⟨i, _, hreg.latest_of_get? hin hget, ?_, ?_, rfl, fun _ => rfl⟩
  · rw [LiveOperation.scopedKey?, ← hkey]
    show (o.idempotencyKey.filter fun key => key ≠ []).map _ = _
    rw [hfilter]
    rfl
  · have hall := htruthy _ (List.mem_of_getElem? hget)
    show o.result = o.result.filter Json.truthy
    have hall : o.result.all Json.truthy = true := hall
    cases hresult : o.result with
    | none => rfl
    | some result =>
      rw [hresult, Option.all_some] at hall
      rw [Option.filter_some_pos hall]

/-- Only the heap and the store matter; and of a tombstone, not when it was last used. -/
theorem of_store (h : s.Mirrors) (hheap : t.heap = s.heap)
    (hstore : ∀ k τ', t.idempotencyStore.tombstones.get? k = some τ' → ∃ τ lastUsedAt,
      s.idempotencyStore.tombstones.get? k = some τ ∧ τ' = { τ with lastUsedAt := lastUsedAt }) : t.Mirrors := by
  intro k τ' hτ'
  obtain ⟨τ, lastUsedAt, hτ, rfl⟩ := hstore k τ' hτ'
  obtain ⟨i, op, hlatest, hkey, hresult, herror, hstatus⟩ := h k τ hτ
  have hlatest' : t.Latest τ.operationId i op :=
    ⟨by rw [hheap]; exact hlatest.get, hlatest.id_eq, by rw [hheap]; exact hlatest.last⟩
  exact ⟨i, op, hlatest', hkey, hresult, herror, hstatus⟩

theorem congr (h : s.Mirrors) (hheap : t.heap = s.heap) (hstore : t.idempotencyStore = s.idempotencyStore) :
    t.Mirrors := by
  refine h.of_store hheap fun k τ hτ => ?_
  rw [hstore] at hτ
  exact ⟨τ, τ.lastUsedAt, hτ, rfl⟩

/-- A write of an object, when the tombstone that mirrors it agrees with what is written, and other tombstones stay. -/
theorem write (h : s.Mirrors) (hop : s.heap[i]? = some op) (hheap : t.heap = s.heap.set i op') (hrw : Rewrites op op')
    (hstore : ∀ k τ', t.idempotencyStore.tombstones.get? k = some τ' → ∃ τ,
      s.idempotencyStore.tombstones.get? k = some τ ∧ τ'.operationId = τ.operationId ∧
        (s.MirrorsAt k τ i op → Agrees op' τ') ∧ (¬ s.Latest τ.operationId i op → τ' = τ)) : t.Mirrors := by
  intro k τ' hτ'
  obtain ⟨τ, hτ, hid, hself, hother⟩ := hstore k τ' hτ'
  obtain ⟨j, o, hmirrors⟩ := h k τ hτ
  by_cases hji : j = i
  · subst hji
    obtain rfl := Option.some.inj (hmirrors.latest.get.symm.trans hop)
    refine ⟨j, op', ?_, hrw.scopedKey?.trans hmirrors.key, hself hmirrors⟩
    rw [hid]
    exact hmirrors.latest.set_self hheap hrw.id
  · have hsame : τ' = τ := hother fun hl => hji (hmirrors.latest.eq hl).1
    subst hsame
    exact ⟨j, o, hmirrors.latest.set hop hheap hrw.id hji, hmirrors.key, hmirrors.agrees⟩

/-- A write that leaves result and error alone, and ends nothing. -/
theorem rewrite (h : s.Mirrors) (hop : s.heap[i]? = some op) (hheap : t.heap = s.heap.set i op') (hrw : Rewrites op op')
    (hstore : t.idempotencyStore = s.idempotencyStore) (hresult : op'.result = op.result) (herror : op'.error = op.error)
    (hstatus : op'.status = op.status ∨ op'.status.isTerminal = false) : t.Mirrors := by
  refine h.write hop hheap hrw fun k τ hτ => ?_
  rw [hstore] at hτ
  refine ⟨τ, hτ, rfl, fun hmirrors => ⟨?_, ?_, fun hterminal => ?_⟩, fun _ => rfl⟩
  · rw [hresult, hmirrors.agrees.result]
  · rw [herror, hmirrors.agrees.error]
  · rcases hstatus with hstatus | hlive
    · rw [hstatus] at hterminal ⊢
      exact hmirrors.agrees.status hterminal
    · rw [hlive] at hterminal
      cases hterminal

/-- A write that patches the tombstone under the key of its object, which is its own. -/
theorem patch (h : s.Mirrors) {o : LiveOperation} {patch : TombstonePatch} (hop : s.heap[i]? = some op)
    (hlatest : s.Latest op.id i op) (hown : s.OwnTombstone op) (hheap : t.heap = s.heap.set i op')
    (hrw : Rewrites op op') (hkey : o.scopedKey? = op.scopedKey?)
    (hstore : t.idempotencyStore = (s.patchStore o patch).idempotencyStore)
    (hagrees : ∀ k τ, op.scopedKey? = some k → s.idempotencyStore.tombstones.get? k = some τ → Agrees op τ →
      Agrees op' (IdempotencyStore.patched τ patch s.now)) : t.Mirrors := by
  refine h.write hop hheap hrw fun k τ' hτ' => ?_
  rw [hstore, get?_patchStore, hkey] at hτ'
  split at hτ'
  · next hk =>
    obtain ⟨τ, hτ, rfl⟩ := Option.map_eq_some_iff.mp hτ'
    have hid : τ.operationId = op.id := hown k hk τ hτ
    refine ⟨τ, hτ, rfl, fun hmirrors => hagrees k τ hk hτ hmirrors.agrees, fun hnot => ?_⟩
    rw [hid] at hnot
    exact absurd hlatest hnot
  · next hk => exact ⟨τ', hτ', rfl, fun hmirrors => absurd hmirrors.key hk, fun _ => rfl⟩

/-- A new object of a new id, with its tombstone when it has a key. -/
theorem append (op' : LiveOperation) (h : s.Mirrors) (hheap : t.heap = s.heap ++ [op'])
    (hstore : ∀ k τ', t.idempotencyStore.tombstones.get? k = some τ' →
      (∃ τ lastUsedAt, s.idempotencyStore.tombstones.get? k = some τ ∧ τ' = { τ with lastUsedAt := lastUsedAt } ∧
        (τ.operationId = op'.id → op'.scopedKey? = some k ∧ Agrees op' τ)) ∨
      (τ'.operationId = op'.id ∧ op'.scopedKey? = some k ∧ Agrees op' τ')) : t.Mirrors := by
  have hnew : t.Latest op'.id s.heap.length op' := Latest.append_self op' hheap
  intro k τ' hτ'
  rcases hstore k τ' hτ' with ⟨τ, lastUsedAt, hτ, rfl, hsame⟩ | ⟨hid, hkey, hagrees⟩
  · by_cases hid : τ.operationId = op'.id
    · obtain ⟨hkey, hresult, herror, hstatus⟩ := hsame hid
      exact ⟨s.heap.length, op', hid ▸ hnew, hkey, hresult, herror, hstatus⟩
    · obtain ⟨i, op, hlatest, hkey, hresult, herror, hstatus⟩ := h k τ hτ
      exact ⟨i, op, hlatest.append op' (Ne.symm hid) hheap, hkey, hresult, herror, hstatus⟩
  · exact ⟨s.heap.length, op', hid ▸ hnew, hkey, hagrees⟩

end Mirrors

/-! ## Steps -/

theorem agrees_concluded {c : Conclusion} {now : Int} (h : Agrees op τ) (hresult : op'.result = op.result)
    (herror : op'.error = op.error) : Agrees (op'.concluded c now) (IdempotencyStore.patched τ c.patch now) where
  result := by
    show (c.result.map Json.obj).or op'.result = (c.result.map Json.obj).or τ.result
    rw [hresult, h.result]
  error := by
    show c.error.or op'.error = c.error.or τ.error
    rw [herror, h.error]
  status _ := rfl

/-- What a reconciliation writes agrees with what it patches, when no error is to be taken back. -/
theorem agrees_reconciled {options : ReconcileOptions} {now : Int} (h : Agrees op τ)
    (herror : options.resolution = .observedComplete → τ.error = none) :
    Agrees (reconciledBy op options now)
      (IdempotencyStore.patched τ (reconciledPatch (reconciledBy op options now)) now) := by
  have hor : ∀ r : Option Json, r = (r.filter Json.truthy).or r := by
    intro r
    cases r with
    | none => rfl
    | some r => cases hr : Json.truthy r <;> simp [Option.filter, hr]
  unfold reconciledPatch IdempotencyStore.patched reconciledBy
  cases hresolution : options.resolution with
  | observedComplete => exact ⟨rfl, (herror hresolution).symm, fun _ => rfl⟩
  | observedNotDone => exact ⟨by dsimp only; rw [← h.result]; exact hor _, rfl, fun _ => rfl⟩
  | abandoned => exact ⟨by dsimp only; rw [← h.result]; exact hor _, rfl, fun _ => rfl⟩

/-- A conclusion keeps result and error of its object up to what it writes itself. -/
theorem Concluding.result_error {c : Conclusion} (hc : Concluding s a i op op' c) :
    op'.result = op.result ∧ op'.error = op.error := by
  cases hc <;> exact ⟨rfl, rfl⟩

/-- A guarded conclusion finds its operation in the map, and the tombstone under its key its own. -/
theorem Concluding.mirroring {c : Conclusion} (hlisted : s.Listed) (hguard : s.Mirroring a) (hop : s.heap[i]? = some op)
    (hc : Concluding s a i op op' c) : s.operations.get? op.id = some i ∧ s.OwnTombstone op := by
  cases hc with
  | cancel hfind hstatus => exact ⟨hlisted i op hop (by rw [hstatus]; rfl), hguard _ hfind hstatus⟩
  | deadline hop hdue hstatus => exact ⟨hlisted i op hop (by rw [hstatus]; rfl), hguard op hop hstatus⟩
  | beforeDispatchRejected hop hphase => exact ⟨hguard.1 op hop, hguard.2 op hop⟩
  | runRejected hop hphase hlive => exact ⟨hlisted i op hop hlive, hguard op hop hlive⟩
  | acknowledged hop hphase => exact ⟨hguard.1 op hop, hguard.2 op hop⟩
  | afterDispatchRejected hop hphase => exact ⟨hguard.1 op hop, hguard.2 op hop⟩

theorem Listed.step_of_mirroring (h : s.Listed) (hreg : s.Registry) (hguard : s.Mirroring a) (hstep : s.step a = some t) :
    t.Listed := by
  by_cases ha : ∃ address, a = .dispatched address
  · obtain ⟨address, rfl⟩ := ha
    cases steps_of_step hstep with
    | answered hanswer => exact h.congr rfl rfl
    | registered hop hin hlive => exact h.congr rfl rfl
    | cancelling hop hin hlive hstatus => exact h.write hop rfl rfl (fun _ => hlive) fun id j o hj _ _ => hj
    | advanced hop hadv => cases hadv
    | @dispatched _ op hop hphase =>
      intro j o ho hlive
      rcases of_getElem?_set hop (show (s.heap.set address (startedAs op s.now))[j]? = some o from ho) with
        ⟨rfl, rfl⟩ | ⟨-, ho⟩
      · exact hguard op hop
      · exact h j o ho hlive
    | concluded hop hc hanswers => cases hc
  · exact h.step hreg (fun address heq => absurd ⟨address, heq⟩ ha) hstep

theorem Mirrors.step (h : s.Mirrors) (hreg : s.Registry) (hlisted : s.Listed) (hguard : s.Mirroring a)
    (hstep : s.step a = some t) : t.Mirrors := by
  cases steps_of_step hstep with
  | tick => exact h.congr rfl rfl
  | unchanged => exact h
  | answered hanswer => exact h.congr rfl rfl
  | lookedUp => exact h.of_store rfl fun k τ' hτ => IdempotencyStore.of_get?_lookup rfl hτ
  | removed =>
    refine h.of_store rfl fun k τ' hτ => ?_
    have hτ' := InsertionMap.get?_filter_eq_some_iff.mp hτ
    exact ⟨τ', τ'.lastUsedAt, hτ'.1, rfl⟩
  | deduped hkey hlookup hin => exact h.of_store rfl fun k τ' hτ => IdempotencyStore.of_get?_lookup hlookup hτ
  | @restored options randomId key store tombstone hkey hlookup hout =>
    have hhit : (s.idempotencyStore.lookup (scopedKeyFor options key) s.now).2 = some tombstone := by rw [hlookup]
    obtain ⟨τ₀, hτ₀, -, rfl⟩ := IdempotencyStore.lookup_eq_some.mp hhit
    have hkeyed := (hreg.tombstoned _ _ hτ₀).keyed
    refine h.append (restoredFrom { τ₀ with lastUsedAt := s.now }) rfl fun k τ' hτ' => Or.inl ?_
    obtain ⟨τ, lastUsedAt, hτ, rfl⟩ := IdempotencyStore.of_get?_lookup hlookup hτ'
    refine ⟨τ, lastUsedAt, hτ, rfl, fun hid => ?_⟩
    -- Tombstones of one operation are under one key.
    obtain ⟨i, op, hmirrors⟩ := h k τ hτ
    obtain ⟨j, o, hmirrors₀⟩ := h _ τ₀ hτ₀
    have hid : τ.operationId = τ₀.operationId := hid
    obtain ⟨rfl, rfl⟩ := hmirrors.latest.eq (hid ▸ hmirrors₀.latest)
    obtain rfl : k = scopedKeyFor options key := Option.some.inj (hmirrors.key.symm.trans hmirrors₀.key)
    obtain rfl := Option.some.inj (hτ.symm.trans hτ₀)
    exact ⟨congrArg some hkeyed, rfl, rfl, fun _ => rfl⟩
  | @opened options randomId store hstore =>
    refine h.append (s.queued options randomId) rfl fun k τ' hτ' => ?_
    have hfresh : ∀ {k : JsString} {τ : IdempotencyTombstone}, s.idempotencyStore.tombstones.get? k = some τ →
        τ.operationId ≠ (s.queued options randomId).id := by
      intro k τ hτ
      obtain ⟨i, op, hmirrors⟩ := h k τ hτ
      rw [← hmirrors.latest.id_eq]
      exact hreg.ne_operationId randomId op (List.mem_of_getElem? hmirrors.latest.get)
    rcases hstore with ⟨hkey, rfl⟩ | ⟨key, hkey, hlookup⟩
    · rw [openNew_store_of_none hkey] at hτ'
      exact Or.inl ⟨τ', τ'.lastUsedAt, hτ', rfl, fun hid => absurd hid (hfresh hτ')⟩
    · rw [openNew_store_of_some hkey] at hτ'
      rcases IdempotencyStore.of_get?_recordUnder hτ' with ⟨rfl, rfl⟩ | ⟨-, hold⟩
      · refine Or.inr ⟨rfl, ?_, rfl, rfl, by rintro ⟨⟩⟩
        simp [LiveOperation.scopedKey?, queued, hkey, scopedKeyFor]
      · obtain ⟨τ, lastUsedAt, hτ, rfl⟩ := IdempotencyStore.of_get?_lookup hlookup hold
        exact Or.inl ⟨τ, lastUsedAt, hτ, rfl, fun hid => absurd hid (hfresh hτ)⟩
  | registered hop hin hlive => exact h.congr rfl rfl
  | cancelling hop hin hlive hstatus =>
    exact h.rewrite hop rfl (Rewrites.of_live rfl hlive) rfl rfl rfl (Or.inr rfl)
  | advanced hop hadv =>
    have hsnapshot := hadv.snapshot
    refine h.rewrite hop rfl hadv.rewrites rfl ?_ ?_ (Or.inl ?_) <;> rw [hsnapshot]
  | dispatched hop hphase =>
    exact h.rewrite hop rfl (Rewrites.of_phase rfl (by rw [hphase]; rintro ⟨⟩)) rfl rfl rfl (Or.inr rfl)
  | reported hop hphase hlive => exact h.rewrite hop rfl (Rewrites.of_live rfl hlive) rfl rfl rfl (Or.inl rfl)
  | @concluded _ i op op' c _ hop hc hanswers =>
    obtain ⟨hin, hown⟩ := hc.mirroring hlisted hguard hop
    have hrw : Rewrites op (op'.concluded c s.now) := hc.rewrites s.now
    refine h.patch hop (hreg.latest_of_get? hin hop) hown (conclude_heap ..) hrw hrw.scopedKey? (conclude_store ..)
      fun k τ hk hτ hagrees => ?_
    exact agrees_concluded hagrees hc.result_error.1 hc.result_error.2
  | @reconciled operationId options i op hop hin huncertain =>
    obtain ⟨hown, hfree⟩ := hguard _ (find?_eq_some_iff.mpr ⟨hin, hop⟩) huncertain
    have hlatest := hreg.latest_of_get? hin hop
    refine h.patch hop (hlatest.id_eq ▸ hlatest) hown (reconcileAt_heap ..) (reconciledBy_rewrites ..) rfl
      (reconcileAt_store ..) fun k τ hk hτ hagrees => ?_
    exact agrees_reconciled hagrees fun hdone => Option.isNone_iff_eq_none.mp (hfree hdone k hk τ hτ)

/-! ## After an operation was dropped -/

/-- An operation that a step drops is at its end, and its object stays the latest of its id. -/
theorem latest_of_dropped (hreg : s.Registry) (hstep : s.step a = some t) (hin : s.operations.get? id = some i)
    (hout : t.operations.get? id = none) (hop : t.heap[i]? = some op) :
    t.Latest id i op ∧ op.status.isTerminal = true := by
  have hterminal : op.status.isTerminal = true := by
    cases hlive : op.status.isTerminal with
    | true => rfl
    | false =>
      rw [keepsLive_of_step hreg hstep hin hop hlive] at hout
      cases hout
  refine ⟨?_, hterminal⟩
  obtain ⟨o, ho, hid, hlast⟩ := hreg.latest id i hin
  have hlatest : s.Latest id i o := ⟨ho, hid, hlast⟩
  -- Only retention takes an operation out of the map.
  have hstays : t.operations.get? id = some i → t.Latest id i op := by
    intro hget
    rw [hget] at hout
    cases hout
  have hwrite : ∀ {j : Nat} {o₁ o₂ : LiveOperation}, s.heap[j]? = some o₁ → t.heap = s.heap.set j o₂ →
      o₂.id = o₁.id → t.Latest id i op := by
    intro j o₁ o₂ ho₁ hheap hid'
    by_cases hij : i = j
    · subst hij
      obtain rfl := Option.some.inj (ho₁.symm.trans ho)
      have hself := hlatest.set_self hheap hid'
      rwa [Option.some.inj (hop.symm.trans hself.get)]
    · have hother := hlatest.set ho₁ hheap hid' hij
      rwa [Option.some.inj (hop.symm.trans hother.get)]
  cases steps_of_step hstep with
  | tick => exact hstays hin
  | unchanged => exact hstays hin
  | answered hanswer => exact hstays hin
  | lookedUp => exact hstays hin
  | removed => exact hstays hin
  | deduped hkey hlookup hlisted => exact hstays hin
  | restored hkey hlookup hout' => exact hstays (get?_insert_of_get? hin (InsertionMap.contains_eq_false_iff.mp hout'))
  | @opened options randomId store hstore => exact hstays (get?_insert_of_get? hin (hreg.get?_operationId randomId))
  | registered hop' hin' hlive' => exact hstays hin
  | cancelling hop' hin' hlive' hstatus => exact hstays hin
  | advanced hop' hadv => exact hstays hin
  | dispatched hop' hphase => exact hstays hin
  | reported hop' hphase hlive' => exact hstays hin
  | concluded hop' hc hanswers => exact hwrite hop' (conclude_heap ..) (hc.rewrites s.now).id
  | reconciled hop' hin' huncertain => exact hwrite hop' (reconcileAt_heap ..) (reconciledBy_rewrites _ _).id

/-- A guarded step leaves an operation at its end as it is while it is not in the map. -/
theorem latest_of_absent (hreg : s.Registry) (hlisted : s.Listed) (hguard : s.Mirroring a) (hstep : s.step a = some t)
    (hlatest : s.Latest id i op) (hterminal : op.status.isTerminal = true) (hout : s.operations.get? id = none)
    (hout' : t.operations.get? id = none) :
    ∃ op', t.Latest id i op' ∧ op'.status.isTerminal = true ∧ op'.ending = op.ending := by
  have hsame : t.Latest id i op → ∃ op', t.Latest id i op' ∧ op'.status.isTerminal = true ∧ op'.ending = op.ending :=
    fun h => ⟨op, h, hterminal, rfl⟩
  have hcongr : t.heap = s.heap → t.Latest id i op :=
    fun hheap => ⟨by rw [hheap]; exact hlatest.get, hlatest.id_eq, by rw [hheap]; exact hlatest.last⟩
  -- What is in the map is another object.
  have hne : ∀ {j : Nat} {o : LiveOperation}, s.heap[j]? = some o → s.operations.get? o.id = some j → i ≠ j := by
    intro j o ho hin heq
    subst heq
    obtain rfl := Option.some.inj (hlatest.get.symm.trans ho)
    rw [hlatest.id_eq, hout] at hin
    cases hin
  cases steps_of_step hstep with
  | tick => exact hsame (hcongr rfl)
  | unchanged => exact hsame hlatest
  | answered hanswer => exact hsame (hcongr rfl)
  | lookedUp => exact hsame (hcongr rfl)
  | removed => exact hsame (hcongr rfl)
  | deduped hkey hlookup hin => exact hsame (hcongr rfl)
  | @restored options randomId key store tombstone hkey hlookup hnot =>
    refine hsame (hlatest.append (restoredFrom tombstone) (fun heq => ?_) rfl)
    subst heq
    have hget : (s.operations.insert (restoredFrom tombstone).id s.heap.length).get? (restoredFrom tombstone).id = none :=
      hout'
    rw [InsertionMap.get?_insert_self] at hget
    cases hget
  | @opened options randomId store hstore =>
    refine hsame (hlatest.append (s.queued options randomId) (fun heq => ?_) rfl)
    exact hreg.ne_operationId randomId op (List.mem_of_getElem? hlatest.get) (hlatest.id_eq.trans heq.symm)
  | registered hop hin hlive => exact hsame (hcongr rfl)
  | cancelling hop hin hlive hstatus => exact hsame (hlatest.set hop rfl rfl (hne hop (hlisted _ _ hop hlive)))
  | @advanced _ j o o' hop hadv =>
    by_cases hij : i = j
    · subst hij
      obtain rfl := Option.some.inj (hlatest.get.symm.trans hop)
      refine ⟨o', hlatest.set_self rfl hadv.rewrites.id, ?_, ?_⟩
      · rw [hadv.snapshot]
        exact hterminal
      · rw [hadv.snapshot]
    · exact hsame (hlatest.set hop rfl hadv.rewrites.id hij)
  | dispatched hop hphase => exact hsame (hlatest.set hop rfl rfl (hne hop (hguard _ hop)))
  | reported hop hphase hlive => exact hsame (hlatest.set hop rfl rfl (hne hop (hlisted _ _ hop hlive)))
  | concluded hop hc hanswers =>
    have hin := (hc.mirroring hlisted hguard hop).1
    exact hsame (hlatest.set hop (conclude_heap ..) (hc.rewrites s.now).id (hne hop hin))
  | @reconciled _ options j o hop hin huncertain =>
    have hid := (hreg.latest_of_get? hin hop).id_eq
    exact hsame (hlatest.set hop (reconcileAt_heap ..) (reconciledBy_rewrites options s.now).id (hne hop (hid ▸ hin)))

/-! ## What `begin` restores -/

/-- An operation `begin` answers a retry with and that is not in the map is made from a tombstone of it. -/
theorem restored_of_begin {options : BeginOperationOptions} {randomId : JsString}
    (hbegin : s.step (.begin_ options randomId) = some t) (hout : s.operations.get? id = none)
    (htrace : t.trace = s.trace ++ [.began true id]) :
    ∃ k τ, s.idempotencyStore.tombstones.get? k = some τ ∧ τ.operationId = id ∧ ∃ lastUsedAt,
      t.get? id = some (restoredFrom { τ with lastUsedAt := lastUsedAt }).toOperationSnapshot := by
  have hopened : ∀ {u : OperationManager}, u.trace = s.trace →
      (u.openNew options randomId).trace ≠ s.trace ++ [.began true id] := by
    intro u hu heq
    have hopen : (u.openNew options randomId).trace = u.trace ++ ([.event _] ++ [.began false _]) :=
      List.append_assoc _ _ _
    rw [hopen, hu] at heq
    simp at heq
  replace hbegin : s.begin_ options randomId = t := Option.some.inj hbegin
  unfold begin_ at hbegin
  split at hbegin
  · rw [← hbegin] at htrace
    exact absurd htrace (hopened rfl)
  · next key hkey =>
    split at hbegin
    · next store τ hlookup =>
      have hhit : (s.idempotencyStore.lookup (scopedKeyFor options key) s.now).2 = some τ := by rw [hlookup]
      obtain ⟨τ₀, hτ₀, -, rfl⟩ := IdempotencyStore.lookup_eq_some.mp hhit
      unfold dedupe at hbegin
      split at hbegin
      · next hin =>
        rw [← hbegin] at htrace
        obtain rfl : τ₀.operationId = id := by simpa [effect] using htrace
        rw [InsertionMap.contains_eq_false_iff.mpr hout] at hin
        cases hin
      · rw [← hbegin] at htrace
        obtain rfl : τ₀.operationId = id := by simpa [effect] using htrace
        refine ⟨_, τ₀, hτ₀, rfl, s.now, ?_⟩
        have hfind : t.find? τ₀.operationId =
            some (s.heap.length, restoredFrom { τ₀ with lastUsedAt := s.now }) := by
          rw [← hbegin]
          refine find?_eq_some_iff.mpr ⟨InsertionMap.get?_insert_self _ _ _, ?_⟩
          exact List.getElem?_concat_length
        rw [get?, hfind, Option.map_some]
    · rw [← hbegin] at htrace
      exact absurd htrace (hopened rfl)

/-! ## Runs -/

structure Mirrored (s : OperationManager) : Prop where
  registry : s.Registry
  listed : s.Listed
  mirrors : s.Mirrors

theorem Mirrored.step (h : s.Mirrored) (hguard : s.Mirroring a) (hstep : s.step a = some t) : t.Mirrored :=
  ⟨h.registry.step hstep, h.listed.step_of_mirroring h.registry hguard hstep,
    h.mirrors.step h.registry h.listed hguard hstep⟩

theorem Mirrored.atStart (hstart : AtStart s) (htruthy : ∀ op ∈ s.heap, op.result.all Json.truthy = true) :
    s.Mirrored := by
  refine ⟨hstart.registry, ?_, ?_⟩
  · cases hstart with
    | new retentionMs maxOperations maxEntries storeRetentionMs now => exact Listed.of_heap_eq_nil rfl
    | hydrated retentionMs maxOperations maxEntries storeRetentionMs now stored =>
      intro i op hop hlive
      rw [hydrateFrom, hydrate_heap rfl, List.getElem?_map] at hop
      obtain ⟨o, ho, rfl⟩ := Option.map_eq_some_iff.mp hop
      exact (hydrate_get? rfl rfl).mpr ⟨o, ho, rfl⟩
  · cases hstart with
    | new retentionMs maxOperations maxEntries storeRetentionMs now => exact Mirrors.of_empty rfl
    | hydrated retentionMs maxOperations maxEntries storeRetentionMs now stored =>
      exact Mirrors.hydrate rfl rfl rfl htruthy

theorem latest_of_absent_run {after : List Action} (h : s.Mirrored) (hguard : machine.Guarded Mirroring s after)
    (hrun : machine.run s after = some t) (habsent : machine.Guarded (fun n _ => n.operations.get? id = none) s after)
    (hout : s.operations.get? id = none) (hout' : t.operations.get? id = none) (hlatest : s.Latest id i op)
    (hterminal : op.status.isTerminal = true) :
    ∃ op', t.Latest id i op' ∧ op'.status.isTerminal = true ∧ op'.ending = op.ending := by
  induction after generalizing s op with
  | nil =>
    obtain rfl : s = t := by simpa using hrun
    exact ⟨op, hlatest, hterminal, rfl⟩
  | cons a after ih =>
    obtain ⟨m, hm, hrest⟩ := machine.run_cons_eq_some.mp hrun
    obtain ⟨hg, hgrest⟩ := Machine.Guarded.of_cons hguard hm
    obtain ⟨-, hnrest⟩ := Machine.Guarded.of_cons habsent hm
    have hmout : m.operations.get? id = none := by
      cases after with
      | nil =>
        obtain rfl : m = t := by simpa using hrest
        exact hout'
      | cons b rest => exact hnrest.1
    obtain ⟨o, hlatest', hterminal', hending⟩ :=
      latest_of_absent h.registry h.listed hg hm hlatest hterminal hout hmout
    obtain ⟨op', hlatest'', hterminal'', hending'⟩ := ih (h.step hg hm) hgrest hrest hnrest hmout hlatest' hterminal'
    exact ⟨op', hlatest'', hterminal'', hending'.trans hending⟩

/-- **Tombstone fidelity.** In every run from the start whose steps are guarded, an operation that retention dropped is
restored with the status, the result and the error it was dropped with. -/
theorem restoresFaithfully_of_mirroring {calls : List Action} (hstart : AtStart s)
    (htruthy : ∀ op ∈ s.heap, op.result.all Json.truthy = true) (hrun : machine.run s calls = some t)
    (hguard : machine.Guarded Mirroring s calls) : s.RestoresFaithfully calls t := by
  rintro options randomId id u snapshot ending hbegin hout htrace hsnapshot
    ⟨before, a, after, m, m', i, op, rfl, hbefore, hm, hin, hmout, habsent, hop, rfl⟩
  obtain ⟨hgbefore, hgrest⟩ := Machine.Guarded.of_append hguard hbefore
  obtain ⟨hga, hgafter⟩ := Machine.Guarded.of_cons hgrest hm
  obtain ⟨p, hp, hrest⟩ := machine.run_append_eq_some.mp hrun
  obtain rfl := Option.some.inj (hbefore.symm.trans hp)
  obtain ⟨p', hp', hafter⟩ := machine.run_cons_eq_some.mp hrest
  obtain rfl := Option.some.inj (hm.symm.trans hp')
  have hmirrored : m.Mirrored := Machine.run_guarded_invariant (I := Mirrored) (fun _ _ _ h hg hs => h.step hg hs)
    (.atStart hstart htruthy) hgbefore hbefore
  have hmirrored' : m'.Mirrored := hmirrored.step hga hm
  obtain ⟨hlatest, hterminal⟩ := latest_of_dropped hmirrored.registry hm hin hmout hop
  obtain ⟨op', hlatest', hterminal', hending⟩ :=
    latest_of_absent_run hmirrored' hgafter hafter habsent hmout hout hlatest hterminal
  have ht : t.Mirrored := Machine.run_guarded_invariant (I := Mirrored) (fun _ _ _ h hg hs => h.step hg hs)
    hmirrored' hgafter hafter
  rw [← hending]
  obtain ⟨k, τ, hτ, rfl, hrestored⟩ := restored_of_begin hbegin hout htrace
  obtain ⟨j, o, hmirrors⟩ := ht.mirrors k τ hτ
  obtain ⟨rfl, rfl⟩ := hmirrors.latest.eq hlatest'
  obtain ⟨hresult, herror, hstatus⟩ := hmirrors.agrees
  obtain ⟨lastUsedAt, hget⟩ := hrestored
  obtain rfl := Option.some.inj (hsnapshot.symm.trans hget)
  exact Prod.ext (hstatus hterminal').symm (Prod.ext hresult.symm herror.symm)

/-- A manager that keeps operations for 5 ms after their end. -/
def newForFive : OperationManager := new 5 10000 10000 86400000 0

/-- The manager begins another operation and cancels it; what ended more than 5 ms ago is dropped. -/
def dropping : List Action := [.tick 6, .begin_ blink (js "b"), .cancel otherId none 1]

/-- A guarded run: an operation is completed, and dropped. -/
theorem restoresFaithfully_completed :
    ∃ t, machine.run newForFive ([.begin_ keyedBlink (js "a"), .microtask 0, .dispatched 0, .runResolved 0 [],
        .acknowledged 0] ++ dropping) = some t ∧
      newForFive.RestoresFaithfully ([.begin_ keyedBlink (js "a"), .microtask 0, .dispatched 0, .runResolved 0 [],
        .acknowledged 0] ++ dropping) t := by
  have hsome : (machine.run newForFive ([.begin_ keyedBlink (js "a"), .microtask 0, .dispatched 0, .runResolved 0 [],
      .acknowledged 0] ++ dropping)).isSome = true := by decide +kernel
  obtain ⟨t, ht⟩ := Option.isSome_iff_exists.mp hsome
  exact ⟨t, ht, restoresFaithfully_of_mirroring (.new ..) (by simp [newForFive, new]) ht (by decide +kernel)⟩

/-- An operation whose stop was not confirmed is reconciled as done, and dropped. -/
def reconciledAsDone : List Action :=
  [.begin_ keyedBlink (js "a"), .microtask 0, .dispatched 0, .cancel firstId none 0,
    .runRejected 0 (.error (js "StopUnconfirmedError") none (js "no answer")),
    .reconcile firstId { resolution := .observedComplete }, .tick 6, .begin_ blink (js "b")]

/-- The operation `begin` answers a retry with. -/
def began? : Effect → Option JsString
  | .began true operationId => some operationId
  | _ => none

/-- **Not every run restores faithfully.** The operation was dropped as completed, without an error; it is restored as
completed, with the error that its stop was not confirmed. -/
theorem not_restoresFaithfully :
    ∃ t, machine.run newForFive (reconciledAsDone ++ [.cancel otherId none 1]) = some t ∧
      ¬ newForFive.RestoresFaithfully (reconciledAsDone ++ [.cancel otherId none 1]) t := by
  have hview : ((machine.run newForFive reconciledAsDone).bind fun m => (m.step (.cancel otherId none 1)).bind fun t =>
      (t.step (.begin_ keyedBlink (js "c"))).bind fun u => (u.get? firstId).bind fun snapshot => t.heap[0]?.map fun op =>
        (m.operations.get? firstId, t.operations.get? firstId,
          decide ((u.trace.drop t.trace.length).map began? = [some firstId]), snapshot.error.isSome, op.error.isSome)) =
      some (some 0, none, true, true, false) := by decide +kernel
  obtain ⟨m, hm, hview⟩ := Option.bind_eq_some_iff.mp hview
  obtain ⟨t, ht, hview⟩ := Option.bind_eq_some_iff.mp hview
  obtain ⟨u, hu, hview⟩ := Option.bind_eq_some_iff.mp hview
  obtain ⟨snapshot, hsnapshot, hview⟩ := Option.bind_eq_some_iff.mp hview
  obtain ⟨op, hop, hview⟩ := Option.map_eq_some_iff.mp hview
  simp only [Prod.mk.injEq] at hview
  obtain ⟨hin, hout, hbegan, hsome, hnone⟩ := hview
  replace hbegan := of_decide_eq_true hbegan
  have htrace : u.trace = t.trace ++ [.began true firstId] := by
    obtain ⟨shown, hshown, -⟩ := (steps_of_step hu).shows
    rw [hshown, List.drop_left, List.map_eq_singleton_iff] at hbegan
    obtain ⟨e, rfl, he⟩ := hbegan
    unfold began? at he
    split at he
    · obtain rfl := Option.some.inj he
      exact hshown
    · cases he
  have hrun : machine.run newForFive (reconciledAsDone ++ [.cancel otherId none 1]) = some t :=
    machine.run_append_eq_some.mpr ⟨m, hm, machine.run_cons_eq_some.mpr ⟨t, ht, rfl⟩⟩
  refine ⟨t, hrun, fun h => ?_⟩
  have hending : snapshot.ending = op.ending := h _ _ firstId u snapshot _ hu hout htrace hsnapshot
    ⟨reconciledAsDone, .cancel otherId none 1, [], m, t, 0, op, rfl, hm, ht, hin, hout, trivial, hop, rfl⟩
  have herror : snapshot.error = op.error := congrArg (·.2.2) hending
  rw [herror, hnone] at hsome
  cases hsome

end OperationManager

end Pinout.Operation
