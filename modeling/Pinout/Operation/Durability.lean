import Pinout.Operation.Restart

/-! # Durability of dispatched operations

The journal writes to a file without anybody waiting for it, so of the entries made before a crash
any part may have reached the file, in any order. An operation whose run was invoked is **durable**
when a manager that hydrates from the file finds it, not as aborted, and answers a retry with its key
without running it again (`Durable`). It is when an entry that tells of its dispatch or its outcome
reached the file, and, for the retry, the entry of its request. -/

namespace Pinout.Operation

open Foundation

/-! ## Requests in the journal -/

/-- The options an operation with a key was begun with, as far as they are journaled. -/
def LiveOperation.requestedWith (op : LiveOperation) (key : JsString) : BeginOperationOptions :=
  { deviceId := op.deviceId, capability := op.capability, owner := op.owner
    idempotencyKey := some key }

/-- A request is journaled with its capability, owner and key. -/
theorem requestOf_requestedData (options : BeginOperationOptions) (deviceId : JsString) :
    requestOf deviceId (OperationManager.requestedData options) =
      (deviceId, options.capability, options.owner, options.idempotencyKey) := by
  obtain ⟨d, c, o, k, _, _, _, _⟩ := options
  cases o <;> cases k <;> rfl

theorem requestOf_redactPayload (payload : JsonObject) (deviceId : JsString) :
    requestOf deviceId (Journal.redactPayload payload) = requestOf deviceId payload := by
  unfold requestOf
  rw [Journal.string?_redactPayload rfl, Journal.string?_redactPayload rfl,
    Journal.string?_redactPayload rfl]

section Requests

variable {numText : ℚ → JsString} {maxPayloadChars : Nat} {options : BeginOperationOptions}

theorem requestOf_of_survives (deviceId : JsString)
    (h : Journal.Survives numText (OperationManager.requestedData options) maxPayloadChars) :
    requestOf deviceId ((Journal.journaledPayload numText
        (OperationManager.requestedData options) maxPayloadChars).getD []) =
      (deviceId, options.capability, options.owner, options.idempotencyKey) := by
  rw [Journal.journaledPayload_of_survives numText h, requestOf_redactPayload,
    requestOf_requestedData]

/-- The entry of a request that says a key says what was requested. -/
theorem requestOf_of_key {deviceId : JsString} {key : JsString}
    (h : (requestOf deviceId ((Journal.journaledPayload numText
      (OperationManager.requestedData options) maxPayloadChars).getD [])).2.2.2 = some key) :
    requestOf deviceId ((Journal.journaledPayload numText
        (OperationManager.requestedData options) maxPayloadChars).getD []) =
      (deviceId, options.capability, options.owner, options.idempotencyKey) := by
  by_cases hfits :
      Journal.Survives numText (OperationManager.requestedData options) maxPayloadChars
  · exact requestOf_of_survives deviceId hfits
  · -- What replaces a payload that does not fit says no key.
    exfalso
    have hne : OperationManager.requestedData options ≠ [] := by
      simp [OperationManager.requestedData]
    obtain ⟨chars, preview, hmarker⟩ := Journal.journaledPayload_of_not_survives numText hne hfits
    rw [hmarker] at h
    cases h

end Requests

namespace OperationManager

variable {s t : OperationManager}

/-- The scoped keys that operations were begun with. -/
def keysOf (s : OperationManager) : List JsString := s.heap.filterMap LiveOperation.scopedKey?

theorem Chronicled.requested (h : s.Chronicled) {e : OperationEvent} (he : e ∈ eventsOf s.trace)
    (hkind : e.kind = .requested) :
    ∃ o ∈ s.heap, ∃ options, e.Requests options ∧ o.scope = e.scope options := by
  obtain ⟨o, ho, hid, -⟩ := h.known e he
  obtain ⟨e', he', options, hrequests, hscope⟩ := h.origin o ho
  have hid' : e'.operationId = e.operationId := (congrArg Prod.fst hscope).symm.trans hid
  obtain rfl := h.inOrder.requested_unique he' he hrequests.kind hkind hid'
  exact ⟨o, ho, options, hrequests, hscope⟩

variable {numText : ℚ → JsString} {maxPayloadChars : Nat} {shown : List Effect}
  {es : List JournalEntry}

/-- The entry of a request that survived, with the object it is the request of. -/
theorem Chronicled.of_request (h : s.Chronicled) (hcrash : shown <+: s.trace)
    (hsub : es.Sublist (journalOf numText maxPayloadChars shown).entries) {r : JournalEntry}
    (hr : r ∈ es) {id deviceId : JsString} (hhyd : hydrated? r = some (id, deviceId, .requested)) :
    ∃ o ∈ s.heap, ∃ options : BeginOperationOptions, o.scope = (id, deviceId, options.capability,
        options.owner, options.key?, r.at_) ∧
      r.payload = Journal.journaledPayload numText (requestedData options) maxPayloadChars := by
  obtain ⟨e, he, hj⟩ := exists_event_of_entry (hsub.subset hr)
  obtain ⟨hid, -, hdevice, -, hkind⟩ := hydrated?_eq_some.mp hhyd
  have he' : e ∈ eventsOf s.trace := by
    obtain ⟨rest, hrest⟩ := hcrash
    rw [← hrest, eventsOf_append]
    exact List.mem_append_left _ he
  have hekind : e.kind = .requested := by
    rw [hj.kind] at hkind
    exact JournalEntryKind.operation.inj hkind
  obtain ⟨o, ho, options, hrequests, hscope⟩ := h.requested he' hekind
  refine ⟨o, ho, options, ?_, ?_⟩
  · rw [hscope, OperationEvent.scope, ← hrequests.deviceId, hj.at_eq]
    rw [hj.operationId, Option.some.injEq] at hid
    rw [hj.deviceId, Option.some.injEq] at hdevice
    rw [hid, hdevice]
  · rw [hj.payload, hrequests.data]

theorem Chronicled.of_restorable (h : s.Chronicled) (hcrash : shown <+: s.trace)
    (hsub : es.Sublist (journalOf numText maxPayloadChars shown).entries) {now : Int}
    {τ : IdempotencyTombstone} (hτ : τ ∈ restorable es now) :
    ∃ o ∈ s.heap, o.id = τ.operationId ∧ o.createdAt = τ.createdAt ∧
      o.scopedKey? = some (IdempotencyStore.scopedKeyOf τ) := by
  have hsurviving := surviving_of_sublist (h.inOrder.of_prefix hcrash) hsub
  obtain ⟨r, hr, deviceId, hhyd, hcreated, hne, hrequest⟩ := request_of_restorable hsurviving hτ
  obtain ⟨o, ho, options, hscope, hpayload⟩ := h.of_request hcrash hsub hr hhyd
  rw [hpayload] at hrequest
  have htold := requestOf_of_key (congrArg (·.2.2.2) hrequest).symm
  rw [htold] at hrequest
  simp only [Prod.mk.injEq] at hrequest
  obtain ⟨hdevice, hcapability, howner, hkey⟩ := hrequest
  simp only [LiveOperation.scope, Prod.mk.injEq] at hscope
  obtain ⟨hid, hodevice, hocapability, hoowner, hokey, hoat⟩ := hscope
  have hkey' : options.key? = some τ.idempotencyKey := by
    rw [BeginOperationOptions.key?, ← hkey]
    simp [Option.filter, hne]
  refine ⟨o, ho, hid, hoat.trans hcreated.symm, ?_⟩
  rw [LiveOperation.scopedKey?, hokey, hkey', Option.map_some, hodevice, hocapability, hoowner,
    ← hdevice, ← hcapability, ← howner]
  rfl

/-- An import has room for what survived when the store has room for all keys begun with. -/
theorem Chronicled.room (h : s.Chronicled) (hcrash : shown <+: s.trace)
    (hsub : es.Sublist (journalOf numText maxPayloadChars shown).entries) (now : Int)
    {maxEntries : Nat} (hroom : s.keysOf.dedup.length ≤ maxEntries) :
    ((restorable es now).map IdempotencyStore.scopedKeyOf).dedup.length ≤ maxEntries := by
  have hsubset : ((restorable es now).map IdempotencyStore.scopedKeyOf).dedup ⊆ s.keysOf.dedup := by
    intro k hk
    obtain ⟨τ, hτ, rfl⟩ := List.mem_map.mp (List.mem_dedup.mp hk)
    obtain ⟨o, ho, -, -, hkey⟩ := h.of_restorable hcrash hsub hτ
    exact List.mem_dedup.mpr (List.mem_filterMap.mpr ⟨o, ho, hkey⟩)
  exact ((List.subperm_of_subset (List.nodup_dedup _) hsubset).length_le).trans hroom

/-- **What hydration holds under a key**: the tombstone of the operation that was begun last with it,
among those whose request survived and is within retention. -/
theorem Chronicled.holds_hydrate (h : s.Chronicled) (hcrash : shown <+: s.trace)
    (hsub : es.Sublist (journalOf numText maxPayloadChars shown).entries) {op : LiveOperation}
    {key : JsString} (hop : op ∈ s.heap) (hdevice : op.deviceId ≠ [])
    (hkey : op.idempotencyKey = some key) {r : JournalEntry} (hr : r ∈ es)
    (hrid : r.operationId = some op.id) (hrkind : r.kind = .operation .requested)
    (hfits : Journal.Survives numText (requestedData (op.requestedWith key)) maxPayloadChars)
    {u : OperationManager} (hempty : u.idempotencyStore.tombstones = .empty)
    (hroom : s.keysOf.dedup.length ≤ u.idempotencyStore.maxEntries)
    (hfresh : u.now - op.createdAt ≤ u.idempotencyStore.retentionMs) :
    ∃ τ ∈ restorable es u.now, op.scopedKey? = some (IdempotencyStore.scopedKeyOf τ) ∧
      op.createdAt ≤ τ.createdAt ∧ u.now - τ.createdAt ≤ u.idempotencyStore.retentionMs ∧
      (u.hydrate es).Holds (IdempotencyStore.scopedKeyOf τ) τ.operationId τ.createdAt := by
  have hsurviving := surviving_of_sublist (h.inOrder.of_prefix hcrash) hsub
  -- The entry of the request is that of an event of this operation.
  obtain ⟨e, he, hj⟩ := exists_event_of_entry (hsub.subset hr)
  have heid : e.operationId = op.id := by
    rw [hj.operationId, Option.some.injEq] at hrid
    exact hrid
  have he' : e ∈ eventsOf s.trace := by
    obtain ⟨rest, hrest⟩ := hcrash
    rw [← hrest, eventsOf_append]
    exact List.mem_append_left _ he
  obtain ⟨o, ho, hoid, hodevice⟩ := h.known e he'
  have hoscope := h.scope o ho op hop (hoid.trans heid)
  have hedevice : e.deviceId = op.deviceId := hodevice.symm.trans (congrArg (·.2.1) hoscope)
  have hhyd : hydrated? r = some (op.id, op.deviceId, .requested) :=
    hydrated?_eq_some.mpr ⟨hrid, h.named op hop, hj.deviceId.trans (congrArg some hedevice), hdevice, hrkind⟩
  obtain ⟨o', ho', options, hscope, hpayload⟩ := h.of_request hcrash hsub hr hhyd
  have hscope' : op.scope =
      (op.id, op.deviceId, options.capability, options.owner, options.key?, r.at_) := by
    rw [← hscope]
    exact h.scope op hop o' ho' (congrArg Prod.fst hscope).symm
  simp only [LiveOperation.scope, Prod.mk.injEq] at hscope'
  obtain ⟨-, -, hcapability, howner, hokey, hat⟩ := hscope'
  rw [hokey] at hkey
  -- It was requested with the options that fit.
  obtain ⟨hsome, hne⟩ := Option.filter_eq_some_iff.mp hkey
  have hdata : requestedData options = requestedData (op.requestedWith key) := by
    simp [requestedData, LiveOperation.requestedWith, hsome, hcapability, howner]
  have htold : requestOf op.deviceId (r.payload.getD []) =
      (op.deviceId, op.capability, op.owner, some key) := by
    rw [hpayload, hdata, requestOf_of_survives op.deviceId hfits]
    rfl
  obtain ⟨τ, hτ, hτid, hτat, hτrequest⟩ := restorable_of_request hsurviving u.now hr hhyd
    (congrArg (·.2.2.2) htold) (by simpa using hne)
  rw [htold] at hτrequest
  simp only [Prod.mk.injEq, Option.some.injEq] at hτrequest
  obtain ⟨hτdevice, hτcapability, hτowner, hτkey⟩ := hτrequest
  have hscoped : op.scopedKey? = some (IdempotencyStore.scopedKeyOf τ) := by
    rw [LiveOperation.scopedKey?, hokey, hkey, Option.map_some, IdempotencyStore.scopedKeyOf,
      hτdevice, hτcapability, hτowner, hτkey]
  obtain ⟨τ', hτ', hget, hsame, hle, hfresh'⟩ := IdempotencyStore.get?_imported
    (restorable_sorted hsurviving u.now) hτ
    (show u.now - τ.createdAt ≤ u.idempotencyStore.retentionMs by rw [hτat, ← hat]; exact hfresh)
  refine ⟨τ', hτ', by rw [hsame]; exact hscoped, ?_, hfresh', τ', ?_, rfl, rfl⟩
  · rw [hat, ← hτat]
    exact hle
  · have hentries := IdempotencyStore.hydrate_tombstones u.now hempty
      (h.room hcrash hsub u.now hroom)
    rw [hydrate_store, InsertionMap.get?_eq_some_iff, hentries, ← InsertionMap.get?_eq_some_iff,
      hsame]
    exact hget

/-! ## After a crash -/

/-- The manager finds the operation, and not as aborted. -/
def FindsDispatched (u : OperationManager) (op : LiveOperation) : Prop :=
  ∃ restored, u.get? op.id = some restored ∧ restored.status ≠ .aborted

/-- Whatever the manager does, unless it removes or evicts the tombstone under the key, a retry of
the operation within retention is deduped, and starts nothing. -/
def DedupesRetry (u : OperationManager) (op : LiveOperation) : Prop :=
  ∀ k ∈ op.scopedKey?, ∀ (after : List Action) (v : OperationManager),
    machine.run u after = some v → machine.Guarded (SparesKey k) u after →
    v.now - op.createdAt ≤ u.idempotencyStore.retentionMs →
    ∀ (options : BeginOperationOptions) (randomId : JsString), options.request = op.request →
      ∃ id, (v.begin_ options randomId).trace = v.trace ++ [.began true id] ∧
        ∀ o ∈ (v.begin_ options randomId).heap, o.phase.isUnfinished = true → o ∈ v.heap

/-- A request of an operation with a key has the scoped key of the operation. -/
theorem scopedKeyFor_of_request {op : LiveOperation} {options : BeginOperationOptions}
    (h : options.request = op.request) {k : JsString} (hk : op.scopedKey? = some k) :
    ∃ key, options.key? = some key ∧ scopedKeyFor options key = k := by
  simp only [BeginOperationOptions.request, LiveOperation.request, Prod.mk.injEq] at h
  obtain ⟨hdevice, hcapability, howner, hkey⟩ := h
  obtain ⟨key, hopkey, rfl⟩ := Option.map_eq_some_iff.mp hk
  refine ⟨key, hkey.trans hopkey, ?_⟩
  rw [scopedKeyFor, hdevice, hcapability, howner]

/-- An operation that was dispatched is found when an entry that tells survived. -/
theorem Chronicled.findsDispatched (h : s.Chronicled) (hcrash : shown <+: s.trace)
    (hsub : es.Sublist (journalOf numText maxPayloadChars shown).entries) {op : LiveOperation}
    (hop : op ∈ s.heap) (hdevice : op.deviceId ≠ []) (hinvoked : Invoked shown op.id)
    {x : JournalEntry} {kind : OperationEventKind} (hx : x ∈ es) (hxid : x.operationId = some op.id)
    (hxkind : x.kind = .operation kind) (htells : tells kind = true) {u : OperationManager}
    (hheap : u.heap = []) (hmap : u.operations = .empty) :
    (u.hydrate es).FindsDispatched op := by
  have horder : InOrder shown := h.inOrder.of_prefix hcrash
  have hsurviving := surviving_of_sublist horder hsub
  obtain ⟨e, he, hj⟩ := exists_event_of_entry (hsub.subset hx)
  have heid : e.operationId = op.id := by
    rw [hj.operationId, Option.some.injEq] at hxid
    exact hxid
  have he' : e ∈ eventsOf s.trace := by
    obtain ⟨rest, hrest⟩ := hcrash
    rw [← hrest, eventsOf_append]
    exact List.mem_append_left _ he
  obtain ⟨o, ho, hoid, hodevice⟩ := h.known e he'
  have hedevice : e.deviceId = op.deviceId :=
    hodevice.symm.trans (congrArg (·.2.1) (h.scope o ho op hop (hoid.trans heid)))
  have hhyd : hydrated? x = some (op.id, op.deviceId, kind) := hydrated?_eq_some.mpr
    ⟨hxid, h.named op hop, hj.deviceId.trans (congrArg some hedevice), hdevice, hxkind⟩
  have hrecalls := recalls_hydrateEntries hsurviving op.id
  cases hst : (hydrateEntries es).get? op.id with
  | none =>
    rw [hst] at hrecalls
    exact absurd hhyd (hrecalls x hx _ _)
  | some st =>
    rw [hst] at hrecalls
    refine ⟨(st.close u.now).snapshot, ?_, fun haborted => ?_⟩
    · rw [get?_hydrate hheap hmap, hst]
      rfl
    · -- Closing aborts only what is not known to be dispatched, and nothing aborted was dispatched.
      have hknown := hrecalls.told x hx _ _ hhyd htells
      have hstatus : st.status = .aborted := by
        replace haborted : (st.close u.now).status = .aborted := haborted
        unfold OpState.close at haborted
        split at haborted
        · exact haborted
        · next hopen =>
          split at haborted
          · cases haborted
          · next hnot => simp [hopen, hnot] at hknown
      obtain ⟨y, hy, d, hyhyd⟩ := hrecalls.aborted hstatus
      obtain ⟨e', he'', hj'⟩ := exists_event_of_entry (hsub.subset hy)
      obtain ⟨hyid, -, -, -, hykind⟩ := hydrated?_eq_some.mp hyhyd
      rw [hj'.operationId, Option.some.injEq] at hyid
      rw [hj'.kind, JournalEntryKind.operation.injEq] at hykind
      exact horder.not_aborted hinvoked ⟨e', he'', hyid, hykind⟩

/-- A retry of an operation is deduped when the entry of its request survived. -/
theorem Chronicled.dedupesRetry (h : s.Chronicled) (hcrash : shown <+: s.trace)
    (hsub : es.Sublist (journalOf numText maxPayloadChars shown).entries) {op : LiveOperation}
    (hop : op ∈ s.heap) (hdevice : op.deviceId ≠ []) {r : JournalEntry} (hr : r ∈ es)
    (hrid : r.operationId = some op.id) (hrkind : r.kind = .operation .requested)
    (hfits : ∀ key ∈ op.idempotencyKey,
      Journal.Survives numText (requestedData (op.requestedWith key)) maxPayloadChars)
    {u : OperationManager} (hempty : u.idempotencyStore.tombstones = .empty)
    (hroom : s.keysOf.dedup.length ≤ u.idempotencyStore.maxEntries) :
    (u.hydrate es).DedupesRetry op := by
  intro k hk after v hrun hspares hfresh options randomId hrequest
  obtain ⟨key, hkey, -⟩ := Option.map_eq_some_iff.mp hk
  have hbounds : (u.hydrate es).idempotencyStore.retentionMs = u.idempotencyStore.retentionMs := by
    rw [hydrate_store]
    rfl
  have hnow := now_le_of_run hrun
  rw [hydrate_now] at hnow
  rw [hbounds] at hfresh
  obtain ⟨τ, hτ, hscoped, hle, -, hholds⟩ := h.holds_hydrate hcrash hsub hop hdevice hkey hr hrid
    hrkind (hfits key hkey) hempty hroom (by omega)
  obtain rfl : k = IdempotencyStore.scopedKeyOf τ :=
    Option.some.inj ((show op.scopedKey? = some k from hk).symm.trans hscoped)
  have hholds' := hholds.run hrun hspares (by rw [hbounds]; omega)
  obtain ⟨key', hkey', hk'⟩ := scopedKeyFor_of_request hrequest hk
  refine ⟨τ.operationId, hholds'.begin_ hkey' hk' ?_ randomId⟩
  have hretention := store_bounds_of_run hrun
  rw [hretention.1, hbounds]
  omega

/-- **Dispatched operations are durable as far as the file is.** At every crash point of every run,
and for every part of the journal that reached the file, in whatever order: an operation whose run
was invoked is found, and not as aborted, when an entry that tells of its dispatch or of its outcome
reached the file; and retries of it are deduped when the entry of its request did, its request fits
into an entry, and the new store has room for every key. -/
theorem durable_of_told (numText : ℚ → JsString) (maxPayloadChars : Nat)
    (retentionMs : Int) (maxOperations maxEntries : Nat) (storeRetentionMs now : Int)
    (calls : List Action) (s : OperationManager)
    (hrun : machine.run (new retentionMs maxOperations maxEntries storeRetentionMs now) calls =
      some s)
    (shown : List Effect) (hcrash : shown <+: s.trace) (es stored : List JournalEntry)
    (hsub : es.Sublist (journalOf numText maxPayloadChars shown).entries) (hstored : stored.Perm es)
    (op : LiveOperation) (hop : op ∈ s.heap) (hdevice : op.deviceId ≠ [])
    (hinvoked : Invoked shown op.id)
    (retentionMs' : Int) (maxOperations' maxEntries' : Nat) (storeRetentionMs' now' : Int) :
    ((∃ x ∈ stored, x.operationId = some op.id ∧
        ∃ kind, x.kind = .operation kind ∧ tells kind = true) →
      ((new retentionMs' maxOperations' maxEntries' storeRetentionMs' now').hydrateFrom
        stored).FindsDispatched op) ∧
    ((∃ r ∈ stored, r.operationId = some op.id ∧ r.kind = .operation .requested) →
      (∀ key ∈ op.idempotencyKey,
        Journal.Survives numText (requestedData (op.requestedWith key)) maxPayloadChars) →
      s.keysOf.dedup.length ≤ maxEntries' →
      ((new retentionMs' maxOperations' maxEntries' storeRetentionMs' now').hydrateFrom
        stored).DedupesRetry op) := by
  obtain ⟨-, h⟩ := Chronicled.of_run (Registry.new rfl) (Chronicled.new rfl) hrun
  have hquery := (surviving_of_sublist (h.inOrder.of_prefix hcrash) hsub).query_eq hstored
  rw [hydrateFrom, hquery]
  constructor
  · rintro ⟨x, hx, hxid, kind, hxkind, htells⟩
    exact h.findsDispatched hcrash hsub hop hdevice hinvoked (hstored.subset hx) hxid hxkind htells
      rfl rfl
  · rintro ⟨r, hr, hrid, hrkind⟩ hfits hroom
    exact h.dedupesRetry hcrash hsub hop hdevice (hstored.subset hr) hrid hrkind hfits rfl hroom

/-! ### Two files of one run -/

/-- A run that dispatches an operation with a key. -/
def dispatchedRun : List Action := [.begin_ keyedBlink (js "a"), .microtask 0, .dispatched 0]

/-- The file tells of the dispatch of the operation and of its request, which fits. -/
def toldBy (s : OperationManager) (file : List JournalEntry) (op : LiveOperation) : Bool :=
  op.deviceId ≠ [] &&
    (s.trace.any fun | .invoked id _ => decide (id = op.id) | _ => false) &&
    (file.any fun x => decide (x.operationId = some op.id ∧ x.kind = .operation .started)) &&
    (file.any fun r => decide (r.operationId = some op.id ∧ r.kind = .operation .requested)) &&
    op.idempotencyKey.all fun key =>
      decide (Journal.Survives zeroText (requestedData (op.requestedWith key)) 4096)

theorem toldBy_eq_true {s : OperationManager} {file : List JournalEntry} {op : LiveOperation}
    (h : s.toldBy file op = true) :
    op.deviceId ≠ [] ∧ Invoked s.trace op.id ∧
      (∃ x ∈ file, x.operationId = some op.id ∧
        ∃ kind, x.kind = .operation kind ∧ tells kind = true) ∧
      (∃ r ∈ file, r.operationId = some op.id ∧ r.kind = .operation .requested) ∧
      ∀ key ∈ op.idempotencyKey,
        Journal.Survives zeroText (requestedData (op.requestedWith key)) 4096 := by
  simp only [toldBy, Bool.and_eq_true, decide_eq_true_eq, List.any_eq_true] at h
  obtain ⟨⟨⟨⟨hdevice, y, hy, hinvoked⟩, x, hx, hxid, hxkind⟩, hr⟩, hfits⟩ := h
  refine ⟨hdevice, ?_, ⟨x, hx, hxid, .started, hxkind, rfl⟩, hr, fun key hkey => ?_⟩
  · cases y with
    | invoked id i =>
      obtain rfl : id = op.id := by simpa using hinvoked
      exact ⟨i, hy⟩
    | _ => cases hinvoked
  · simpa [Option.mem_def.mp hkey] using hfits

/-- When both entries reached the file, the later one first, the operation is durable. -/
theorem durable_dispatched :
    ∃ s op, machine.run newDefault dispatchedRun = some s ∧ op ∈ s.heap ∧
      (newDefault.hydrateFrom
        (journalOf zeroText 4096 s.trace).entries.reverse).FindsDispatched op ∧
      (newDefault.hydrateFrom
        (journalOf zeroText 4096 s.trace).entries.reverse).DedupesRetry op := by
  have hview : ((machine.run newDefault dispatchedRun).bind fun s => s.heap.head?.map fun op =>
      s.toldBy (journalOf zeroText 4096 s.trace).entries.reverse op &&
        decide (s.keysOf.dedup.length ≤ 10000)) = some true := by decide +kernel
  obtain ⟨s, hs, hview⟩ := Option.bind_eq_some_iff.mp hview
  obtain ⟨op, hop, hview⟩ := Option.map_eq_some_iff.mp hview
  obtain ⟨htold, hroom⟩ := Bool.and_eq_true_iff.mp hview
  obtain ⟨hdevice, hinvoked, hx, hr, hfits⟩ := toldBy_eq_true htold
  have hop : op ∈ s.heap := List.mem_of_head? hop
  obtain ⟨hfinds, hdedupes⟩ := durable_of_told zeroText 4096 _ _ _ _ _ dispatchedRun s hs s.trace
    (List.prefix_refl _) _ _ (List.Sublist.refl _) (List.reverse_perm _) op hop hdevice hinvoked
    86400000 10000 10000 86400000 0
  exact ⟨s, op, hs, hop, hfinds hx, hdedupes hr hfits (of_decide_eq_true hroom)⟩

/-- **Not every dispatched operation is durable.** When no entry reached the file, the operation is
not found, and a retry with its key starts it again. -/
theorem not_durable_unwritten :
    ∃ s op, machine.run newDefault dispatchedRun = some s ∧ op ∈ s.heap ∧
      Invoked s.trace op.id ∧ op.deviceId ≠ [] ∧
      ¬ (newDefault.hydrateFrom []).FindsDispatched op ∧
      ¬ (newDefault.hydrateFrom []).DedupesRetry op := by
  have hview : ((machine.run newDefault dispatchedRun).bind fun s => s.heap.head?.map fun op =>
      s.toldBy (journalOf zeroText 4096 s.trace).entries op &&
        decide (op.request = keyedBlink.request) && op.scopedKey?.isSome &&
        decide (op.createdAt = 0)) = some true := by
    decide +kernel
  obtain ⟨s, hs, hview⟩ := Option.bind_eq_some_iff.mp hview
  obtain ⟨op, hop, hview⟩ := Option.map_eq_some_iff.mp hview
  simp only [Bool.and_eq_true, decide_eq_true_eq] at hview
  obtain ⟨⟨⟨htold, hrequest⟩, hscoped⟩, hcreated⟩ := hview
  obtain ⟨hdevice, hinvoked, -⟩ := toldBy_eq_true htold
  obtain ⟨k, hk⟩ := Option.isSome_iff_exists.mp hscoped
  refine ⟨s, op, hs, List.mem_of_head? hop, hinvoked, hdevice, ?_, fun hdedupes => ?_⟩
  · rintro ⟨restored, hrestored, -⟩
    cases hrestored
  · have hstale : (newDefault.hydrateFrom []).now - op.createdAt ≤
        (newDefault.hydrateFrom []).idempotencyStore.retentionMs := by
      rw [hcreated]
      decide
    obtain ⟨id, htrace, -⟩ := hdedupes k hk [] _ rfl trivial hstale keyedBlink (js "b")
      hrequest.symm
    -- The retry is not answered with an operation that was there: it reports the one it opens.
    have hlength : ((newDefault.hydrateFrom []).begin_ keyedBlink (js "b")).trace.length =
        (newDefault.hydrateFrom []).trace.length + 2 := by decide +kernel
    rw [htrace, List.length_append] at hlength
    cases hlength

end OperationManager

end Pinout.Operation
