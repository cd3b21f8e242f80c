import Pinout.Operation.Dedupe
import Pinout.Operation.Recovery

/-! # Restarting from entries that survived

What `hydrate` restores from any part of a journal: **surviving** entries are some of the entries of
a manager's journal (`Surviving`). The fold recalls an operation when some entry of it survived, with
the request when the entry of the request did (`Recalls`); a tombstone is restored for every recalled
request with a key, later requests over earlier ones; and as long as nobody evicts it, `begin` finds
it (`Holds`). -/

namespace Pinout.Operation

open Foundation

/-! ## The entries of a journal -/

section Entries

variable (numText : ℚ → JsString) (maxPayloadChars : Nat)

structure Journals (entry : JournalEntry) (e : OperationEvent) : Prop where
  at_eq : entry.at_ = e.at_
  kind : entry.kind = .operation e.kind
  operationId : entry.operationId = some e.operationId
  deviceId : entry.deviceId = some e.deviceId
  payload : entry.payload = Journal.journaledPayload numText e.data maxPayloadChars

structure Precedes (a b : JournalEntry) : Prop where
  sequence : a.sequence < b.sequence
  at_le : a.at_ ≤ b.at_
  first : b.kind = .operation .requested → a.operationId ≠ b.operationId

theorem entries_journalOf_concat (trace : List Effect) (effect : Effect) :
    (∃ e entry, effect = .event e ∧ Journals numText maxPayloadChars entry e ∧
      (journalOf numText maxPayloadChars trace).sequence < entry.sequence ∧
      (journalOf numText maxPayloadChars (trace ++ [effect])).entries =
        (journalOf numText maxPayloadChars trace).entries ++ [entry]) ∨
    (effect.event? = none ∧
      (journalOf numText maxPayloadChars (trace ++ [effect])).entries =
        (journalOf numText maxPayloadChars trace).entries) := by
  cases hevent : effect.event? with
  | none => exact Or.inr ⟨rfl, by rw [journalOf_concat_of_none hevent]⟩
  | some e =>
    cases effect <;> cases hevent
    refine Or.inl ⟨e, entryOf numText (journalOf numText maxPayloadChars trace) e, rfl, ?_,
      Nat.lt_succ_self _, ?_⟩
    · refine ⟨rfl, rfl, rfl, rfl, ?_⟩
      show Journal.journaledPayload numText e.data
        (journalOf numText maxPayloadChars trace).maxPayloadChars = _
      rw [journalOf_maxPayloadChars]
    · rw [journalOf_concat_event]
      rfl

variable {numText maxPayloadChars} {trace : List Effect}

theorem exists_event_of_entry {entry : JournalEntry}
    (h : entry ∈ (journalOf numText maxPayloadChars trace).entries) :
    ∃ e ∈ eventsOf trace, Journals numText maxPayloadChars entry e := by
  induction trace using List.reverseRecOn with
  | nil => cases h
  | append_singleton trace effect ih =>
    rw [eventsOf_append]
    rcases entries_journalOf_concat numText maxPayloadChars trace effect with ⟨e, x, rfl, hx, -, heq⟩ | ⟨-, heq⟩
    · rw [heq] at h
      rcases List.mem_append.mp h with h | h
      · obtain ⟨e', he', hj⟩ := ih h
        exact ⟨e', List.mem_append_left _ he', hj⟩
      · rw [List.mem_singleton.mp h]
        exact ⟨e, by simp, hx⟩
    · rw [heq] at h
      obtain ⟨e', he', hj⟩ := ih h
      exact ⟨e', List.mem_append_left _ he', hj⟩

theorem pairwise_precedes (h : InOrder trace) :
    (journalOf numText maxPayloadChars trace).entries.Pairwise Precedes := by
  induction trace using List.reverseRecOn with
  | nil => exact List.Pairwise.nil
  | append_singleton trace effect ih =>
    obtain ⟨hbefore, heffect⟩ := ordered_concat.mp h
    rcases entries_journalOf_concat numText maxPayloadChars trace effect with ⟨e, x, rfl, hx, hsequence, heq⟩ | ⟨-, heq⟩
    · rw [heq]
      refine List.pairwise_append.mpr ⟨ih hbefore, List.pairwise_singleton _ _, fun a ha b hb => ?_⟩
      rw [List.mem_singleton.mp hb]
      obtain ⟨e', he', hj⟩ := exists_event_of_entry ha
      have hfollows : e.Follows trace := heffect
      refine ⟨(journalOf_numbered.given a ha).trans_lt hsequence, ?_, fun hkind hid => ?_⟩
      · rw [hj.at_eq, hx.at_eq]
        exact hfollows.later e' he'
      · rw [hx.kind, JournalEntryKind.operation.injEq] at hkind
        rw [hj.operationId, hx.operationId, Option.some.injEq] at hid
        exact hfollows.first hkind e' he' hid
    · rw [heq]
      exact ih hbefore

end Entries

/-! ## Entries that survived -/

/-- Entries as a manager journals them, in order, of which any may be missing. -/
structure Surviving (es : List JournalEntry) : Prop where
  inOrder : es.Pairwise Precedes
  silent : ∀ entry ∈ es, entry.kind ≠ .operation .requested →
    ∀ f ∈ entry.payload.getD [], f.1 ∉ requestFields
  kinds : ∀ entry ∈ es, entry.kind ∈ hydrateKinds

theorem surviving_of_sublist {numText : ℚ → JsString} {maxPayloadChars : Nat} {trace : List Effect}
    {es : List JournalEntry} (h : InOrder trace)
    (hsub : es.Sublist (journalOf numText maxPayloadChars trace).entries) : Surviving es where
  inOrder := (pairwise_precedes h).sublist hsub
  silent entry hentry hkind f hf := by
    obtain ⟨e, he, hj⟩ := exists_event_of_entry (hsub.subset hentry)
    obtain ⟨before, after, -, hfollows⟩ := h.of_mem (mem_eventsOf.mp he)
    have hsilent : e.Silent := hfollows.silent fun heq => hkind (by rw [hj.kind, heq])
    rw [hj.payload] at hf
    rcases Journal.mem_journaledPayload numText hf with hname | hname
    · obtain ⟨f', hf', heq⟩ := List.mem_map.mp hname
      rw [← heq]
      exact hsilent f' hf'
    · -- The marker of a truncated payload has other fields.
      have hmarker : ∀ name ∈ [js "truncated", js "originalChars", js "preview"],
          name ∉ requestFields := by decide
      exact hmarker f.1 hname
  kinds entry hentry := kind_mem_hydrateKinds (hsub.subset hentry)

namespace Surviving

variable {es : List JournalEntry}

theorem of_concat {entry : JournalEntry} (h : Surviving (es ++ [entry])) : Surviving es where
  inOrder := (List.pairwise_append.mp h.inOrder).1
  silent e he := h.silent e (List.mem_append_left _ he)
  kinds e he := h.kinds e (List.mem_append_left _ he)

theorem precedes_last {entry : JournalEntry} (h : Surviving (es ++ [entry])) :
    ∀ e ∈ es, Precedes e entry := fun e he =>
  (List.pairwise_append.mp h.inOrder).2.2 e he entry (List.mem_singleton_self _)

/-- `hydrate` sorts the storage and reads what survived in its order, wherever it is stored. -/
theorem query_eq (h : Surviving es) {stored : List JournalEntry} (hperm : stored.Perm es) :
    Journal.query stored { kinds := some hydrateKinds } = es := by
  have hsorted : Journal.sortBySequence stored = es := by
    have hle : es.Pairwise fun a b => a.sequence ≤ b.sequence :=
      h.inOrder.imp fun hab => Nat.le_of_lt hab.sequence
    have hpairwise : (Journal.sortBySequence stored).Pairwise fun a b => a.sequence ≤ b.sequence :=
      List.pairwise_insertionSort (fun a b : JournalEntry => a.sequence ≤ b.sequence) stored
    have hperm' : (Journal.sortBySequence stored).Perm es :=
      (List.perm_insertionSort _ stored).trans hperm
    refine List.Perm.eq_of_pairwise (fun a b ha hb hab hba => ?_) hpairwise hle hperm'
    -- Two entries of one number are the same entry.
    by_contra hne
    have ha' : a ∈ es := hperm'.subset ha
    rcases List.pairwise_iff_getElem.mp h.inOrder with hget
    obtain ⟨i, hi, rfl⟩ := List.mem_iff_getElem.mp ha'
    obtain ⟨j, hj, rfl⟩ := List.mem_iff_getElem.mp hb
    rcases Nat.lt_trichotomy i j with hlt | heq | hgt
    · have := (hget i j hi hj hlt).sequence
      omega
    · subst heq
      exact hne rfl
    · have := (hget j i hj hi hgt).sequence
      omega
  unfold Journal.query
  rw [hsorted]
  show es.filter _ = es
  refine List.filter_eq_self.mpr fun entry hentry => ?_
  simp [JournalQuery.admits, h.kinds entry hentry]

end Surviving

/-! ## What the fold recalls -/

/-- The entries the fold does not skip name an operation and a device. -/
theorem hydrated?_eq_some {entry : JournalEntry} {id deviceId : JsString}
    {kind : OperationEventKind} :
    hydrated? entry = some (id, deviceId, kind) ↔ entry.operationId = some id ∧ id ≠ [] ∧
      entry.deviceId = some deviceId ∧ deviceId ≠ [] ∧ entry.kind = .operation kind := by
  have hkind : entry.kind.operation? = some kind ↔ entry.kind = .operation kind := by
    cases entry.kind <;> simp [JournalEntryKind.operation?]
  simp only [hydrated?, Option.bind_eq_some_iff, Option.map_eq_some_iff, Option.filter_eq_some_iff,
    decide_eq_true_eq, Prod.mk.injEq, ← hkind]
  constructor
  · rintro ⟨o, ⟨ho, ho'⟩, d, ⟨hd, hd'⟩, k, hk, rfl, rfl, rfl⟩
    exact ⟨ho, ho', hd, hd', hk⟩
  · rintro ⟨ho, ho', hd, hd', hk⟩
    exact ⟨id, ⟨ho, ho'⟩, deviceId, ⟨hd, hd'⟩, kind, hk, rfl, rfl, rfl⟩

/-- What the request said: the fields that `receive` does not write. -/
def OpState.request (op : OpState) : JsString × JsString × Option JsString × Option JsString :=
  (op.deviceId, op.capability, op.owner, op.idempotencyKey)

def requestOf (deviceId : JsString) (payload : JsonObject) :
    JsString × JsString × Option JsString × Option JsString :=
  (deviceId, (Json.string? (payload.get? (js "capability"))).getD (js "unknown"),
    Json.string? (payload.get? (js "owner")), Json.string? (payload.get? (js "idempotencyKey")))

theorem receive_request (op : OpState) (kind : OperationEventKind) (now : Int)
    (payload : JsonObject) : (op.receive kind now payload).request = op.request := by
  unfold OpState.receive
  cases kind <;> try rfl
  unfold OpState.reconcile
  dsimp only
  split <;> rfl

theorem receive_createdAt (op : OpState) (kind : OperationEventKind) (now : Int)
    (payload : JsonObject) :
    (op.receive kind now payload).createdAt = if kind = .requested then now else op.createdAt := by
  unfold OpState.receive
  cases kind <;> try rfl
  unfold OpState.reconcile
  dsimp only
  split <;> rfl

theorem get?_eq_none_of_names {o : JsonObject} {key : JsString} (h : ∀ f ∈ o, f.1 ≠ key) :
    o.get? key = none := by
  rw [JsonObject.get?, Option.map_eq_none_iff, List.find?_eq_none]
  exact fun f hf => by simpa using h f hf

theorem identify_of_silent {payload : JsonObject} (h : ∀ f ∈ payload, f.1 ∉ requestFields)
    (op : OpState) : op.identify payload = op := by
  have hnone : ∀ key ∈ requestFields, payload.get? key = none := fun key hkey =>
    get?_eq_none_of_names fun f hf heq => h f hf (heq ▸ hkey)
  have hcapability := hnone (js "capability") (by decide)
  have howner := hnone (js "owner") (by decide)
  have hkey := hnone (js "idempotencyKey") (by decide)
  unfold OpState.identify
  rw [hcapability, howner, hkey]
  rfl

/-- The kinds of entries that tell that an operation was dispatched or has an outcome. -/
def tells : OperationEventKind → Bool
  | .requested | .progress | .uncertain => false
  | _ => true

theorem receive_tells (op : OpState) (kind : OperationEventKind) (now : Int) (payload : JsonObject) :
    ((op.receive kind now payload).hasTerminal || (op.receive kind now payload).hasStarted) =
      (tells kind || (op.hasTerminal || op.hasStarted)) := by
  unfold OpState.receive
  cases kind <;> try rfl
  · simp [tells]
  · unfold OpState.reconcile
    dsimp only
    split <;> simp [tells]

theorem receive_aborted {op : OpState} {kind : OperationEventKind} {now : Int}
    {payload : JsonObject} (h : (op.receive kind now payload).status = .aborted) :
    kind = .aborted ∨ op.status = .aborted := by
  unfold OpState.receive at h
  cases kind with
  | reconciled =>
    unfold OpState.reconcile at h
    dsimp only at h
    split at h <;> cases h
  | aborted => exact Or.inl rfl
  | progress => exact Or.inr h
  | uncertain => exact Or.inr h
  | _ => cases h

/-- What the fold over surviving entries recalls of an operation. -/
structure Recalls (es : List JournalEntry) (id : JsString) (op : OpState) : Prop where
  entry : ∃ entry ∈ es, ∃ deviceId kind, hydrated? entry = some (id, deviceId, kind)
  created : ∃ entry ∈ es, op.createdAt = entry.at_
  /-- If that of its request did, it is recalled as it was requested. -/
  requested : ∀ r ∈ es, ∀ deviceId, hydrated? r = some (id, deviceId, .requested) →
    op.createdAt = r.at_ ∧ op.request = requestOf deviceId (r.payload.getD [])
  keyless : (∀ r ∈ es, ∀ deviceId, hydrated? r ≠ some (id, deviceId, .requested)) →
    op.idempotencyKey = none
  /-- Whether it was dispatched or has an outcome is known when an entry tells. -/
  told : ∀ entry ∈ es, ∀ deviceId kind, hydrated? entry = some (id, deviceId, kind) →
    tells kind = true → (op.hasTerminal || op.hasStarted) = true
  aborted : op.status = .aborted →
    ∃ entry ∈ es, ∃ deviceId, hydrated? entry = some (id, deviceId, .aborted)

variable {es : List JournalEntry} {id deviceId : JsString} {op : OpState} {x : JournalEntry}
  {kind : OperationEventKind}

theorem recalls_first (h : Surviving (es ++ [x])) (hx : hydrated? x = some (id, deviceId, kind))
    (hnone : ∀ entry ∈ es, ∀ d k, hydrated? entry ≠ some (id, d, k)) :
    Recalls (es ++ [x]) id ((newOpState id deviceId x).read kind x) := by
  have hxmem : x ∈ es ++ [x] := by simp
  have honly : ∀ entry ∈ es ++ [x], ∀ d k, hydrated? entry = some (id, d, k) →
      entry = x ∧ d = deviceId ∧ k = kind := by
    intro entry hentry d k heq
    rcases List.mem_append.mp hentry with hentry | hentry
    · exact absurd heq (hnone entry hentry d k)
    · obtain rfl := List.mem_singleton.mp hentry
      rw [hx] at heq
      cases heq
      exact ⟨rfl, rfl, rfl⟩
  have hcreated : ((newOpState id deviceId x).read kind x).createdAt = x.at_ := by
    rw [OpState.read, receive_createdAt]
    split <;> rfl
  constructor
  · exact ⟨x, hxmem, deviceId, kind, hx⟩
  · exact ⟨x, hxmem, hcreated⟩
  · intro r hr d heq
    obtain ⟨rfl, rfl, -⟩ := honly r hr d _ heq
    refine ⟨hcreated, ?_⟩
    rw [OpState.read, receive_request]
    show (d, _, _, _) = requestOf d _
    simp [OpState.identify, newOpState, requestOf]
  · intro hkeyless
    -- An entry that is not of a request has no key.
    have hkind : x.kind ≠ .operation .requested := by
      intro heq
      obtain ⟨hid, hid', hdevice, hdevice', -⟩ := hydrated?_eq_some.mp hx
      exact hkeyless x hxmem deviceId (hydrated?_eq_some.mpr ⟨hid, hid', hdevice, hdevice', heq⟩)
    rw [OpState.read, identify_of_silent (h.silent x hxmem hkind)]
    exact congrArg (·.2.2.2) (receive_request (newOpState id deviceId x) kind x.at_ _)
  · intro entry hentry d k heq htells
    obtain ⟨-, -, rfl⟩ := honly entry hentry d k heq
    rw [OpState.read, receive_tells, htells, Bool.true_or]
  · intro haborted
    rcases receive_aborted haborted with rfl | hstatus
    · exact ⟨x, hxmem, deviceId, hx⟩
    · cases hstatus

theorem Recalls.read (hop : Recalls es id op) (h : Surviving (es ++ [x]))
    (hx : hydrated? x = some (id, deviceId, kind)) : Recalls (es ++ [x]) id (op.read kind x) := by
  have hxmem : x ∈ es ++ [x] := by simp
  obtain ⟨hid, -, -, -, hxkind⟩ := hydrated?_eq_some.mp hx
  -- The operation has an entry already, so this one is not of a request.
  have hkind : kind ≠ .requested := by
    rintro rfl
    obtain ⟨entry, hentry, d, k, heq⟩ := hop.entry
    refine (h.precedes_last entry hentry).first hxkind ?_
    rw [hid]
    exact (hydrated?_eq_some.mp heq).1
  have hxkind' : x.kind ≠ .operation .requested := by
    rw [hxkind]
    exact fun heq => hkind (JournalEntryKind.operation.inj heq)
  have hread : op.read kind x = op.receive kind x.at_ (x.payload.getD []) := by
    rw [OpState.read, identify_of_silent (h.silent x hxmem hxkind')]
  have hrequest : (op.read kind x).request = op.request := by rw [hread, receive_request]
  have hcreated : (op.read kind x).createdAt = op.createdAt := by
    rw [hread, receive_createdAt, if_neg hkind]
  constructor
  · exact ⟨x, hxmem, deviceId, kind, hx⟩
  · obtain ⟨entry, hentry, heq⟩ := hop.created
    exact ⟨entry, List.mem_append_left _ hentry, hcreated.trans heq⟩
  · intro r hr d heq
    rw [hcreated, hrequest]
    rcases List.mem_append.mp hr with hr | hr
    · exact hop.requested r hr d heq
    · rw [List.mem_singleton.mp hr, hx] at heq
      cases heq
      exact absurd rfl hkind
  · intro hkeyless
    rw [show (op.read kind x).idempotencyKey = op.idempotencyKey from congrArg (·.2.2.2) hrequest]
    exact hop.keyless fun r hr => hkeyless r (List.mem_append_left _ hr)
  · intro entry hentry d k heq htells
    rw [hread, receive_tells]
    rcases List.mem_append.mp hentry with hentry | hentry
    · rw [hop.told entry hentry d k heq htells, Bool.or_true]
    · rw [List.mem_singleton.mp hentry, hx] at heq
      cases heq
      rw [htells, Bool.true_or]
  · intro haborted
    rw [hread] at haborted
    rcases receive_aborted haborted with rfl | hstatus
    · exact ⟨x, hxmem, deviceId, hx⟩
    · obtain ⟨entry, hentry, d, heq⟩ := hop.aborted hstatus
      exact ⟨entry, List.mem_append_left _ hentry, d, heq⟩

theorem Recalls.skip (hop : Recalls es id op)
    (hx : ∀ d k, hydrated? x ≠ some (id, d, k)) : Recalls (es ++ [x]) id op := by
  have hold : ∀ entry ∈ es ++ [x], ∀ d k, hydrated? entry = some (id, d, k) → entry ∈ es := by
    intro entry hentry d k heq
    rcases List.mem_append.mp hentry with hentry | hentry
    · exact hentry
    · rw [List.mem_singleton.mp hentry] at heq
      exact absurd heq (hx d k)
  constructor
  · obtain ⟨entry, hentry, hh⟩ := hop.entry
    exact ⟨entry, List.mem_append_left _ hentry, hh⟩
  · obtain ⟨entry, hentry, hh⟩ := hop.created
    exact ⟨entry, List.mem_append_left _ hentry, hh⟩
  · exact fun r hr d heq => hop.requested r (hold r hr d _ heq) d heq
  · exact fun hkeyless => hop.keyless fun r hr => hkeyless r (List.mem_append_left _ hr)
  · exact fun entry hentry d k heq => hop.told entry (hold entry hentry d k heq) d k heq
  · intro haborted
    obtain ⟨entry, hentry, hh⟩ := hop.aborted haborted
    exact ⟨entry, List.mem_append_left _ hentry, hh⟩

/-- **The fold over surviving entries** recalls the operations some entry of which survived. -/
theorem recalls_hydrateEntries (h : Surviving es) (id : JsString) :
    match (hydrateEntries es).get? id with
    | some op => Recalls es id op
    | none => ∀ entry ∈ es, ∀ d k, hydrated? entry ≠ some (id, d, k) := by
  induction es using List.reverseRecOn with
  | nil => simp [hydrateEntries]
  | append_singleton es x ih =>
    specialize ih h.of_concat
    rw [hydrateEntries_concat, get?_hydrateEntry]
    cases hx : hydrated? x with
    | none =>
      dsimp only
      have hskip : ∀ d k, hydrated? x ≠ some (id, d, k) := fun d k heq => by
        rw [hx] at heq
        cases heq
      cases hop : (hydrateEntries es).get? id with
      | none =>
        rw [hop] at ih
        intro entry hentry
        rcases List.mem_append.mp hentry with hentry | hentry
        · exact ih entry hentry
        · rw [List.mem_singleton.mp hentry]
          exact hskip
      | some op =>
        rw [hop] at ih
        exact ih.skip hskip
    | some v =>
      obtain ⟨id', deviceId, kind⟩ := v
      dsimp only
      by_cases hid : id = id'
      · subst hid
        rw [if_pos rfl]
        cases hop : (hydrateEntries es).get? id with
        | none =>
          rw [hop] at ih
          exact recalls_first h hx ih
        | some op =>
          rw [hop] at ih
          exact ih.read h hx
      · rw [if_neg hid]
        have hskip : ∀ d k, hydrated? x ≠ some (id, d, k) := fun d k heq => by
          rw [hx] at heq
          cases heq
          exact hid rfl
        cases hop : (hydrateEntries es).get? id with
        | none =>
          rw [hop] at ih
          intro entry hentry
          rcases List.mem_append.mp hentry with hentry | hentry
          · exact ih entry hentry
          · rw [List.mem_singleton.mp hentry]
            exact hskip
        | some op =>
          rw [hop] at ih
          exact ih.skip hskip

/-- Operations are recalled in the order of their creation. -/
theorem createdAt_sorted (h : Surviving es) :
    ((hydrateEntries es).entries.map fun e => e.2.createdAt).Pairwise (· ≤ ·) := by
  induction es using List.reverseRecOn with
  | nil => exact List.Pairwise.nil
  | append_singleton es x ih =>
    specialize ih h.of_concat
    rw [hydrateEntries_concat, hydrateEntry]
    split
    · next id deviceId kind hx =>
      have hrecalls := recalls_hydrateEntries h.of_concat id
      cases hop : (hydrateEntries es).get? id with
      | some op =>
        -- A known operation keeps its place and the time of its creation.
        rw [hop] at hrecalls
        have hkind : kind ≠ .requested := by
          rintro rfl
          obtain ⟨entry, hentry, d, k, heq⟩ := hrecalls.entry
          obtain ⟨hid, -, -, -, hxkind⟩ := hydrated?_eq_some.mp hx
          refine (h.precedes_last entry hentry).first hxkind ?_
          rw [hid]
          exact (hydrated?_eq_some.mp heq).1
        have hcreated : (op.read kind x).createdAt = op.createdAt := by
          rw [OpState.read, receive_createdAt, if_neg hkind]
          rfl
        rw [Option.getD_some, InsertionMap.map_entries_insert OpState.createdAt hop hcreated]
        exact ih
      | none =>
        -- A new one is the last, and its first entry is the latest.
        rw [Option.getD_none, InsertionMap.entries_insert_of_not_mem hop, List.map_append]
        refine List.pairwise_append.mpr ⟨ih, List.pairwise_singleton _ _, fun a ha b hb => ?_⟩
        rw [List.mem_singleton.mp hb]
        obtain ⟨⟨id', op⟩, hmem, rfl⟩ := List.mem_map.mp ha
        have hrecalls' := recalls_hydrateEntries h.of_concat id'
        rw [InsertionMap.get?_eq_some_iff.mpr hmem] at hrecalls'
        obtain ⟨entry, hentry, heq⟩ := hrecalls'.created
        have hnew : ((newOpState id deviceId x).read kind x).createdAt = x.at_ := by
          rw [OpState.read, receive_createdAt]
          split <;> rfl
        show op.createdAt ≤ ((newOpState id deviceId x).read kind x).createdAt
        rw [hnew, heq]
        exact (h.precedes_last entry hentry).at_le
    · exact ih

/-! ## The tombstones that are restored -/

theorem close_request (op : OpState) (now : Int) : (op.close now).request = op.request := by
  unfold OpState.close
  split
  · rfl
  · split <;> rfl

theorem close_createdAt (op : OpState) (now : Int) : (op.close now).createdAt = op.createdAt := by
  unfold OpState.close
  split
  · rfl
  · split <;> rfl

/-- The tombstones `hydrate` makes. -/
def restorable (es : List JournalEntry) (now : Int) : List IdempotencyTombstone :=
  ((hydrateEntries es).entries.map fun e => e.2.close now).filterMap OpState.tombstone?

theorem tombstone?_eq_some {op : OpState} {τ : IdempotencyTombstone} (h : op.tombstone? = some τ) :
    τ.operationId = op.operationId ∧ τ.createdAt = op.createdAt ∧ τ.idempotencyKey ≠ [] ∧
      (τ.deviceId, τ.capability, τ.owner, some τ.idempotencyKey) = op.request := by
  obtain ⟨key, hkey, rfl⟩ := Option.map_eq_some_iff.mp h
  obtain ⟨hsome, hne⟩ := Option.filter_eq_some_iff.mp hkey
  refine ⟨rfl, rfl, by simpa using hne, ?_⟩
  rw [OpState.request, hsome]

theorem restorable_sorted (h : Surviving es) (now : Int) :
    (restorable es now).Pairwise fun τ τ' => τ.createdAt ≤ τ'.createdAt := by
  have hsorted : ((hydrateEntries es).entries.map fun e => e.2.close now).Pairwise
      fun op op' => op.createdAt ≤ op'.createdAt := by
    have hcreated := createdAt_sorted h
    rw [List.pairwise_map] at hcreated ⊢
    refine hcreated.imp fun hle => ?_
    rw [close_createdAt, close_createdAt]
    exact hle
  refine hsorted.filterMap _ fun op op' hle τ hτ τ' hτ' => ?_
  rw [(tombstone?_eq_some hτ).2.1, (tombstone?_eq_some hτ').2.1]
  exact hle

theorem request_of_restorable (h : Surviving es) {now : Int} {τ : IdempotencyTombstone}
    (hτ : τ ∈ restorable es now) :
    ∃ r ∈ es, ∃ deviceId, hydrated? r = some (τ.operationId, deviceId, .requested) ∧
      τ.createdAt = r.at_ ∧ τ.idempotencyKey ≠ [] ∧
      (τ.deviceId, τ.capability, τ.owner, some τ.idempotencyKey) =
        requestOf deviceId (r.payload.getD []) := by
  obtain ⟨closed, hclosed, htombstone⟩ := List.mem_filterMap.mp hτ
  obtain ⟨⟨id, op⟩, hop, rfl⟩ := List.mem_map.mp hclosed
  have hget : (hydrateEntries es).get? id = some op := InsertionMap.get?_eq_some_iff.mpr hop
  have hrecalls := recalls_hydrateEntries h id
  rw [hget] at hrecalls
  obtain ⟨hid, hcreated, hne, hrequest⟩ := tombstone?_eq_some htombstone
  rw [close_operationId, hydrateEntries_operationId hget] at hid
  rw [close_createdAt] at hcreated
  rw [close_request] at hrequest
  -- Without the entry of the request there would be no key.
  have hexists : ∃ r ∈ es, ∃ deviceId, hydrated? r = some (id, deviceId, .requested) := by
    by_contra hnone
    push Not at hnone
    have hkey : op.idempotencyKey = some τ.idempotencyKey := (congrArg (·.2.2.2) hrequest).symm
    rw [hrecalls.keyless hnone] at hkey
    cases hkey
  obtain ⟨r, hr, deviceId, hhyd⟩ := hexists
  obtain ⟨hcreated', hrequest'⟩ := hrecalls.requested r hr deviceId hhyd
  exact ⟨r, hr, deviceId, hid ▸ hhyd, hcreated.trans hcreated', hne, hrequest.trans hrequest'⟩

/-- A request with a key whose entry survived has its tombstone restored. -/
theorem restorable_of_request (h : Surviving es) (now : Int) {r : JournalEntry} {key : JsString}
    (hr : r ∈ es) (hhyd : hydrated? r = some (id, deviceId, .requested))
    (hkey : (requestOf deviceId (r.payload.getD [])).2.2.2 = some key) (hne : key ≠ []) :
    ∃ τ ∈ restorable es now, τ.operationId = id ∧ τ.createdAt = r.at_ ∧
      (τ.deviceId, τ.capability, τ.owner, some τ.idempotencyKey) =
        requestOf deviceId (r.payload.getD []) := by
  have hrecalls := recalls_hydrateEntries h id
  cases hop : (hydrateEntries es).get? id with
  | none =>
    rw [hop] at hrecalls
    exact absurd hhyd (hrecalls r hr deviceId _)
  | some op =>
    rw [hop] at hrecalls
    obtain ⟨hcreated, hrequest⟩ := hrecalls.requested r hr deviceId hhyd
    have hclosed : (op.close now).request = requestOf deviceId (r.payload.getD []) := by
      rw [close_request, hrequest]
    have hsome : (op.close now).idempotencyKey = some key := (congrArg (·.2.2.2) hclosed).trans hkey
    have htombstone : ∃ τ, (op.close now).tombstone? = some τ := by
      simp [OpState.tombstone?, hsome, Option.filter, hne]
    obtain ⟨τ, hτ⟩ := htombstone
    obtain ⟨hid, hcreated', -, hrequest'⟩ := tombstone?_eq_some hτ
    refine ⟨τ, ?_, ?_, ?_, hrequest'.trans hclosed⟩
    · refine List.mem_filterMap.mpr ⟨op.close now, ?_, hτ⟩
      exact List.mem_map_of_mem (f := fun e : JsString × OpState => e.2.close now)
        (InsertionMap.get?_eq_some_iff.mp hop)
    · rw [hid, close_operationId, hydrateEntries_operationId hop]
    · rw [hcreated', close_createdAt, hcreated]

/-! ## Importing them -/

namespace IdempotencyStore

/-- The tombstones after an import, before anything is evicted. -/
def imported (store : IdempotencyStore) (now : Int) (l : List IdempotencyTombstone) :
    InsertionMap JsString IdempotencyTombstone :=
  l.foldl (fun tombstones (tombstone : IdempotencyTombstone) =>
    if now - tombstone.createdAt ≤ store.retentionMs then
      tombstones.insert (scopedKeyOf tombstone) tombstone
    else tombstones) store.tombstones

variable {store : IdempotencyStore} {now : Int} {l : List IdempotencyTombstone}

theorem imported_concat (τ : IdempotencyTombstone) :
    store.imported now (l ++ [τ]) =
      if now - τ.createdAt ≤ store.retentionMs then
        (store.imported now l).insert (scopedKeyOf τ) τ
      else store.imported now l := by
  rw [imported, List.foldl_append]
  rfl

theorem mem_keys_imported (hempty : store.tombstones = .empty) :
    ∀ k ∈ (store.imported now l).entries.map Prod.fst, k ∈ l.map scopedKeyOf := by
  induction l using List.reverseRecOn with
  | nil =>
    intro k hk
    rw [imported, List.foldl_nil, hempty] at hk
    cases hk
  | append_singleton l τ ih =>
    intro k hk
    rw [List.map_append, List.mem_append]
    rw [imported_concat] at hk
    split at hk
    · rcases InsertionMap.mem_keys_insert.mp hk with rfl | hk
      · exact Or.inr (List.mem_singleton_self _)
      · exact Or.inl (ih k hk)
    · exact Or.inl (ih k hk)

/-- What is imported under the key of a tombstone within retention is that, or a later one. -/
theorem get?_imported (hsorted : l.Pairwise fun τ τ' => τ.createdAt ≤ τ'.createdAt)
    {τ : IdempotencyTombstone} (hτ : τ ∈ l) (hfresh : now - τ.createdAt ≤ store.retentionMs) :
    ∃ τ' ∈ l, (store.imported now l).get? (scopedKeyOf τ) = some τ' ∧
      scopedKeyOf τ' = scopedKeyOf τ ∧ τ.createdAt ≤ τ'.createdAt ∧
      now - τ'.createdAt ≤ store.retentionMs := by
  induction l using List.reverseRecOn with
  | nil => cases hτ
  | append_singleton l τ₁ ih =>
    obtain ⟨hbefore, -, hlast⟩ := List.pairwise_append.mp hsorted
    rw [imported_concat]
    by_cases hself : now - τ₁.createdAt ≤ store.retentionMs ∧ scopedKeyOf τ₁ = scopedKeyOf τ
    · -- The last one replaces whatever was there.
      obtain ⟨hfresh₁, hkey⟩ := hself
      rw [if_pos hfresh₁, hkey]
      refine ⟨τ₁, by simp, InsertionMap.get?_insert_self _ _ _, hkey, ?_, hfresh₁⟩
      rcases List.mem_append.mp hτ with hτ | hτ
      · exact hlast τ hτ τ₁ (List.mem_singleton_self _)
      · rw [List.mem_singleton.mp hτ]
    · have hτ' : τ ∈ l := by
        rcases List.mem_append.mp hτ with hτ | hτ
        · exact hτ
        · obtain rfl := List.mem_singleton.mp hτ
          exact absurd ⟨hfresh, rfl⟩ hself
      obtain ⟨τ', hmem, hget, hrest⟩ := ih hbefore hτ'
      refine ⟨τ', List.mem_append_left _ hmem, ?_, hrest⟩
      split
      · next hfresh₁ =>
        refine (InsertionMap.get?_insert_of_ne _ _ fun heq => ?_).trans hget
        exact hself ⟨hfresh₁, heq.symm⟩
      · exact hget

theorem hydrate_tombstones (now : Int) (hempty : store.tombstones = .empty)
    (hroom : (l.map scopedKeyOf).dedup.length ≤ store.maxEntries) :
    (store.hydrate l now).tombstones.entries = (store.imported now l).entries := by
  have hsize : (store.imported now l).entries.length ≤ store.maxEntries :=
    (InsertionMap.size_le_of_subset (mem_keys_imported hempty)).trans hroom
  show dropOverflow store.maxEntries (store.imported now l).entries = _
  exact dropOverflow_of_le hsize

end IdempotencyStore

/-! ## A tombstone that is kept -/

namespace OperationManager

variable {s t u : OperationManager} {a : Action} {k : JsString} {c : Int}

/-- The tombstone under a key is of the operation, created then. -/
def Holds (s : OperationManager) (k id : JsString) (c : Int) : Prop :=
  ∃ τ, s.idempotencyStore.tombstones.get? k = some τ ∧ τ.operationId = id ∧ τ.createdAt = c

/-- The step neither removes the tombstone under a key nor evicts it. -/
def SparesKey (k : JsString) (s : OperationManager) : Action → Prop
  | .removeKey deviceId capability owner key =>
    IdempotencyStore.keyFor deviceId capability owner key ≠ k
  | .begin_ options _ => ∀ key ∈ options.key?,
      (s.idempotencyStore.lookup (scopedKeyFor options key) s.now).2 = none →
        k ∉ (s.idempotencyStore.lookup (scopedKeyFor options key) s.now).1.overflowing
  | _ => True

theorem store_bounds_of_step (hs : s.step a = some t) :
    t.idempotencyStore.retentionMs = s.idempotencyStore.retentionMs ∧
      t.idempotencyStore.maxEntries = s.idempotencyStore.maxEntries := by
  have hlookup : ∀ (store : IdempotencyStore) (scopedKey : JsString) (now : Int),
      (store.lookup scopedKey now).1.retentionMs = store.retentionMs ∧
        (store.lookup scopedKey now).1.maxEntries = store.maxEntries := fun store scopedKey now =>
    ⟨store.lookup_retentionMs scopedKey now, store.lookup_maxEntries scopedKey now⟩
  have hpatch : ∀ (op : LiveOperation) (patch : TombstonePatch),
      (s.patchStore op patch).idempotencyStore.retentionMs = s.idempotencyStore.retentionMs ∧
        (s.patchStore op patch).idempotencyStore.maxEntries = s.idempotencyStore.maxEntries := by
    intro op patch
    unfold patchStore
    cases op.scopedKey? with
    | none => exact ⟨rfl, rfl⟩
    | some scopedKey =>
      simp only [Option.elim_some, IdempotencyStore.updateUnder]
      split <;> exact ⟨rfl, rfl⟩
  cases steps_of_step hs with
  | tick => exact ⟨rfl, rfl⟩
  | unchanged => exact ⟨rfl, rfl⟩
  | answered _ => exact ⟨rfl, rfl⟩
  | lookedUp => exact hlookup _ _ _
  | removed => exact ⟨rfl, rfl⟩
  | @deduped options randomId key store tombstone _ hstore _ =>
    have hbounds := hlookup s.idempotencyStore (scopedKeyFor options key) s.now
    rwa [hstore] at hbounds
  | @restored options randomId key store tombstone _ hstore _ =>
    have hbounds := hlookup s.idempotencyStore (scopedKeyFor options key) s.now
    rwa [hstore] at hbounds
  | @opened options randomId store hstore =>
    rcases hstore with ⟨hkey, rfl⟩ | ⟨key, hkey, hstore⟩
    · rw [openNew_store_of_none hkey]
      exact ⟨rfl, rfl⟩
    · rw [openNew_store_of_some hkey]
      have hbounds := hlookup s.idempotencyStore (scopedKeyFor options key) s.now
      rwa [hstore] at hbounds
  | registered _ _ _ => exact ⟨rfl, rfl⟩
  | cancelling _ _ _ _ => exact ⟨rfl, rfl⟩
  | advanced _ _ => exact ⟨rfl, rfl⟩
  | dispatched _ _ => exact ⟨rfl, rfl⟩
  | reported _ _ _ => exact ⟨rfl, rfl⟩
  | @concluded _ address _ op' c answers _ _ _ =>
    rw [show ((s.conclude address op' c).answerAll answers).idempotencyStore = _ from
      conclude_store _ _ _]
    exact hpatch _ _
  | reconciled _ _ _ =>
    rw [reconcileAt_store]
    exact hpatch _ _

theorem now_le_of_step (hs : s.step a = some t) : s.now ≤ t.now := by
  cases steps_of_step hs with
  | @tick ms => exact Int.le_add_of_nonneg_right (Int.natCast_nonneg ms)
  | @concluded _ address _ op' c answers _ _ _ =>
    exact le_of_eq (conclude_now (s := s) address op' c).symm
  | reconciled _ _ _ => rw [reconcileAt_now]
  | _ => exact le_refl _

theorem now_le_of_run {calls : List Action} (hrun : machine.run s calls = some t) :
    s.now ≤ t.now := by
  induction calls generalizing s with
  | nil =>
    obtain rfl : s = t := by simpa using hrun
    exact le_refl _
  | cons a calls ih =>
    obtain ⟨m, hm, hrest⟩ := machine.run_cons_eq_some.mp hrun
    exact (now_le_of_step hm).trans (ih hrest)

theorem store_bounds_of_run {calls : List Action} (hrun : machine.run s calls = some t) :
    t.idempotencyStore.retentionMs = s.idempotencyStore.retentionMs ∧
      t.idempotencyStore.maxEntries = s.idempotencyStore.maxEntries := by
  induction calls generalizing s with
  | nil =>
    obtain rfl : s = t := by simpa using hrun
    exact ⟨rfl, rfl⟩
  | cons a calls ih =>
    obtain ⟨m, hm, hrest⟩ := machine.run_cons_eq_some.mp hrun
    obtain ⟨hretention, hmax⟩ := store_bounds_of_step hm
    obtain ⟨hretention', hmax'⟩ := ih hrest
    exact ⟨hretention'.trans hretention, hmax'.trans hmax⟩

theorem Holds.of_get? (h : s.Holds k id c)
    (hstore : ∀ τ, s.idempotencyStore.tombstones.get? k = some τ → ∃ τ',
      t.idempotencyStore.tombstones.get? k = some τ' ∧ τ'.operationId = τ.operationId ∧
        τ'.createdAt = τ.createdAt) : t.Holds k id c := by
  obtain ⟨τ, hτ, hid, hcreated⟩ := h
  obtain ⟨τ', hτ', hid', hcreated'⟩ := hstore τ hτ
  exact ⟨τ', hτ', hid'.trans hid, hcreated'.trans hcreated⟩

/-- **Step lemma.** A tombstone within retention is kept by a step that spares it. -/
theorem Holds.step (h : s.Holds k id c) (hs : s.step a = some t) (hspares : s.SparesKey k a)
    (hfresh : s.now - c ≤ s.idempotencyStore.retentionMs) : t.Holds k id c := by
  have hsame : t.idempotencyStore = s.idempotencyStore → t.Holds k id c := fun heq =>
    h.of_get? fun τ hτ => ⟨τ, heq ▸ hτ, rfl, rfl⟩
  have hcreated : ∀ τ, s.idempotencyStore.tombstones.get? k = some τ → τ.createdAt = c := by
    intro τ hτ
    obtain ⟨τ', hτ', -, hc⟩ := h
    rw [← Option.some.inj (hτ.symm.trans hτ')] at hc
    exact hc
  -- A lookup touches it, and does not find it expired.
  have hlookup : ∀ scopedKey τ, s.idempotencyStore.tombstones.get? k = some τ → ∃ lastUsedAt,
      (s.idempotencyStore.lookup scopedKey s.now).1.tombstones.get? k =
        some { τ with lastUsedAt := lastUsedAt } := by
    intro scopedKey τ hτ
    refine IdempotencyStore.get?_lookup_touched s.now hτ fun _ => ?_
    unfold IdempotencyStore.expired
    rw [hcreated τ hτ]
    exact decide_eq_false (not_lt.mpr hfresh)
  have hpatch : ∀ (op : LiveOperation) (patch : TombstonePatch),
      t.idempotencyStore = (s.patchStore op patch).idempotencyStore → t.Holds k id c := by
    refine fun op patch heq => h.of_get? fun τ hτ => ?_
    rw [heq, get?_patchStore, hτ]
    split <;> exact ⟨_, rfl, rfl, rfl⟩
  cases steps_of_step hs with
  | tick => exact hsame rfl
  | unchanged => exact hsame rfl
  | answered _ => exact hsame rfl
  | @lookedUp deviceId capability owner key =>
    refine h.of_get? fun τ hτ => ?_
    obtain ⟨lastUsedAt, hget⟩ :=
      hlookup (IdempotencyStore.keyFor deviceId capability owner key) τ hτ
    exact ⟨_, hget, rfl, rfl⟩
  | removed =>
    refine h.of_get? fun τ hτ => ⟨τ, ?_, rfl, rfl⟩
    exact (InsertionMap.get?_erase_of_ne _ (Ne.symm hspares)).trans hτ
  | @deduped options randomId key store tombstone hkey hstore hin =>
    refine h.of_get? fun τ hτ => ?_
    obtain ⟨lastUsedAt, hget⟩ := hlookup (scopedKeyFor options key) τ hτ
    rw [hstore] at hget
    exact ⟨_, hget, rfl, rfl⟩
  | @restored options randomId key store tombstone hkey hstore hout =>
    refine h.of_get? fun τ hτ => ?_
    obtain ⟨lastUsedAt, hget⟩ := hlookup (scopedKeyFor options key) τ hτ
    rw [hstore] at hget
    exact ⟨_, hget, rfl, rfl⟩
  | @opened options randomId store hstore =>
    rcases hstore with ⟨hkey, rfl⟩ | ⟨key, hkey, hstore⟩
    · exact hsame (openNew_store_of_none hkey randomId)
    · -- The lookup missed, so the new operation is recorded under another key.
      refine h.of_get? fun τ hτ => ?_
      obtain ⟨lastUsedAt, hget⟩ := hlookup (scopedKeyFor options key) τ hτ
      have hmiss := @IdempotencyStore.get?_lookup_self s.idempotencyStore
        (scopedKeyFor options key) s.now
      have hout := hspares key hkey
      rw [hstore] at hget hmiss hout
      rw [openNew_store_of_some hkey]
      exact ⟨_, IdempotencyStore.recordUnder_get?_of_ne hmiss hget (hout rfl), rfl, rfl⟩
  | registered _ _ _ => exact hsame rfl
  | cancelling _ _ _ _ => exact hsame rfl
  | advanced _ _ => exact hsame rfl
  | dispatched _ _ => exact hsame rfl
  | reported _ _ _ => exact hsame rfl
  | concluded _ _ _ => exact hpatch _ _ (conclude_store _ _ _)
  | reconciled _ _ _ => exact hpatch _ _ (reconcileAt_store _ _ _)

/-- **Run lemma.** A tombstone is kept by a run that spares it and ends within its retention. -/
theorem Holds.run {calls : List Action} (h : s.Holds k id c) (hrun : machine.run s calls = some t)
    (hspares : machine.Guarded (SparesKey k) s calls)
    (hfresh : t.now - c ≤ s.idempotencyStore.retentionMs) : t.Holds k id c := by
  induction calls generalizing s with
  | nil =>
    obtain rfl : s = t := by simpa using hrun
    exact h
  | cons a calls ih =>
    obtain ⟨m, hm, hrest⟩ := machine.run_cons_eq_some.mp hrun
    obtain ⟨hspare, hspares⟩ := Machine.Guarded.of_cons hspares hm
    have hle : s.now ≤ t.now := (now_le_of_step hm).trans (now_le_of_run hrest)
    refine ih (h.step hm hspare ?_) hrest hspares ?_
    · omega
    · rw [(store_bounds_of_step hm).1]
      exact hfresh

/-- `begin` is answered with the operation whose tombstone is kept, and starts nothing. -/
theorem Holds.begin_ (h : s.Holds k id c) {options : BeginOperationOptions} {key : JsString}
    (hkey : options.key? = some key) (hk : scopedKeyFor options key = k)
    (hfresh : s.now - c ≤ s.idempotencyStore.retentionMs) (randomId : JsString) :
    (s.begin_ options randomId).trace = s.trace ++ [.began true id] ∧
      ∀ o ∈ (s.begin_ options randomId).heap, o.phase.isUnfinished = true → o ∈ s.heap := by
  obtain ⟨τ, hτ, rfl, hcreated⟩ := h
  subst hk
  have hhit : (s.idempotencyStore.lookup (scopedKeyFor options key) s.now).2 =
      some { τ with lastUsedAt := s.now } := by
    refine IdempotencyStore.lookup_eq_some.mpr ⟨τ, hτ, ?_, rfl⟩
    unfold IdempotencyStore.expired
    rw [hcreated]
    exact decide_eq_false (not_lt.mpr hfresh)
  obtain ⟨store, hlookup⟩ : ∃ store,
      s.idempotencyStore.lookup (scopedKeyFor options key) s.now =
        (store, some { τ with lastUsedAt := s.now }) := ⟨_, Prod.ext rfl hhit⟩
  have hbegin : s.begin_ options randomId =
      ({ s with idempotencyStore := store } : OperationManager).dedupe
        { τ with lastUsedAt := s.now } := by
    unfold OperationManager.begin_
    rw [hkey]
    dsimp only
    rw [hlookup]
  rw [hbegin, dedupe]
  split
  · exact ⟨rfl, fun o ho _ => ho⟩
  · refine ⟨rfl, fun o ho hphase => ?_⟩
    rcases List.mem_append.mp ho with ho | ho
    · exact ho
    · -- What is restored is not started.
      rw [List.mem_singleton.mp ho] at hphase
      cases hphase

/-! ## After hydration -/

theorem hydrate_store (s : OperationManager) (es : List JournalEntry) :
    (s.hydrate es).idempotencyStore =
      s.idempotencyStore.hydrate (restorable es s.now) s.now := by
  have hstore : ∀ (l : List OpState) (s : OperationManager),
      (l.foldl restoreOperation s).idempotencyStore = s.idempotencyStore := by
    intro l
    induction l with
    | nil => exact fun _ => rfl
    | cons op l ih => exact fun s => ih (s.restoreOperation op)
  show IdempotencyStore.hydrate (List.foldl restoreOperation s _).idempotencyStore _ s.now = _
  rw [hstore]
  rfl

theorem hydrate_now (s : OperationManager) (es : List JournalEntry) :
    (s.hydrate es).now = s.now := by
  have hnow : ∀ (l : List OpState) (s : OperationManager),
      (l.foldl restoreOperation s).now = s.now := by
    intro l
    induction l with
    | nil => exact fun _ => rfl
    | cons op l ih => exact fun s => ih (s.restoreOperation op)
  exact hnow _ s

end OperationManager

end Pinout.Operation
