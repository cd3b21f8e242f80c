import Pinout.Operation.Chronicle
import Pinout.Operation.Hydrate
import Pinout.Operation.Terminal

/-! # Crash recovery

A manager journals every event it shows. After a crash, a new manager hydrates from what was
journaled up to then, and **recovers** every operation when it finds it with the status of its last
terminal event, as requiring reconciliation when it was started and has none, and as aborted only
when its run was not invoked (`Recovers`). It does at every crash point of a run in which the
continuations of `start` find their operation live, every device has a name, and reconciliations fit
into the journal (`Recoverable`). -/

namespace Pinout.Operation

open Foundation

/-! ## The journal of a trace -/

section Journaling

variable (numText : ℚ → JsString) (maxPayloadChars : Nat)

/-- `emit` appends an event to the journal. -/
def journalEvent (j : Journal) (e : OperationEvent) : Journal :=
  j.append numText (.operation e.kind) (some e.deviceId) (some e.operationId) e.data e.at_

/-- The journal of a manager that has shown the trace. -/
def journalOf (trace : List Effect) : Journal :=
  (eventsOf trace).foldl (journalEvent numText) { maxPayloadChars }

def entryOf (j : Journal) (e : OperationEvent) : JournalEntry :=
  j.nextEntry numText (.operation e.kind) (some e.deviceId) (some e.operationId) e.data e.at_

variable {numText maxPayloadChars} {trace : List Effect}

theorem journalOf_concat_event (e : OperationEvent) :
    journalOf numText maxPayloadChars (trace ++ [.event e]) =
      journalEvent numText (journalOf numText maxPayloadChars trace) e := by
  rw [journalOf, eventsOf_append, List.foldl_append]
  rfl

theorem journalOf_concat_of_none {effect : Effect} (h : effect.event? = none) :
    journalOf numText maxPayloadChars (trace ++ [effect]) =
      journalOf numText maxPayloadChars trace := by
  rw [journalOf, eventsOf_append, eventsOf_singleton_of_none h, List.append_nil]
  rfl

theorem journalOf_maxPayloadChars :
    (journalOf numText maxPayloadChars trace).maxPayloadChars = maxPayloadChars := by
  induction trace using List.reverseRecOn with
  | nil => rfl
  | append_singleton trace effect ih =>
    cases heffect : effect.event? with
    | none => rw [journalOf_concat_of_none heffect, ih]
    | some e =>
      cases effect <;> cases heffect
      rw [journalOf_concat_event]
      exact ih

theorem journalOf_numbered : (journalOf numText maxPayloadChars trace).Numbered := by
  induction trace using List.reverseRecOn with
  | nil => exact Journal.numbered_empty rfl
  | append_singleton trace effect ih =>
    cases heffect : effect.event? with
    | none => rw [journalOf_concat_of_none heffect]; exact ih
    | some e =>
      cases effect <;> cases heffect
      rw [journalOf_concat_event]
      exact ih.append numText _ _ _ _ _

theorem kind_mem_hydrateKinds {entry : JournalEntry}
    (h : entry ∈ (journalOf numText maxPayloadChars trace).entries) :
    entry.kind ∈ hydrateKinds := by
  induction trace using List.reverseRecOn with
  | nil => cases h
  | append_singleton trace effect ih =>
    cases heffect : effect.event? with
    | none => rw [journalOf_concat_of_none heffect] at h; exact ih h
    | some e =>
      cases effect <;> cases heffect
      rw [journalOf_concat_event] at h
      rcases List.mem_append.mp h with h | h
      · exact ih h
      · rw [List.mem_singleton.mp h]
        show JournalEntryKind.operation e.kind ∈ hydrateKinds
        cases e.kind <;> decide

theorem query_journalOf :
    Journal.query (journalOf numText maxPayloadChars trace).entries { kinds := some hydrateKinds } =
      (journalOf numText maxPayloadChars trace).entries := by
  refine Journal.query_eq_self rfl (journalOf_numbered.increasing.imp Nat.le_of_lt) ?_
  intro entry hentry
  simp [JournalQuery.admits, kind_mem_hydrateKinds hentry]

/-- The entry of an event that names its operation and its device is not skipped. -/
theorem hydrated?_entryOf {j : Journal} {e : OperationEvent} (hid : e.operationId ≠ [])
    (hdevice : e.deviceId ≠ []) :
    hydrated? (entryOf numText j e) = some (e.operationId, e.deviceId, e.kind) := by
  simp [hydrated?, entryOf, Journal.nextEntry, Option.filter, hid, hdevice,
    JournalEntryKind.operation?]

end Journaling

/-! ## What the events call for -/

def OperationEvent.reports? (e : OperationEvent) : Option OperationStatus :=
  match e.kind with
  | .requested | .started | .progress => none
  | .completed => some .completed
  | .failed => some .failed
  | .cancelled => some .cancelled
  | .timedOut => some .timedOut
  | .rejected => some .rejected
  | .reconciled => match resolution? e.data with
    | some .observedComplete => some .completed
    | some .observedNotDone => some .cancelled
    | _ => some .failed
  | .uncertain => some .requiresReconciliation
  | .aborted => some .aborted
  | .stopUnconfirmed => some .stopUnconfirmed

/-- How a reconciliation event says the operation was reconciled. -/
def OperationEvent.resolution? (e : OperationEvent) : Option (Option ReconciliationResolution) :=
  if e.kind = .reconciled then some (Operation.resolution? e.data) else none

/-- The last thing the events say of an operation. -/
def lastOf {β : Type} (f : OperationEvent → Option β) (events : List OperationEvent)
    (id : JsString) : Option β :=
  events.reverse.findSome? fun e => if e.operationId = id then f e else none

section LastOf

variable {β : Type} {f : OperationEvent → Option β} {events : List OperationEvent} {id : JsString}
  {e : OperationEvent}

theorem lastOf_concat (hid : e.operationId = id) :
    lastOf f (events ++ [e]) id = (f e).or (lastOf f events id) := by
  rw [lastOf, List.reverse_append, List.reverse_singleton, List.singleton_append,
    List.findSome?_cons, if_pos hid]
  cases f e <;> rfl

theorem lastOf_concat_of_ne (hid : e.operationId ≠ id) :
    lastOf f (events ++ [e]) id = lastOf f events id := by
  rw [lastOf, List.reverse_append, List.reverse_singleton, List.singleton_append,
    List.findSome?_cons, if_neg hid]
  rfl

/-- Nothing is said of an operation of which no event says anything. -/
theorem lastOf_eq_none (h : ∀ e ∈ events, e.operationId = id → f e = none) :
    lastOf f events id = none := by
  refine List.findSome?_eq_none_iff.mpr fun e he => ?_
  split
  · next hid => exact h e (List.mem_reverse.mp he) hid
  · rfl

theorem exists_of_lastOf {b : β} (h : lastOf f events id = some b) :
    ∃ e ∈ events, e.operationId = id ∧ f e = some b := by
  obtain ⟨e, he, heq⟩ := List.exists_of_findSome?_eq_some h
  split at heq
  · next hid => exact ⟨e, List.mem_reverse.mp he, hid, heq⟩
  · cases heq

end LastOf

theorem OperationEvent.terminal_of_reports {e : OperationEvent} {status : OperationStatus}
    (h : e.reports? = some status) : status.isTerminal = true := by
  unfold OperationEvent.reports? at h
  cases hkind : e.kind with
  | reconciled =>
    rw [hkind] at h
    dsimp only at h
    split at h <;> cases h <;> rfl
  | _ =>
    rw [hkind] at h
    cases h <;> rfl

/-- The status the events call for: that of the last terminal event; without one, that of an
operation whose outcome is unknown when it was started, and else that of one that never ran. -/
def recoveredStatus (events : List OperationEvent) (id : JsString) : OperationStatus :=
  (lastOf OperationEvent.reports? events id).getD
    (if ∃ e ∈ events, e.operationId = id ∧ e.kind = .started then .requiresReconciliation
      else .aborted)

/-- What a manager has recovered when it hydrated from the events shown before a crash. -/
structure Recovers (shown : List Effect) (s : OperationManager) : Prop where
  restored : ∀ e ∈ eventsOf shown, (s.get? e.operationId).isSome = true
  journaled : ∀ id op, s.get? id = some op → ∃ e ∈ eventsOf shown, e.operationId = id
  status : ∀ id op, s.get? id = some op → op.status = recoveredStatus (eventsOf shown) id
  terminal : ∀ id op, s.get? id = some op → op.status.isTerminal = true
  /-- A reconciled operation is recovered as it was reconciled. -/
  reconciled : ∀ id op, s.get? id = some op → op.reconciliation.map ReconciliationRecord.resolution =
    lastOf OperationEvent.resolution? (eventsOf shown) id
  aborted : ∀ id op, s.get? id = some op → op.status = .aborted → ¬ Invoked shown id

/-! ## Reading the events -/

section Reading

variable (numText : ℚ → JsString) (maxPayloadChars : Nat)

/-- What the state of an operation in the fold has from its events. -/
structure Reads (events : List OperationEvent) (id : JsString) (op : OpState) : Prop where
  started : op.hasStarted = true ↔ ∃ e ∈ events, e.operationId = id ∧ e.kind = .started
  /-- Its status is the last one reported, unless that is uncertain. -/
  status : (op.hasTerminal = true ∧ lastOf OperationEvent.reports? events id = some op.status) ∨
    (op.hasTerminal = false ∧ (lastOf OperationEvent.reports? events id = none ∨
      (lastOf OperationEvent.reports? events id = some .requiresReconciliation ∧
        op.hasStarted = true)))
  reconciled : op.reconciliation.map ReconciliationRecord.resolution =
    lastOf OperationEvent.resolution? events id

/-- How an event that can be recovered from stands to the events before it. -/
structure OperationEvent.Settles (e : OperationEvent) (before : List OperationEvent) : Prop where
  named : e.operationId ≠ [] ∧ e.deviceId ≠ []
  /-- Nothing is requested, started or found uncertain that has an outcome. -/
  unreported : e.kind = .requested ∨ e.kind = .started ∨ e.kind = .uncertain →
    ∀ e' ∈ before, e'.operationId = e.operationId → e'.reports? = none
  started : e.kind = .uncertain →
    ∃ e' ∈ before, e'.operationId = e.operationId ∧ e'.kind = .started
  survives : e.kind = .reconciled → Journal.Survives numText e.data maxPayloadChars

variable {numText maxPayloadChars} {events : List OperationEvent} {id : JsString} {op : OpState}
  {e : OperationEvent} {entry : JournalEntry}

/-- The state the fold starts with, when there are no events of the operation yet. -/
theorem reads_newOpState (h : ∀ e ∈ events, e.operationId ≠ id) (deviceId : JsString)
    (entry : JournalEntry) : Reads events id (newOpState id deviceId entry) where
  started := by
    constructor
    · nofun
    · rintro ⟨e, he, hid, -⟩
      exact absurd hid (h e he)
  status := Or.inr ⟨rfl, Or.inl (lastOf_eq_none fun e he hid => absurd hid (h e he))⟩
  reconciled := (lastOf_eq_none fun e he hid => absurd hid (h e he)).symm

theorem Reads.concat_of_ne (h : Reads events id op) (hid : e.operationId ≠ id) :
    Reads (events ++ [e]) id op where
  started := by
    rw [h.started]
    constructor
    · rintro ⟨e', he', hshown⟩
      exact ⟨e', List.mem_append_left _ he', hshown⟩
    · rintro ⟨e', he', hid', hkind⟩
      rcases List.mem_append.mp he' with he' | he'
      · exact ⟨e', he', hid', hkind⟩
      · rw [List.mem_singleton.mp he'] at hid'
        exact absurd hid' hid
  status := by rw [lastOf_concat_of_ne hid]; exact h.status
  reconciled := by rw [lastOf_concat_of_ne hid]; exact h.reconciled

theorem exists_started_concat (hid : e.operationId = id) :
    (∃ e' ∈ events ++ [e], e'.operationId = id ∧ e'.kind = .started) ↔
      e.kind = .started ∨ ∃ e' ∈ events, e'.operationId = id ∧ e'.kind = .started := by
  constructor
  · rintro ⟨e', he', hid', hkind⟩
    rcases List.mem_append.mp he' with he' | he'
    · exact Or.inr ⟨e', he', hid', hkind⟩
    · rw [List.mem_singleton.mp he'] at hkind
      exact Or.inl hkind
  · rintro (hkind | ⟨e', he', hshown⟩)
    · exact ⟨e, by simp, hid, hkind⟩
    · exact ⟨e', List.mem_append_left _ he', hshown⟩

/-- What journaling keeps of a payload that survives is the resolution it names. -/
theorem resolution?_journaled {data : JsonObject}
    (h : Journal.Survives numText data maxPayloadChars) :
    resolution? ((Journal.journaledPayload numText data maxPayloadChars).getD []) =
      resolution? data := by
  rw [Journal.journaledPayload_of_survives numText h]
  unfold resolution?
  rw [Journal.string?_redactPayload rfl]

theorem read_hasStarted (op : OpState) (kind : OperationEventKind) (entry : JournalEntry) :
    (op.read kind entry).hasStarted = (decide (kind = .started) || op.hasStarted) := by
  unfold OpState.read OpState.receive
  cases kind <;> try rfl
  unfold OpState.reconcile
  dsimp only
  split <;> rfl

/-- Reading a reconciliation makes an operation reconciled. -/
theorem read_resolution (he : e.kind = .reconciled → Journal.Survives numText e.data maxPayloadChars)
    (hpayload : entry.payload = Journal.journaledPayload numText e.data maxPayloadChars) :
    (op.read e.kind entry).reconciliation.map ReconciliationRecord.resolution =
      e.resolution?.or (op.reconciliation.map ReconciliationRecord.resolution) := by
  unfold OpState.read OpState.receive OperationEvent.resolution?
  cases hkind : e.kind with
  | reconciled =>
    have hresolution := resolution?_journaled (he hkind)
    unfold OpState.reconcile
    rw [hpayload, hresolution]
    cases Operation.resolution? e.data with
    | none => rfl
    | some resolution => cases resolution <;> rfl
  | _ => rfl

/-- Reading a report other than of uncertainty settles the status. -/
theorem read_reports {status : OperationStatus} (hreports : e.reports? = some status)
    (hkind : e.kind ≠ .uncertain)
    (he : e.kind = .reconciled → Journal.Survives numText e.data maxPayloadChars)
    (hpayload : entry.payload = Journal.journaledPayload numText e.data maxPayloadChars) :
    (op.read e.kind entry).hasTerminal = true ∧ (op.read e.kind entry).status = status := by
  unfold OpState.read OpState.receive
  unfold OperationEvent.reports? at hreports
  cases h : e.kind with
  | requested => rw [h] at hreports; cases hreports
  | started => rw [h] at hreports; cases hreports
  | progress => rw [h] at hreports; cases hreports
  | uncertain => exact absurd h hkind
  | reconciled =>
    have hresolution := resolution?_journaled (he h)
    rw [h] at hreports
    dsimp only at hreports ⊢
    unfold OpState.reconcile
    rw [hpayload, hresolution]
    cases hr : resolution? e.data with
    | none =>
      rw [hr] at hreports
      exact ⟨rfl, Option.some.inj hreports⟩
    | some resolution =>
      rw [hr] at hreports
      cases resolution <;> exact ⟨rfl, Option.some.inj hreports⟩
  | _ =>
    rw [h] at hreports
    exact ⟨rfl, Option.some.inj hreports⟩

theorem kind_of_reports (hreports : e.reports? = none) :
    e.kind = .requested ∨ e.kind = .started ∨ e.kind = .progress := by
  unfold OperationEvent.reports? at hreports
  cases h : e.kind with
  | requested => exact Or.inl rfl
  | started => exact Or.inr (Or.inl rfl)
  | progress => exact Or.inr (Or.inr rfl)
  | reconciled =>
    rw [h] at hreports
    dsimp only at hreports
    split at hreports <;> cases hreports
  | _ =>
    rw [h] at hreports
    cases hreports

/-- Only `operation.aborted` reports that an operation was aborted. -/
theorem kind_of_reports_aborted (hreports : e.reports? = some .aborted) : e.kind = .aborted := by
  unfold OperationEvent.reports? at hreports
  cases h : e.kind with
  | aborted => rfl
  | reconciled =>
    rw [h] at hreports
    dsimp only at hreports
    split at hreports <;> cases hreports
  | _ =>
    rw [h] at hreports
    cases hreports

/-- Reading anything else leaves it open whether the operation has an outcome. -/
theorem read_hasTerminal (hreports : e.reports? = none ∨ e.kind = .uncertain) :
    (op.read e.kind entry).hasTerminal = op.hasTerminal := by
  rcases hreports with hreports | hkind
  · rcases kind_of_reports hreports with hkind | hkind | hkind <;> rw [hkind] <;> rfl
  · rw [hkind]
    rfl

theorem Reads.hasTerminal (h : Reads events id op)
    (hnone : lastOf OperationEvent.reports? events id = none) : op.hasTerminal = false := by
  rcases h.status with ⟨-, hsome⟩ | ⟨hopen, -⟩
  · rw [hnone] at hsome
    cases hsome
  · exact hopen

/-- **Fold step.** Reading the entry of an event of the operation. -/
theorem Reads.read (h : Reads events id op) (hid : e.operationId = id)
    (he : e.Settles numText maxPayloadChars events)
    (hpayload : entry.payload = Journal.journaledPayload numText e.data maxPayloadChars) :
    Reads (events ++ [e]) id (op.read e.kind entry) := by
  have hlast : lastOf OperationEvent.reports? (events ++ [e]) id =
      e.reports?.or (lastOf OperationEvent.reports? events id) := lastOf_concat hid
  have hresolution : lastOf OperationEvent.resolution? (events ++ [e]) id =
      e.resolution?.or (lastOf OperationEvent.resolution? events id) := lastOf_concat hid
  have hnone : e.kind = .requested ∨ e.kind = .started ∨ e.kind = .uncertain →
      lastOf OperationEvent.reports? events id = none := fun hkind =>
    lastOf_eq_none fun e' he' hid' => he.unreported hkind e' he' (hid'.trans hid.symm)
  constructor
  · rw [exists_started_concat hid, read_hasStarted, ← h.started]
    simp
  · rw [hlast]
    cases hreports : e.reports? with
    | none =>
      rw [Option.none_or, read_hasTerminal (Or.inl hreports)]
      have hfresh (hkind : e.kind = .requested ∨ e.kind = .started ∨ e.kind = .uncertain) :
          (op.hasTerminal = true ∧
              lastOf OperationEvent.reports? events id = some (op.read e.kind entry).status) ∨
            op.hasTerminal = false ∧ (lastOf OperationEvent.reports? events id = none ∨
              lastOf OperationEvent.reports? events id = some .requiresReconciliation ∧
                (op.read e.kind entry).hasStarted = true) :=
        Or.inr ⟨h.hasTerminal (hnone hkind), Or.inl (hnone hkind)⟩
      rcases kind_of_reports hreports with hkind | hkind | hkind
      · exact hfresh (Or.inl hkind)
      · exact hfresh (Or.inr (Or.inl hkind))
      · -- Progress changes neither the status nor what was reported.
        rw [read_hasStarted, show (op.read e.kind entry).status = op.status by rw [hkind]; rfl]
        refine h.status.imp_right fun ⟨hopen, hlast⟩ => ⟨hopen, hlast.imp_right ?_⟩
        rintro ⟨hlast, hstarted⟩
        rw [hstarted, Bool.or_true]
        exact ⟨hlast, rfl⟩
    | some status =>
      rw [Option.some_or]
      by_cases hkind : e.kind = .uncertain
      · -- The fold has no branch for uncertainty; that the operation was started is enough.
        have hopen := h.hasTerminal (hnone (Or.inr (Or.inr hkind)))
        have hstarted : op.hasStarted = true := by
          rw [h.started, ← hid]
          exact he.started hkind
        have hstatus : status = .requiresReconciliation := by
          rw [OperationEvent.reports?, hkind] at hreports
          exact (Option.some.inj hreports).symm
        rw [read_hasTerminal (Or.inr hkind), read_hasStarted, hstarted, Bool.or_true, hstatus]
        exact Or.inr ⟨hopen, Or.inr ⟨rfl, rfl⟩⟩
      · obtain ⟨hterminal, hstatus⟩ := read_reports hreports hkind he.survives hpayload
        exact Or.inl ⟨hterminal, congrArg some hstatus.symm⟩
  · rw [hresolution, read_resolution he.survives hpayload, h.reconciled]

/-- Closing gives an operation the status its events call for. -/
theorem Reads.close_status (h : Reads events id op) (now : Int) :
    (op.close now).status = recoveredStatus events id := by
  unfold OpState.close recoveredStatus
  simp only [← h.started]
  rcases h.status with ⟨hterminal, hlast⟩ | ⟨hopen, hlast | ⟨hlast, hstarted⟩⟩
  · rw [hlast, if_pos hterminal]
    rfl
  · rw [hlast, hopen]
    by_cases hstarted : op.hasStarted = true
    · simp [hstarted]
    · simp [hstarted]
  · rw [hlast, hopen, hstarted]
    rfl

theorem close_reconciliation (op : OpState) (now : Int) :
    (op.close now).reconciliation = op.reconciliation := by
  unfold OpState.close
  split
  · rfl
  · split <;> rfl

variable (numText maxPayloadChars) in
/-- How an effect that can be recovered from stands to what was shown before. -/
def Effect.Settles (before : List Effect) : Effect → Prop
  | .event e => e.Settles numText maxPayloadChars (eventsOf before)
  | _ => True

/-- **The fold.** Hydrating from the journal of a trace, the fold knows an operation when there are
events of it, and has read them all. -/
theorem reads_hydrateEntries {trace : List Effect}
    (h : Ordered (Effect.Settles numText maxPayloadChars) trace) (id : JsString) :
    match (hydrateEntries (journalOf numText maxPayloadChars trace).entries).get? id with
    | some op => (∃ e ∈ eventsOf trace, e.operationId = id) ∧ Reads (eventsOf trace) id op
    | none => ∀ e ∈ eventsOf trace, e.operationId ≠ id := by
  induction trace using List.reverseRecOn with
  | nil => simp [journalOf, hydrateEntries]
  | append_singleton trace effect ih =>
    obtain ⟨hbefore, heffect⟩ := ordered_concat.mp h
    specialize ih hbefore
    cases hevent : effect.event? with
    | none =>
      rw [journalOf_concat_of_none hevent, eventsOf_append, eventsOf_singleton_of_none hevent,
        List.append_nil]
      exact ih
    | some e =>
      cases effect <;> cases hevent
      have he : e.Settles numText maxPayloadChars (eventsOf trace) := heffect
      let j := journalOf numText maxPayloadChars trace
      have hentry : (journalOf numText maxPayloadChars (trace ++ [.event e])).entries =
          j.entries ++ [entryOf numText j e] := by rw [journalOf_concat_event]; rfl
      have hpayload : (entryOf numText j e).payload =
          Journal.journaledPayload numText e.data maxPayloadChars := by
        show Journal.journaledPayload numText e.data j.maxPayloadChars = _
        rw [journalOf_maxPayloadChars]
      rw [hentry, hydrateEntries_concat, get?_hydrateEntry,
        hydrated?_entryOf he.named.1 he.named.2, eventsOf_append]
      dsimp only
      show match (if id = e.operationId then _ else _ : Option OpState) with
        | some op => (∃ e' ∈ eventsOf trace ++ [e], e'.operationId = id) ∧
          Reads (eventsOf trace ++ [e]) id op
        | none => ∀ e' ∈ eventsOf trace ++ [e], e'.operationId ≠ id
      by_cases hid : id = e.operationId
      · rw [if_pos hid]
        refine ⟨⟨e, by simp, hid.symm⟩, ?_⟩
        cases hop : (hydrateEntries j.entries).get? id with
        | none =>
          rw [hop] at ih
          exact (reads_newOpState ih _ _).read hid.symm he hpayload
        | some op =>
          rw [hop] at ih
          exact ih.2.read hid.symm he hpayload
      · rw [if_neg hid]
        cases hop : (hydrateEntries j.entries).get? id with
        | none =>
          rw [hop] at ih
          intro e' he'
          rcases List.mem_append.mp he' with he' | he'
          · exact ih e' he'
          · rw [List.mem_singleton.mp he']
            exact Ne.symm hid
        | some op =>
          rw [hop] at ih
          obtain ⟨⟨e', he', hid'⟩, hreads⟩ := ih
          exact ⟨⟨e', List.mem_append_left _ he', hid'⟩, hreads.concat_of_ne (Ne.symm hid)⟩

/-- A manager that hydrates from the journal of a trace that can be recovered from, recovers. -/
theorem recovers_of_settles {trace : List Effect} {s : OperationManager} (horder : InOrder trace)
    (h : Ordered (Effect.Settles numText maxPayloadChars) trace) (hheap : s.heap = [])
    (hmap : s.operations = .empty) :
    Recovers trace (s.hydrateFrom (journalOf numText maxPayloadChars trace).entries) := by
  -- What is found is what the fold knows, closed.
  have hget : ∀ id, (s.hydrateFrom (journalOf numText maxPayloadChars trace).entries).get? id =
      ((hydrateEntries (journalOf numText maxPayloadChars trace).entries).get? id).map
        fun op => (op.close s.now).snapshot := by
    intro id
    rw [OperationManager.hydrateFrom, query_journalOf, OperationManager.get?_hydrate hheap hmap]
  have hfound : ∀ id op,
      (s.hydrateFrom (journalOf numText maxPayloadChars trace).entries).get? id = some op →
      ∃ st : OpState, op = (st.close s.now).snapshot ∧
        (∃ e ∈ eventsOf trace, e.operationId = id) ∧ Reads (eventsOf trace) id st := by
    intro id op hop
    rw [hget] at hop
    obtain ⟨st, hst, rfl⟩ := Option.map_eq_some_iff.mp hop
    have hreads := reads_hydrateEntries h id
    rw [hst] at hreads
    exact ⟨st, rfl, hreads⟩
  have hstatus : ∀ id op,
      (s.hydrateFrom (journalOf numText maxPayloadChars trace).entries).get? id = some op →
      op.status = recoveredStatus (eventsOf trace) id := by
    intro id op hop
    obtain ⟨st, rfl, -, hreads⟩ := hfound id op hop
    exact hreads.close_status s.now
  constructor
  · intro e he
    rw [hget, Option.isSome_map]
    have hreads := reads_hydrateEntries h e.operationId
    cases hop : (hydrateEntries (journalOf numText maxPayloadChars trace).entries).get?
        e.operationId with
    | none =>
      rw [hop] at hreads
      exact absurd rfl (hreads e he)
    | some op => rfl
  · intro id op hop
    obtain ⟨-, -, hmem, -⟩ := hfound id op hop
    exact hmem
  · exact hstatus
  · intro id op hop
    rw [hstatus id op hop, recoveredStatus]
    cases hlast : lastOf OperationEvent.reports? (eventsOf trace) id with
    | none =>
      rw [Option.getD_none]
      split <;> rfl
    | some status =>
      obtain ⟨e, -, -, hreports⟩ := exists_of_lastOf hlast
      exact OperationEvent.terminal_of_reports hreports
  · intro id op hop
    obtain ⟨st, rfl, -, hreads⟩ := hfound id op hop
    show (st.close s.now).reconciliation.map _ = _
    rw [close_reconciliation]
    exact hreads.reconciled
  · -- What was invoked was started, and is never reported as aborted.
    intro id op hop haborted hinvoked
    rw [hstatus id op hop, recoveredStatus] at haborted
    cases hlast : lastOf OperationEvent.reports? (eventsOf trace) id with
    | none =>
      have hstarted : ∃ e ∈ eventsOf trace, e.operationId = id ∧ e.kind = .started :=
        horder.started hinvoked
      rw [hlast, Option.getD_none, if_pos hstarted] at haborted
      cases haborted
    | some status =>
      rw [hlast, Option.getD_some] at haborted
      obtain ⟨e, he, hid, hreports⟩ := exists_of_lastOf hlast
      rw [haborted] at hreports
      refine horder.not_aborted hinvoked ⟨e, he, hid, ?_⟩
      exact kind_of_reports_aborted hreports

end Reading

/-! ## The runs that can be recovered from -/

namespace OperationManager

variable (numText : ℚ → JsString) (maxPayloadChars : Nat) {s t : OperationManager}

/-- The device has a name; the two continuations of `start` that may overtake an outcome find their
operation live; and what a reconciliation journals fits. -/
def Recoverable (s : OperationManager) : Action → Prop
  | .begin_ options _ => options.deviceId ≠ []
  | .dispatched address | .afterDispatchRejected address _ => s.LiveAt address
  | .reconcile operationId options => ∀ address op, s.find? operationId = some (address, op) →
      op.status.isUncertain = true →
      Journal.Survives numText (reconciledData (reconciledBy op options s.now) options)
        maxPayloadChars
  | _ => True

structure Recovering (s : OperationManager) : Prop where
  named : ∀ o ∈ s.heap, o.id ≠ [] ∧ o.deviceId ≠ []
  reported : ∀ e ∈ eventsOf s.trace, e.reports? ≠ none → ∀ o ∈ s.heap, o.id = e.operationId →
    o.status.isTerminal = true
  settles : Ordered (Effect.Settles numText maxPayloadChars) s.trace

variable {numText maxPayloadChars}

theorem settles_of_isAnswer {e : Effect} (h : e.isAnswer = true) (before : List Effect) :
    e.Settles numText maxPayloadChars before := by
  cases e <;> trivial

namespace Recovering

theorem unreported (h : s.Recovering numText maxPayloadChars) {i : Nat} {op : LiveOperation}
    (hop : s.heap[i]? = some op) (hlive : op.status.isTerminal = false) :
    ∀ e ∈ eventsOf s.trace, e.operationId = op.id → e.reports? = none := by
  intro e he hid
  by_contra hreports
  have hterminal := h.reported e he hreports op (List.mem_of_getElem? hop) hid.symm
  rw [hlive] at hterminal
  cases hterminal

/-- A step that shows answers, and adds nothing to the heap but outcomes of known operations. -/
theorem answer (h : s.Recovering numText maxPayloadChars) {answers : List Effect}
    (htrace : t.trace = s.trace ++ answers) (hanswers : ∀ e ∈ answers, e.isAnswer = true)
    (hheap : ∀ o ∈ t.heap, o ∈ s.heap ∨
      (o.status.isTerminal = true ∧ o.id ≠ [] ∧ o.deviceId ≠ [])) :
    t.Recovering numText maxPayloadChars where
  named o ho := (hheap o ho).elim (h.named o) fun hnew => hnew.2
  reported e he hreports o ho hid := by
    rw [htrace, eventsOf_append, eventsOf_eq_nil hanswers, List.append_nil] at he
    exact (hheap o ho).elim (fun ho => h.reported e he hreports o ho hid) fun hnew => hnew.1
  settles := by
    rw [htrace]
    exact h.settles.append_of_forall fun e he => settles_of_isAnswer (hanswers e he)

/-- A step that writes to an object and shows events of it. -/
theorem write (h : s.Recovering numText maxPayloadChars) {shown : List Effect} {i : Nat}
    {op op' : LiveOperation} (hop : s.heap[i]? = some op) (hheap : t.heap = s.heap.set i op')
    (hrw : Rewrites op op') (htrace : t.trace = s.trace ++ shown)
    (hsettles : Ordered (Effect.Settles numText maxPayloadChars) (s.trace ++ shown))
    (hlive : op'.status.isTerminal = true ∨ op.status.isTerminal = false)
    (hshown : ∀ e ∈ eventsOf shown, e.reports? ≠ none →
      ∀ o ∈ t.heap, o.id = e.operationId → o.status.isTerminal = true) :
    t.Recovering numText maxPayloadChars where
  named o ho := by
    rw [hheap] at ho
    obtain ⟨j, hj⟩ := List.mem_iff_getElem?.mp ho
    rcases of_getElem?_set hop hj with ⟨-, rfl⟩ | ⟨-, hj⟩
    · have hnamed := h.named op (List.mem_of_getElem? hop)
      rw [hrw.id, show o.deviceId = op.deviceId from congrArg (·.2.1) hrw.scope]
      exact hnamed
    · exact h.named o (List.mem_of_getElem? hj)
  reported e he hreports o ho hid := by
    rw [htrace, eventsOf_append] at he
    rcases List.mem_append.mp he with he | he
    · rw [hheap] at ho
      obtain ⟨j, hj⟩ := List.mem_iff_getElem?.mp ho
      rcases of_getElem?_set hop hj with ⟨-, rfl⟩ | ⟨-, hj⟩
      · rcases hlive with hterminal | hlive
        · exact hterminal
        · exact absurd (h.unreported hop hlive e he (hid.symm.trans hrw.id)) hreports
      · exact h.reported e he hreports o (List.mem_of_getElem? hj) hid
    · exact hshown e he hreports o ho hid
  settles := htrace ▸ hsettles

/-- The same, for a step that shows nothing, or one event that reports nothing. -/
theorem writeQuiet (h : s.Recovering numText maxPayloadChars) {shown : List Effect} {i : Nat}
    {op op' : LiveOperation} (hop : s.heap[i]? = some op) (hheap : t.heap = s.heap.set i op')
    (hrw : Rewrites op op') (htrace : t.trace = s.trace ++ shown)
    (hsettles : Ordered (Effect.Settles numText maxPayloadChars) (s.trace ++ shown))
    (hlive : op'.status.isTerminal = true ∨ op.status.isTerminal = false)
    (hshown : ∀ e ∈ eventsOf shown, e.reports? = none) : t.Recovering numText maxPayloadChars :=
  h.write hop hheap hrw htrace hsettles hlive fun e he hreports =>
    absurd (hshown e he) hreports

/-- The same, for a step that shows one event that reports, and then answers. -/
theorem writeReport (h : s.Recovering numText maxPayloadChars) {answers : List Effect} {i : Nat}
    {op op' : LiveOperation} {e : OperationEvent} (hop : s.heap[i]? = some op)
    (hheap : t.heap = s.heap.set i op') (hrw : Rewrites op op')
    (htrace : t.trace = s.trace ++ .event e :: answers)
    (hanswers : ∀ a ∈ answers, a.isAnswer = true)
    (he : e.Settles numText maxPayloadChars (eventsOf s.trace)) (hid : e.operationId = op.id)
    (hterminal : op'.status.isTerminal = true)
    (hothers : ∀ (j : Nat) (o : LiveOperation), j ≠ i → s.heap[j]? = some o → o.id = op.id →
      o.status.isTerminal = true) : t.Recovering numText maxPayloadChars := by
  refine h.write hop hheap hrw htrace ?_ (Or.inl hterminal) ?_
  · have hevent : Ordered (Effect.Settles numText maxPayloadChars) (s.trace ++ [.event e]) :=
      ordered_concat.mpr ⟨h.settles, he⟩
    have happend := hevent.append_of_forall fun a ha before =>
      settles_of_isAnswer (hanswers a ha) before
    rwa [List.append_assoc] at happend
  · intro e' he' _ o ho hoid
    rw [eventsOf_cons_event, eventsOf_eq_nil hanswers, List.mem_singleton] at he'
    subst he'
    rw [hheap] at ho
    obtain ⟨j, hj⟩ := List.mem_iff_getElem?.mp ho
    rcases of_getElem?_set hop hj with ⟨-, rfl⟩ | ⟨hne, hj⟩
    · exact hterminal
    · exact hothers j o hne hj (hoid.trans hid)

end Recovering

theorem Concluding.not_inert {a : Action} {i : Nat} {op op' : LiveOperation} {c : Conclusion}
    (h : Concluding s a i op op' c) : ¬ op.Inert := by
  intro hinert
  cases h with
  | cancel _ hstatus =>
    have := hinert.terminal
    rw [hstatus] at this
    cases this
  | deadline _ hdue _ =>
    rw [hinert.disarmed] at hdue
    cases hdue
  | beforeDispatchRejected _ hphase => rw [hinert.idle] at hphase; cases hphase
  | runRejected _ hphase _ => rw [hinert.idle] at hphase; cases hphase
  | acknowledged _ hphase => rw [hinert.idle] at hphase; cases hphase
  | afterDispatchRejected _ hphase => rw [hinert.idle] at hphase; cases hphase

/-- The other objects of the id of an object that is not inert have an outcome. -/
theorem Registry.terminal_of_ne (h : s.Registry) {i j : Nat} {op o : LiveOperation}
    (hop : s.heap[i]? = some op) (hinert : ¬ op.Inert) (ho : s.heap[j]? = some o)
    (hid : o.id = op.id) (hne : j ≠ i) : o.status.isTerminal = true := by
  rcases Nat.lt_or_gt_of_ne hne with hlt | hgt
  · exact absurd (h.inert j i o op hlt ho hop hid) hinert
  · exact (h.inert i j op o hgt hop ho hid.symm).terminal

/-- A conclusion is uncertain only when `afterDispatchBeforeAck` threw. -/
theorem Concluding.eq_of_uncertain {a : Action} {i : Nat} {op op' : LiveOperation} {c : Conclusion}
    (h : Concluding s a i op op' c) (hkind : c.kind = .uncertain) :
    ∃ thrown, a = .afterDispatchRejected i thrown := by
  cases h with
  | afterDispatchRejected _ _ => exact ⟨_, rfl⟩
  | runRejected _ _ _ =>
    have hmem := kind_rejection op ‹Thrown›
    rw [hkind] at hmem
    simp at hmem
  | _ => cases hkind

theorem Concluding.kind_ne {a : Action} {i : Nat} {op op' : LiveOperation} {c : Conclusion}
    (h : Concluding s a i op op' c) : c.kind ≠ .started ∧ c.kind ≠ .reconciled := by
  cases h with
  | runRejected _ _ _ =>
    have hmem := kind_rejection op ‹Thrown›
    constructor <;> (intro heq; rw [heq] at hmem; simp at hmem)
  | _ => exact ⟨nofun, nofun⟩

/-- A tombstone is of an operation that names itself and its device. -/
theorem Recovering.named_restoredFrom (h : s.Recovering numText maxPayloadChars) (hchronicled : s.Chronicled)
    {scopedKey : JsString} {store : IdempotencyStore} {tombstone : IdempotencyTombstone}
    (hlookup : s.idempotencyStore.lookup scopedKey s.now = (store, some tombstone)) :
    (restoredFrom tombstone).id ≠ [] ∧ (restoredFrom tombstone).deviceId ≠ [] := by
  obtain ⟨o, ho, hscope⟩ := hchronicled.owned_of_lookup hlookup
  have hid : (restoredFrom tombstone).id = o.id := congrArg Prod.fst hscope
  have hdevice : (restoredFrom tombstone).deviceId = o.deviceId := congrArg (·.2.1) hscope
  rw [hid, hdevice]
  exact h.named o ho

theorem Recovering.openNew (h : s.Recovering numText maxPayloadChars) (hreg : s.Registry) (hchronicled : s.Chronicled)
    {store : IdempotencyStore} {options : BeginOperationOptions} {randomId : JsString} (hp : options.deviceId ≠ []) :
    (({ s with idempotencyStore := store }).openNew options randomId).Recovering numText maxPayloadChars := by
  let op := s.queued options randomId
  have hid : op.id ≠ [] := by
    show operationId (s.sequence + 1) randomId ≠ []
    simp [operationId]
  have hfresh : ∀ e ∈ eventsOf s.trace, e.operationId ≠ op.id := by
    intro e he heq
    obtain ⟨o, ho, hoid, -⟩ := hchronicled.known e he
    exact hreg.ne_operationId randomId o ho (hoid.trans heq)
  let e := s.eventOf .requested op (requestedData options)
  have he : e.Settles numText maxPayloadChars (eventsOf s.trace) :=
    ⟨⟨hid, hp⟩, fun _ e' he' heq => absurd heq (hfresh e' he'), by rintro ⟨⟩, by rintro ⟨⟩⟩
  have htrace : s.trace ++ [.event e] ++ [.began false op.id] =
      s.trace ++ [.event e, .began false op.id] := List.append_assoc _ _ _
  have hevents : eventsOf [.event e, .began false op.id] = [e] := rfl
  constructor
  · intro o ho
    rcases List.mem_append.mp ho with ho | ho
    · exact h.named o ho
    · rw [List.mem_singleton.mp ho]
      exact ⟨hid, hp⟩
  · intro e' he' hreports o ho hoid
    replace he' : e' ∈ eventsOf (s.trace ++ [.event e] ++ [.began false op.id]) := he'
    rw [htrace, eventsOf_append, hevents] at he'
    rcases List.mem_append.mp he' with he' | he'
    · rcases List.mem_append.mp ho with ho | ho
      · exact h.reported e' he' hreports o ho hoid
      · rw [List.mem_singleton.mp ho] at hoid
        exact absurd hoid.symm (hfresh e' he')
    · rw [List.mem_singleton.mp he'] at hreports
      exact absurd rfl hreports
  · show Ordered (Effect.Settles numText maxPayloadChars) (s.trace ++ [.event e] ++ [.began false op.id])
    exact ordered_concat.mpr ⟨ordered_concat.mpr ⟨h.settles, he⟩, trivial⟩

/-- **Step lemma.** A step of these runs keeps the invariant. -/
theorem Recovering.step {a : Action} (h : s.Recovering numText maxPayloadChars) (hreg : s.Registry)
    (hchronicled : s.Chronicled) (hlisted : s.Listed)
    (hp : s.Recoverable numText maxPayloadChars a) (hs : s.step a = some t) :
    t.Recovering numText maxPayloadChars := by
  have hnil : ∀ e ∈ ([] : List Effect), e.isAnswer = true := by simp
  have hsingle : ∀ {e : Effect}, e.isAnswer = true → ∀ e' ∈ [e], e'.isAnswer = true := by
    intro e he e' he'
    rw [List.mem_singleton.mp he']
    exact he
  have hsettles : Ordered (Effect.Settles numText maxPayloadChars) (s.trace ++ []) := by
    rw [List.append_nil]
    exact h.settles
  cases steps_of_step hs with
  | tick => exact h.answer (List.append_nil _).symm hnil fun o ho => Or.inl ho
  | unchanged => exact h
  | answered hanswer => exact h.answer rfl (hsingle hanswer) fun o ho => Or.inl ho
  | lookedUp => exact h.answer (List.append_nil _).symm hnil fun o ho => Or.inl ho
  | removed => exact h.answer (List.append_nil _).symm hnil fun o ho => Or.inl ho
  | deduped hkey hlookup hin => exact h.answer rfl (hsingle rfl) fun o ho => Or.inl ho
  | restored hkey hlookup hout =>
    refine h.answer rfl (hsingle rfl) fun o ho => (List.mem_append.mp ho).imp_right fun ho => ?_
    rw [List.mem_singleton.mp ho]
    exact ⟨(hreg.restored_inert hlookup hout).terminal, h.named_restoredFrom hchronicled hlookup⟩
  | opened hstore => exact h.openNew hreg hchronicled hp
  | registered hop hin hlive => exact h.answer (List.append_nil _).symm hnil fun o ho => Or.inl ho
  | cancelling hop hin hlive hstatus =>
    exact h.writeQuiet hop rfl (Rewrites.of_live rfl hlive) (List.append_nil _).symm hsettles
      (Or.inr hlive) (by simp)
  | @advanced _ _ op op' hop hadv =>
    have hstatus : op'.status = op.status := by rw [hadv.snapshot]
    refine h.writeQuiet hop rfl hadv.rewrites (List.append_nil _).symm hsettles ?_ (by simp)
    rw [hstatus]
    cases op.status.isTerminal <;> simp
  | @dispatched address op hop hphase =>
    have hlive : op.status.isTerminal = false := hp op hop
    have hunreported := h.unreported hop hlive
    let e := s.eventOf .started (startedAs op s.now) []
    have he : e.Settles numText maxPayloadChars (eventsOf s.trace) :=
      ⟨h.named op (List.mem_of_getElem? hop), fun _ => hunreported, nofun, nofun⟩
    have hevents : eventsOf [.event e, .invoked op.id address] = [e] := rfl
    refine h.writeQuiet hop rfl (Rewrites.of_live rfl hlive)
      (show _ = s.trace ++ [.event e, .invoked op.id address] from List.append_assoc _ _ _) ?_
      (Or.inr hlive) ?_
    · have hboth : Ordered (Effect.Settles numText maxPayloadChars)
          (s.trace ++ [.event e] ++ [.invoked op.id address]) :=
        ordered_concat.mpr ⟨ordered_concat.mpr ⟨h.settles, he⟩, trivial⟩
      rwa [List.append_assoc] at hboth
    · intro e' he'
      rw [hevents, List.mem_singleton] at he'
      rw [he']
      rfl
  | @reported address op fraction message hop hphase hlive =>
    let e := s.eventOf .progress op
      ((js "fraction", fraction.elim .null .num) :: field? (js "message") (message.map .str))
    have he : e.Settles numText maxPayloadChars (eventsOf s.trace) :=
      ⟨h.named op (List.mem_of_getElem? hop), nofun, nofun, nofun⟩
    refine h.writeQuiet hop rfl (Rewrites.of_live rfl hlive)
      (show _ = s.trace ++ [.event e] from rfl) (ordered_concat.mpr ⟨h.settles, he⟩)
      (Or.inr hlive) ?_
    intro e' he'
    rw [List.mem_singleton.mp he']
    rfl
  | @concluded _ address op op' c answers hop hc hanswers =>
    have hid : op'.id = op.id := (hc.rewrites s.now).id
    have hdevice : op'.deviceId = op.deviceId := congrArg (·.2.1) (hc.rewrites s.now).scope
    obtain ⟨more, htrace, hmore⟩ := answerAll_conclude_trace (s := s) address op' c hanswers
    have hnamed := h.named op (List.mem_of_getElem? hop)
    rw [← hid, ← hdevice] at hnamed
    refine h.writeReport hop (conclude_heap _ _ _) (hc.rewrites s.now) htrace hmore ?_ hid c.terminal
      fun j o hne ho hoid => hreg.terminal_of_ne hop hc.not_inert ho hoid hne
    refine ⟨hnamed, ?_, ?_, fun hkind => absurd hkind hc.kind_ne.2⟩
    · rintro (hkind | hkind | hkind)
      · exact absurd hkind hc.kind_ne_requested
      · exact absurd hkind hc.kind_ne.1
      · obtain ⟨thrown, rfl⟩ := hc.eq_of_uncertain hkind
        intro e he heid
        exact h.unreported hop (hp op hop) e he (heid.trans hid)
    · intro hkind
      have hstarted := hchronicled.started op (List.mem_of_getElem? hop)
        (hc.acknowledging_of_uncertain hkind)
      rw [← hid] at hstarted
      exact hstarted
  | @reconciled operationId options address op hop hin huncertain =>
    obtain ⟨more, htrace, hmore⟩ := reconcileAt_trace (s := s) address op options
    have hrw : Rewrites op (reconciledBy op options s.now) := reconciledBy_rewrites options s.now
    have hdevice : (reconciledBy op options s.now).deviceId = op.deviceId :=
      congrArg (·.2.1) hrw.scope
    have hnamed := h.named op (List.mem_of_getElem? hop)
    rw [← hrw.id, ← hdevice] at hnamed
    refine h.writeReport hop (reconcileAt_heap _ _ _) hrw htrace hmore ?_ hrw.id
      (reconciledBy_terminal _ _ _) fun j o hne ho hoid => ?_
    · refine ⟨hnamed, nofun, nofun, fun _ => ?_⟩
      exact hp address op (find?_eq_some_iff.mpr ⟨hin, hop⟩) huncertain
    · -- A live object of the id would be the one in the map.
      by_contra hlive
      have hlisted' := hlisted j o ho (by simpa using hlive)
      rw [hoid, (hreg.latest_of_get? hin hop).id_eq, hin] at hlisted'
      exact hne (Option.some.inj hlisted').symm

/-- A step that can be recovered from dispatches only what is live. -/
theorem Recoverable.dispatched {a : Action} (h : s.Recoverable numText maxPayloadChars a) :
    ∀ address, a = .dispatched address → s.LiveAt address := by
  rintro address rfl
  exact h

/-- **Run lemma.** The invariants hold after a run of steps that can be recovered from. -/
theorem recovering_of_run {calls : List Action} (hreg : s.Registry) (hchronicled : s.Chronicled)
    (hlisted : s.Listed) (h : s.Recovering numText maxPayloadChars)
    (hrun : machine.run s calls = some t)
    (hp : machine.Guarded (Recoverable numText maxPayloadChars) s calls) :
    t.Chronicled ∧ t.Recovering numText maxPayloadChars := by
  have hall : t.Registry ∧ t.Chronicled ∧ t.Listed ∧ t.Recovering numText maxPayloadChars := by
    refine Machine.run_guarded_invariant (I := fun s => s.Registry ∧ s.Chronicled ∧ s.Listed ∧
      s.Recovering numText maxPayloadChars) ?_ ⟨hreg, hchronicled, hlisted, h⟩ hp hrun
    rintro s a t ⟨hreg, hchronicled, hlisted, h⟩ hp hs
    exact ⟨hreg.step hs, hchronicled.step hreg hs, hlisted.step hreg hp.dispatched hs,
      h.step hreg hchronicled hlisted hp hs⟩
  exact ⟨hall.2.1, hall.2.2.2⟩

/-- **Crash recovery.** At every crash point of a run of steps that can be recovered from, a new
manager that hydrates from the journal written so far recovers every operation. -/
theorem recovers_of_recoverable (numText : ℚ → JsString) (maxPayloadChars : Nat)
    (retentionMs : Int) (maxOperations maxEntries : Nat) (storeRetentionMs now : Int)
    (calls : List Action) (s : OperationManager)
    (hrun : machine.run (new retentionMs maxOperations maxEntries storeRetentionMs now) calls =
      some s)
    (hrecoverable : machine.Guarded (Recoverable numText maxPayloadChars)
      (new retentionMs maxOperations maxEntries storeRetentionMs now) calls)
    (shown : List Effect) (hcrash : shown <+: s.trace)
    (retentionMs' : Int) (maxOperations' maxEntries' : Nat) (storeRetentionMs' now' : Int) :
    Recovers shown
      ((new retentionMs' maxOperations' maxEntries' storeRetentionMs' now').hydrateFrom
        (journalOf numText maxPayloadChars shown).entries) := by
  have hnew : (new retentionMs maxOperations maxEntries storeRetentionMs now).Recovering
      numText maxPayloadChars :=
    ⟨fun o ho => absurd ho List.not_mem_nil, fun e he => absurd he List.not_mem_nil, ordered_nil⟩
  obtain ⟨hchronicled, h⟩ := recovering_of_run (Registry.new rfl) (Chronicled.new rfl)
    (Listed.of_heap_eq_nil rfl) hnew hrun hrecoverable
  exact recovers_of_settles (hchronicled.inOrder.of_prefix hcrash) (h.settles.of_prefix hcrash)
    rfl rfl

/-! ## Runs of one operation -/

/-- A check that is enough for a step to be recoverable. -/
def recoverableCheck (numText : ℚ → JsString) (maxPayloadChars : Nat) (s : OperationManager) :
    Action → Bool
  | .begin_ options _ => options.deviceId ≠ []
  | .dispatched address | .afterDispatchRejected address _ =>
    s.heap[address]?.all fun op => !op.status.isTerminal
  | .reconcile operationId options => (s.find? operationId).all fun e =>
      decide (Journal.Survives numText (reconciledData (reconciledBy e.2 options s.now) options)
        maxPayloadChars)
  | _ => true

theorem recoverable_of_check {a : Action}
    (h : s.recoverableCheck numText maxPayloadChars a = true) :
    s.Recoverable numText maxPayloadChars a := by
  have hlive : ∀ {address : Nat},
      (s.heap[address]?.all fun op => !op.status.isTerminal) = true → s.LiveAt address := by
    intro address hall op hop
    simpa [hop] using hall
  cases a with
  | begin_ options randomId =>
    have hname : options.deviceId ≠ [] := by simpa [recoverableCheck] using h
    exact hname
  | dispatched address => exact hlive h
  | afterDispatchRejected address thrown => exact hlive h
  | reconcile operationId options =>
    intro address op hfind _
    simpa [recoverableCheck, hfind] using h
  | _ => trivial

/-- A number's text; the runs below journal no numbers. -/
def zeroText : ℚ → JsString := fun _ => js "0"

/-- A run whose acknowledgement fails, and that is reconciled. -/
def reconciledRun : List Action :=
  [.begin_ { blink with afterDispatchBeforeAck := true } (js "a"), .microtask 0, .dispatched 0,
    .runResolved 0 [], .afterDispatchRejected 0 (.error (js "Error") none (js "crash")),
    .reconcile firstId { resolution := .observedNotDone }]

/-- At the end of that run the operation is recovered. -/
theorem recovers_reconciled :
    ∃ s, machine.run newDefault reconciledRun = some s ∧
      Recovers s.trace (newDefault.hydrateFrom (journalOf zeroText 4096 s.trace).entries) := by
  have hsome : (machine.run newDefault reconciledRun).isSome = true := by decide +kernel
  obtain ⟨s, hs⟩ := Option.isSome_iff_exists.mp hsome
  refine ⟨s, hs, ?_⟩
  refine recovers_of_recoverable zeroText 4096 _ _ _ _ _ reconciledRun s hs ?_ s.trace
    (List.prefix_refl _) _ _ _ _ _
  refine Machine.Guarded.mono (P := fun s a => s.recoverableCheck zeroText 4096 a = true)
    (fun _ _ => recoverable_of_check) ?_
  decide +kernel

/-- **Not every run is recovered from.** An operation that was cancelled while its microtask waited
for `beforeDispatch` is started nevertheless; after a crash right then it is hydrated as running. -/
theorem not_recovers_dispatched :
    ∃ s, machine.run newDefault [.begin_ blink (js "a"), .microtask 0, .cancel firstId none 0,
        .dispatched 0] = some s ∧
      ¬ Recovers s.trace (newDefault.hydrateFrom (journalOf zeroText 4096 s.trace).entries) := by
  have hview : ((machine.run newDefault [.begin_ blink (js "a"), .microtask 0,
      .cancel firstId none 0, .dispatched 0]).bind fun s =>
        ((newDefault.hydrateFrom (journalOf zeroText 4096 s.trace).entries).get? firstId).map
          OperationSnapshot.status) = some .running := by decide +kernel
  obtain ⟨s, hs, hview⟩ := Option.bind_eq_some_iff.mp hview
  obtain ⟨op, hop, hstatus⟩ := Option.map_eq_some_iff.mp hview
  refine ⟨s, hs, fun hrecovers => ?_⟩
  have hterminal := hrecovers.terminal firstId op hop
  rw [hstatus] at hterminal
  cases hterminal

end OperationManager

end Pinout.Operation
