import Pinout.Awareness.Service

/-! # What observations keep

A candidate counts as enrolled when `devices.json` lists its own id; a device is enrolled under an id that is
made of its module and of a part of that id. So an observation keeps what was enrolled exactly when the file
happens to list the id of the candidate. -/

namespace Pinout.Awareness

open Foundation

/-! ## What observing does -/

namespace AwarenessRegistry

variable {host : AwarenessHost} {r : AwarenessRegistry}

/-- Every record is kept under its id, and none was replaced by one it may not become. -/
structure Sound (r : AwarenessRegistry) : Prop where
  keyed : ∀ id record, r.records.get? id = some record → record.id = id
  allowed : ∀ change ∈ r.changes, canTransition change.1 change.2 = true

theorem canTransition_self (state : AwarenessState) : canTransition state state = true := by
  simp [canTransition]

@[simp] theorem records_emit (type : AwarenessEventType) (record : AwarenessRecord) (now : Int)
    (previousState : Option AwarenessState) : (r.emit type record now previousState).records = r.records := rfl

@[simp] theorem get?_setRecord_self (record : AwarenessRecord) :
    (r.setRecord record).records.get? record.id = some record := by
  simp [setRecord]

theorem Sound.emit (h : r.Sound) (type : AwarenessEventType) (record : AwarenessRecord) (now : Int)
    (previousState : Option AwarenessState) : (r.emit type record now previousState).Sound :=
  ⟨h.keyed, h.allowed⟩

theorem Sound.setRecord (h : r.Sound) {record : AwarenessRecord}
    (hold : ∀ old, r.records.get? record.id = some old → canTransition old.state record.state = true) :
    (r.setRecord record).Sound := by
  constructor
  · intro id found hfound
    by_cases hid : id = record.id
    · subst hid
      rw [get?_setRecord_self] at hfound
      rw [Option.some.inj hfound]
    · rw [AwarenessRegistry.setRecord, InsertionMap.get?_insert_of_ne _ _ hid] at hfound
      exact h.keyed id found hfound
  · intro change hchange
    rcases List.mem_append.mp hchange with hchange | hchange
    · exact h.allowed change hchange
    · obtain ⟨old, hget, rfl⟩ := Option.map_eq_some_iff.mp (Option.mem_toList.mp hchange)
      exact hold old hget

theorem Sound.persist (h : r.Sound) (failure : Option Thrown) : (r.persist failure).1.Sound := by
  cases failure with
  | none => exact ⟨h.keyed, h.allowed⟩
  | some e => exact h

theorem persisting_eq_ok {failure : Option Thrown} {record after : AwarenessRecord} :
    (r.persisting failure record).2 = .ok after ↔ failure = none ∧ after = record := by
  cases failure with
  | none => simp [persisting, AwarenessRegistry.persist, Except.map, eq_comm]
  | some e => simp [persisting, AwarenessRegistry.persist, Except.map]

/-- **A path of allowed transitions is followed** to its end. -/
theorem followPath_spec (patch : RecordPatch) (now : Int) (current : AwarenessRecord) {path : List AwarenessState}
    (h : r.Sound) (hat : ∀ old, r.records.get? current.id = some old → old.state = current.state)
    (hchain : List.IsChain (fun a b => canTransition a b = true) (current.state :: path)) :
    (followPath patch now r current path).1.Sound ∧
      ∃ after, (followPath patch now r current path).2 = .ok after ∧
        after.state = (current.state :: path).getLast (List.cons_ne_nil _ _) := by
  induction path generalizing r current with
  | nil => exact ⟨h, current, rfl, rfl⟩
  | cons step path ih =>
    obtain ⟨hcan, hchain⟩ := List.isChain_cons_cons.mp hchain
    obtain ⟨next, hnext, hid, hstate⟩ := exists_transition patch hcan
    rw [followPath, hnext]
    dsimp only
    rw [List.getLast_cons_cons, ← hstate]
    rw [← hstate] at hchain
    -- the events of the step leave the records as they are
    have hset : (r.setRecord next).Sound := by
      apply h.setRecord
      intro old hold
      rw [hid] at hold
      rw [hat old hold, hstate]
      exact hcan
    refine ih next ?_ ?_ hchain
    · split <;> split <;> (repeat' apply Sound.emit) <;> exact hset
    · split <;> split <;> simp

/-- **The state a record should have** is applied, if there is a path to it. -/
theorem applyObservationState_spec (record : AwarenessRecord) (nextState : AwarenessState) (now : Int)
    (identity : AwarenessIdentity) (confidence : ℚ) (h : r.Sound)
    (hat : ∀ old, r.records.get? record.id = some old → old.state = record.state) :
    (r.applyObservationState record nextState now identity confidence).1.Sound ∧
      ((∃ after, (r.applyObservationState record nextState now identity confidence).2 = .ok after) ↔
        ∃ path, transitionPath record.state nextState = .ok path) ∧
      ∀ after, (r.applyObservationState record nextState now identity confidence).2 = .ok after →
        after.state = nextState := by
  rw [applyObservationState]
  dsimp only
  by_cases hsame : record.state = nextState
  · rw [if_pos hsame]
    refine ⟨?_, ?_, ?_⟩
    · apply h.setRecord
      intro old hold
      rw [hat old hold]
      exact canTransition_self _
    · subst hsame
      simp [transitionPath]
    · rintro after heq
      rw [← Except.ok.inj heq]
      exact hsame
  · rw [if_neg hsame]
    cases hpath : transitionPath record.state nextState with
    | error e => simp [h]
    | ok path =>
      obtain ⟨hchain, hlast⟩ := isChain_of_transitionPath hpath
      obtain ⟨hsound, after, hafter, hstate⟩ := followPath_spec
        { lastSeen := some now
          identity := some identity
          health := some (defaultHealth now true)
          confidence := some confidence
          moduleId := if isKnownModule identity.guessedModuleId then identity.guessedModuleId else none } now
        { record with lastSeen := now, identity } h hat hchain
      refine ⟨hsound, ⟨fun _ => ⟨path, rfl⟩, fun _ => ⟨after, hafter⟩⟩, ?_⟩
      intro after' hafter'
      rw [← Except.ok.inj (hafter.symm.trans hafter'), hstate, hlast]

/-- What an observation returns has been applied, and persisted. -/
theorem concludeObservation_spec {applied : AwarenessRegistry × Except Thrown AwarenessRecord} (failure : Option Thrown)
    (h : applied.1.Sound) :
    (concludeObservation applied failure).1.Sound ∧
      ∀ after, (concludeObservation applied failure).2 = .ok after ↔ applied.2 = .ok after ∧ failure = none := by
  rw [concludeObservation]
  cases hresult : applied.2 with
  | error e => simp [h]
  | ok record =>
    refine ⟨h.persist failure, fun after => ?_⟩
    dsimp only
    rw [persisting_eq_ok, Except.ok.injEq]
    exact ⟨fun ⟨hf, heq⟩ => ⟨heq.symm, hf⟩, fun ⟨heq, hf⟩ => ⟨hf, heq.symm⟩⟩

/-- Whether an observation of a candidate finds a path: what is online is enrolled, or of a known module. -/
def Placeable (host : AwarenessHost) (r : AwarenessRegistry) (enrolledIds : List JsString)
    (candidate : DiscoveredCandidate) : Prop :=
  ∀ existing, r.records.get? candidate.id = some existing → existing.state = .online →
    candidate.id ∈ enrolledIds ∨ isKnownModule (host.identityFromCandidate candidate).guessedModuleId = true

instance (enrolledIds : List JsString) (candidate : DiscoveredCandidate) :
    Decidable (Placeable host r enrolledIds candidate) :=
  decidable_of_iff (((r.records.get? candidate.id).all fun existing => decide (existing.state = .online →
      candidate.id ∈ enrolledIds ∨ isKnownModule (host.identityFromCandidate candidate).guessedModuleId = true)) =
        true) <| by
    unfold Placeable
    cases r.records.get? candidate.id with
    | none => simp
    | some existing => simp only [Option.all_some, decide_eq_true_eq, Option.some.injEq, forall_eq']

/-- **What an observation does.** -/
theorem observeCandidate_spec (host : AwarenessHost) (enrolledIds : List JsString) (candidate : DiscoveredCandidate)
    (extras : Extras)
    (now : Int) (failure : Option Thrown) (h : r.Sound) :
    (r.observeCandidate host enrolledIds candidate extras now failure).1.Sound ∧
      ((∃ after, (r.observeCandidate host enrolledIds candidate extras now failure).2 = .ok after) ↔
        failure = none ∧ Placeable host r enrolledIds candidate) ∧
      ∀ after, (r.observeCandidate host enrolledIds candidate extras now failure).2 = .ok after →
        (after.state = .online ↔ candidate.id ∈ enrolledIds) := by
  have honline : ∀ after : AwarenessRecord, after.state = presenceOf host enrolledIds candidate →
      (after.state = .online ↔ candidate.id ∈ enrolledIds) := by
    intro after hafter
    rw [hafter, presenceOf, presenceStateForObservation_eq_online, List.contains_iff_mem]
  rw [observeCandidate]
  cases hget : r.records.get? candidate.id with
  | none =>
    dsimp only
    have hsound : ((r.setRecord (freshRecord host candidate extras now)).emit .seen
        (freshRecord host candidate extras now) now).Sound := by
      apply Sound.emit
      apply h.setRecord
      intro old hold
      rw [show (freshRecord host candidate extras now).id = candidate.id from rfl, hget] at hold
      cases hold
    obtain ⟨hs, hok, hstate⟩ := applyObservationState_spec (freshRecord host candidate extras now)
      (presenceOf host enrolledIds candidate)
        now (host.identityFromCandidate candidate) candidate.confidence hsound (by simp)
    obtain ⟨hs', hafter⟩ := concludeObservation_spec failure hs
    refine ⟨hs', ?_, fun after heq => honline after (hstate after ((hafter after).mp heq).1)⟩
    have hpath : ∃ path, transitionPath (freshRecord host candidate extras now).state
        (presenceOf host enrolledIds candidate) = .ok path :=
      (transitionPath_presence _ _ _ _).mpr (by rintro ⟨⟩)
    constructor
    · rintro ⟨after, heq⟩
      refine ⟨((hafter after).mp heq).2, fun existing hexisting => ?_⟩
      rw [hget] at hexisting
      cases hexisting
    · rintro ⟨hf, -⟩
      obtain ⟨after, heq⟩ := hok.mpr hpath
      exact ⟨after, (hafter after).mpr ⟨heq, hf⟩⟩
  | some existing =>
    dsimp only
    have hid : (patchedRecord host existing candidate extras now).id = candidate.id :=
      h.keyed _ existing hget
    have hsound : (r.setRecord (patchedRecord host existing candidate extras now)).Sound := by
      apply h.setRecord
      intro old hold
      rw [hid, hget] at hold
      obtain rfl := Option.some.inj hold
      exact canTransition_self _
    obtain ⟨hs, hok, hstate⟩ := applyObservationState_spec (patchedRecord host existing candidate extras now)
      (presenceOf host enrolledIds candidate) now (patchedRecord host existing candidate extras now).identity
      candidate.confidence hsound (by simp)
    obtain ⟨hs', hafter⟩ := concludeObservation_spec failure hs
    refine ⟨hs', ?_, fun after heq => honline after (hstate after ((hafter after).mp heq).1)⟩
    have hpath : (∃ path, transitionPath (patchedRecord host existing candidate extras now).state
        (presenceOf host enrolledIds candidate) = .ok path) ↔ Placeable host r enrolledIds candidate := by
      rw [presenceOf, transitionPath_presence, Placeable, hget]
      simp [patchedRecord]
    constructor
    · rintro ⟨after, heq⟩
      exact ⟨((hafter after).mp heq).2, hpath.mp (hok.mp ⟨after, ((hafter after).mp heq).1⟩)⟩
    · rintro ⟨hf, hplace⟩
      obtain ⟨after, heq⟩ := hok.mpr (hpath.mpr hplace)
      exact ⟨after, (hafter after).mpr ⟨heq, hf⟩⟩

theorem Sound.goOnline (h : r.Sound) {current : AwarenessRecord} (moduleId : Option JsString) (now : Int)
    (failure : Option Thrown) (hat : ∀ old, r.records.get? current.id = some old → old.state = current.state) :
    (r.goOnline current moduleId now failure).1.Sound := by
  rw [AwarenessRegistry.goOnline]
  split
  · exact h
  · next enrolled henrolled =>
    obtain ⟨hcan, hid, hstate⟩ := of_transition henrolled
    apply Sound.persist
    apply Sound.emit
    apply Sound.emit
    apply h.setRecord
    intro old hold
    rw [hid] at hold
    rw [hat old hold, hstate]
    exact hcan

/-- **Marking enrolled** makes allowed transitions. -/
theorem Sound.markEnrolled (h : r.Sound) (id : JsString) (moduleId : Option JsString) (now : Int)
    (failure : Option Thrown) : (r.markEnrolled id moduleId now failure).1.Sound := by
  rw [AwarenessRegistry.markEnrolled]
  split
  · exact h
  · next existing hget =>
    have hid := h.keyed id existing hget
    have hat : ∀ old, r.records.get? existing.id = some old → old.state = existing.state := by
      intro old hold
      rw [hid, hget] at hold
      rw [Option.some.inj hold]
    split
    · exact h
    · split
      · split
        · exact h
        · next current hcurrent =>
          obtain ⟨hcan, hcid, hstate⟩ := of_transition hcurrent
          apply Sound.goOnline
          · apply Sound.emit
            apply h.setRecord
            intro old hold
            rw [hcid] at hold
            rw [hat old hold, hstate]
            exact hcan
          · intro old hold
            rw [records_emit, get?_setRecord_self] at hold
            rw [Option.some.inj hold]
      · exact h.goOnline moduleId now failure hat

/-- A record ages by an allowed transition; the records of other devices stay. -/
theorem age_spec (host : AwarenessHost) (h : r.Sound) {record : AwarenessRecord} (now : Int)
    (hget : r.records.get? record.id = some record) :
    (r.age host record now).1.Sound ∧ (∃ changed, (r.age host record now).2 = .ok changed) ∧
      ∀ id, id ≠ record.id → (r.age host record now).1.records.get? id = r.records.get? id := by
  rw [age]
  split
  · exact ⟨h, ⟨none, rfl⟩, fun _ _ => rfl⟩
  · next next hnext =>
    split
    · exact ⟨h, ⟨none, rfl⟩, fun _ _ => rfl⟩
    · have hcan := canTransition_of_evaluateStaleness hnext
      obtain ⟨updated, hupdated, hid, hstate⟩ := exists_transition
        { health := some (defaultHealth now false) } hcan
      rw [hupdated]
      dsimp only
      have hset : (r.setRecord updated).Sound := by
        apply h.setRecord
        intro old hold
        rw [hid, hget] at hold
        obtain rfl := Option.some.inj hold
        rw [hstate]
        exact hcan
      have hothers : ∀ id, id ≠ record.id → (r.setRecord updated).records.get? id = r.records.get? id := by
        intro id hne
        rw [← hid] at hne
        exact InsertionMap.get?_insert_of_ne _ _ hne
      refine ⟨?_, ⟨some updated, rfl⟩, ?_⟩
      · split <;> (repeat' apply Sound.emit) <;> exact hset
      · split <;> simpa using hothers

theorem ageAll_spec (host : AwarenessHost) (now : Int) (records : List AwarenessRecord) (h : r.Sound)
    (hget : ∀ record ∈ records, r.records.get? record.id = some record)
    (hnodup : (records.map (·.id)).Nodup) :
    (ageAll host now r records).1.Sound ∧ ∃ changed, (ageAll host now r records).2 = .ok changed := by
  induction records generalizing r with
  | nil => exact ⟨h, [], rfl⟩
  | cons record records ih =>
    rw [List.map_cons, List.nodup_cons] at hnodup
    obtain ⟨hs, ⟨changed, hchanged⟩, hothers⟩ := age_spec host h now (hget record List.mem_cons_self)
    obtain ⟨hs', more, hmore⟩ := ih hs
      (fun other hother => by
        rw [hothers]
        · exact hget other (List.mem_cons_of_mem _ hother)
        · rintro heq
          exact hnodup.1 (heq ▸ List.mem_map_of_mem hother))
      hnodup.2
    rw [ageAll]
    generalize r.age host record now = aged at hs hchanged hs' hmore ⊢
    obtain ⟨r', result⟩ := aged
    subst hchanged
    exact ⟨hs', changed.toList ++ more, by simp only [hmore, Except.map]⟩

/-- **A tick** makes allowed transitions. -/
theorem Sound.tick (host : AwarenessHost) (h : r.Sound) (now : Int) (failure : Option Thrown) :
    (r.tick host now failure).1.Sound := by
  have hkeys : (r.records.entries.map (·.2)).map (·.id) = r.records.entries.map Prod.fst := by
    rw [List.map_map]
    apply List.map_congr_left
    rintro ⟨id, record⟩ hmem
    exact h.keyed id record (InsertionMap.get?_eq_some_iff.mpr hmem)
  obtain ⟨hs, changed, hchanged⟩ := ageAll_spec host now (r.records.entries.map (·.2)) h
    (by
      intro record hrecord
      obtain ⟨⟨id, found⟩, hmem, rfl⟩ := List.mem_map.mp hrecord
      have hget := InsertionMap.get?_eq_some_iff.mpr hmem
      rwa [h.keyed id found hget])
    (hkeys ▸ r.records.nodup)
  rw [AwarenessRegistry.tick]
  generalize ageAll host now r (r.records.entries.map (·.2)) = aged at hs hchanged ⊢
  obtain ⟨r', result⟩ := aged
  subst hchanged
  dsimp only
  split
  · exact hs
  · exact hs.persist failure

theorem keyed_load (devices : List AwarenessRecord) :
    ∀ id record, (load devices).get? id = some record → record.id = id := by
  have hfold : ∀ (devices : List AwarenessRecord) (records : InsertionMap JsString AwarenessRecord),
      (∀ id record, records.get? id = some record → record.id = id) →
      ∀ id record, (devices.foldl (fun records device => records.insert device.id device) records).get? id =
        some record → record.id = id := by
    intro devices
    induction devices with
    | nil => exact fun _ h => h
    | cons device devices ih =>
      intro records h
      apply ih
      intro id record hrecord
      rw [InsertionMap.get?_insert] at hrecord
      split at hrecord
      · next hid => rw [← Option.some.inj hrecord, hid]
      · exact h id record hrecord
  exact hfold devices .empty fun _ _ h => by cases h

end AwarenessRegistry

/-! ## Runs -/

/-- An observation returns a record, which is online if it was enrolled. -/
def Observation.Kept (observation : Observation) : Prop :=
  ∃ record, observation.result = .ok record ∧ (observation.enrolled = true → record.state = .online)

instance (observation : Observation) : Decidable observation.Kept :=
  decidable_of_iff ((observation.result.toOption.any fun record =>
      decide (observation.enrolled = true → record.state = .online)) = true) <| by
    unfold Observation.Kept
    cases observation.result <;> simp [Except.toOption, imp_iff_not_or]

namespace AwarenessService

variable {host : AwarenessHost} {s s' : AwarenessService}

/-- **Awareness keeps what it knows**: every observation so far was kept, and every change of a state was
allowed. -/
structure Kept (s : AwarenessService) : Prop where
  observed : ∀ observation ∈ s.observations, observation.Kept
  allowed : ∀ change ∈ s.registry.changes, canTransition change.1 change.2 = true

/-- A candidate is recognised: the store can be written; what is online is listed in `devices.json` under the
id of the candidate, or is guessed to be of a known module; and what is enrolled is listed so. -/
def Recognised (host : AwarenessHost) (s : AwarenessService) : AwarenessStep → Prop
  | .observe candidate _ _ failure => failure = none ∧
    AwarenessRegistry.Placeable host s.registry s.readEnrolledIds candidate ∧
      (s.enrolments.any (·.1 = candidate.id) = true → candidate.id ∈ s.readEnrolledIds)
  | _ => True

instance : ∀ event : AwarenessStep, Decidable (s.Recognised host event)
  | .observe candidate _ _ failure =>
    inferInstanceAs (Decidable (failure = none ∧
      AwarenessRegistry.Placeable host s.registry s.readEnrolledIds candidate ∧
        (s.enrolments.any (·.1 = candidate.id) = true → candidate.id ∈ s.readEnrolledIds)))
  | .tick _ _ | .enroll _ _ _ _ _ _ | .markEnrolled _ _ _ _ | .devicesWritten _ | .restart => isTrue trivial

/-- **An observation is kept exactly when its candidate is recognised.** -/
theorem observation_kept (h : s.registry.Sound) (candidate : DiscoveredCandidate) (extras : AwarenessRegistry.Extras)
    (now : Int) (failure : Option Thrown) :
    Observation.Kept
        { enrolled := s.enrolments.any (·.1 = candidate.id)
          result := (s.registry.observeCandidate host s.readEnrolledIds candidate extras now failure).2 } ↔
      s.Recognised host (.observe candidate extras now failure) := by
  obtain ⟨-, hok, honline⟩ :=
    AwarenessRegistry.observeCandidate_spec host s.readEnrolledIds candidate extras now failure h
  constructor
  · rintro ⟨record, hrecord, hstate⟩
    obtain ⟨hfailure, hplace⟩ := hok.mp ⟨record, hrecord⟩
    exact ⟨hfailure, hplace, fun henrolled => (honline record hrecord).mp (hstate henrolled)⟩
  · rintro ⟨hfailure, hplace, hlisted⟩
    obtain ⟨record, hrecord⟩ := hok.mpr ⟨hfailure, hplace⟩
    exact ⟨record, hrecord, fun henrolled => (honline record hrecord).mpr (hlisted henrolled)⟩

/-- Enrolling makes allowed transitions, and observes nothing. -/
theorem enroll_spec (h : s.registry.Sound) (id : JsString) (options : EnrollOptions) (now : Int)
    (enrolledAt : JsString) (devicesFailure failure : Option Thrown) :
    (s.enroll id options now enrolledAt devicesFailure failure).1.registry.Sound ∧
      (s.enroll id options now enrolledAt devicesFailure failure).1.observations = s.observations := by
  rw [enroll]
  split
  · exact ⟨h, rfl⟩
  · split
    · exact ⟨h, rfl⟩
    · dsimp only
      split
      · exact ⟨h, rfl⟩
      · split
        · exact ⟨h, rfl⟩
        · have hmarked : ∀ moduleId out, s.registry.markEnrolled id moduleId now failure = out → out.1.Sound := by
            rintro moduleId out rfl
            exact h.markEnrolled id moduleId now failure
          split
          · next hmark => exact ⟨hmarked _ _ hmark, rfl⟩
          · next hmark => exact ⟨hmarked _ _ hmark, rfl⟩

/-- **One step** observes at most one candidate, which is kept exactly when it is recognised. -/
theorem step_observations (h : s.registry.Sound) (event : AwarenessStep) :
    (s.step host event).registry.Sound ∧ ∃ new, (s.step host event).observations = s.observations ++ new ∧
      ((∀ observation ∈ new, observation.Kept) ↔ s.Recognised host event) := by
  have hnone : (∀ observation ∈ ([] : List Observation), observation.Kept) ↔ True := by simp
  cases event with
  | observe candidate extras now failure =>
    obtain ⟨hs, -, -⟩ :=
      AwarenessRegistry.observeCandidate_spec host s.readEnrolledIds candidate extras now failure h
    refine ⟨hs, _, rfl, ?_⟩
    rw [List.forall_mem_singleton]
    exact observation_kept h candidate extras now failure
  | tick now failure => exact ⟨h.tick host now failure, [], by simp [step], hnone⟩
  | enroll id options now enrolledAt devicesFailure failure =>
    obtain ⟨hs, hobs⟩ := enroll_spec h id options now enrolledAt devicesFailure failure
    exact ⟨hs, [], by rw [List.append_nil]; exact hobs, hnone⟩
  | markEnrolled id moduleId now failure =>
    exact ⟨h.markEnrolled id moduleId now failure, [], by simp [step], hnone⟩
  | devicesWritten devices => exact ⟨h, [], by simp [step, setDevices], hnone⟩
  | restart => exact ⟨⟨AwarenessRegistry.keyed_load _, h.allowed⟩, [], by simp [step, restart], hnone⟩

/-- **Awareness keeps what it knows exactly in the runs in which every candidate is recognised.** -/
theorem kept_iff_recognised (host : AwarenessHost) (stored : List AwarenessRecord)
    (devices : Except Thrown (List DeviceDefinition)) (events : List AwarenessStep) (s : AwarenessService)
    (hrun : (machine host).run (start stored devices) events = some s) :
    s.Kept ↔ (machine host).Guarded (Recognised host) (start stored devices) events := by
  have hstart : (start stored devices).registry.Sound := ⟨AwarenessRegistry.keyed_load stored, by simp [start]⟩
  obtain ⟨hs, new, hnew, hgood⟩ := Machine.run_history (M := machine host) (P := Recognised host)
    (fun s : AwarenessService => s.registry.Sound) (·.observations) Observation.Kept
    (fun s event t h hstep => by
      obtain rfl := Option.some.inj hstep
      exact step_observations h event) hstart hrun
  rw [← hgood]
  constructor
  · intro h observation hmem
    apply h.observed
    rw [hnew]
    exact List.mem_append_right _ hmem
  · intro h
    refine ⟨fun observation hmem => ?_, hs.allowed⟩
    rw [hnew] at hmem
    rcases List.mem_append.mp hmem with hmem | hmem
    · exact absurd hmem List.not_mem_nil
    · exact h observation hmem

def demoHost : AwarenessHost where
  sha256 := fun _ => []
  toLowerCase := List.map foldCase

/-- A board on a serial port, with what its module is guessed to be. -/
def serialBoard (guesses : List IdentityGuess) : DiscoveredCandidate where
  id := js "cand_b30ba4d2730c"
  endpoint := { kind := .serial, address := js "/dev/cu.mock-esp32" }
  possibleIdentity := guesses
  confidence := 1 / 2

def esp32Guess : IdentityGuess := { moduleId := js "pinout/esp32" }

/-- The board is seen, enrolled under an id, and seen again with some guesses. -/
def boardReturns (deviceId : Option JsString) (guesses : List IdentityGuess) : List AwarenessStep :=
  [.observe (serialBoard [esp32Guess]) {} 1000 none,
    .enroll (serialBoard []).id { deviceId } 2000 (js "2026-01-01T00:00:00.000Z") none none,
    .observe (serialBoard guesses) {} 3000 none]

/-- The board is enrolled under the id of its candidate. -/
theorem kept_iff_recognised_board :
    ∃ s, (machine demoHost).run (start [] (.ok [])) (boardReturns (some (serialBoard []).id) []) = some s ∧
      s.enrolments ≠ [] ∧ s.Kept :=
  ⟨_, rfl, by decide +kernel, (kept_iff_recognised demoHost [] (.ok [])
    (boardReturns (some (serialBoard []).id) []) _ rfl).mpr (by decide +kernel)⟩

/-- The board is enrolled under the id the service makes; it is seen again, and waits to be enrolled. Without a
guess it is not even observed. -/
theorem not_kept :
    (∃ s, (machine demoHost).run (start [] (.ok [])) (boardReturns none [esp32Guess]) = some s ∧ ¬ s.Kept ∧
      s.enrolments ≠ [] ∧
      s.observations.map (fun observation => (observation.result.toOption.map (·.state), observation.enrolled)) =
        [(some .pendingEnroll, false), (some .pendingEnroll, true)]) ∧
    ∃ s, (machine demoHost).run (start [] (.ok [])) (boardReturns none []) = some s ∧ ¬ s.Kept ∧
      s.observations.map (fun observation => (observation.result.toOption.map (·.state), observation.enrolled)) =
        [(some .pendingEnroll, false), (none, true)] := by
  refine ⟨⟨_, rfl, fun h => ?_, by decide +kernel, by decide +kernel⟩, ⟨_, rfl, fun h => ?_, by decide +kernel⟩⟩
  · exact absurd h.observed (by decide +kernel)
  · exact absurd h.observed (by decide +kernel)

end AwarenessService

end Pinout.Awareness
