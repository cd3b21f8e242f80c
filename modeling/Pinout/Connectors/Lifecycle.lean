import Pinout.Connectors.Pipeline
import Pinout.Foundation.Entries

/-! # The lifecycle of a connector

An install writes back the record it read before it waited. Runs in which no install goes on, after it has
waited, while the record that is stored is that of a rejected connector, keep rejected connectors rejected,
and install only what has passed the gate and was approved. -/

namespace Pinout.Connectors

open Foundation

namespace ConnectorPipeline

/-- A connector is installed only when its gate has passed, an approval was recorded before an install of
it began that has been stored, and no reject of it has completed; a rejected connector stays rejected, and
no module of it is registered. -/
structure Lawful (p : ConnectorPipeline) : Prop where
  installed : ∀ (id : JsString) (record : ConnectorRecord), p.records.get? id = some record →
    record.status = .installed → id ∈ p.gated ∧ id ∉ p.rejected ∧
      ∃ install ∈ p.installs, install.connector.id = id ∧ install.approved = true ∧
        install.stage = .stored
  rejected : ∀ id ∈ p.rejected, ∃ record, p.records.get? id = some record ∧ record.status = .rejected
  registrations : ∀ registration ∈ p.registrations, registration.2 = false

/-- Whether the record that is stored for a connector is that of a rejected one. -/
def isRejected (p : ConnectorPipeline) (id : JsString) : Bool :=
  match p.records.get? id with
  | some record => record.status = .rejected
  | none => false

/-- An install does not go on when its connector has been rejected while it waited. -/
def Uncrossed (p : ConnectorPipeline) : PipelineEvent → Prop
  | .loaded number _ _ _ _ | .stored number =>
    ∀ install ∈ p.installs[number]?, p.isRejected install.connector.id = false
  | _ => True

instance (p : ConnectorPipeline) (event : PipelineEvent) : Decidable (p.Uncrossed event) := by
  unfold Uncrossed
  split <;> infer_instance

/-! ## What a run keeps -/

structure RecordSound (p : ConnectorPipeline) (id : JsString) (record : ConnectorRecord) : Prop where
  key : record.id = id
  gated : record.status ≠ .candidate → record.status ≠ .rejected → id ∈ p.gated
  approved : record.status = .approved ∨ record.status = .installed → id ∈ p.approved
  installed : record.status = .installed → ∃ install ∈ p.installs, install.connector.id = id ∧
    install.approved = true ∧ install.stage = .stored

structure InstallSound (p : ConnectorPipeline) (install : Install) : Prop where
  gated : install.connector.id ∈ p.gated
  recorded : install.connector.id ∈ p.approved
  approved : install.approved = true
  result : ∀ result, install.stage = .registered result →
    result.id = install.connector.id ∧ result.status = .installed

structure Sound (p : ConnectorPipeline) : Prop where
  records : ∀ id record, p.records.get? id = some record → RecordSound p id record
  installs : ∀ install ∈ p.installs, InstallSound p install
  rejected : ∀ id ∈ p.rejected, ∃ record, p.records.get? id = some record ∧ record.status = .rejected
  registrations : ∀ registration ∈ p.registrations, registration.2 = false

variable {p p' : ConnectorPipeline}

theorem Sound.lawful (h : p.Sound) : p.Lawful := by
  refine ⟨fun id record hrecord hstatus => ?_, h.rejected, h.registrations⟩
  have hsound := h.records id record hrecord
  refine ⟨hsound.gated (by rw [hstatus]; nofun) (by rw [hstatus]; nofun), fun hid => ?_,
    hsound.installed hstatus⟩
  obtain ⟨record', hrecord', hrejected⟩ := h.rejected id hid
  obtain rfl := Option.some.inj (hrecord.symm.trans hrecord')
  rw [hstatus] at hrejected
  cases hrejected

theorem fields_withCapabilityEnablement (record : ConnectorRecord) :
    record.withCapabilityEnablement.id = record.id ∧
      record.withCapabilityEnablement.status = record.status := by
  rw [ConnectorRecord.withCapabilityEnablement]
  split <;> exact ⟨rfl, rfl⟩

theorem exists_of_get {id : JsString} {record : ConnectorRecord} (h : p.get id = .ok record) :
    ∃ stored, p.records.get? id = some stored ∧ record.id = stored.id ∧ record.status = stored.status := by
  rw [get] at h
  split at h
  · next stored hstored =>
    obtain rfl := Except.ok.inj h
    obtain ⟨hid, hstatus⟩ := fields_withCapabilityEnablement stored
    exact ⟨stored, hstored, hid, hstatus⟩
  · cases h

theorem RecordSound.mono {id : JsString} {record : ConnectorRecord} (h : RecordSound p id record)
    (hgated : ∀ id ∈ p.gated, id ∈ p'.gated) (happroved : ∀ id ∈ p.approved, id ∈ p'.approved)
    (hinstalls : ∀ install ∈ p.installs, install.stage = .stored → install ∈ p'.installs) :
    RecordSound p' id record := by
  refine ⟨h.key, fun hcandidate hrejected => hgated id (h.gated hcandidate hrejected),
    fun hstatus => happroved id (h.approved hstatus), fun hstatus => ?_⟩
  obtain ⟨install, hmem, hid, happroved, hstage⟩ := h.installed hstatus
  exact ⟨install, hinstalls install hmem hstage, hid, happroved, hstage⟩

theorem InstallSound.mono {install : Install} (h : InstallSound p install)
    (hgated : ∀ id ∈ p.gated, id ∈ p'.gated) (happroved : ∀ id ∈ p.approved, id ∈ p'.approved) :
    InstallSound p' install :=
  ⟨hgated _ h.gated, happroved _ h.recorded, h.approved, h.result⟩

/-- **A record is written** that is sound, and not over that of a rejected connector. -/
theorem Sound.write (h : p.Sound) (record : ConnectorRecord) (gated approved : List JsString)
    (hgated : ∀ id ∈ p.gated, id ∈ gated) (happroved : ∀ id ∈ p.approved, id ∈ approved)
    (hrecord : RecordSound { p with gated := gated, approved := approved } record.id record)
    (hrejected : record.id ∈ p.rejected → record.status = .rejected) :
    Sound { p.write record with gated := gated, approved := approved } := by
  constructor
  · intro id stored hstored
    have hstored : (p.records.insert record.id record).get? id = some stored := hstored
    by_cases hid : id = record.id
    · subst hid
      rw [InsertionMap.get?_insert_self] at hstored
      obtain rfl := Option.some.inj hstored
      exact hrecord.mono (fun _ => id) (fun _ => id) (fun _ hmem _ => hmem)
    · rw [InsertionMap.get?_insert_of_ne _ _ hid] at hstored
      exact (h.records id stored hstored).mono hgated happroved (fun _ hmem _ => hmem)
  · exact fun install hinstall => (h.installs install hinstall).mono hgated happroved
  · intro id hid
    obtain ⟨stored, hstored, hstatus⟩ := h.rejected id hid
    by_cases heq : id = record.id
    · subst heq
      exact ⟨record, InsertionMap.get?_insert_self _ _ _, hrejected hid⟩
    · exact ⟨stored, (InsertionMap.get?_insert_of_ne _ _ heq).trans hstored, hstatus⟩
  · exact h.registrations

theorem Sound.setStage (h : p.Sound) {number : Nat} {install : Install} (stage : InstallStage)
    (hinstall : p.installs[number]? = some install) (hopen : install.stage ≠ .stored)
    (hresult : ∀ result, stage = .registered result →
      result.id = install.connector.id ∧ result.status = .installed) :
    (p.setStage number stage).Sound := by
  have hkept : ∀ other ∈ p.installs, other.stage = .stored →
      other ∈ p.installs.modify number fun install => { install with stage := stage } := by
    intro other hother hstage
    obtain ⟨n, hn⟩ := List.mem_iff_getElem?.mp hother
    by_cases hk : number = n
    · subst hk
      rw [Option.some.inj (hinstall.symm.trans hn)] at hopen
      exact absurd hstage hopen
    · exact List.mem_of_getElem? ((getElem?_modify_of_ne _ hk).trans hn)
  refine ⟨fun id record hrecord => ?_, fun other hother => ?_, h.rejected, h.registrations⟩
  · exact (h.records id record hrecord).mono (fun _ h => h) (fun _ h => h) hkept
  · obtain ⟨n, hn⟩ := List.mem_iff_getElem?.mp hother
    rcases getElem?_modify_cases hinstall hn with ⟨-, hold⟩ | ⟨-, rfl⟩
    · exact (h.installs other (List.mem_of_getElem? hold)).mono (fun _ h => h) (fun _ h => h)
    · obtain ⟨hg, hr, ha, -⟩ := h.installs install (List.mem_of_getElem? hinstall)
      exact ⟨hg, hr, ha, hresult⟩

/-- What a `generate` writes is a candidate, or has passed the gate and is in quarantine. -/
theorem generatedRecord_spec (id : JsString) (outcome : GenerateOutcome) (now : JsString) :
    (generatedRecord id outcome now).id = id ∧
      ((generatedRecord id outcome now).status = .candidate ∧
        (generatedRecord id outcome now).passed = false ∨
      (generatedRecord id outcome now).status = .quarantined ∧
        (generatedRecord id outcome now).passed = true) := by
  cases outcome with
  | failed => exact ⟨rfl, .inl ⟨rfl, rfl⟩⟩
  | gated moduleId capabilities passed contentHash =>
    cases passed with
    | false => exact ⟨rfl, .inl ⟨rfl, rfl⟩⟩
    | true => exact ⟨rfl, .inr ⟨rfl, rfl⟩⟩

theorem Sound.generated (h : p.Sound) {id : JsString} (hnew : p.records.get? id = none)
    (outcome : GenerateOutcome) (now : JsString) :
    Sound { p.write (generatedRecord id outcome now) with
      gated := if (generatedRecord id outcome now).passed then p.gated ++ [id] else p.gated } := by
  obtain ⟨hid, hstatus⟩ := generatedRecord_spec id outcome now
  refine h.write (generatedRecord id outcome now) _ p.approved (fun g hg => ?_)
    (fun _ h => h) ⟨rfl, fun hcandidate _ => ?_, fun happroved => ?_, fun hinstalled => ?_⟩
    fun hrejected => ?_
  · split
    · exact List.mem_append_left _ hg
    · exact hg
  · rcases hstatus with ⟨hc, -⟩ | ⟨-, hpassed⟩
    · exact absurd hc hcandidate
    · show (generatedRecord id outcome now).id ∈ _
      rw [hpassed, hid]
      exact List.mem_append_right _ (List.mem_singleton.mpr rfl)
  · rcases hstatus with ⟨hs, -⟩ | ⟨hs, -⟩ <;> rw [hs] at happroved <;>
      rcases happroved with happroved | happroved <;> cases happroved
  · rcases hstatus with ⟨hs, -⟩ | ⟨hs, -⟩ <;> rw [hs] at hinstalled <;> cases hinstalled
  · obtain ⟨record, hrecord, -⟩ := h.rejected _ hrejected
    rw [hid, hnew] at hrecord
    cases hrecord

theorem status_of_checkApproval {record : ConnectorRecord} {body : ApproveConnectorBody}
    (h : record.checkApproval body = .ok ()) :
    record.status = .quarantined ∨ record.status = .approved := by
  rw [ConnectorRecord.checkApproval] at h
  split at h
  · cases h
  · split at h
    · cases h
    · split at h
      · cases h
      · next hstatus =>
        by_contra hneither
        rw [not_or] at hneither
        exact hstatus hneither

/-- A connector that is not rejected in the store is not rejected. -/
theorem Sound.notMem_rejected (h : p.Sound) {id : JsString} {record : ConnectorRecord}
    (hrecord : p.records.get? id = some record) (hstatus : record.status ≠ .rejected) :
    id ∉ p.rejected := by
  intro hid
  obtain ⟨record', hrecord', hrejected⟩ := h.rejected id hid
  rw [Option.some.inj (hrecord.symm.trans hrecord')] at hstatus
  exact hstatus hrejected

theorem Sound.approve (h : p.Sound) {id : JsString} {body : ApproveConnectorBody} {now : JsString}
    (happrove : p.approve id body now = .ok p') : p'.Sound := by
  rw [ConnectorPipeline.approve] at happrove
  split at happrove
  · cases happrove
  · next record hget =>
    split at happrove
    · cases happrove
    · next hcheck =>
      obtain rfl := Except.ok.inj happrove
      obtain ⟨stored, hstored, hid, hstatus⟩ := exists_of_get hget
      have hsound := h.records id stored hstored
      have hkey : record.id = id := hid.trans hsound.key
      have hchecked := status_of_checkApproval hcheck
      rw [hstatus] at hchecked
      have hopen : stored.status ≠ .candidate ∧ stored.status ≠ .rejected := by
        rcases hchecked with hs | hs <;> rw [hs] <;> exact ⟨nofun, nofun⟩
      refine h.write (record.approve body now) p.gated _ (fun _ h => h)
        (fun g hg => List.mem_append_left _ hg) ⟨rfl, fun _ _ => ?_, fun _ => ?_, nofun⟩ fun hrejected => ?_
      · show record.id ∈ p.gated
        rw [hkey]
        exact hsound.gated hopen.1 hopen.2
      · exact List.mem_append_right _ (List.mem_singleton.mpr rfl)
      · have hnot := h.notMem_rejected hstored hopen.2
        rw [← hkey] at hnot
        exact absurd hrejected hnot

theorem status_of_checkInstall {record : ConnectorRecord} {actual : JsString}
    (h : record.checkInstall actual = .ok ()) :
    record.status = .approved ∨ record.status = .installed := by
  rw [ConnectorRecord.checkInstall] at h
  split at h
  · cases h
  · next hstatus =>
    by_contra hneither
    rw [not_or] at hneither
    exact hstatus hneither

theorem Sound.install (h : p.Sound) {id actual : JsString} (hinstall : p.install id actual = .ok p') :
    p'.Sound := by
  rw [ConnectorPipeline.install] at hinstall
  split at hinstall
  · cases hinstall
  · next record hget =>
    split at hinstall
    · cases hinstall
    · next hcheck =>
      obtain rfl := Except.ok.inj hinstall
      obtain ⟨stored, hstored, hid, hstatus⟩ := exists_of_get hget
      have hsound := h.records id stored hstored
      have hkey : record.id = id := hid.trans hsound.key
      have hchecked := status_of_checkInstall hcheck
      rw [hstatus] at hchecked
      have hopen : stored.status ≠ .candidate ∧ stored.status ≠ .rejected := by
        rcases hchecked with hs | hs <;> rw [hs] <;> exact ⟨nofun, nofun⟩
      have happroved := hsound.approved hchecked
      refine ⟨fun j r hr => ?_, fun other hother => ?_, h.rejected, h.registrations⟩
      · exact (h.records j r hr).mono (fun _ h => h) (fun _ h => h)
          fun other hother _ => List.mem_append_left _ hother
      · rcases List.mem_append.mp hother with hother | hother
        · exact (h.installs other hother).mono (fun _ h => h) (fun _ h => h)
        · obtain rfl := List.mem_singleton.mp hother
          refine ⟨?_, ?_, ?_, nofun⟩
          · show record.id ∈ p.gated
            rw [hkey]
            exact hsound.gated hopen.1 hopen.2
          · show record.id ∈ p.approved
            rwa [hkey]
          · show p.approved.contains record.id = true
            rw [hkey]
            exact List.contains_iff_mem.mpr happroved

/-- The modules that are registered do not matter to the records. -/
theorem Sound.modules (h : p.Sound) (runtimeModules index : InsertionMap JsString JsString) :
    Sound { p with runtimeModules, index } :=
  ⟨fun id record hrecord => (h.records id record hrecord).mono (fun _ h => h)
      (fun _ h => h) fun _ hmem _ => hmem,
    fun install hinstall => (h.installs install hinstall).mono (fun _ h => h) (fun _ h => h),
    h.rejected, h.registrations⟩

theorem Sound.rejecting (h : p.Sound) {id : JsString} {record : ConnectorRecord}
    (hrecord : p.records.get? id = some record) (hstatus : record.status = .rejected) :
    Sound { p with rejected := p.rejected ++ [id] } := by
  refine ⟨fun j r hr => (h.records j r hr).mono (fun _ h => h) (fun _ h => h) fun _ hmem _ => hmem,
    fun install hinstall => (h.installs install hinstall).mono (fun _ h => h) (fun _ h => h),
    fun j hj => ?_, h.registrations⟩
  rcases List.mem_append.mp hj with hj | hj
  · exact h.rejected j hj
  · obtain rfl := List.mem_singleton.mp hj
    exact ⟨record, hrecord, hstatus⟩

theorem Sound.reject (h : p.Sound) (id : JsString) (body : RejectConnectorBody) (now : JsString)
    (uninstall : Option Thrown) : (p.reject id body now uninstall).1.Sound := by
  rw [ConnectorPipeline.reject]
  split
  · exact h
  · next record hget =>
    obtain ⟨stored, hstored, hid, hstatus⟩ := exists_of_get hget
    have hkey : record.id = id := hid.trans (h.records id stored hstored).key
    have hfinish : ∀ p : ConnectorPipeline, p.Sound →
        Sound { p.write (record.reject body now) with rejected := p.rejected ++ [record.id] } := by
      intro p h
      have hneither : (record.reject body now).status = .approved ∨
          (record.reject body now).status = .installed → (record.reject body now).id ∈ p.approved := by
        rintro (hs | hs) <;> cases hs
      have hwrite : (p.write (record.reject body now)).Sound :=
        h.write (record.reject body now) p.gated p.approved (fun _ h => h) (fun _ h => h)
          ⟨rfl, fun _ hnot => absurd rfl hnot, hneither, nofun⟩ fun _ => rfl
      exact hwrite.rejecting (InsertionMap.get?_insert_self _ _ _) rfl
    dsimp only
    split
    · next hrejected =>
      exact h.rejecting (by rwa [hkey]) (hstatus.symm.trans hrejected)
    · exact h.modules _ _
    · exact hfinish _ (h.modules _ _)
    · exact hfinish p h

/-- **A step that nothing crosses** leaves everything sound. -/
theorem Sound.step (h : p.Sound) {event : PipelineEvent} (hcross : p.Uncrossed event)
    (hstep : p.step event = some p') : p'.Sound := by
  cases event <;> simp only [ConnectorPipeline.step] at hstep
  case generated id outcome now =>
    split at hstep
    · cases hstep
    · next hnew =>
      obtain rfl := Option.some.inj hstep
      exact h.generated (by simpa using hnew) outcome now
  case approve id body now =>
    split at hstep
    · next happrove =>
      obtain rfl := Option.some.inj hstep
      exact h.approve happrove
    · obtain rfl := Option.some.inj hstep
      exact h
  case install id actual =>
    split at hstep
    · next hinstall =>
      obtain rfl := Option.some.inj hstep
      exact h.install hinstall
    · obtain rfl := Option.some.inj hstep
      exact h
  case copied number moduleId =>
    split at hstep
    · next connector approved hinstall =>
      obtain rfl := Option.some.inj hstep
      exact (h.modules p.runtimeModules _).setStage _ hinstall (by rintro ⟨⟩) (by rintro _ ⟨⟩)
    · cases hstep
  case loaded number moduleId installPath contentHash now =>
    split at hstep
    · next connector approved hinstall =>
      obtain rfl := Option.some.inj hstep
      have hkept : connector.id ∉ p.rejected := by
        intro hid
        obtain ⟨record, hrecord, hstatus⟩ := h.rejected _ hid
        have hopen := hcross ⟨connector, .loading, approved⟩ hinstall
        rw [isRejected, hrecord] at hopen
        exact absurd hstatus (of_decide_eq_false hopen)
      have hregister : Sound { p with
          runtimeModules := p.runtimeModules.insert moduleId connector.id
          registrations := p.registrations ++ [(connector.id, p.rejected.contains connector.id)] } := by
        obtain ⟨hrecords, hinstalls, hrejected, -⟩ := h.modules (p.runtimeModules.insert moduleId connector.id)
          p.index
        refine ⟨fun j r hr => (hrecords j r hr).mono (fun _ h => h) (fun _ h => h)
            fun _ hmem _ => hmem, fun other hother => ?_, hrejected, fun registration hmem => ?_⟩
        · exact (hinstalls other hother).mono (fun _ h => h) (fun _ h => h)
        · rcases List.mem_append.mp hmem with hmem | hmem
          · exact h.registrations registration hmem
          · obtain rfl := List.mem_singleton.mp hmem
            simpa using hkept
      refine hregister.setStage _ hinstall (by rintro ⟨⟩) fun result hresult => ?_
      obtain rfl := InstallStage.registered.inj hresult
      exact ⟨rfl, rfl⟩
    · cases hstep
  case stored number =>
    split at hstep
    · next connector result approved hinstall =>
      obtain rfl := Option.some.inj hstep
      have hmem := List.mem_of_getElem? hinstall
      obtain ⟨hgated, hrecorded, happroved, hresult⟩ := h.installs _ hmem
      obtain ⟨hid, hstatus⟩ := hresult result rfl
      have hstage := h.setStage .stored hinstall (by rintro ⟨⟩) (by rintro _ ⟨⟩)
      have hdone : (⟨connector, .stored, approved⟩ : Install) ∈ (p.setStage number .stored).installs :=
        List.mem_of_getElem? (getElem?_modify_self _ hinstall)
      refine hstage.write result p.gated p.approved (fun _ h => h)
        (fun _ h => h) ⟨rfl, fun _ _ => by rwa [hid], fun _ => by rwa [hid],
          fun _ => ⟨_, hdone, hid.symm, happroved, rfl⟩⟩ fun hrejected => ?_
      -- the connector was not rejected while the install waited
      obtain ⟨record, hrecord, hstatus'⟩ := h.rejected _ hrejected
      have hopen := hcross _ hinstall
      rw [isRejected, ← hid, hrecord] at hopen
      exact absurd hstatus' (of_decide_eq_false hopen)
    · cases hstep
  case installFailed number =>
    split at hstep
    · next hinstall =>
      obtain rfl := Option.some.inj hstep
      exact h.setStage _ hinstall (by rintro ⟨⟩) (by rintro _ ⟨⟩)
    · next hinstall =>
      obtain rfl := Option.some.inj hstep
      exact h.setStage _ hinstall (by rintro ⟨⟩) (by rintro _ ⟨⟩)
    · cases hstep
  case reject id body now uninstall =>
    obtain rfl := Option.some.inj hstep
    exact h.reject id body now uninstall

/-- **A connector is installed only when it passed its gate, was approved and has not been rejected**, and
rejected ones stay so, in runs in which no install goes on over a reject. -/
theorem lawful_of_uncrossed {events : List PipelineEvent} (hrun : machine.run {} events = some p)
    (hcross : machine.Guarded Uncrossed {} events) : p.Lawful := by
  have hstart : Sound {} := by
    refine ⟨fun id record hrecord => ?_, fun _ h => absurd h List.not_mem_nil,
      fun _ h => absurd h List.not_mem_nil, fun _ h => absurd h List.not_mem_nil⟩
    rw [InsertionMap.get?_empty] at hrecord
    cases hrecord
  exact (machine.run_guarded_invariant (fun p event p' h hcross hstep => h.step hcross hstep) hstart hcross
    hrun).lawful

/-! ## A reject during an install -/

/-- A connector that is generated and approved, and whose files are copied by an install. -/
def installing : List PipelineEvent :=
  [.generated (js "c") (.gated (js "m") [(js "read", false)] true (js "hash")) (js "t0"),
    .approve (js "c") { capabilities := [js "read"], ranges := [] } (js "t1"),
    .install (js "c") (js "hash"), .copied 0 (js "m")]

def resuming : List PipelineEvent :=
  [.loaded 0 (js "m") (js "path") (js "hash") (js "t3"), .stored 0]

/-- Nothing happens while the connector is installed. -/
theorem lawful_of_uncrossed_installing :
    ∃ p, machine.run {} (installing ++ resuming) = some p ∧
      (p.records.get? (js "c")).map (·.status) = some .installed ∧ p.Lawful := by
  obtain ⟨p, hp, hview⟩ := Option.map_eq_some_iff.mp
    (show (machine.run {} (installing ++ resuming)).map
        (fun p => (p.records.get? (js "c")).map (·.status)) = some (some .installed) by decide +kernel)
  exact ⟨p, hp, hview, lawful_of_uncrossed hp (by decide +kernel)⟩

/-- A reject that completes during an install is overwritten by it, and the module is registered. -/
theorem not_lawful :
    ∃ p, machine.run {} (installing ++ .reject (js "c") {} (js "t2") none :: resuming) = some p ∧
      ¬ p.Lawful := by
  obtain ⟨p, hp, hview⟩ := Option.map_eq_some_iff.mp
    (show (machine.run {} (installing ++ .reject (js "c") {} (js "t2") none :: resuming)).map
        (fun p => (p.rejected, p.registrations, (p.records.get? (js "c")).map (·.status))) =
      some ([js "c"], [(js "c", true)], some .installed) by decide +kernel)
  obtain ⟨-, hview⟩ := Prod.mk.inj hview
  obtain ⟨hregistrations, -⟩ := Prod.mk.inj hview
  refine ⟨p, hp, fun h => ?_⟩
  have hfalse := h.registrations (js "c", true) (by rw [hregistrations]; exact List.mem_cons_self)
  cases hfalse

end ConnectorPipeline

end Pinout.Connectors
