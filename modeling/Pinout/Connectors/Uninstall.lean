import Pinout.Connectors.Pipeline

/-! # Uninstalling a connector's module

`uninstallConnectorModule` of `daemon/src/connectors/install.ts` with `uninstallModule` of `core/src/home/moduleStore.ts`,
as `reject` calls it. Connectors have fresh ids, but modules are found by the module id: `reject_frame_iff` says which
rejects leave the modules of the other connectors alone. -/

namespace Pinout.Connectors

open Foundation

/-- A row of the modules index, as far as it is read. -/
structure ModuleRow where
  id : JsString
  installPath : JsString
  builtin : Bool := false
  deriving DecidableEq

/-- The modules of a daemon: what is registered, the index, and the directories and files by their paths. -/
structure ModuleStore (Definition : Type) where
  runtimeModules : JsString → Option Definition
  modules : List ModuleRow
  directories : List JsString
  files : List (JsString × List UInt8)

/-- A path is a directory's own or one below it. -/
def isWithin (dir path : JsString) : Bool := path = dir || (dir ++ js "/").isPrefixOf path

/-- `moduleId.replace('/', '--')`, the first slash only. -/
def replaceSlash : JsString → JsString
  | [] => []
  | u :: us => if u = 47 then js "--" ++ us else u :: replaceSlash us

def moduleInstallDirectory (home moduleId : JsString) : JsString := home ++ js "/modules/" ++ replaceSlash moduleId

namespace ModuleStore

variable {Definition : Type} (safe : JsString → Bool) (home : JsString)

def existsSync (s : ModuleStore Definition) (path : JsString) : Bool :=
  s.directories.contains path || s.files.any (·.1 = path)

/-- `rmSync`, recursive. -/
def rmSync (s : ModuleStore Definition) (path : JsString) : ModuleStore Definition :=
  { s with
    directories := s.directories.filter fun directory => !isWithin path directory
    files := s.files.filter fun file => !isWithin path file.1 }

/-- `unregisterModule`. -/
def unregister (s : ModuleStore Definition) (moduleId : JsString) : ModuleStore Definition :=
  { s with runtimeModules := Function.update s.runtimeModules moduleId none }

def row (s : ModuleStore Definition) (moduleId : JsString) : Option ModuleRow := s.modules.find? (·.id = moduleId)

/-- `uninstallModule` of a row that is found; it throws for a built-in module and for a path that is not safe. -/
def uninstallModule (s : ModuleStore Definition) (found : ModuleRow) : ModuleStore Definition :=
  if found.builtin || !safe found.installPath then s
  else { s.rmSync found.installPath with modules := s.modules.filter (·.id ≠ found.id) }

/-- `uninstallConnectorModule`, also where it throws in the end. -/
def uninstallConnectorModule (s : ModuleStore Definition) (connector : ConnectorRecord) : ModuleStore Definition :=
  if connector.moduleId = [] then s
  else
    let unregistered := s.unregister connector.moduleId
    match s.row connector.moduleId with
    | some found => unregistered.uninstallModule safe found
    | none =>
      match connector.installPath.filter s.existsSync with
      | some path => unregistered.rmSync path
      | none => unregistered.rmSync (moduleInstallDirectory home connector.moduleId)

/-- The modules after `reject`, which uninstalls only what is installed. -/
def reject (s : ModuleStore Definition) (p : ConnectorPipeline) (id : JsString) : ModuleStore Definition :=
  match p.get id with
  | .ok record => if record.status = .installed then s.uninstallConnectorModule safe home record else s
  | .error _ => s

/-- The module of a connector is the same: what is registered, its row, and its files. -/
structure SameModule (s s' : ModuleStore Definition) (connector : ConnectorRecord) : Prop where
  registered : s'.runtimeModules connector.moduleId = s.runtimeModules connector.moduleId
  row : s'.row connector.moduleId = s.row connector.moduleId
  files : ∀ path ∈ connector.installPath,
    s'.files.filter (isWithin path ·.1) = s.files.filter (isWithin path ·.1)

/-- The row that an uninstall removes. -/
def removedRow (s : ModuleStore Definition) (connector : ConnectorRecord) : Option ModuleRow :=
  (s.row connector.moduleId).filter fun found => !found.builtin && safe found.installPath

/-- The directory that an uninstall removes. -/
def removedPath (s : ModuleStore Definition) (connector : ConnectorRecord) : Option JsString :=
  match s.row connector.moduleId with
  | some _ => (s.removedRow safe connector).map ModuleRow.installPath
  | none => some ((connector.installPath.filter s.existsSync).getD (moduleInstallDirectory home connector.moduleId))

/-- Uninstalling one connector's module leaves another one's alone: another module id, or a module that is not there;
and no file of the other one in the directory that is removed. -/
structure Apart (s : ModuleStore Definition) (connector other : ConnectorRecord) : Prop where
  module : other.moduleId = connector.moduleId →
    s.runtimeModules connector.moduleId = none ∧ s.removedRow safe connector = none
  files : ∀ dir ∈ s.removedPath safe home connector, ∀ path ∈ other.installPath, ∀ file ∈ s.files,
    isWithin path file.1 = true → isWithin dir file.1 = false

variable {safe home} {s : ModuleStore Definition} {connector : ConnectorRecord}

theorem uninstall_runtimeModules (h : connector.moduleId ≠ []) :
    (s.uninstallConnectorModule safe home connector).runtimeModules =
      Function.update s.runtimeModules connector.moduleId none := by
  unfold uninstallConnectorModule uninstallModule
  rw [if_neg h]
  dsimp only
  split
  · split <;> rfl
  · split <;> rfl

theorem uninstall_modules (h : connector.moduleId ≠ []) :
    (s.uninstallConnectorModule safe home connector).modules =
      if (s.removedRow safe connector).isSome then s.modules.filter (·.id ≠ connector.moduleId) else s.modules := by
  unfold uninstallConnectorModule uninstallModule removedRow
  rw [if_neg h]
  dsimp only
  cases hrow : s.row connector.moduleId with
  | none => cases connector.installPath.filter s.existsSync <;> rfl
  | some found =>
    have hid : found.id = connector.moduleId := by simpa using List.find?_some hrow
    cases hb : found.builtin <;> cases hs : safe found.installPath <;> simp [hb, hs, hid, unregister]

theorem uninstall_files (h : connector.moduleId ≠ []) :
    (s.uninstallConnectorModule safe home connector).files =
      s.files.filter fun file => (s.removedPath safe home connector).all fun dir => !isWithin dir file.1 := by
  unfold uninstallConnectorModule uninstallModule removedPath removedRow
  rw [if_neg h]
  dsimp only
  cases hrow : s.row connector.moduleId with
  | none => cases hpath : connector.installPath.filter s.existsSync <;> simp [rmSync, unregister]
  | some found =>
    cases hb : found.builtin <;> cases hs : safe found.installPath <;>
      simp [Option.filter, hb, hs, rmSync, unregister]

/-- An uninstall leaves another connector's module alone exactly when the two are apart. -/
theorem sameModule_uninstall_iff (h : connector.moduleId ≠ []) (other : ConnectorRecord) :
    SameModule s (s.uninstallConnectorModule safe home connector) other ↔ Apart safe home s connector other := by
  have hremoved : ∀ row ∈ s.removedRow safe connector, s.row connector.moduleId = some row := fun row hrow =>
    (Option.filter_eq_some_iff.mp hrow).1
  constructor
  · intro same
    refine ⟨fun hid => ⟨?_, ?_⟩, fun dir hdir path hpath file hfile hin => ?_⟩
    · have registered := same.registered
      rw [uninstall_runtimeModules h, hid, Function.update_self] at registered
      exact registered.symm
    · cases hrow : s.removedRow safe connector with
      | none => rfl
      | some row =>
        have gone := same.row
        rw [ModuleStore.row, uninstall_modules h, hrow, hid, hremoved row hrow] at gone
        obtain ⟨hmem, hrest⟩ := List.mem_filter.mp (List.mem_of_find?_eq_some gone)
        have hfound : row.id = connector.moduleId := by simpa using List.find?_some gone
        simp [hfound] at hrest
    · have kept : file ∈ (s.uninstallConnectorModule safe home connector).files :=
        (List.mem_filter.mp (same.files path hpath ▸ List.mem_filter.mpr ⟨hfile, hin⟩ : file ∈ _)).1
      rw [uninstall_files h] at kept
      have hdir' : s.removedPath safe home connector = some dir := hdir
      simpa [hdir'] using (List.mem_filter.mp kept).2
  · intro apart
    refine ⟨?_, ?_, fun path hpath => ?_⟩
    · rw [uninstall_runtimeModules h]
      by_cases hid : other.moduleId = connector.moduleId
      · rw [hid, Function.update_self, (apart.module hid).1]
      · exact Function.update_of_ne hid _ _
    · rw [ModuleStore.row, uninstall_modules h]
      by_cases hid : other.moduleId = connector.moduleId
      · rw [(apart.module hid).2]
        rfl
      · split
        · rw [List.find?_filter]
          refine congrArg (fun p => s.modules.find? p) (funext fun row => ?_)
          by_cases hrow : row.id = other.moduleId
          · simp [hrow, hid]
          · simp [hrow]
        · rfl
    · rw [uninstall_files h, List.filter_filter]
      refine List.filter_congr fun file hfile => ?_
      cases hin : isWithin path file.1 with
      | false => rfl
      | true =>
        cases hdir : s.removedPath safe home connector with
        | none => rfl
        | some dir => simp [apart.files dir hdir path hpath file hfile hin]

/-- **Rejecting one connector leaves the others' modules alone** exactly when it is not installed, or its module is apart
from that of every other connector that is. -/
theorem reject_frame_iff (safe : JsString → Bool) (home : JsString) (p : ConnectorPipeline) (s : ModuleStore Definition)
    (id : JsString) :
    (∀ key other, key ≠ id → p.records.get? key = some other → other.status = .installed →
        SameModule s (s.reject safe home p id) other) ↔
      ∀ connector, p.get id = .ok connector → connector.status = .installed → connector.moduleId ≠ [] →
        ∀ key other, key ≠ id → p.records.get? key = some other → other.status = .installed →
          Apart safe home s connector other := by
  unfold reject
  cases hget : p.get id with
  | error e => exact ⟨fun _ => nofun, fun _ _ _ _ _ _ => ⟨rfl, rfl, fun _ _ => rfl⟩⟩
  | ok connector =>
    dsimp only
    by_cases hstatus : connector.status = .installed
    · rw [if_pos hstatus]
      by_cases hmodule : connector.moduleId = []
      · have unchanged : s.uninstallConnectorModule safe home connector = s := if_pos hmodule
        rw [unchanged]
        constructor
        · rintro - c ⟨⟩ - hne
          exact absurd hmodule hne
        · exact fun _ _ _ _ _ _ => ⟨rfl, rfl, fun _ _ => rfl⟩
      · constructor
        · rintro h c ⟨⟩ - - key other hkey hother hinstalled
          exact (sameModule_uninstall_iff hmodule other).mp (h key other hkey hother hinstalled)
        · intro h key other hkey hother hinstalled
          exact (sameModule_uninstall_iff hmodule other).mpr (h connector rfl hstatus hmodule key other hkey hother
            hinstalled)
    · rw [if_neg hstatus]
      constructor
      · rintro - c ⟨⟩ hinstalled
        exact absurd hinstalled hstatus
      · exact fun _ _ _ _ _ _ => ⟨rfl, rfl, fun _ _ => rfl⟩

/-- An installed connector of a lamp. -/
def installedLamp (id : JsString) : ConnectorRecord where
  id := id
  moduleId := js "acme/lamp"
  status := .installed
  capabilities := []
  passed := true
  installPath := some (js "/home/modules/acme--lamp")
  updatedAt := []

/-- Two lamps of one model are installed, and one is rejected. -/
theorem not_reject_frame :
    ¬ ∀ (p : ConnectorPipeline) (s : ModuleStore Unit) (id key : JsString) (other : ConnectorRecord), key ≠ id →
      p.records.get? key = some other → other.status = .installed →
        SameModule s (s.reject (fun _ => true) (js "/home") p id) other := by
  intro h
  let p : ConnectorPipeline :=
    { records := (InsertionMap.empty.insert (js "a") (installedLamp (js "a"))).insert (js "b") (installedLamp (js "b")) }
  let s : ModuleStore Unit :=
    ⟨fun _ => some (), [⟨js "acme/lamp", js "/home/modules/acme--lamp", false⟩], [js "/home/modules/acme--lamp"],
      [(js "/home/modules/acme--lamp/index.js", [65])]⟩
  have same := h p s (js "a") (js "b") (installedLamp (js "b")) (by decide) (by rfl) rfl
  have gone : (s.reject (fun _ => true) (js "/home") p (js "a")).row (js "acme/lamp") = none := by decide +kernel
  exact absurd (gone.symm.trans same.row) (by decide)

end ModuleStore

end Pinout.Connectors
