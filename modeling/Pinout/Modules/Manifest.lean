import Pinout.Protocol.Messages
import Pinout.Foundation.Fallible

/-! # Module manifests

`pinout.module.json`, as it is validated (`packages/core/src/module/validate.ts`) and parsed
(`packages/core/src/module/manifest.ts`). Parsing fills in what older manifests lack, and drops what it does not
keep; what it keeps of each field is told by `Reads`. -/

namespace Pinout.Modules

open Foundation Protocol

def moduleInvalidError (message : JsString) : Thrown :=
  .pinoutError (js "ModuleInvalidError") (js "MODULE_INVALID") message

def moduleIncompatibleError (moduleId minimumVersion currentVersion : JsString) : Thrown :=
  .pinoutError (js "ModuleIncompatibleError") (js "MODULE_INCOMPATIBLE") (js "Module '" ++ moduleId ++
    js "' requires Pinout >= " ++ minimumVersion ++ js ", current " ++ currentVersion ++ js ".")

/-! ## Validation -/

/-- `[a-z0-9]`. -/
def isIdUnit (u : UInt16) : Bool := (97 ≤ u && u ≤ 122) || isDigit u

/-- `[a-zA-Z0-9.-]`. -/
def isTagUnit (u : UInt16) : Bool := isIdUnit u || (65 ≤ u && u ≤ 90) || u = 46 || u = 45

/-- `[a-z0-9][a-z0-9-]*`. -/
def isIdPart : JsString → Bool
  | [] => false
  | u :: rest => isIdUnit u && rest.all fun v => isIdUnit v || v = 45

/-- `MODULE_ID_PATTERN.test`. -/
def isModuleId (id : JsString) : Bool :=
  match id.splitOn 47 with
  | [vendor, name] => isIdPart vendor && isIdPart name
  | _ => false

/-- What follows `\d+` and a separator. -/
def afterNumber (separator : UInt16) (text : JsString) : Option JsString :=
  match text.takeWhile isDigit, text.dropWhile isDigit with
  | _ :: _, u :: rest => if u = separator then some rest else none
  | _, _ => none

/-- `(?:-[a-zA-Z0-9.-]+)?(?:\+[a-zA-Z0-9.-]+)?$`. -/
def isVersionTail (text : JsString) : Bool :=
  let isTag (tag : JsString) : Bool := tag ≠ [] && tag.all isTagUnit
  match text with
  | [] => true
  | 45 :: rest =>
    let tag := rest.takeWhile isTagUnit
    match rest.dropWhile isTagUnit with
    | [] => tag ≠ []
    | 43 :: build => tag ≠ [] && isTag build
    | _ => false
  | 43 :: build => isTag build
  | _ => false

/-- `SEMVER_PATTERN.test`. -/
def isSemver (version : JsString) : Bool :=
  match (afterNumber 46 version).bind (afterNumber 46) with
  | some patch => patch.takeWhile isDigit ≠ [] && isVersionTail (patch.dropWhile isDigit)
  | none => false

def assertValidModuleId (id : JsString) : Except Thrown Unit :=
  if isModuleId id then .ok ()
  else .error (moduleInvalidError (js "Module id '" ++ id ++
    js "' is invalid. Expected format 'vendor/name' using lowercase letters, digits, and hyphens."))

def assertValidSemver (version label : JsString) : Except Thrown Unit :=
  if isSemver version then .ok ()
  else .error (moduleInvalidError (label ++ js " '" ++ version ++ js "' is not valid semantic version."))

/-- The numbers of a version, without what follows the first hyphen. -/
def semverNumbers (version : JsString) : List Nat :=
  (((version.splitOn 45).headD []).splitOn 46).map fun part => parseDecimal (part.takeWhile isDigit)

def compareSemver (a b : JsString) : Int :=
  let difference (index : Nat) : Int := ((semverNumbers a).getD index 0 : Int) - (semverNumbers b).getD index 0
  if difference 0 ≠ 0 then difference 0
  else if difference 1 ≠ 0 then difference 1
  else difference 2

def pinoutVersion : JsString := js "0.0.1-alpha.1"

/-! ## Manifests -/

inductive ModuleRuntime
  | node | python
  deriving DecidableEq, Repr

def ModuleRuntime.text : ModuleRuntime → JsString
  | node => js "node"
  | python => js "python"

inductive ModuleStatus
  | candidate | reviewed | tested
  deriving DecidableEq, Repr

def ModuleStatus.text : ModuleStatus → JsString
  | candidate => js "CANDIDATE"
  | reviewed => js "REVIEWED"
  | tested => js "TESTED"

/-- `simulation`. -/
structure ModuleSimulation where
  provided : Bool
  simulator : Option JsString := none
  notes : Option JsString := none

/-- `pinout`. -/
structure PinoutRange where
  minimumVersion : Option JsString := none
  maximumMajor : Option ℚ := none

/-- `PinoutModuleManifest`; the version of its schema is 1. -/
structure PinoutModuleManifest where
  id : JsString
  version : JsString
  deviceClass : JsString
  entrypoint : JsString
  runtime : ModuleRuntime
  capabilities : List JsString
  simulation : ModuleSimulation
  status : ModuleStatus
  name : Option JsString
  description : Option JsString
  vendor : Option JsString
  model : Option JsString
  pinout : Option PinoutRange
  permissions : Option Json
  provenance : Option JsonObject

def presentFields (slots : List (JsString × Option Json)) : JsonObject :=
  slots.filterMap fun slot => slot.2.map fun value => (slot.1, value)

/-- The fields a `simulation` may have, with their values. -/
def ModuleSimulation.slots (simulation : ModuleSimulation) : List (JsString × Option Json) :=
  [(js "provided", some (.bool simulation.provided)), (js "simulator", simulation.simulator.map .str),
    (js "notes", simulation.notes.map .str)]

/-- The fields a `pinout` may have, with their values. -/
def PinoutRange.slots (range : PinoutRange) : List (JsString × Option Json) :=
  [(js "minimumVersion", range.minimumVersion.map .str), (js "maximumMajor", range.maximumMajor.map .num)]

/-- The fields a manifest may have, with their values, in the order they are set. -/
def PinoutModuleManifest.slots (manifest : PinoutModuleManifest) : List (JsString × Option Json) :=
  [(js "schemaVersion", some (.num 1)), (js "id", some (.str manifest.id)),
    (js "version", some (.str manifest.version)), (js "deviceClass", some (.str manifest.deviceClass)),
    (js "entrypoint", some (.str manifest.entrypoint)), (js "runtime", some (.str manifest.runtime.text)),
    (js "capabilities", some (.arr (manifest.capabilities.map .str))),
    (js "simulation", some (.obj (presentFields manifest.simulation.slots))),
    (js "status", some (.str manifest.status.text)), (js "name", manifest.name.map .str),
    (js "description", manifest.description.map .str), (js "vendor", manifest.vendor.map .str),
    (js "model", manifest.model.map .str),
    (js "pinout", manifest.pinout.map fun range => .obj (presentFields range.slots)),
    (js "permissions", manifest.permissions), (js "provenance", manifest.provenance.map .obj)]

def PinoutModuleManifest.json (manifest : PinoutModuleManifest) : Json := .obj (presentFields manifest.slots)

/-! ## Reading fields -/

section Reading

variable (object : JsonObject) (key : JsString)

def readString : Except Thrown JsString :=
  match Json.string? (object.get? key) with
  | some text =>
    if text = [] then .error (moduleInvalidError (js "Manifest field '" ++ key ++ js "' must be a non-empty string."))
    else .ok text
  | none => .error (moduleInvalidError (js "Manifest field '" ++ key ++ js "' must be a non-empty string."))

def readEnum {T : Type} (values : List T) (text : T → JsString) : Except Thrown T :=
  match (Json.string? (object.get? key)).bind fun name => values.find? fun value => text value = name with
  | some value => .ok value
  | none => .error (moduleInvalidError (js "Manifest field '" ++ key ++ js "' must be one of " ++
      List.intercalate (js ", ") (values.map text) ++ js "."))

def nonEmptyStrings? : Option Json → Option (List JsString)
  | some (.arr items) => items.mapM fun item => (Json.string? (some item)).filter (· ≠ [])
  | _ => none

def readStringArray : Except Thrown (List JsString) :=
  match nonEmptyStrings? (object.get? key) with
  | some items => .ok items
  | none => .error (moduleInvalidError (js "Manifest field '" ++ key ++ js "' must be an array of non-empty strings."))

def readObject : Except Thrown JsonObject :=
  match Json.fields? (object.get? key) with
  | some fields => .ok fields
  | none => .error (moduleInvalidError (js "Manifest field '" ++ key ++ js "' must be an object."))

end Reading

/-- The names of the fields of a `simulation`. -/
def simulationFields : List JsString := [js "provided", js "simulator", js "notes"]

/-- What is read of a field that may be missing. -/
def orDefault {T : Type} (default : T) (read : Json → Except Thrown T) : Option Json → Except Thrown T
  | none => .ok default
  | some value => read value

/-- The `provided` of a `simulation`. -/
def readProvided (value : Option Json) : Except Thrown Bool :=
  match Json.boolean? value with
  | some provided => .ok provided
  | none => .error (moduleInvalidError (js "Manifest field 'simulation.provided' must be boolean."))

/-- The `simulator` of a `simulation`. -/
def readSimulator (value : Json) : Except Thrown (Option JsString) :=
  match (Json.string? (some value)).filter (· ≠ []) with
  | some text => .ok (some text)
  | none => .error (moduleInvalidError (js "Manifest field 'simulation.simulator' must be a non-empty string."))

/-- The `notes` of a `simulation`. -/
def readNotes (value : Json) : Except Thrown (Option JsString) :=
  match Json.string? (some value) with
  | some text => .ok (some text)
  | none => .error (moduleInvalidError (js "Manifest field 'simulation.notes' must be a string."))

/-- The fields of a `simulation`. -/
def readSimulationFields (record : JsonObject) : Except Thrown ModuleSimulation := do
  let provided ← readProvided (record.get? (js "provided"))
  let simulator ← orDefault none readSimulator (record.get? (js "simulator"))
  let notes ← orDefault none readNotes (record.get? (js "notes"))
  match (record.map (·.1)).find? fun name => !simulationFields.contains name with
  | some name => .error (moduleInvalidError (js "Unknown manifest field 'simulation." ++ name ++ js "'."))
  | none => .ok { provided, simulator, notes }

def readSimulation (value : Json) : Except Thrown ModuleSimulation :=
  match value with
  | .obj record => readSimulationFields record
  | _ => .error (moduleInvalidError (js "Manifest field 'simulation' must be an object."))

/-- The `maximumMajor` of a `pinout`, when it is a non-negative integer. -/
def readMaximumMajor : Option Json → Except Thrown (Option ℚ)
  | none => .ok none
  | some value => match (Json.number? (some value)).filter fun q => q.isInt ∧ 0 ≤ q with
    | some q => .ok (some q)
    | none => .error (moduleInvalidError
        (js "Manifest field 'pinout.maximumMajor' must be a non-negative integer."))

/-- The `minimumVersion` of a `pinout`, when it is a string. -/
def readMinimumVersion (id : JsString) (value : Option Json) : Except Thrown (Option JsString) :=
  match Json.string? value with
  | none => .ok none
  | some minimumVersion => do
    assertValidSemver minimumVersion (js "pinout.minimumVersion")
    if compareSemver pinoutVersion minimumVersion < 0 then
      .error (moduleIncompatibleError id minimumVersion pinoutVersion)
    else .ok (some minimumVersion)

/-- What is kept of a `pinout`. -/
def pinoutRange : Option JsString → Option ℚ → Option PinoutRange
  | none, none => none
  | minimumVersion, maximumMajor => some { minimumVersion, maximumMajor }

def manifestFields : List JsString :=
  [js "schemaVersion", js "id", js "version", js "deviceClass", js "entrypoint", js "runtime", js "capabilities",
    js "permissions", js "simulation", js "status", js "provenance", js "name", js "description", js "vendor",
    js "model", js "pinout"]

/-- The fields of a manifest, once its schema and the names of its fields are checked. -/
def parseManifestFields (manifest : JsonObject) : Except Thrown PinoutModuleManifest := do
  let id ← readString manifest (js "id")
  let version ← readString manifest (js "version")
  let deviceClass ← readString manifest (js "deviceClass")
  let entrypoint ← readString manifest (js "entrypoint")
  let runtime ← orDefault .node (fun _ => readEnum manifest (js "runtime") [.node, .python] ModuleRuntime.text)
    (manifest.get? (js "runtime"))
  let capabilities ← orDefault [] (fun _ => readStringArray manifest (js "capabilities"))
    (manifest.get? (js "capabilities"))
  let status ← orDefault .reviewed
    (fun _ => readEnum manifest (js "status") [.candidate, .reviewed, .tested] ModuleStatus.text)
    (manifest.get? (js "status"))
  let simulation ← orDefault { provided := false } readSimulation (manifest.get? (js "simulation"))
  assertValidModuleId id
  assertValidSemver version (js "version")
  let pinout := (Json.fields? (manifest.get? (js "pinout"))).getD []
  let minimumVersion ← readMinimumVersion id (pinout.get? (js "minimumVersion"))
  let maximumMajor ← readMaximumMajor (pinout.get? (js "maximumMajor"))
  let provenance ← orDefault none (fun _ => (readObject manifest (js "provenance")).map some)
    (manifest.get? (js "provenance"))
  .ok
    { id, version, deviceClass, entrypoint, runtime, capabilities, simulation, status
      name := Json.string? (manifest.get? (js "name"))
      description := Json.string? (manifest.get? (js "description"))
      vendor := Json.string? (manifest.get? (js "vendor"))
      model := Json.string? (manifest.get? (js "model"))
      pinout := pinoutRange minimumVersion maximumMajor
      permissions := manifest.get? (js "permissions")
      provenance }

/-- What is thrown for another version of the schema. -/
def unsupportedSchema (numText : ℚ → JsString) (schemaVersion : Option Json) : Thrown :=
  match stringOf numText schemaVersion with
  | .ok text => moduleInvalidError (js "Unsupported manifest schemaVersion '" ++ text ++ js "'.")
  | .error e => e

def parseModuleManifest (numText : ℚ → JsString) (raw : Json) : Except Thrown PinoutModuleManifest :=
  match raw with
  | .obj manifest =>
    if Json.number? (JsonObject.get? manifest (js "schemaVersion")) ≠ some 1 then
      .error (unsupportedSchema numText (JsonObject.get? manifest (js "schemaVersion")))
    else match (manifest.map (·.1)).find? fun name => !manifestFields.contains name with
      | some name => .error (moduleInvalidError (js "Unknown manifest field '" ++ name ++ js "'."))
      | none => parseManifestFields manifest
  -- an array is an object without a version
  | .arr _ => .error (unsupportedSchema numText none)
  | _ => .error (moduleInvalidError (js "Module manifest must be a JSON object."))

/-! ## What is kept -/

theorem orDefault_eq_ok {T : Type} {default result : T} {read : Json → Except Thrown T} {value : Option Json}
    (h : orDefault default read value = .ok result) :
    (value = none ∧ result = default) ∨ ∃ found, value = some found ∧ read found = .ok result := by
  cases value with
  | none => exact .inl ⟨rfl, (Except.ok.inj h).symm⟩
  | some found => exact .inr ⟨found, rfl, h⟩

theorem eq_str_of_string? {value : Option Json} {text : JsString} (h : Json.string? value = some text) :
    value = some (.str text) := by
  unfold Json.string? at h
  split at h
  · rw [Option.some.inj h]
  · cases h

theorem eq_obj_of_fields? {value : Option Json} {fields : JsonObject} (h : Json.fields? value = some fields) :
    value = some (.obj fields) := by
  unfold Json.fields? at h
  split at h
  · rw [Option.some.inj h]
  · cases h

theorem eq_bool_of_boolean? {value : Option Json} {b : Bool} (h : Json.boolean? value = some b) :
    value = some (.bool b) := by
  unfold Json.boolean? at h
  split at h
  · rw [Option.some.inj h]
  · cases h

theorem eq_num_of_number? {value : Option Json} {q : ℚ} (h : Json.number? value = some q) :
    value = some (.num q) := by
  unfold Json.number? at h
  split at h
  · rw [Option.some.inj h]
  · cases h

theorem readString_eq_ok {object : JsonObject} {key text : JsString} (h : readString object key = .ok text) :
    object.get? key = some (.str text) := by
  unfold readString at h
  split at h
  · next found hfound =>
    split at h
    · cases h
    · rw [← Except.ok.inj h]
      exact eq_str_of_string? hfound
  · cases h

theorem readEnum_eq_ok {T : Type} {object : JsonObject} {key : JsString} {values : List T} {text : T → JsString}
    {value : T} (h : readEnum object key values text = .ok value) : object.get? key = some (.str (text value)) := by
  unfold readEnum at h
  split at h
  · next found hfound =>
    obtain ⟨name, hname, hfind⟩ := Option.bind_eq_some_iff.mp hfound
    have htext : text found = name := by simpa using List.find?_some hfind
    rw [← Except.ok.inj h, htext]
    exact eq_str_of_string? hname
  · cases h

theorem nonEmptyStrings?_eq_some {value : Option Json} {texts : List JsString}
    (h : nonEmptyStrings? value = some texts) : value = some (.arr (texts.map .str)) := by
  unfold nonEmptyStrings? at h
  split at h
  · next items =>
    have hitems : ∀ (items : List Json) (texts : List JsString),
        (items.mapM fun item => (Json.string? (some item)).filter (· ≠ [])) = some texts →
          items = texts.map .str := by
      intro items
      induction items with
      | nil =>
        intro texts htexts
        rw [List.mapM_nil] at htexts
        rw [← Option.some.inj htexts]
        rfl
      | cons item items ih =>
        intro texts htexts
        rw [List.mapM_cons] at htexts
        obtain ⟨text, htext, htexts⟩ := Option.bind_eq_some_iff.mp htexts
        obtain ⟨rest, hrest, htexts⟩ := Option.bind_eq_some_iff.mp htexts
        obtain rfl := Option.some.inj htexts
        rw [ih rest hrest, List.map_cons, Option.some.inj (eq_str_of_string? (Option.filter_eq_some_iff.mp htext).1)]
    rw [hitems items texts h]
  · cases h

theorem readStringArray_eq_ok {object : JsonObject} {key : JsString} {texts : List JsString}
    (h : readStringArray object key = .ok texts) : object.get? key = some (.arr (texts.map .str)) := by
  unfold readStringArray at h
  split at h
  · next found hfound =>
    rw [← Except.ok.inj h]
    exact nonEmptyStrings?_eq_some hfound
  · cases h

/-- What is kept of the fields of a `simulation`: all of them. -/
structure ReadsSimulation (record : JsonObject) (simulation : ModuleSimulation) : Prop where
  known : ∀ name ∈ record.map (·.1), name ∈ simulationFields
  kept : ∀ slot ∈ simulation.slots, record.get? slot.1 = slot.2

structure Reads (fields : JsonObject) (manifest : PinoutModuleManifest) : Prop where
  known : ∀ name ∈ fields.map (·.1), name ∈ manifestFields
  schemaVersion : fields.get? (js "schemaVersion") = some (.num 1)
  id : fields.get? (js "id") = some (.str manifest.id)
  version : fields.get? (js "version") = some (.str manifest.version)
  deviceClass : fields.get? (js "deviceClass") = some (.str manifest.deviceClass)
  entrypoint : fields.get? (js "entrypoint") = some (.str manifest.entrypoint)
  runtime : fields.get? (js "runtime") = none ∨ fields.get? (js "runtime") = some (.str manifest.runtime.text)
  capabilities : fields.get? (js "capabilities") = none ∨
    fields.get? (js "capabilities") = some (.arr (manifest.capabilities.map .str))
  status : fields.get? (js "status") = none ∨ fields.get? (js "status") = some (.str manifest.status.text)
  simulation : fields.get? (js "simulation") = none ∨ ∃ record, fields.get? (js "simulation") = some (.obj record) ∧
    ReadsSimulation record manifest.simulation
  name : manifest.name = Json.string? (fields.get? (js "name"))
  description : manifest.description = Json.string? (fields.get? (js "description"))
  vendor : manifest.vendor = Json.string? (fields.get? (js "vendor"))
  model : manifest.model = Json.string? (fields.get? (js "model"))
  maximumMajor : ∀ record value, fields.get? (js "pinout") = some (.obj record) →
    JsonObject.get? record (js "maximumMajor") = some value → ∃ q, value = Json.num q
  pinout : manifest.pinout =
    pinoutRange (Json.string? (((Json.fields? (fields.get? (js "pinout"))).getD []).get? (js "minimumVersion")))
      (Json.number? (((Json.fields? (fields.get? (js "pinout"))).getD []).get? (js "maximumMajor")))
  permissions : manifest.permissions = fields.get? (js "permissions")
  provenance : manifest.provenance.map .obj = fields.get? (js "provenance")

theorem forall_of_find?_eq_none {names known : List JsString}
    (h : (names.find? fun name => !known.contains name) = none) : ∀ name ∈ names, name ∈ known := by
  intro name hname
  simpa using List.find?_eq_none.mp h name hname

theorem readsSimulation_of_readSimulation {value : Json} {simulation : ModuleSimulation}
    (h : readSimulation value = .ok simulation) :
    ∃ record, value = .obj record ∧ ReadsSimulation record simulation := by
  unfold readSimulation at h
  split at h
  · next record =>
    refine ⟨record, rfl, ?_⟩
    unfold readSimulationFields at h
    obtain ⟨provided, hprovided, h⟩ := exists_of_bind_eq_ok h
    obtain ⟨simulator, hsimulator, h⟩ := exists_of_bind_eq_ok h
    obtain ⟨notes, hnotes, h⟩ := exists_of_bind_eq_ok h
    split at h
    · cases h
    · next hknown =>
      obtain rfl := Except.ok.inj h
      refine ⟨forall_of_find?_eq_none hknown, ?_⟩
      simp only [ModuleSimulation.slots, List.forall_mem_cons, List.not_mem_nil, false_imp_iff, implies_true, and_true]
      refine ⟨?_, ?_, ?_⟩
      · unfold readProvided at hprovided
        split at hprovided
        · next found hfound =>
          rw [← Except.ok.inj hprovided]
          exact eq_bool_of_boolean? hfound
        · cases hprovided
      · rcases orDefault_eq_ok hsimulator with ⟨hnone, rfl⟩ | ⟨value, hvalue, hread⟩
        · exact hnone
        · unfold readSimulator at hread
          split at hread
          · next text htext =>
            rw [← Except.ok.inj hread, hvalue]
            exact eq_str_of_string? (Option.filter_eq_some_iff.mp htext).1
          · cases hread
      · rcases orDefault_eq_ok hnotes with ⟨hnone, rfl⟩ | ⟨value, hvalue, hread⟩
        · exact hnone
        · unfold readNotes at hread
          split at hread
          · next text htext =>
            rw [← Except.ok.inj hread, hvalue]
            exact eq_str_of_string? htext
          · cases hread
  · cases h

theorem readMaximumMajor_eq_ok {value : Option Json} {maximumMajor : Option ℚ}
    (h : readMaximumMajor value = .ok maximumMajor) : value = maximumMajor.map .num := by
  unfold readMaximumMajor at h
  split at h
  · rw [← Except.ok.inj h]
    rfl
  · next found =>
    split at h
    · next q hq =>
      rw [← Except.ok.inj h]
      exact eq_num_of_number? (Option.filter_eq_some_iff.mp hq).1
    · cases h

theorem readMinimumVersion_eq_ok {id : JsString} {value : Option Json} {minimumVersion : Option JsString}
    (h : readMinimumVersion id value = .ok minimumVersion) : minimumVersion = Json.string? value := by
  unfold readMinimumVersion at h
  split at h
  · next hnone =>
    rw [← Except.ok.inj h, hnone]
  · next text htext =>
    obtain ⟨-, -, h⟩ := exists_of_bind_eq_ok h
    split at h
    · cases h
    · rw [← Except.ok.inj h, htext]

/-- **What is kept of the manifest that was parsed.** -/
theorem reads_of_parseModuleManifest {numText : ℚ → JsString} {raw : Json} {manifest : PinoutModuleManifest}
    (h : parseModuleManifest numText raw = .ok manifest) : ∃ fields, raw = .obj fields ∧ Reads fields manifest := by
  unfold parseModuleManifest at h
  split at h
  · next fields =>
    refine ⟨fields, rfl, ?_⟩
    split at h
    · cases h
    · next hschema =>
      split at h
      · cases h
      · next hknown =>
        unfold parseManifestFields at h
        obtain ⟨id, hid, h⟩ := exists_of_bind_eq_ok h
        obtain ⟨version, hversion, h⟩ := exists_of_bind_eq_ok h
        obtain ⟨deviceClass, hdeviceClass, h⟩ := exists_of_bind_eq_ok h
        obtain ⟨entrypoint, hentrypoint, h⟩ := exists_of_bind_eq_ok h
        obtain ⟨runtime, hruntime, h⟩ := exists_of_bind_eq_ok h
        obtain ⟨capabilities, hcapabilities, h⟩ := exists_of_bind_eq_ok h
        obtain ⟨status, hstatus, h⟩ := exists_of_bind_eq_ok h
        obtain ⟨simulation, hsimulation, h⟩ := exists_of_bind_eq_ok h
        obtain ⟨-, -, h⟩ := exists_of_bind_eq_ok h
        obtain ⟨-, -, h⟩ := exists_of_bind_eq_ok h
        obtain ⟨minimumVersion, hminimum, h⟩ := exists_of_bind_eq_ok h
        obtain ⟨maximumMajor, hmaximum, h⟩ := exists_of_bind_eq_ok h
        obtain ⟨provenance, hprovenance, h⟩ := exists_of_bind_eq_ok h
        obtain rfl := Except.ok.inj h
        have hmajor := readMaximumMajor_eq_ok hmaximum
        have hminor := readMinimumVersion_eq_ok hminimum
        constructor
        case known => exact forall_of_find?_eq_none hknown
        case schemaVersion => exact eq_num_of_number? (not_not.mp hschema)
        case id => exact readString_eq_ok hid
        case version => exact readString_eq_ok hversion
        case deviceClass => exact readString_eq_ok hdeviceClass
        case entrypoint => exact readString_eq_ok hentrypoint
        case runtime =>
          rcases orDefault_eq_ok hruntime with ⟨hnone, -⟩ | ⟨value, -, hread⟩
          · exact .inl hnone
          · exact .inr (readEnum_eq_ok hread)
        case capabilities =>
          rcases orDefault_eq_ok hcapabilities with ⟨hnone, -⟩ | ⟨value, -, hread⟩
          · exact .inl hnone
          · exact .inr (readStringArray_eq_ok hread)
        case status =>
          rcases orDefault_eq_ok hstatus with ⟨hnone, -⟩ | ⟨value, -, hread⟩
          · exact .inl hnone
          · exact .inr (readEnum_eq_ok hread)
        case simulation =>
          rcases orDefault_eq_ok hsimulation with ⟨hnone, -⟩ | ⟨value, hvalue, hread⟩
          · exact .inl hnone
          · obtain ⟨record, rfl, hreads⟩ := readsSimulation_of_readSimulation hread
            exact .inr ⟨record, hvalue, hreads⟩
        case name => rfl
        case description => rfl
        case vendor => rfl
        case model => rfl
        case maximumMajor =>
          intro record value hpinout hvalue
          rw [hpinout] at hmajor
          have hsome : some value = maximumMajor.map .num := hvalue.symm.trans hmajor
          obtain ⟨q, -, hq⟩ := Option.map_eq_some_iff.mp hsome.symm
          exact ⟨q, hq.symm⟩
        case pinout =>
          rw [← hminor, hmajor]
          cases maximumMajor <;> rfl
        case permissions => rfl
        case provenance =>
          rcases orDefault_eq_ok hprovenance with ⟨hnone, rfl⟩ | ⟨value, hvalue, hread⟩
          · exact hnone.symm
          · unfold readObject at hread
            split at hread
            · next found hfound =>
              rw [← Except.ok.inj hread, eq_obj_of_fields? hfound]
              rfl
            · cases hread
  · cases h
  · cases h

end Pinout.Modules
