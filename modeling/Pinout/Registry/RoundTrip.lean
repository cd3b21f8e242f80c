import Pinout.ModuleHost.Canonical
import Pinout.Protocol.RoundTrip
import Pinout.Registry.Publish

/-! # Publishing and verifying

What is published carries the hash of the manifest as it is parsed, and what is verified is the manifest as it is
written. The two hashes agree exactly when parsing adds nothing to the manifest and drops nothing of it. The
content hash agrees for every copy. -/

namespace Pinout.Registry

open Foundation Protocol ModuleHost Modules

/-! ## Fields that are present -/

section Present

variable {slots : List (JsString × Option Json)}

theorem nodup_presentFields (h : (slots.map (·.1)).Nodup) : ((presentFields slots).map (·.1)).Nodup := by
  refine h.sublist ?_
  rw [presentFields]
  induction slots with
  | nil => exact List.Sublist.refl []
  | cons slot slots ih =>
    obtain ⟨name, value⟩ := slot
    have ih := ih (List.nodup_cons.mp h).2
    cases value with
    | none => simpa using ih.cons name
    | some value => simpa using ih.cons_cons name

theorem map_fst_presentFields_subset : ∀ name ∈ (presentFields slots).map (·.1), name ∈ slots.map (·.1) := by
  intro name hname
  obtain ⟨⟨name, value⟩, hmem, rfl⟩ := List.mem_map.mp hname
  obtain ⟨slot, hslot, heq⟩ := List.mem_filterMap.mp hmem
  obtain ⟨found, -, heq⟩ := Option.map_eq_some_iff.mp heq
  obtain ⟨rfl, -⟩ := Prod.mk.inj heq
  exact List.mem_map_of_mem hslot

theorem get?_presentFields (h : (slots.map (·.1)).Nodup) {slot : JsString × Option Json} (hslot : slot ∈ slots) :
    (presentFields slots).get? slot.1 = slot.2 := by
  refine Option.ext fun value => ?_
  rw [← JsonObject.mem_iff_get? (nodup_presentFields h)]
  constructor
  · intro hmem
    obtain ⟨other, hother, heq⟩ := List.mem_filterMap.mp hmem
    obtain ⟨found, hfound, heq⟩ := Option.map_eq_some_iff.mp heq
    obtain ⟨hname, rfl⟩ := Prod.mk.inj heq
    rw [← List.inj_on_of_nodup_map h hother hslot hname, hfound]
  · intro hvalue
    exact List.mem_filterMap.mpr ⟨slot, hslot, by rw [hvalue]; rfl⟩

theorem get?_eq_none {fields : JsonObject} {name : JsString} (h : name ∉ fields.map (·.1)) :
    fields.get? name = none := by
  rw [JsonObject.get?, List.find?_eq_none.mpr, Option.map_none]
  intro field hfield heq
  rw [decide_eq_true_eq] at heq
  exact h (heq ▸ List.mem_map_of_mem hfield)

theorem forall_get?_presentFields {T : Type} (h : (slots.map (·.1)).Nodup) (fields : JsonObject) (c : Json → T) :
    (∀ name, ((presentFields slots).get? name).map c = (fields.get? name).map c) ↔
      (∀ name ∈ fields.map (·.1), name ∈ slots.map (·.1)) ∧
        ∀ slot ∈ slots, slot.2.map c = (fields.get? slot.1).map c := by
  constructor
  · intro hall
    refine ⟨fun name hname => ?_, fun slot hslot => by rw [← hall slot.1, get?_presentFields h hslot]⟩
    by_contra hnot
    have hnone := hall name
    rw [get?_eq_none fun hin => hnot (map_fst_presentFields_subset _ hin)] at hnone
    obtain ⟨field, hfield, rfl⟩ := List.mem_map.mp hname
    have hfound : fields.get? field.1 = none := Option.map_eq_none_iff.mp hnone.symm
    rw [JsonObject.get?, Option.map_eq_none_iff, List.find?_eq_none] at hfound
    exact hfound field hfield (decide_eq_true rfl)
  · rintro ⟨hknown, hall⟩ name
    by_cases hname : name ∈ slots.map (·.1)
    · obtain ⟨slot, hslot, rfl⟩ := List.mem_map.mp hname
      rw [get?_presentFields h hslot, hall slot hslot]
    · rw [get?_eq_none fun hin => hname (map_fst_presentFields_subset _ hin),
        get?_eq_none fun hin => hname (hknown _ hin)]

end Present

/-! ## Manifests that are kept -/

/-- The names of the fields of a `pinout`. -/
def pinoutFields : List JsString := [js "minimumVersion", js "maximumMajor"]

/-- A `pinout` of which everything is kept: a version, a major version, or both, and nothing else. -/
def ExplicitPinout (value : Json) : Prop :=
  ∃ record, value = .obj record ∧ record ≠ [] ∧ (∀ name ∈ record.map (·.1), name ∈ pinoutFields) ∧
    ∀ found, JsonObject.get? record (js "minimumVersion") = some found → ∃ text, found = .str text

/-- A manifest to which parsing adds nothing, and of which it drops nothing. -/
structure Explicit (fields : JsonObject) : Prop where
  runtime : (fields.get? (js "runtime")).isSome = true
  capabilities : (fields.get? (js "capabilities")).isSome = true
  simulation : (fields.get? (js "simulation")).isSome = true
  status : (fields.get? (js "status")).isSome = true
  texts : ∀ name ∈ [js "name", js "description", js "vendor", js "model"], ∀ value, fields.get? name = some value →
    ∃ text, value = .str text
  pinout : ∀ value, fields.get? (js "pinout") = some value → ExplicitPinout value

/-- The names that are compared when a manifest is printed. -/
def comparedNames : List JsString := manifestFields ++ simulationFields ++ pinoutFields

section Canonical

variable {platform : Platform} {T : Type} {c : Json → T}

theorem map_eq_of_required {x : Json} {v : Option Json} (h : v = none ∨ v = some x) :
    (some x).map c = v.map c ↔ v.isSome = true := by
  rcases h with rfl | rfl <;> simp

/-- A text that is dropped where it is no string is the same if it was a string. -/
theorem map_eq_of_text {v : Option Json} :
    ((Json.string? v).map Json.str).map c = v.map c ↔ ∀ value, v = some value → ∃ text, value = .str text := by
  cases v with
  | none => simp [Json.string?]
  | some value =>
    cases value with
    | str text => simp [Json.string?]
    | null | bool | num | arr | obj => simp [Json.string?]

theorem tellsApart_of_subset {names names' : List JsString} (h : platform.TellsApart names)
    (hsub : ∀ name ∈ names', name ∈ names) : platform.TellsApart names' :=
  fun a ha b hb => h a (hsub a ha) b (hsub b hb)

variable (hnum : platform.NumberTexts) (hle : platform.Collates) (htells : platform.TellsApart comparedNames)

include hnum hle htells

/-- Slots and fields print the same exactly when they agree slot by slot. -/
theorem canonicalJson_presentFields_iff {slots : List (JsString × Option Json)} (hslots : (slots.map (·.1)).Nodup)
    (hcompared : ∀ name ∈ slots.map (·.1), name ∈ comparedNames) {fields : JsonObject}
    (hnodup : (fields.map (·.1)).Nodup) :
    platform.canonicalJson (.obj (presentFields slots)) = platform.canonicalJson (.obj fields) ↔
      (∀ name ∈ fields.map (·.1), name ∈ slots.map (·.1)) ∧
        ∀ slot ∈ slots, slot.2.map platform.canonicalJson = (fields.get? slot.1).map platform.canonicalJson := by
  rw [Platform.canonicalJson_obj_iff hnum hle _ (nodup_presentFields hslots) hnodup,
    forall_get?_presentFields hslots]
  exact tellsApart_of_subset htells fun name hname => hcompared name (map_fst_presentFields_subset name hname)

theorem canonicalJson_simulation {record : JsonObject} {simulation : ModuleSimulation}
    (h : ReadsSimulation record simulation) (hnodup : (record.map (·.1)).Nodup) :
    platform.canonicalJson (.obj (presentFields simulation.slots)) = platform.canonicalJson (.obj record) := by
  have hnames : simulation.slots.map (·.1) = simulationFields := rfl
  refine (canonicalJson_presentFields_iff hnum hle htells ?_ ?_ hnodup).mpr ⟨?_, fun slot hslot => ?_⟩
  · rw [hnames]
    decide
  · rw [hnames]
    decide
  · rw [hnames]
    exact h.known
  · rw [h.kept slot hslot]

theorem map_eq_of_pinout {fields : JsonObject} {manifest : PinoutModuleManifest} (h : Reads fields manifest)
    (hdistinct : distinctNames (.obj fields) = true) :
    (manifest.pinout.map fun range => Json.obj (presentFields range.slots)).map platform.canonicalJson =
        (fields.get? (js "pinout")).map platform.canonicalJson ↔
      ∀ value, fields.get? (js "pinout") = some value → ExplicitPinout value := by
  have hpinout := h.pinout
  cases hget : fields.get? (js "pinout") with
  | none =>
    rw [hget] at hpinout
    simp [hpinout, Json.fields?, Json.string?, Json.number?, pinoutRange]
  | some value =>
    rw [hget] at hpinout
    cases value with
    | obj record =>
      have hnodup := nodup_of_distinctNames (distinctNames_of_get? hdistinct hget)
      have hmajor : JsonObject.get? record (js "maximumMajor") =
          (Json.number? (JsonObject.get? record (js "maximumMajor"))).map Json.num := by
        cases hmax : JsonObject.get? record (js "maximumMajor") with
        | none => rfl
        | some found =>
          obtain ⟨q, rfl⟩ := h.maximumMajor record found hget hmax
          rfl
      rw [show (∀ value, some (Json.obj record) = some value → ExplicitPinout value) ↔
        ExplicitPinout (.obj record) from ⟨fun h => h _ rfl, fun h _ heq => Option.some.inj heq ▸ h⟩]
      simp only [Json.fields?, Option.getD_some] at hpinout
      by_cases hnone : Json.string? (JsonObject.get? record (js "minimumVersion")) = none ∧
          Json.number? (JsonObject.get? record (js "maximumMajor")) = none
      · -- nothing is kept, so there was something else
        rw [hnone.1, hnone.2] at hpinout
        rw [hnone.2] at hmajor
        simp only [hpinout, pinoutRange, Option.map_none, Option.map_some, reduceCtorEq, false_iff]
        rintro ⟨_, heq, hne, hknown, htext⟩
        obtain rfl := Json.obj.inj heq
        obtain ⟨⟨name, value⟩, rest, rfl⟩ := List.exists_cons_of_ne_nil hne
        have hname := hknown name List.mem_cons_self
        simp only [pinoutFields, List.mem_cons, List.not_mem_nil, or_false] at hname
        rcases hname with rfl | rfl
        · obtain ⟨text, rfl⟩ := htext value (by rw [JsonObject.get?_cons, if_pos rfl])
          rw [JsonObject.get?_cons, if_pos rfl] at hnone
          exact absurd hnone.1 nofun
        · rw [JsonObject.get?_cons, if_pos rfl] at hmajor
          cases hmajor
      · have hrange : manifest.pinout = some
            { minimumVersion := Json.string? (JsonObject.get? record (js "minimumVersion"))
              maximumMajor := Json.number? (JsonObject.get? record (js "maximumMajor")) } := by
          rw [hpinout]
          unfold pinoutRange
          split
          · next hmin hmax => exact absurd ⟨hmin, hmax⟩ hnone
          · rfl
        have hne : record ≠ [] := by
          rintro rfl
          exact hnone ⟨rfl, rfl⟩
        have hslots : ∀ range : PinoutRange, range.slots.map (·.1) = pinoutFields := fun _ => rfl
        rw [hrange, Option.map_some, Option.map_some, Option.map_some, Option.some.injEq,
          canonicalJson_presentFields_iff hnum hle htells (by rw [hslots]; decide) (by rw [hslots]; decide) hnodup,
          hslots]
        simp only [PinoutRange.slots, List.forall_mem_cons, List.not_mem_nil, false_imp_iff, implies_true, and_true]
        rw [map_eq_of_text, ← hmajor]
        constructor
        · rintro ⟨hknown, htext, -⟩
          exact ⟨record, rfl, hne, hknown, htext⟩
        · rintro ⟨_, heq, -, hknown, htext⟩
          obtain rfl := Json.obj.inj heq
          exact ⟨hknown, htext, rfl⟩
    | null | bool | num | str | arr =>
      simp [hpinout, Json.fields?, Json.string?, Json.number?, pinoutRange, ExplicitPinout]

/-- **A manifest is printed as it was written exactly when it is explicit.** -/
theorem canonicalJson_manifest_iff {fields : JsonObject} {manifest : PinoutModuleManifest} (h : Reads fields manifest)
    (hdistinct : distinctNames (.obj fields) = true) :
    platform.canonicalJson manifest.json = platform.canonicalJson (.obj fields) ↔ Explicit fields := by
  have hnodup := nodup_of_distinctNames hdistinct
  have hnames : ∀ name ∈ manifest.slots.map (·.1), name ∈ comparedNames := by
    show ∀ name ∈ [js "schemaVersion", js "id", js "version", js "deviceClass", js "entrypoint", js "runtime",
      js "capabilities", js "simulation", js "status", js "name", js "description", js "vendor", js "model",
      js "pinout", js "permissions", js "provenance"], name ∈ comparedNames
    decide
  have hslots : (manifest.slots.map (·.1)).Nodup := by
    show [js "schemaVersion", js "id", js "version", js "deviceClass", js "entrypoint", js "runtime",
      js "capabilities", js "simulation", js "status", js "name", js "description", js "vendor", js "model",
      js "pinout", js "permissions", js "provenance"].Nodup
    decide
  have hknown : ∀ name ∈ fields.map (·.1), name ∈ manifest.slots.map (·.1) := by
    intro name hname
    have hall : ∀ name ∈ manifestFields, name ∈ [js "schemaVersion", js "id", js "version", js "deviceClass",
      js "entrypoint", js "runtime", js "capabilities", js "simulation", js "status", js "name", js "description",
      js "vendor", js "model", js "pinout", js "permissions", js "provenance"] := by decide
    exact hall name (h.known name hname)
  have hpinout := map_eq_of_pinout hnum hle htells h hdistinct
  have hsimulation : (some (Json.obj (presentFields manifest.simulation.slots))).map platform.canonicalJson =
      (fields.get? (js "simulation")).map platform.canonicalJson ↔
        (fields.get? (js "simulation")).isSome = true := by
    rcases h.simulation with hnone | ⟨record, hrecord, hreads⟩
    · simp [hnone]
    · have hinner := nodup_of_distinctNames (distinctNames_of_get? hdistinct hrecord)
      simp [hrecord, canonicalJson_simulation hnum hle htells hreads hinner]
  rw [PinoutModuleManifest.json, canonicalJson_presentFields_iff hnum hle htells hslots hnames hnodup,
    and_iff_right hknown]
  simp only [PinoutModuleManifest.slots, List.forall_mem_cons, List.not_mem_nil, false_imp_iff, implies_true, and_true]
  rw [h.schemaVersion, h.id, h.version, h.deviceClass, h.entrypoint, map_eq_of_required h.runtime,
    map_eq_of_required h.capabilities, hsimulation, map_eq_of_required h.status, h.name, h.description, h.vendor,
    h.model, map_eq_of_text, map_eq_of_text, map_eq_of_text, map_eq_of_text, hpinout, h.permissions, h.provenance]
  constructor
  · rintro ⟨-, -, -, -, -, hruntime, hcapabilities, hsim, hstatus, hname, hdescription, hvendor, hmodel, hpin, -, -⟩
    refine ⟨hruntime, hcapabilities, hsim, hstatus, ?_, hpin⟩
    simp only [List.forall_mem_cons, List.not_mem_nil, false_imp_iff, implies_true, and_true]
    exact ⟨hname, hdescription, hvendor, hmodel⟩
  · intro hexplicit
    have htexts := hexplicit.texts
    simp only [List.forall_mem_cons, List.not_mem_nil, false_imp_iff, implies_true, and_true] at htexts
    exact ⟨rfl, rfl, rfl, rfl, rfl, hexplicit.runtime, hexplicit.capabilities, hexplicit.simulation,
      hexplicit.status, htexts.1, htexts.2.1, htexts.2.2.1, htexts.2.2.2, hexplicit.pinout, rfl, rfl⟩

end Canonical

/-! ## Copies -/

section Copies

variable {platform : Platform}

def nameOrder (platform : Platform) (a b : FileName) : Bool := platform.le a.text b.text

theorem hashed_eq_false {name : FileName} (h : packed name true = false) : hashed name true = false := by
  have hsub : ∀ text ∈ packExcludedDirectories, text ∈ excludedEntries := by decide
  simp only [packed, Bool.true_and, Bool.not_eq_false', List.contains_iff_mem] at h
  simp [hashed, hsub _ h]

theorem walkEntries_copyModuleDirectory {entries : Directory}
    (h : ∀ name node, (name, node) ∈ entries → ∀ copy, copyNode name node = some copy →
      FileNode.walk (nameOrder platform) hashed copy = FileNode.walk (nameOrder platform) hashed node) :
    (FileNode.walkEntries (nameOrder platform) hashed (copyModuleDirectory entries)).filter (fun e => e.2 ≠ []) =
      (FileNode.walkEntries (nameOrder platform) hashed entries).filter fun e => e.2 ≠ [] := by
  induction entries with
  | nil =>
    rw [copyModuleDirectory]
  | cons entry entries ih =>
    obtain ⟨name, node⟩ := entry
    have ih := ih fun other node hmem => h other node (List.mem_cons_of_mem _ hmem)
    have hwalk := h name node List.mem_cons_self
    rw [copyModuleDirectory]
    cases node with
    | file bytes =>
      rw [copyNode]
      dsimp only
      rw [FileNode.walkEntries, FileNode.walkEntries]
      split
      · rw [List.filter_cons, List.filter_cons, ih]
      · exact ih
    | other content =>
      rw [copyNode]
      dsimp only
      rw [FileNode.walkEntries, ih]
      split
      · rw [FileNode.walk, List.filter_cons]
        simp
      · rfl
    | dir inner =>
      rw [copyNode] at hwalk ⊢
      by_cases hpacked : packed name true = true
      · rw [if_pos hpacked] at hwalk ⊢
        dsimp only
        rw [FileNode.walkEntries, FileNode.walkEntries, hwalk _ rfl, FileNode.isDir, FileNode.isDir]
        split
        · rw [List.filter_cons, List.filter_cons, ih]
        · exact ih
      · rw [if_neg hpacked]
        dsimp only
        have hnot := hashed_eq_false (Bool.eq_false_iff.mpr hpacked)
        rw [FileNode.walkEntries, ih, FileNode.isDir, hnot]
        rfl

theorem gather_nameOrder_filter (hle : platform.Collates)
    (found : List (FileName × List (List FileName × List UInt8))) :
    FileNode.gather (nameOrder platform) (found.filter fun e => e.2 ≠ []) =
      FileNode.gather (nameOrder platform) found :=
  FileNode.gather_filter (fun a b => hle.total a.text b.text) (fun a b c => hle.trans a.text b.text c.text) found

theorem walk_copyNode (hle : platform.Collates) (node : FileNode) :
    ∀ name copy, copyNode name node = some copy →
      FileNode.walk (nameOrder platform) hashed copy = FileNode.walk (nameOrder platform) hashed node := by
  induction node using FileNode.induct with
  | file bytes =>
    intro name copy hcopy
    rw [copyNode] at hcopy
    rw [← Option.some.inj hcopy]
  | other content =>
    intro name copy hcopy
    rw [copyNode] at hcopy
    cases hcopy
  | dir entries ih =>
    intro name copy hcopy
    rw [copyNode] at hcopy
    split at hcopy
    · rw [← Option.some.inj hcopy, FileNode.walk, FileNode.walk, ← gather_nameOrder_filter hle,
        walkEntries_copyModuleDirectory fun other node hmem copy => ih other node hmem other copy,
        gather_nameOrder_filter hle]
    · cases hcopy

/-- **A copy has the content hash of what was copied.** -/
theorem contentHash_copyModuleDirectory (hle : platform.Collates) (entries : Directory) :
    platform.contentHash (copyModuleDirectory entries) = platform.contentHash entries := by
  have hwalk : FileNode.walk (nameOrder platform) hashed (.dir (copyModuleDirectory entries)) =
      FileNode.walk (nameOrder platform) hashed (.dir entries) := by
    rw [FileNode.walk, FileNode.walk, ← gather_nameOrder_filter hle,
      walkEntries_copyModuleDirectory fun name node _ copy => walk_copyNode hle node name copy,
      gather_nameOrder_filter hle]
  have hfiles : platform.hashedFiles (copyModuleDirectory entries) = platform.hashedFiles entries := by
    unfold Platform.hashedFiles
    unfold nameOrder at hwalk
    rw [hwalk]
  rw [Platform.contentHash, Platform.contentText, hfiles, Platform.contentHash, Platform.contentText]

theorem entryOf_cons (name : FileName) (node : FileNode) (entries : Directory) (text : JsString) :
    entryOf ((name, node) :: entries) text = if name.text = text then some node else entryOf entries text := by
  rw [entryOf, List.find?_cons]
  by_cases h : name.text = text <;> simp [h, entryOf]

theorem entryOf_copyModuleDirectory_file {entries : Directory} {text : JsString} {bytes : List UInt8}
    (h : entryOf entries text = some (.file bytes)) :
    entryOf (copyModuleDirectory entries) text = some (.file bytes) := by
  induction entries with
  | nil => cases h
  | cons entry entries ih =>
    obtain ⟨name, node⟩ := entry
    rw [entryOf_cons] at h
    rw [copyModuleDirectory]
    by_cases hname : name.text = text
    · rw [if_pos hname] at h
      obtain rfl := Option.some.inj h
      rw [copyNode]
      dsimp only
      rw [entryOf_cons, if_pos hname]
    · rw [if_neg hname] at h
      split
      · rw [entryOf_cons, if_neg hname]
        exact ih h
      · exact ih h

theorem entryOf_copyModuleDirectory_none {entries : Directory} {text : JsString}
    (h : ∀ name node, (name, node) ∈ entries → name.text = text → copyNode name node = none) :
    entryOf (copyModuleDirectory entries) text = none := by
  induction entries with
  | nil =>
    rw [copyModuleDirectory]
    rfl
  | cons entry entries ih =>
    obtain ⟨name, node⟩ := entry
    have ih := ih fun other node hmem => h other node (List.mem_cons_of_mem _ hmem)
    rw [copyModuleDirectory]
    split
    · next copy hcopy =>
      rw [entryOf_cons, if_neg, ih]
      intro hname
      rw [h name node List.mem_cons_self hname] at hcopy
      cases hcopy
    · exact ih

theorem entryOf_copyModuleDirectory_other {entries : Directory} (hnodup : (entries.map (·.1)).Nodup)
    {text : JsString} {content : Option (List UInt8)} (h : entryOf entries text = some (.other content)) :
    entryOf (copyModuleDirectory entries) text = none := by
  obtain ⟨⟨name, node⟩, hfind, rfl⟩ := Option.map_eq_some_iff.mp h
  have hname : name.text = text := by simpa using List.find?_some hfind
  have hmem := List.mem_of_find?_eq_some hfind
  refine entryOf_copyModuleDirectory_none fun other node hother htext => ?_
  have hsame : other = name := by
    cases other
    cases name
    obtain rfl := htext.trans hname.symm
    rfl
  have heq := List.inj_on_of_nodup_map hnodup hother hmem hsame
  rw [(Prod.mk.inj heq).2, copyNode]

end Copies

/-! ## Verifying what was published -/

section Verifying

variable {platform : Platform} {entries contents : Directory} {entry : RegistryModuleEntry}

theorem readModuleManifestJson_eq_ok {moduleDir : JsString} {raw : Json} :
    readModuleManifestJson platform moduleDir entries = .ok raw ↔
      ∃ bytes, readFile (entryOf entries moduleManifestFilename) = .ok bytes ∧ platform.parse bytes = .ok raw := by
  unfold readModuleManifestJson
  constructor
  · intro h
    split at h
    · cases h
    · dsimp only at h
      split at h
      · cases h
      · next bytes hbytes =>
        split at h
        · cases h
        · next value hvalue => exact ⟨bytes, hbytes, hvalue.trans (congrArg Except.ok (Except.ok.inj h))⟩
  · rintro ⟨bytes, hbytes, hparse⟩
    have hexists : existsPath (entryOf entries moduleManifestFilename) = true := by
      unfold readFile at hbytes
      split at hbytes
      · next hfile => rw [hfile]; rfl
      · next hother => rw [hother]; rfl
      · cases hbytes
      · cases hbytes
      · cases hbytes
    rw [hexists]
    simp only [Bool.not_true, if_false, hbytes, hparse, Bool.false_eq_true]

/-- What is read of the manifest of one directory is read of another with the same file. -/
theorem readModuleManifestJson_congr {moduleDir directory : JsString}
    (h : entryOf entries moduleManifestFilename = entryOf contents moduleManifestFilename) {raw : Json} :
    readModuleManifestJson platform moduleDir entries = .ok raw ↔
      readModuleManifestJson platform directory contents = .ok raw := by
  rw [readModuleManifestJson_eq_ok, readModuleManifestJson_eq_ok, h]

theorem exists_tryCandidates {payload signature : JsString} {candidates : List (JsString × JsString)}
    (errors : List JsString)
    (h : ∃ candidate ∈ candidates, platform.edVerify payload candidate.2 (some (.str signature)) = .ok true) :
    ∃ label, tryCandidates platform payload signature candidates errors = .ok label := by
  induction candidates generalizing errors with
  | nil =>
    obtain ⟨candidate, hmem, -⟩ := h
    exact absurd hmem List.not_mem_nil
  | cons first candidates ih =>
    obtain ⟨label, pem⟩ := first
    rw [tryCandidates]
    have hrest : platform.edVerify payload pem (some (.str signature)) ≠ .ok true →
        ∃ candidate ∈ candidates, platform.edVerify payload candidate.2 (some (.str signature)) = .ok true := by
      intro hne
      obtain ⟨candidate, hmem, hvalid⟩ := h
      rcases List.mem_cons.mp hmem with rfl | hmem
      · exact absurd hvalid hne
      · exact ⟨candidate, hmem, hvalid⟩
    split
    · exact ⟨label, rfl⟩
    · next hfalse => exact ih _ (hrest (by rw [hfalse]; exact nofun))
    · next message herror => exact ih _ (hrest (by rw [herror]; exact nofun))

/-- Without keys and requirements, a signature is no failure. -/
theorem verifySignature_default : (verifySignature platform entry {}).2 = [] := by
  unfold verifySignature
  split
  · rfl
  · simp [candidatesOf]

theorem verifySignature_valid {options : VerifyEntryOptions} {signature : JsString}
    (hsignature : entry.signature = some signature)
    (h : ∃ candidate ∈ candidatesOf options entry.publisher,
      platform.edVerify (payloadOf entry) candidate.2 (some (.str signature)) = .ok true) :
    (verifySignature platform entry options).1.status = .valid ∧ (verifySignature platform entry options).2 = [] := by
  obtain ⟨label, hlabel⟩ := exists_tryCandidates [] h
  obtain ⟨candidate, hcandidate, -⟩ := h
  unfold verifySignature
  rw [hsignature]
  dsimp only
  rw [if_neg, if_neg (List.ne_nil_of_mem hcandidate), hlabel]
  · exact ⟨rfl, rfl⟩
  · -- a publisher that no entry of the allowlist is for has no candidate
    rintro ⟨-, -, hlisted, hkey⟩
    rw [Option.isNone_iff_eq_none] at hkey
    rw [Bool.not_eq_true', List.any_eq_false] at hlisted
    rw [candidatesOf, hkey] at hcandidate
    obtain ⟨trusted, htrusted, -⟩ := List.mem_map.mp hcandidate
    obtain ⟨hmem, hfor⟩ := List.mem_filter.mp htrusted
    exact hlisted trusted hmem hfor

variable (platform) in
/-- A directory verifies against an entry: it is accepted with both hashes, and if a trusted key verifies the
signature of the entry, the signature is valid. -/
structure Verifies (directory : JsString) (contents : Directory) (entry : RegistryModuleEntry) : Prop where
  accepted : ∃ report, verifyEntry platform directory (some contents) entry {} = .ok report ∧ report.ok = true ∧
    report.manifest.isMatch = true ∧ report.content.isMatch = true
  trusted : ∀ options signature, entry.signature = some signature →
    (∃ candidate ∈ candidatesOf options entry.publisher,
      platform.edVerify (payloadOf entry) candidate.2 (some (.str signature)) = .ok true) →
    ∃ report, verifyEntry platform directory (some contents) entry options = .ok report ∧ report.ok = true ∧
      report.manifest.isMatch = true ∧ report.content.isMatch = true ∧ report.signature.status = .valid

theorem verifyEntry_of_matches {directory : JsString} {manifest : Json} (options : VerifyEntryOptions)
    (hparsed : parsedManifest platform directory contents = .ok manifest)
    (hid : readManifestString (some manifest) (js "id") = some entry.name)
    (hversion : readManifestString (some manifest) (js "version") = some entry.version)
    (hmanifest : platform.manifestHash manifest = entry.manifestHash)
    (hcontent : platform.contentHash contents = entry.contentHash)
    (hsignature : (verifySignature platform entry options).2 = []) :
    ∃ report, verifyEntry platform directory (some contents) entry options = .ok report ∧ report.ok = true ∧
      report.manifest.isMatch = true ∧ report.content.isMatch = true ∧
      report.signature = (verifySignature platform entry options).1 := by
  unfold verifyEntry
  generalize verifySignature platform entry options = result at hsignature ⊢
  refine ⟨_, rfl, ?_, ?_, ?_, rfl⟩
  · simp [hparsed, metadataFailure, hid, hversion, hashFailure, Except.toOption, hmanifest, hcontent, hsignature]
  · simp [hparsed, Except.toOption, hmanifest]
  · simp [hcontent]

theorem exists_of_isMatch {directory : JsString} {options : VerifyEntryOptions} {report : EntryVerification}
    (h : verifyEntry platform directory (some contents) entry options = .ok report)
    (hmatch : report.manifest.isMatch = true) :
    ∃ manifest, parsedManifest platform directory contents = .ok manifest ∧
      platform.manifestHash manifest = entry.manifestHash := by
  unfold verifyEntry at h
  rw [← Except.ok.inj h] at hmatch
  cases hparsed : parsedManifest platform directory contents with
  | error message => simp [hparsed, Except.toOption] at hmatch
  | ok manifest =>
    refine ⟨manifest, rfl, ?_⟩
    simpa [hparsed, Except.toOption] using hmatch

/-- **A directory with the content hash verifies exactly when its manifest has the manifest hash.** -/
theorem verifies_iff {directory : JsString} {manifest : Json}
    (hparsed : parsedManifest platform directory contents = .ok manifest)
    (hid : readManifestString (some manifest) (js "id") = some entry.name)
    (hversion : readManifestString (some manifest) (js "version") = some entry.version)
    (hcontent : platform.contentHash contents = entry.contentHash) :
    Verifies platform directory contents entry ↔ platform.manifestHash manifest = entry.manifestHash := by
  constructor
  · rintro ⟨⟨report, hreport, -, hmatch, -⟩, -⟩
    obtain ⟨found, hfound, hhash⟩ := exists_of_isMatch hreport hmatch
    rwa [Except.ok.inj (hparsed.symm.trans hfound)]
  · intro hmanifest
    constructor
    · obtain ⟨report, hreport, hok, hmatch, hmatch', -⟩ := verifyEntry_of_matches {} hparsed hid hversion hmanifest
        hcontent verifySignature_default
      exact ⟨report, hreport, hok, hmatch, hmatch'⟩
    · intro options signature hsignature hkey
      obtain ⟨hvalid, hnone⟩ := verifySignature_valid hsignature hkey
      obtain ⟨report, hreport, hok, hmatch, hmatch', hsame⟩ := verifyEntry_of_matches options hparsed hid hversion
        hmanifest hcontent hnone
      exact ⟨report, hreport, hok, hmatch, hmatch', by rw [hsame, hvalid]⟩

/-- What is signed is the entry, with a publisher and a signature. -/
theorem of_signEntry {signed : RegistryModuleEntry} {options : PackModuleOptions}
    (h : signEntry entry options = .ok signed) :
    signed.name = entry.name ∧ signed.version = entry.version ∧ signed.manifestHash = entry.manifestHash ∧
      signed.contentHash = entry.contentHash := by
  unfold signEntry at h
  split at h
  · obtain ⟨signature, -, h⟩ := exists_of_bind_eq_ok h
    split at h
    · rw [← Except.ok.inj h]
      exact ⟨rfl, rfl, rfl, rfl⟩
    · cases h
  · rw [← Except.ok.inj h]
    exact ⟨rfl, rfl, rfl, rfl⟩

theorem of_packModule {isDate : JsString → Bool} {now moduleDir : JsString} {options : PackModuleOptions}
    {pack : PackedModule} (h : packModule platform isDate now moduleDir entries options = .ok pack) :
    ∃ raw manifest, readModuleManifestJson platform moduleDir entries = .ok raw ∧
      parseModuleManifest platform.numText raw = .ok manifest ∧ pack.entry.name = manifest.id ∧
      pack.entry.version = manifest.version ∧ pack.entry.manifestHash = platform.manifestHash manifest.json ∧
      pack.entry.contentHash = platform.contentHash entries := by
  unfold packModule at h
  obtain ⟨manifest, hmanifest, hrest⟩ := exists_of_bind_eq_ok h
  obtain ⟨-, -, hrest⟩ := exists_of_bind_eq_ok hrest
  obtain ⟨signed, hsigned, hrest⟩ := exists_of_bind_eq_ok hrest
  obtain ⟨-, -, hpack⟩ := exists_of_bind_eq_ok hrest
  obtain ⟨hname, hversion, hmhash, hchash⟩ := of_signEntry hsigned
  obtain ⟨raw, hraw, hmanifest⟩ := exists_of_bind_eq_ok hmanifest
  rw [← Except.ok.inj hpack]
  refine ⟨raw, manifest, hraw, ?_, hname, hversion, hmhash, hchash⟩
  split at hmanifest
  · next found hparse => rw [hparse, Except.ok.inj hmanifest]
  · cases hmanifest

end Verifying

/-! ## The round trip -/

section RoundTrip

variable {platform : Platform}

theorem wellFormed_jsonText {text : JsString} (h : JsonText text) : WellFormed text := by
  have hplain : ∀ {s : JsString}, (∀ u ∈ s, u.toNat < 0xD800) → WellFormed s := wellFormed_of_forall_lt
  have hcomma : WellFormed [44] := hplain (by decide)
  induction h with
  | null | yes | no => exact hplain (by decide)
  | number _ hunits =>
    refine hplain fun u hu => ?_
    have hunit := hunits u hu
    simp only [isNumberUnit, isDigit, Bool.or_eq_true, decide_eq_true_eq] at hunit
    rcases hunit with (((hdigit | rfl) | rfl) | rfl) | rfl
    · exact lt_of_le_of_lt hdigit.2 (by decide)
    all_goals decide
  | string s => exact (printable_quote s).wellFormed
  | array _ ih =>
    rw [arrayText]
    exact ((hplain (s := [91]) (by decide)).append (wellFormed_intercalate hcomma ih)).append
      (hplain (s := [93]) (by decide))
  | @object entries _ ih =>
    rw [objectText]
    have hentries : ∀ text ∈ entries.map entryText, WellFormed text := by
      intro text htext
      obtain ⟨entry, hentry, rfl⟩ := List.mem_map.mp htext
      rw [entryText]
      exact (printable_quote entry.1).wellFormed.append
        ((hplain (s := [58]) (by decide)).append (ih entry hentry))
    exact ((hplain (s := [123]) (by decide)).append (wellFormed_intercalate hcomma hentries)).append
      (hplain (s := [125]) (by decide))

/-- Values whose canonical texts do not collide have one hash exactly when they have one canonical text. -/
theorem manifestHash_eq_iff (hnum : platform.NumberTexts) {a b : Json}
    (hfree : platform.CollisionFree [encodeUtf8 (platform.canonicalJson a), encodeUtf8 (platform.canonicalJson b)]) :
    platform.manifestHash a = platform.manifestHash b ↔ platform.canonicalJson a = platform.canonicalJson b := by
  constructor
  · intro h
    have hwell : ∀ value, WellFormed (platform.canonicalJson value) := fun value =>
      wellFormed_jsonText (Platform.jsonText_canonicalJson hnum value)
    exact encodeUtf8_inj (hwell a) (hwell b) (hfree _ (by simp) _ (by simp) h)
  · intro h
    rw [Platform.manifestHash, Platform.manifestHash, h]

/-- What `JSON.parse` makes has no name twice in an object. -/
def DistinctNames (platform : Platform) : Prop :=
  ∀ bytes raw, platform.parse bytes = .ok raw → distinctNames raw = true

def ExplicitModule (platform : Platform) (moduleDir : JsString) (entries : Directory) : Prop :=
  ∃ fields, readModuleManifestJson platform moduleDir entries = .ok (.obj fields) ∧ Explicit fields

/-- What is digested of a manifest that is published: as it is written, and as it is parsed. -/
def manifestTexts (platform : Platform) (moduleDir : JsString) (entries : Directory) : List (List UInt8) :=
  match readModuleManifestJson platform moduleDir entries with
  | .error _ => []
  | .ok raw => match parseModuleManifest platform.numText raw with
    | .error _ => []
    | .ok manifest => [encodeUtf8 (platform.canonicalJson raw), encodeUtf8 (platform.canonicalJson manifest.json)]

/-- A directory with the manifest and the content hash of what was published verifies exactly when the manifest is
explicit. -/
theorem verifies_of_same (hnum : platform.NumberTexts) (hle : platform.Collates)
    (htells : platform.TellsApart comparedNames) (hparse : DistinctNames platform) {isDate : JsString → Bool}
    {now moduleDir directory : JsString} {entries contents : Directory} {options : PackModuleOptions}
    {pack : PackedModule} (hpack : packModule platform isDate now moduleDir entries options = .ok pack)
    (hfree : platform.CollisionFree (manifestTexts platform moduleDir entries))
    (hmanifest : entryOf contents moduleManifestFilename = entryOf entries moduleManifestFilename)
    (hcontent : platform.contentHash contents = platform.contentHash entries) :
    Verifies platform directory contents pack.entry ↔ ExplicitModule platform moduleDir entries := by
  obtain ⟨raw, manifest, hraw, hparsed, hname, hversion, hmhash, hchash⟩ := of_packModule hpack
  obtain ⟨fields, rfl, hreads⟩ := reads_of_parseModuleManifest hparsed
  rw [manifestTexts, hraw] at hfree
  dsimp only at hfree
  rw [hparsed] at hfree
  have hdistinct : distinctNames (.obj fields) = true := by
    obtain ⟨bytes, -, hbytes⟩ := readModuleManifestJson_eq_ok.mp hraw
    exact hparse bytes _ hbytes
  have hread : readModuleManifestJson platform directory contents = .ok (.obj fields) :=
    (readModuleManifestJson_congr hmanifest).mpr hraw
  have hstring : ∀ key text, JsonObject.get? fields key = some (.str text) →
      readManifestString (some (.obj fields)) key = some text := by
    intro key text hget
    rw [readManifestString, Json.fields?, Option.bind_some, hget, Json.string?]
  have hiff : Verifies platform directory contents pack.entry ↔
      platform.manifestHash (.obj fields) = pack.entry.manifestHash :=
    verifies_iff (by rw [parsedManifest, hread]) (by rw [hname, hstring _ _ hreads.id])
      (by rw [hversion, hstring _ _ hreads.version]) (by rw [hchash, hcontent])
  rw [hiff, hmhash, manifestHash_eq_iff hnum hfree, eq_comm,
    canonicalJson_manifest_iff hnum hle htells hreads hdistinct]
  constructor
  · intro h
    exact ⟨fields, hraw, h⟩
  · rintro ⟨found, hfound, h⟩
    obtain rfl := Json.obj.inj (Except.ok.inj (hraw.symm.trans hfound))
    exact h

/-- **A published module verifies exactly when its manifest is explicit**; and a copy of it does when the manifest is
no link as well. -/
theorem verifies_iff_explicit (platform : Platform) (hnum : platform.NumberTexts) (hle : platform.Collates)
    (htells : platform.TellsApart comparedNames) (hparse : DistinctNames platform) (isDate : JsString → Bool)
    (now moduleDir : JsString) (entries : Directory) (hnodup : (entries.map (·.1)).Nodup)
    (options : PackModuleOptions) (pack : PackedModule)
    (hpack : packModule platform isDate now moduleDir entries options = .ok pack)
    (hfree : platform.CollisionFree (manifestTexts platform moduleDir entries)) (directory : JsString) :
    (Verifies platform directory entries pack.entry ↔ ExplicitModule platform moduleDir entries) ∧
      (Verifies platform directory (copyModuleDirectory entries) pack.entry ↔
        ExplicitModule platform moduleDir entries ∧
          ∃ bytes, entryOf entries moduleManifestFilename = some (.file bytes)) := by
  refine ⟨verifies_of_same hnum hle htells hparse hpack hfree rfl rfl, ?_⟩
  have hcontent := contentHash_copyModuleDirectory hle entries
  have hsame (hmanifest : entryOf (copyModuleDirectory entries) moduleManifestFilename =
      entryOf entries moduleManifestFilename) :
      Verifies platform directory (copyModuleDirectory entries) pack.entry ↔ ExplicitModule platform moduleDir entries :=
    verifies_of_same hnum hle htells hparse hpack hfree hmanifest hcontent
  obtain ⟨raw, -, hraw, -⟩ := of_packModule hpack
  obtain ⟨bytes, hbytes, -⟩ := readModuleManifestJson_eq_ok.mp hraw
  cases hentry : entryOf entries moduleManifestFilename with
  | none =>
    rw [hentry] at hbytes
    cases hbytes
  | some node =>
    cases node with
    | file bytes =>
      rw [hsame (by rw [hentry, entryOf_copyModuleDirectory_file hentry])]
      simp
    | dir children =>
      rw [hentry] at hbytes
      cases hbytes
    | other content =>
      -- a link is not copied, so there is no manifest
      have hnone := entryOf_copyModuleDirectory_other hnodup hentry
      constructor
      · rintro ⟨⟨report, hreport, -, hmatch, -⟩, -⟩
        obtain ⟨manifest, hmanifest, -⟩ := exists_of_isMatch hreport hmatch
        rw [parsedManifest, readModuleManifestJson, hnone] at hmanifest
        cases hmanifest
      · rintro ⟨-, bytes, hbytes⟩
        cases hbytes

end RoundTrip

section Demo

def legacyFields : List (JsString × Json) :=
  [(js "schemaVersion", .num 1), (js "id", .str (js "acme/probe")), (js "version", .str (js "0.1.0")),
    (js "deviceClass", .str (js "probe")), (js "entrypoint", .str (js "index.js"))]

def explicitFields : List (JsString × Json) :=
  legacyFields ++ [(js "runtime", .str (js "node")), (js "capabilities", .arr [.str (js "read")]),
    (js "simulation", .obj [(js "provided", .bool false)]), (js "status", .str (js "TESTED")),
    (js "name", .str (js "Probe"))]

def manifestBytes (fields : List (JsString × Json)) : List UInt8 :=
  encodeUtf8 (Json.stringify (fun _ => js "1") (.obj fields))

theorem plain_indexJs : ∀ u ∈ js "index.js", u.toNat < 0xD800 ∧ u ≠ 47 := by decide

theorem plain_manifestFilename : ∀ u ∈ moduleManifestFilename, u.toNat < 0xD800 ∧ u ≠ 47 := by decide

def moduleOf (fields : List (JsString × Json)) : Directory :=
  [(plainName (js "index.js") plain_indexJs, .file [65]),
    (plainName moduleManifestFilename plain_manifestFilename, .file (manifestBytes fields))]

/-- The digests of the explicit manifest: of the file, of the canonical text, and of the content. -/
def explicitDigests : JsString × JsString × JsString :=
  (js "e29d15814dd005b6a15dda868118bdf2bc0b554b8159a67ce40e0cfcb3195e28",
    js "7361e1ad33b16dad28e2c0fb6996db228efcaa526338449b97ce82f5250a3a1c",
    js "271714e1dc5545e74381222e2678362573c66567c3f8f8a85a3fdea16b7e0f40")

/-- The digests of the legacy manifest: of the file, of the canonical text, and of the content. -/
def legacyDigests : JsString × JsString × JsString :=
  (js "f23734c3d86beba883a591097cb4dddadfd318c0eed8a9adc5311ae1fb601c92",
    js "9cc26ccb91ceae9d2eebb5e0ea9ff3f5eff0015c412ac411179f4c48ef363d8c",
    js "227e932fba4127bb6777d74e131aed0aecf6fa52193dac1e0e51162d5355187f")

/-- The digest of the canonical text of the legacy manifest, with what parsing fills in. -/
def filledDigest : JsString := js "cc7a12db3bc6432792703e4e654cbbf7bc24e4fbddd44f5bd37c6b7e0eda2d1f"

/-- The canonical text of the legacy manifest, with what parsing fills in. -/
def filledText : JsString :=
  js "\x7b\"capabilities\":[],\"deviceClass\":\"probe\",\"entrypoint\":\"index.js\",\"id\":\"acme/probe\"," ++
    js "\"runtime\":\"node\",\"schemaVersion\":1,\"simulation\":\x7b\"provided\":false\x7d," ++
    js "\"status\":\"REVIEWED\",\"version\":\"0.1.0\"\x7d"

def legacyText : JsString :=
  js "\x7b\"deviceClass\":\"probe\",\"entrypoint\":\"index.js\",\"id\":\"acme/probe\",\"schemaVersion\":1," ++
    js "\"version\":\"0.1.0\"\x7d"

/-- The canonical text of the explicit manifest. -/
def explicitText : JsString :=
  js "\x7b\"capabilities\":[\"read\"],\"deviceClass\":\"probe\",\"entrypoint\":\"index.js\"," ++
    js "\"id\":\"acme/probe\",\"name\":\"Probe\",\"runtime\":\"node\",\"schemaVersion\":1," ++
    js "\"simulation\":\x7b\"provided\":false\x7d,\"status\":\"TESTED\",\"version\":\"0.1.0\"\x7d"

/-- The text that is digested for the content of a module with a manifest of a digest. -/
def contentOf (digest : JsString) : JsString :=
  js "index.js:" ++ digestA ++ js "\npinout.module.json:" ++ digest

def acmePem : JsString :=
  js "-----BEGIN PUBLIC KEY-----\nMCowBQYDK2VwAyEAphtKFZNsFVq3/y6k1uCAr3tyqsLjPVUbeT5BCqOa1d8=\n" ++
    js "-----END PUBLIC KEY-----\n"

def explicitSignature : JsString :=
  js "NEMPfmG/kOus4YmDWZMRBZ782CQMCLfw6k3f6CAdx7XkUkBNbxXZTr8KqX9VA7bngiv9vGTL9I8xjjpkx1+sDA=="

/-- A platform, as it behaves on these modules. -/
def registryPlatform : Platform where
  numText := fun _ => js "1"
  localeCompare a b := compareOfLessAndEq a b
  parse bytes :=
    if bytes = manifestBytes explicitFields then .ok (.obj explicitFields)
    else if bytes = manifestBytes legacyFields then .ok (.obj legacyFields)
    else .error (js "Unexpected token")
  sha256 bytes :=
    if bytes = [65] then digestA
    else if bytes = manifestBytes explicitFields then explicitDigests.1
    else if bytes = encodeUtf8 explicitText then explicitDigests.2.1
    else if bytes = encodeUtf8 (contentOf explicitDigests.1) then explicitDigests.2.2
    else if bytes = manifestBytes legacyFields then legacyDigests.1
    else if bytes = encodeUtf8 legacyText then legacyDigests.2.1
    else if bytes = encodeUtf8 (contentOf legacyDigests.1) then legacyDigests.2.2
    else if bytes = encodeUtf8 filledText then filledDigest
    else js "0"
  edVerify payload pem signature :=
    .ok (payload = explicitDigests.2.1 ++ 58 :: explicitDigests.2.2 && pem = acmePem &&
      (Json.string? signature = some explicitSignature))

/-- The options of the publisher, who signs what is given. -/
def acmeOptions : PackModuleOptions where
  publisher := some (js "acme")
  signer := some fun _ => .ok (.str explicitSignature)
  publishedAt := some (js "2026-10-17T12:00:00.000Z")

def packedOf (fields : List (JsString × Json)) (options : PackModuleOptions) : Option PackedModule :=
  (packModule registryPlatform (fun _ => true) (js "2026-10-17T12:00:00.000Z") (js "module") (moduleOf fields)
    options).toOption

theorem exists_of_packedOf (fields : List (JsString × Json)) (options : PackModuleOptions) (p : PackedModule → Bool)
    (h : (packedOf fields options).any p = true) :
    ∃ pack, packedOf fields options = some pack ∧ p pack = true ∧ packModule registryPlatform (fun _ => true)
      (js "2026-10-17T12:00:00.000Z") (js "module") (moduleOf fields) options = .ok pack := by
  obtain ⟨pack, hpack, hp⟩ := (Option.any_eq_true _ _).mp h
  refine ⟨pack, hpack, hp, ?_⟩
  rw [packedOf] at hpack
  cases hresult : packModule registryPlatform (fun _ => true) (js "2026-10-17T12:00:00.000Z") (js "module")
      (moduleOf fields) options with
  | error e => rw [hresult] at hpack; cases hpack
  | ok found => rw [hresult] at hpack; rw [Option.some.inj hpack]

theorem numberTexts_registryPlatform : registryPlatform.NumberTexts := by
  intro q
  show js "1" ≠ [] ∧ ∀ u ∈ js "1", isNumberUnit u = true
  decide

theorem le_registryPlatform (a b : JsString) : registryPlatform.le a b = true ↔ a ≤ b := by
  show ((compareOfLessAndEq a b : Ordering) != .gt) = true ↔ a ≤ b
  unfold compareOfLessAndEq
  split
  · next hlt => simpa using Std.le_of_lt hlt
  · next hnot =>
    have hge : b ≤ a := Std.not_lt.mp hnot
    split
    · next heq =>
      rw [heq]
      simp
    · next hne => simpa using fun h => hne (Std.le_antisymm h hge)

theorem collates_registryPlatform : registryPlatform.Collates where
  total a b := by
    rw [le_registryPlatform, le_registryPlatform]
    exact Std.le_total
  trans a b c := by
    rw [le_registryPlatform, le_registryPlatform, le_registryPlatform]
    exact Std.le_trans

theorem tellsApart_registryPlatform (names : List JsString) : registryPlatform.TellsApart names := by
  intro a _ b _ hab hba
  rw [le_registryPlatform] at hab hba
  exact Std.le_antisymm hab hba

theorem distinctNames_registryPlatform : DistinctNames registryPlatform := by
  intro bytes raw h
  change (if bytes = manifestBytes explicitFields then .ok (.obj explicitFields)
    else if bytes = manifestBytes legacyFields then .ok (.obj legacyFields)
    else .error (js "Unexpected token")) = Except.ok raw at h
  split at h
  · rw [← Except.ok.inj h]
    decide
  · split at h
    · rw [← Except.ok.inj h]
      decide
    · cases h

theorem parse_explicitFields :
    registryPlatform.parse (manifestBytes explicitFields) = .ok (.obj explicitFields) := by
  unfold registryPlatform
  dsimp only
  rw [if_pos rfl]

theorem explicit_explicitFields : Explicit explicitFields where
  runtime := by decide
  capabilities := by decide
  simulation := by decide
  status := by decide
  texts name hname value hvalue := by
    have hall : ∀ name ∈ [js "name", js "description", js "vendor", js "model"],
        (JsonObject.get? explicitFields name).all (fun value => (Json.string? (some value)).isSome) = true := by
      decide
    have hstring := hall name hname
    rw [hvalue, Option.all_some] at hstring
    cases value with
    | str text => exact ⟨text, rfl⟩
    | null | bool | num | arr | obj => cases hstring
  pinout value hvalue := by
    have hnone : (JsonObject.get? explicitFields (js "pinout")).isSome = false := by decide
    rw [hvalue] at hnone
    cases hnone

/-- What the platform computes: the explicit module is published with its signature, its manifests have digests of their
own, and the legacy module is published and fails. The long texts are taken by their characters first. -/
theorem packedOf_demo :
    (packedOf explicitFields acmeOptions).any (fun pack => pack.entry.signature = some explicitSignature) = true ∧
      registryPlatform.CollisionFree (manifestTexts registryPlatform (js "module") (moduleOf explicitFields)) ∧
      ((packedOf legacyFields {}).any fun pack =>
        (verifyEntry registryPlatform (js "copy") (some (moduleOf legacyFields)) pack.entry {}).toOption.any
          fun report => !report.ok && !report.manifest.isMatch) = true := by
  have hexplicit : explicitDigests = _ :=
    congrArg₂ Prod.mk (js_ofList _) (congrArg₂ Prod.mk (js_ofList _) (js_ofList _))
  have hlegacy : legacyDigests = _ := congrArg₂ Prod.mk (js_ofList _) (congrArg₂ Prod.mk (js_ofList _) (js_ofList _))
  have hexplicitText : explicitText = _ :=
    congrArg₂ (· ++ ·) (congrArg₂ (· ++ ·) (js_ofList _) (js_ofList _)) (js_ofList _)
  have hlegacyText : legacyText = _ := congrArg₂ (· ++ ·) (js_ofList _) (js_ofList _)
  have hfilledText : filledText = _ :=
    congrArg₂ (· ++ ·) (congrArg₂ (· ++ ·) (js_ofList _) (js_ofList _)) (js_ofList _)
  have hpem : acmePem = _ := congrArg₂ (· ++ ·) (js_ofList _) (js_ofList _)
  unfold packedOf registryPlatform acmeOptions contentOf
  simp only [show digestA = _ from js_ofList _, show filledDigest = _ from js_ofList _,
    show explicitSignature = _ from js_ofList _, hexplicit, hlegacy, hexplicitText, hlegacyText, hfilledText, hpem]
  exact ⟨by decide +kernel, by decide +kernel, by decide +kernel⟩

/-- The explicit module is verified after it is published, also as a copy, and its signature is valid. -/
theorem verifies_iff_explicit_acme :
    ∃ pack, packedOf explicitFields acmeOptions = some pack ∧
      Verifies registryPlatform (js "copy") (copyModuleDirectory (moduleOf explicitFields)) pack.entry ∧
      pack.entry.signature = some explicitSignature := by
  obtain ⟨pack, hsome, hsigned, hpack⟩ := exists_of_packedOf explicitFields acmeOptions
    (fun pack => pack.entry.signature = some explicitSignature) packedOf_demo.1
  refine ⟨pack, hsome, ?_, of_decide_eq_true hsigned⟩
  have hread : readModuleManifestJson registryPlatform (js "module") (moduleOf explicitFields) =
      .ok (.obj explicitFields) :=
    readModuleManifestJson_eq_ok.mpr ⟨manifestBytes explicitFields, rfl, parse_explicitFields⟩
  exact (verifies_iff_explicit registryPlatform numberTexts_registryPlatform collates_registryPlatform
    (tellsApart_registryPlatform _) distinctNames_registryPlatform (fun _ => true) _ _ (moduleOf explicitFields)
    (by decide +kernel) acmeOptions pack hpack packedOf_demo.2.1 (js "copy")).2.mpr
    ⟨⟨explicitFields, hread, explicit_explicitFields⟩, manifestBytes explicitFields, rfl⟩

/-- A legacy manifest is published, and does not verify. -/
theorem not_verifies :
    ∃ pack, packedOf legacyFields {} = some pack ∧
      ∃ report, verifyEntry registryPlatform (js "copy") (some (moduleOf legacyFields)) pack.entry {} = .ok report ∧
        report.ok = false ∧ report.manifest.isMatch = false := by
  obtain ⟨pack, hsome, hreport, -⟩ := exists_of_packedOf legacyFields {} _ packedOf_demo.2.2
  obtain ⟨report, hfound, hfails⟩ := (Option.any_eq_true _ _).mp hreport
  refine ⟨pack, hsome, report, ?_, ?_⟩
  · cases hverify : verifyEntry registryPlatform (js "copy") (some (moduleOf legacyFields)) pack.entry {} with
    | error e => rw [hverify] at hfound; cases hfound
    | ok found => rw [hverify] at hfound; rw [Option.some.inj hfound]
  · simpa using hfails

end Demo

end Pinout.Registry
