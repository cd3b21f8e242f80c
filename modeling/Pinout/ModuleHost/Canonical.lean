import Pinout.ModuleHost.Integrity
import Pinout.Foundation.KeyOrder

/-! # Canonical JSON

The canonical text of an object tells its fields and the canonical texts of their values, and does not depend on
their order; so objects have one canonical text exactly when they have the same fields with the same canonical
texts (`canonicalJson_obj_iff`). -/

namespace Pinout.ModuleHost

open Foundation

namespace Platform

variable {platform : Platform}

/-- The texts of numbers are made of the units of numbers. -/
def NumberTexts (platform : Platform) : Prop :=
  ∀ q, platform.numText q ≠ [] ∧ ∀ u ∈ platform.numText q, isNumberUnit u = true

/-- `localeCompare` compares any two strings, consistently. -/
structure Collates (platform : Platform) : Prop where
  total : ∀ a b, platform.le a b = true ∨ platform.le b a = true
  trans : ∀ a b c, platform.le a b = true → platform.le b c = true → platform.le a c = true

/-- `localeCompare` tells some names apart. -/
def TellsApart (platform : Platform) (names : List JsString) : Prop :=
  ∀ a ∈ names, ∀ b ∈ names, platform.le a b = true → platform.le b a = true → a = b

theorem canonicalFields_eq_map (fields : JsonObject) :
    platform.canonicalFields fields = fields.map fun field => (field.1, platform.canonicalJson field.2) := by
  induction fields with
  | nil => rw [canonicalFields, List.map_nil]
  | cons field fields ih =>
    obtain ⟨name, value⟩ := field
    rw [canonicalFields, ih, List.map_cons]

theorem canonicalItems_eq_map (items : List Json) :
    platform.canonicalItems items = items.map platform.canonicalJson := by
  induction items with
  | nil => rw [canonicalItems, List.map_nil]
  | cons item items ih => rw [canonicalItems, ih, List.map_cons]

/-- The entries of the canonical text of an object. -/
def sortedEntries (platform : Platform) (fields : JsonObject) : List (JsString × JsString) :=
  sortBy (fun a b => platform.le a.1 b.1) (platform.canonicalFields fields)

@[simp] theorem mem_sortedEntries {fields : JsonObject} {entry : JsString × JsString} :
    entry ∈ platform.sortedEntries fields ↔ entry ∈ platform.canonicalFields fields := mem_sortBy

theorem canonicalJson_obj (fields : JsonObject) :
    platform.canonicalJson (.obj fields) = objectText (platform.sortedEntries fields) := by
  rw [canonicalJson]
  rfl

theorem canonicalJson_arr (items : List Json) :
    platform.canonicalJson (.arr items) = arrayText (items.map platform.canonicalJson) := by
  rw [canonicalJson, canonicalItems_eq_map]
  rfl

theorem prints_canonicalJson (hnum : platform.NumberTexts) : PrintsJson platform.canonicalJson where
  null := .null
  yes := .yes
  no := .no
  num q := by
    rw [canonicalJson, Json.stringify]
    · exact .number (hnum q).1 (hnum q).2
    all_goals (intros; contradiction)
  str s := by
    rw [canonicalJson, Json.stringify]
    · exact .string s
    all_goals (intros; contradiction)
  arr := canonicalJson_arr
  obj fields := by
    refine ⟨_, canonicalJson_obj fields, fun entry hentry => ?_⟩
    rw [mem_sortedEntries, canonicalFields_eq_map] at hentry
    obtain ⟨field, hfield, rfl⟩ := List.mem_map.mp hentry
    exact ⟨field, hfield, rfl⟩

/-- **A canonical text is the text of a value.** -/
theorem jsonText_canonicalJson (hnum : platform.NumberTexts) (value : Json) :
    JsonText (platform.canonicalJson value) :=
  (prints_canonicalJson hnum).jsonText value

/-- **Objects have one canonical text exactly when they have the same fields**, with the same canonical texts. -/
theorem canonicalJson_obj_iff (hnum : platform.NumberTexts) (hle : platform.Collates) {f g : JsonObject}
    (htells : platform.TellsApart (f.map (·.1))) (hf : (f.map (·.1)).Nodup) (hg : (g.map (·.1)).Nodup) :
    platform.canonicalJson (.obj f) = platform.canonicalJson (.obj g) ↔
      ∀ name, (f.get? name).map platform.canonicalJson = (g.get? name).map platform.canonicalJson := by
  rw [canonicalJson_obj, canonicalJson_obj, sortedEntries, sortedEntries, canonicalFields_eq_map,
    canonicalFields_eq_map]
  exact objectText_insertionSort_iff (jsonText_canonicalJson hnum) hle.total hle.trans htells hf hg

end Platform

end Pinout.ModuleHost
