import Mathlib.Data.List.Sort
import Pinout.Foundation.JsonText

/-! # JSON values up to key order

The order of the fields of an object says nothing: values are the same up to key order when they differ in it
only, at any depth (`Json.SameUpToKeyOrder`). Sorting the fields by name forgets the order
(`insertionSort_eq_of_perm`), where the names are distinct; so what is printed of an object with sorted fields
tells its fields and no order (`objectText_insertionSort_iff`). -/

namespace Pinout.Foundation

theorem JsonObject.mem_iff_get? {fields : JsonObject} (hnodup : (fields.map (·.1)).Nodup) {name : JsString}
    {value : Json} : (name, value) ∈ fields ↔ fields.get? name = some value := by
  induction fields with
  | nil => simp
  | cons field fields ih =>
    obtain ⟨other, found⟩ := field
    rw [List.map_cons, List.nodup_cons] at hnodup
    rw [JsonObject.get?_cons, List.mem_cons]
    by_cases hname : other = name
    · subst hname
      simp only [Prod.mk.injEq, true_and, if_true, Option.some.injEq]
      constructor
      · rintro (rfl | hmem)
        · rfl
        · exact absurd (List.mem_map_of_mem hmem) hnodup.1
      · rintro rfl
        exact .inl rfl
    · rw [if_neg hname, ← ih hnodup.2]
      simp [Ne.symm hname]

mutual

/-- Whether no object in a value has a name twice. -/
def distinctNames : Json → Bool
  | .arr items => itemsDistinct items
  | .obj fields => decide (fields.map (·.1)).Nodup && fieldsDistinct fields
  | _ => true

/-- Whether no object in the items of an array has a name twice. -/
def itemsDistinct : List Json → Bool
  | [] => true
  | item :: items => distinctNames item && itemsDistinct items

/-- Whether no object in the fields of an object has a name twice. -/
def fieldsDistinct : List (JsString × Json) → Bool
  | [] => true
  | (_, value) :: fields => distinctNames value && fieldsDistinct fields

end

theorem distinctNames_obj (fields : JsonObject) :
    distinctNames (.obj fields) = (decide (fields.map (·.1)).Nodup && fieldsDistinct fields) := rfl

theorem fieldsDistinct_cons (name : JsString) (value : Json) (fields : List (JsString × Json)) :
    fieldsDistinct ((name, value) :: fields) = (distinctNames value && fieldsDistinct fields) := rfl

theorem itemsDistinct_cons (item : Json) (items : List Json) :
    itemsDistinct (item :: items) = (distinctNames item && itemsDistinct items) := rfl

theorem nodup_of_distinctNames {fields : JsonObject} (h : distinctNames (.obj fields) = true) :
    (fields.map (·.1)).Nodup := by
  rw [distinctNames_obj, Bool.and_eq_true, decide_eq_true_eq] at h
  exact h.1

theorem distinctNames_of_get? {fields : JsonObject} (h : distinctNames (.obj fields) = true) {name : JsString}
    {value : Json} (hget : fields.get? name = some value) : distinctNames value = true := by
  rw [distinctNames_obj, Bool.and_eq_true] at h
  have hfields := h.2
  have hmem := (JsonObject.mem_iff_get? (nodup_of_distinctNames (by rw [distinctNames_obj, Bool.and_eq_true]; exact h))).mpr
    hget
  clear h hget
  induction fields with
  | nil => exact absurd hmem List.not_mem_nil
  | cons field fields ih =>
    obtain ⟨other, found⟩ := field
    rw [fieldsDistinct_cons, Bool.and_eq_true] at hfields
    rcases List.mem_cons.mp hmem with heq | hmem
    · obtain ⟨rfl, rfl⟩ := Prod.mk.inj heq
      exact hfields.1
    · exact ih hfields.2 hmem

theorem distinctNames_of_item {items : List Json} (h : distinctNames (.arr items) = true) {item : Json}
    (hmem : item ∈ items) : distinctNames item = true := by
  change itemsDistinct items = true at h
  induction items with
  | nil => exact absurd hmem List.not_mem_nil
  | cons other items ih =>
    rw [itemsDistinct_cons, Bool.and_eq_true] at h
    rcases List.mem_cons.mp hmem with rfl | hmem
    · exact h.1
    · exact ih hmem h.2

namespace Json

/-- Values that are equal up to the order of the fields of their objects. -/
inductive SameUpToKeyOrder : Json → Json → Prop
  | null : SameUpToKeyOrder .null .null
  | bool (b : Bool) : SameUpToKeyOrder (.bool b) (.bool b)
  | num (q : ℚ) : SameUpToKeyOrder (.num q) (.num q)
  | str (s : JsString) : SameUpToKeyOrder (.str s) (.str s)
  | arr {items items' : List Json} (h : List.Forall₂ SameUpToKeyOrder items items') :
    SameUpToKeyOrder (.arr items) (.arr items')
  | obj {fields fields' : JsonObject}
    (h : ∀ name, Option.Rel SameUpToKeyOrder (fields.get? name) (fields'.get? name)) :
    SameUpToKeyOrder (.obj fields) (.obj fields')

theorem sameUpToKeyOrder_arr_iff {items items' : List Json} :
    (arr items).SameUpToKeyOrder (.arr items') ↔ List.Forall₂ SameUpToKeyOrder items items' := by
  refine ⟨fun h => ?_, .arr⟩
  cases h with
  | arr h => exact h

theorem sameUpToKeyOrder_obj_iff {fields fields' : JsonObject} :
    (obj fields).SameUpToKeyOrder (.obj fields') ↔
      ∀ name, Option.Rel SameUpToKeyOrder (fields.get? name) (fields'.get? name) := by
  refine ⟨fun h => ?_, .obj⟩
  cases h with
  | obj h => exact h

@[simp] theorem sameUpToKeyOrder_str_iff {s s' : JsString} : (str s).SameUpToKeyOrder (.str s') ↔ s = s' := by
  refine ⟨fun h => ?_, fun h => h ▸ .str s⟩
  cases h with
  | str => rfl

@[simp] theorem sameUpToKeyOrder_nil : (obj []).SameUpToKeyOrder (.obj []) := .obj fun _ => .none

theorem sameUpToKeyOrder_cons_iff {name : JsString} {v w : Json} {f g : JsonObject} (hf : f.get? name = none)
    (hg : g.get? name = none) : (obj ((name, v) :: f)).SameUpToKeyOrder (.obj ((name, w) :: g)) ↔
      v.SameUpToKeyOrder w ∧ (obj f).SameUpToKeyOrder (.obj g) := by
  rw [sameUpToKeyOrder_obj_iff, sameUpToKeyOrder_obj_iff]
  constructor
  · intro h
    refine ⟨by simpa [JsonObject.get?_cons] using h name, fun other => ?_⟩
    by_cases hname : name = other
    · rw [← hname, hf, hg]
      exact .none
    · simpa [JsonObject.get?_cons, hname] using h other
  · rintro ⟨hvalue, hrest⟩ other
    rw [JsonObject.get?_cons, JsonObject.get?_cons]
    by_cases hname : name = other
    · rw [if_pos hname, if_pos hname]
      exact .some hvalue
    · rw [if_neg hname, if_neg hname]
      exact hrest other

end Json

/-- **Sorting by name forgets the order**, where the names are distinct and the order tells them apart. -/
theorem insertionSort_eq_of_perm {κ α : Type*} {le : κ → κ → Prop} [DecidableRel le]
    (htotal : ∀ a b, le a b ∨ le b a) (htrans : ∀ a b c, le a b → le b c → le a c) {l l' : List (κ × α)}
    (htells : ∀ a ∈ l.map (·.1), ∀ b ∈ l.map (·.1), le a b → le b a → a = b)
    (hnodup : (l.map (·.1)).Nodup) (hperm : l.Perm l') :
    l.insertionSort (fun f g => le f.1 g.1) = l'.insertionSort fun f g => le f.1 g.1 := by
  let r (a b : κ × α) : Prop := le a.1 b.1
  have htotal : Std.Total r := ⟨fun a b => htotal a.1 b.1⟩
  have htrans : IsTrans _ r := ⟨fun a b c => htrans a.1 b.1 c.1⟩
  have hsorted : ∀ l, List.Pairwise r (List.insertionSort r l) := fun l => List.pairwise_insertionSort r l
  refine List.Perm.eq_of_pairwise ?_ (hsorted _) (hsorted _)
    ((List.perm_insertionSort r _).trans (hperm.trans (List.perm_insertionSort r _).symm))
  -- entries that compare both ways have one name, and so are one entry
  intro a b ha hb hab hba
  have ha := (List.perm_insertionSort r l).mem_iff.mp ha
  have hb := hperm.mem_iff.mpr ((List.perm_insertionSort r l').mem_iff.mp hb)
  exact List.inj_on_of_nodup_map hnodup ha hb
    (htells a.1 (List.mem_map_of_mem ha) b.1 (List.mem_map_of_mem hb) hab hba)

/-! ## Printers that sort -/

section Printers

variable {print : Json → JsString}

theorem mem_printed_iff {fields : JsonObject} (hnodup : (fields.map (·.1)).Nodup) {name text : JsString} :
    (name, text) ∈ fields.map (fun field => (field.1, print field.2)) ↔
      (fields.get? name).map print = some text := by
  rw [List.mem_map, Option.map_eq_some_iff]
  constructor
  · rintro ⟨⟨other, value⟩, hmem, heq⟩
    obtain ⟨rfl, rfl⟩ := Prod.mk.inj heq
    exact ⟨value, (JsonObject.mem_iff_get? hnodup).mp hmem, rfl⟩
  · rintro ⟨value, hget, rfl⟩
    exact ⟨(name, value), (JsonObject.mem_iff_get? hnodup).mpr hget, rfl⟩

/-- **Sorted objects have one text exactly when they have the same fields**, with the same texts. -/
theorem objectText_insertionSort_iff {le : JsString → JsString → Prop} [DecidableRel le]
    (hprint : ∀ value, JsonText (print value)) (htotal : ∀ a b, le a b ∨ le b a)
    (htrans : ∀ a b c, le a b → le b c → le a c) {f g : JsonObject}
    (htells : ∀ a ∈ f.map (·.1), ∀ b ∈ f.map (·.1), le a b → le b a → a = b)
    (hf : (f.map (·.1)).Nodup) (hg : (g.map (·.1)).Nodup) :
    objectText ((f.map fun field => (field.1, print field.2)).insertionSort fun a b => le a.1 b.1) =
        objectText ((g.map fun field => (field.1, print field.2)).insertionSort fun a b => le a.1 b.1) ↔
      ∀ name, (f.get? name).map print = (g.get? name).map print := by
  have hmem : ∀ (fields : JsonObject) (entry : JsString × JsString),
      entry ∈ (fields.map fun field => (field.1, print field.2)).insertionSort (fun a b => le a.1 b.1) ↔
        entry ∈ fields.map fun field => (field.1, print field.2) :=
    fun _ _ => (List.perm_insertionSort _ _).mem_iff
  have hnames : ∀ fields : JsonObject,
      (fields.map fun field => (field.1, print field.2)).map (·.1) = fields.map (·.1) := by
    intro fields
    rw [List.map_map]
    rfl
  constructor
  · intro h name
    have htext : ∀ (fields : JsonObject), ∀ entry ∈ (fields.map fun field => (field.1, print field.2)).insertionSort
        (fun a b => le a.1 b.1), JsonText entry.2 := by
      intro fields entry hentry
      obtain ⟨field, -, rfl⟩ := List.mem_map.mp ((hmem fields entry).mp hentry)
      exact hprint field.2
    have hentries := objectText_inj (htext f) (htext g) h
    refine Option.ext fun text => ?_
    rw [← mem_printed_iff hf, ← mem_printed_iff hg, ← hmem f, ← hmem g, hentries]
  · intro h
    congr 1
    refine insertionSort_eq_of_perm htotal htrans (by rwa [hnames]) (by rwa [hnames]) ?_
    refine (List.perm_ext_iff_of_nodup ?_ ?_).mpr fun ⟨name, text⟩ => ?_
    · exact List.Nodup.of_map (·.1) (by rwa [hnames])
    · exact List.Nodup.of_map (·.1) (by rwa [hnames])
    · rw [mem_printed_iff hf, mem_printed_iff hg, h name]

end Printers

end Pinout.Foundation
