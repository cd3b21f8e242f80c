import Pinout.Foundation.Json
import Mathlib.Data.List.TakeWhile

/-! # Texts of JSON values

The texts that are printed for JSON values, whatever order the fields of objects are printed in. Such texts
delimit themselves where a separator or nothing follows (`JsonText.append_inj`); so the text of an object tells
its entries (`objectText_inj`). -/

namespace Pinout.Foundation

/-- `0`–`9`, the signs, the point and the letters of a number. -/
def isNumberUnit (u : UInt16) : Bool := isDigit u || u = 45 || u = 43 || u = 46 || u = 101

/-- The text of an array, of the texts of its items. -/
def arrayText (items : List JsString) : JsString := 91 :: List.intercalate [44] items ++ [93]

/-- The text of an entry of an object, of its name and the text of its value. -/
def entryText (entry : JsString × JsString) : JsString := quote entry.1 ++ 58 :: entry.2

def objectText (entries : List (JsString × JsString)) : JsString :=
  123 :: List.intercalate [44] (entries.map entryText) ++ [125]

inductive JsonText : JsString → Prop
  | null : JsonText (js "null")
  | yes : JsonText (js "true")
  | no : JsonText (js "false")
  | number {text : JsString} (hne : text ≠ []) (hunits : ∀ u ∈ text, isNumberUnit u = true) : JsonText text
  | string (s : JsString) : JsonText (quote s)
  | array {items : List JsString} (h : ∀ text ∈ items, JsonText text) : JsonText (arrayText items)
  | object {entries : List (JsString × JsString)} (h : ∀ entry ∈ entries, JsonText entry.2) :
    JsonText (objectText entries)

/-- What may follow a value: nothing, a comma or a closing bracket. -/
def Follows (rest : JsString) : Prop := ∀ u ∈ rest.head?, u = 44 ∨ u = 93 ∨ u = 125

inductive Lead : UInt16 → JsString → Prop
  | null : Lead 110 (js "null")
  | yes : Lead 116 (js "true")
  | no : Lead 102 (js "false")
  | number {u : UInt16} {text : JsString} (hunit : isNumberUnit u = true) (hunits : ∀ v ∈ text, isNumberUnit v = true)
      (hhead : text.head? = some u) : Lead u text
  | string (s : JsString) : Lead 34 (quote s)
  | array {items : List JsString} (h : ∀ text ∈ items, JsonText text) : Lead 91 (arrayText items)
  | object {entries : List (JsString × JsString)} (h : ∀ entry ∈ entries, JsonText entry.2) :
    Lead 123 (objectText entries)

theorem JsonText.lead {text : JsString} (h : JsonText text) : ∃ u rest, text = u :: rest ∧ Lead u text := by
  cases h with
  | null => exact ⟨_, _, rfl, .null⟩
  | yes => exact ⟨_, _, rfl, .yes⟩
  | no => exact ⟨_, _, rfl, .no⟩
  | number hne hunits =>
    obtain ⟨u, rest, rfl⟩ := List.exists_cons_of_ne_nil hne
    exact ⟨u, rest, rfl, .number (hunits u List.mem_cons_self) hunits rfl⟩
  | string s => exact ⟨_, _, rfl, .string s⟩
  | array h => exact ⟨_, _, rfl, .array h⟩
  | object h => exact ⟨_, _, rfl, .object h⟩

/-- The first unit of a text neither separates nor closes. -/
theorem Lead.ne {u : UInt16} {text : JsString} (h : Lead u text) : u ≠ 44 ∧ u ≠ 93 ∧ u ≠ 125 := by
  cases h with
  | number hunit =>
    refine ⟨?_, ?_, ?_⟩ <;>
      · rintro rfl
        exact absurd hunit (by decide)
  | null | yes | no | string | array | object => decide

theorem number_append_inj {s t x y : JsString} (hs : ∀ u ∈ s, isNumberUnit u = true)
    (ht : ∀ u ∈ t, isNumberUnit u = true) (hx : Follows x) (hy : Follows y) (h : s ++ x = t ++ y) :
    s = t ∧ x = y := by
  have hcut : ∀ {s x : JsString}, (∀ u ∈ s, isNumberUnit u = true) → Follows x →
      (s ++ x).takeWhile isNumberUnit = s ∧ (s ++ x).dropWhile isNumberUnit = x := by
    intro s x hs hx
    have hstop : ∀ u ∈ x.head?, isNumberUnit u = false := by
      intro u hu
      rcases hx u hu with rfl | rfl | rfl <;> decide
    cases x with
    | nil =>
      rw [List.append_nil]
      exact ⟨List.takeWhile_eq_self_iff.mpr hs, List.dropWhile_eq_nil_iff.mpr hs⟩
    | cons u x =>
      have hu := hstop u rfl
      rw [List.takeWhile_append_of_pos hs, List.dropWhile_append_of_pos hs, List.takeWhile_cons_of_neg (by simp [hu]),
        List.dropWhile_cons_of_neg (by simp [hu]), List.append_nil]
      exact ⟨rfl, rfl⟩
  obtain ⟨hleft, hleft'⟩ := hcut hs hx
  obtain ⟨hright, hright'⟩ := hcut ht hy
  exact ⟨by rw [← hleft, h, hright], by rw [← hleft', h, hright']⟩

/-- What follows the first element of a list: the others, each after a comma, and what closes the list. -/
def furtherText (closing : JsString) (texts : List JsString) : JsString :=
  texts.foldr (fun text rest => 44 :: (text ++ rest)) closing

theorem intercalate_cons_append (text : JsString) (texts : List JsString) (closing : JsString) :
    List.intercalate [44] (text :: texts) ++ closing = text ++ furtherText closing texts := by
  induction texts generalizing text with
  | nil => simp [List.intercalate, furtherText]
  | cons other texts ih =>
    rw [List.intercalate_cons_cons, List.append_assoc, List.append_assoc, ih]
    rfl

section Lists

variable {Element : JsString → Prop} {close : UInt16} {x y : JsString}

def Delimits (Element : JsString → Prop) (text : JsString) : Prop :=
  ∀ text' x y, Element text' → Follows x → Follows y → text ++ x = text' ++ y → text = text' ∧ x = y

theorem follows_furtherText (hclose : close = 93 ∨ close = 125) (x : JsString) (texts : List JsString) :
    Follows (furtherText (close :: x) texts) := by
  intro u hu
  cases texts with
  | nil =>
    obtain rfl := Option.some.inj hu
    exact .inr hclose
  | cons text texts =>
    obtain rfl := Option.some.inj hu
    exact .inl rfl

theorem furtherText_inj (hclose : close = 93 ∨ close = 125) {texts texts' : List JsString}
    (htexts : ∀ text ∈ texts, Delimits Element text) (htexts' : ∀ text ∈ texts', Element text)
    (h : furtherText (close :: x) texts = furtherText (close :: y) texts') : texts = texts' ∧ x = y := by
  have hcomma : close ≠ 44 := by rcases hclose with rfl | rfl <;> decide
  induction texts generalizing texts' with
  | nil =>
    cases texts' with
    | nil => exact ⟨rfl, (List.cons.inj h).2⟩
    | cons text texts' => exact absurd (List.cons.inj h).1 hcomma
  | cons text texts ih =>
    cases texts' with
    | nil => exact absurd (List.cons.inj h).1.symm hcomma
    | cons text' texts' =>
      obtain ⟨rfl, hrest⟩ := htexts text List.mem_cons_self text' _ _ (htexts' text' List.mem_cons_self)
        (follows_furtherText hclose x texts) (follows_furtherText hclose y texts') (List.cons.inj h).2
      obtain ⟨rfl, hxy⟩ := ih (fun other hother => htexts other (List.mem_cons_of_mem text hother))
        (fun other hother => htexts' other (List.mem_cons_of_mem text hother)) hrest
      exact ⟨rfl, hxy⟩

/-- Elements between commas are told from the text, if each delimits itself. -/
theorem intercalate_append_inj (hclose : close = 93 ∨ close = 125)
    (hhead : ∀ text, Element text → ∃ u rest, text = u :: rest ∧ u ≠ close) {texts texts' : List JsString}
    (helements : ∀ text ∈ texts, Element text) (htexts : ∀ text ∈ texts, Delimits Element text)
    (htexts' : ∀ text ∈ texts', Element text)
    (h : List.intercalate [44] texts ++ close :: x = List.intercalate [44] texts' ++ close :: y) :
    texts = texts' ∧ x = y := by
  -- an element does not start with what closes the list
  have hopen : ∀ {text : JsString} (rest rest' : JsString), Element text → close :: rest ≠ text ++ rest' := by
    intro text rest rest' htext heq
    obtain ⟨u, tail, rfl, hne⟩ := hhead text htext
    exact hne (List.cons.inj heq).1.symm
  cases texts with
  | nil =>
    cases texts' with
    | nil => exact ⟨rfl, (List.cons.inj h).2⟩
    | cons text' texts' =>
      rw [intercalate_cons_append] at h
      exact absurd h (hopen x _ (htexts' text' List.mem_cons_self))
  | cons text texts =>
    cases texts' with
    | nil =>
      rw [intercalate_cons_append] at h
      exact absurd h.symm (hopen y _ (helements text List.mem_cons_self))
    | cons text' texts' =>
      rw [intercalate_cons_append, intercalate_cons_append] at h
      obtain ⟨rfl, hrest⟩ := htexts text List.mem_cons_self text' _ _ (htexts' text' List.mem_cons_self)
        (follows_furtherText hclose x texts) (follows_furtherText hclose y texts') h
      obtain ⟨rfl, hxy⟩ := furtherText_inj hclose
        (fun other hother => htexts other (List.mem_cons_of_mem text hother))
        (fun other hother => htexts' other (List.mem_cons_of_mem text hother)) hrest
      exact ⟨rfl, hxy⟩

end Lists

theorem entryText_append_inj {entry entry' : JsString × JsString} {x y : JsString}
    (hvalue : entry.2 ++ x = entry'.2 ++ y → entry.2 = entry'.2 ∧ x = y)
    (h : entryText entry ++ x = entryText entry' ++ y) : entry = entry' ∧ x = y := by
  rw [entryText, entryText, List.append_assoc, List.append_assoc] at h
  obtain ⟨hname, hrest⟩ := quote_append_inj h
  obtain ⟨htext, hxy⟩ := hvalue (List.cons.inj hrest).2
  exact ⟨Prod.ext hname htext, hxy⟩

theorem entryText_injective : Function.Injective entryText := by
  intro entry entry' h
  exact (entryText_append_inj (x := []) (y := []) (by simp) (by simpa using h)).1

/-- The text of an entry whose value has a text. -/
def EntryText (text : JsString) : Prop := ∃ entry : JsString × JsString, JsonText entry.2 ∧ text = entryText entry

/-- The entries of an object are told from its text, if the value of each delimits itself. -/
theorem objectText_append_inj {entries entries' : List (JsString × JsString)} {x y : JsString}
    (h : ∀ entry ∈ entries, JsonText entry.2) (hdelimits : ∀ entry ∈ entries, Delimits JsonText entry.2)
    (h' : ∀ entry ∈ entries', JsonText entry.2) (heq : objectText entries ++ x = objectText entries' ++ y) :
    entries = entries' ∧ x = y := by
  have hlists : List.intercalate [44] (entries.map entryText) ++ 125 :: x =
      List.intercalate [44] (entries'.map entryText) ++ 125 :: y := by
    simpa [objectText] using heq
  have hmem : ∀ entries : List (JsString × JsString), (∀ entry ∈ entries, JsonText entry.2) →
      ∀ text ∈ entries.map entryText, EntryText text := by
    intro entries h text htext
    obtain ⟨entry, hentry, rfl⟩ := List.mem_map.mp htext
    exact ⟨entry, h entry hentry, rfl⟩
  have hhead : ∀ text, EntryText text → ∃ u rest, text = u :: rest ∧ u ≠ 125 := by
    rintro _ ⟨entry, -, rfl⟩
    exact ⟨34, _, rfl, by decide⟩
  have hentries : ∀ text ∈ entries.map entryText, Delimits EntryText text := by
    intro text htext
    obtain ⟨entry, hentry, rfl⟩ := List.mem_map.mp htext
    rintro _ x y ⟨entry', htext', rfl⟩ hx hy heq
    obtain ⟨rfl, hxy⟩ := entryText_append_inj (hdelimits entry hentry _ x y htext' hx hy) heq
    exact ⟨rfl, hxy⟩
  obtain ⟨hmap, hxy⟩ := intercalate_append_inj (.inr rfl) hhead (hmem entries h) hentries (hmem entries' h') hlists
  exact ⟨List.map_injective_iff.mpr entryText_injective hmap, hxy⟩

/-- **A text of a value delimits itself.** -/
theorem JsonText.append_inj {text text' : JsString} (h : JsonText text) (h' : JsonText text') {x y : JsString}
    (hx : Follows x) (hy : Follows y) (heq : text ++ x = text' ++ y) : text = text' ∧ x = y := by
  induction h generalizing text' x y with
  | null =>
    obtain ⟨u, rest, hu, hlead⟩ := h'.lead
    have hhead : u = 110 := by rw [hu] at heq; exact (List.cons.inj heq).1.symm
    cases hlead with
    | null => exact ⟨rfl, List.append_cancel_left heq⟩
    | number hunit => exact absurd hunit (by rw [hhead]; decide)
    | yes | no | string | array | object => cases hhead
  | yes =>
    obtain ⟨u, rest, hu, hlead⟩ := h'.lead
    have hhead : u = 116 := by rw [hu] at heq; exact (List.cons.inj heq).1.symm
    cases hlead with
    | yes => exact ⟨rfl, List.append_cancel_left heq⟩
    | number hunit => exact absurd hunit (by rw [hhead]; decide)
    | null | no | string | array | object => cases hhead
  | no =>
    obtain ⟨u, rest, hu, hlead⟩ := h'.lead
    have hhead : u = 102 := by rw [hu] at heq; exact (List.cons.inj heq).1.symm
    cases hlead with
    | no => exact ⟨rfl, List.append_cancel_left heq⟩
    | number hunit => exact absurd hunit (by rw [hhead]; decide)
    | null | yes | string | array | object => cases hhead
  | @number text hne hunits =>
    obtain ⟨u, rest, hu, hlead⟩ := h'.lead
    obtain ⟨v, tail, rfl⟩ := List.exists_cons_of_ne_nil hne
    have hhead : v = u := by rw [hu] at heq; exact (List.cons.inj heq).1
    have hv := hunits v List.mem_cons_self
    rw [hhead] at hv
    cases hlead with
    | number _ hunits' => exact number_append_inj hunits hunits' hx hy heq
    | null | yes | no | string | array | object => exact absurd hv (by decide)
  | string s =>
    obtain ⟨u, rest, hu, hlead⟩ := h'.lead
    have hhead : u = 34 := by rw [hu] at heq; exact (List.cons.inj heq).1.symm
    cases hlead with
    | string s' =>
      obtain ⟨rfl, hxy⟩ := quote_append_inj heq
      exact ⟨rfl, hxy⟩
    | number hunit => exact absurd hunit (by rw [hhead]; decide)
    | null | yes | no | array | object => cases hhead
  | @array items hitems ih =>
    obtain ⟨u, rest, hu, hlead⟩ := h'.lead
    have hhead : u = 91 := by rw [hu] at heq; exact (List.cons.inj heq).1.symm
    cases hlead with
    | @array items' hitems' =>
      have hlists : List.intercalate [44] items ++ 93 :: x = List.intercalate [44] items' ++ 93 :: y := by
        simpa [arrayText] using heq
      have hhead : ∀ text, JsonText text → ∃ u rest, text = u :: rest ∧ u ≠ 93 := by
        intro text htext
        obtain ⟨v, tail, hv, hlead⟩ := htext.lead
        exact ⟨v, tail, hv, hlead.ne.2.1⟩
      obtain ⟨rfl, hxy⟩ := intercalate_append_inj (.inl rfl) hhead hitems
        (fun text htext text' x y htext' hx hy heq => ih text htext htext' hx hy heq) hitems' hlists
      exact ⟨rfl, hxy⟩
    | number hunit => exact absurd hunit (by rw [hhead]; decide)
    | null | yes | no | string | object => cases hhead
  | @object entries hentries ih =>
    obtain ⟨u, rest, hu, hlead⟩ := h'.lead
    have hhead : u = 123 := by rw [hu] at heq; exact (List.cons.inj heq).1.symm
    cases hlead with
    | @object entries' hentries' =>
      obtain ⟨rfl, hxy⟩ := objectText_append_inj hentries
        (fun entry hentry text' x y htext' hx hy heq => ih entry hentry htext' hx hy heq) hentries' heq
      exact ⟨rfl, hxy⟩
    | number hunit => exact absurd hunit (by rw [hhead]; decide)
    | null | yes | no | string | array => cases hhead

/-- **The text of an array tells the texts of its items.** -/
theorem arrayText_inj {items items' : List JsString} (h : ∀ text ∈ items, JsonText text)
    (h' : ∀ text ∈ items', JsonText text) (heq : arrayText items = arrayText items') : items = items' := by
  have hhead : ∀ text, JsonText text → ∃ u rest, text = u :: rest ∧ u ≠ 93 := by
    intro text htext
    obtain ⟨u, rest, hu, hlead⟩ := htext.lead
    exact ⟨u, rest, hu, hlead.ne.2.1⟩
  have hdelimits : ∀ text ∈ items, Delimits JsonText text := by
    intro text htext text' x y htext' hx hy heq
    exact (h text htext).append_inj htext' hx hy heq
  exact (intercalate_append_inj (.inl rfl) hhead h hdelimits h' (List.cons.inj heq).2).1

/-- **The text of an object tells its entries.** -/
theorem objectText_inj {entries entries' : List (JsString × JsString)} (h : ∀ entry ∈ entries, JsonText entry.2)
    (h' : ∀ entry ∈ entries', JsonText entry.2) (heq : objectText entries = objectText entries') :
    entries = entries' := by
  refine (objectText_append_inj (x := []) (y := []) h ?_ h' (by rw [heq])).1
  intro entry hentry text' x y htext' hx hy heq
  exact (h entry hentry).append_inj htext' hx hy heq

/-! ## Printers -/

/-- A printer of JSON values, which may print the fields of an object in any order. -/
structure PrintsJson (print : Json → JsString) : Prop where
  null : JsonText (print .null)
  yes : JsonText (print (.bool true))
  no : JsonText (print (.bool false))
  num : ∀ q, JsonText (print (.num q))
  str : ∀ s, JsonText (print (.str s))
  arr : ∀ items, print (.arr items) = arrayText (items.map print)
  obj : ∀ fields, ∃ entries, print (.obj fields) = objectText entries ∧
    ∀ entry ∈ entries, ∃ field ∈ fields, entry = (field.1, print field.2)

theorem PrintsJson.jsonText {print : Json → JsString} (h : PrintsJson print) (value : Json) : JsonText (print value) := by
  induction value using Json.induct with
  | null => exact h.null
  | bool b =>
    cases b with
    | true => exact h.yes
    | false => exact h.no
  | num q => exact h.num q
  | str s => exact h.str s
  | arr items ih =>
    rw [h.arr]
    refine .array fun text htext => ?_
    obtain ⟨item, hitem, rfl⟩ := List.mem_map.mp htext
    exact ih item hitem
  | obj fields ih =>
    obtain ⟨entries, hentries, hfields⟩ := h.obj fields
    rw [hentries]
    refine .object fun entry hentry => ?_
    obtain ⟨⟨name, value⟩, hfield, rfl⟩ := hfields entry hentry
    exact ih name value hfield

/-! ## What `JSON.stringify` prints -/

namespace Json

variable {numText : ℚ → JsString}

theorem stringifyItems_eq_map (items : List Json) : stringifyItems numText items = items.map (stringify numText) := by
  induction items with
  | nil => rw [stringifyItems, List.map_nil]
  | cons item items ih => rw [stringifyItems, ih, List.map_cons]

theorem stringifyFields_eq_map (fields : JsonObject) :
    stringifyFields numText fields = fields.map fun field => entryText (field.1, stringify numText field.2) := by
  induction fields with
  | nil => rw [stringifyFields, List.map_nil]
  | cons field fields ih =>
    obtain ⟨name, value⟩ := field
    rw [stringifyFields, ih, List.map_cons]
    rfl

theorem stringify_arr (items : List Json) : stringify numText (.arr items) = arrayText (items.map (stringify numText)) := by
  rw [stringify, stringifyItems_eq_map]
  rfl

theorem stringify_obj (fields : JsonObject) :
    stringify numText (.obj fields) = objectText (fields.map fun field => (field.1, stringify numText field.2)) := by
  rw [stringify, stringifyFields_eq_map, objectText, List.map_map]
  rfl

/-- **What is printed is the text of a value.** -/
theorem jsonText_stringify (hne : ∀ q, numText q ≠ []) (hunits : ∀ q, ∀ u ∈ numText q, isNumberUnit u = true)
    (value : Json) : JsonText (stringify numText value) := by
  have hprints : PrintsJson (stringify numText) :=
    { null := .null
      yes := .yes
      no := .no
      num := fun q => .number (hne q) (hunits q)
      str := .string
      arr := stringify_arr
      obj := fun fields => ⟨_, stringify_obj fields, fun entry hentry => by
        obtain ⟨field, hfield, rfl⟩ := List.mem_map.mp hentry
        exact ⟨field, hfield, rfl⟩⟩ }
  exact hprints.jsonText value

end Json

end Pinout.Foundation
