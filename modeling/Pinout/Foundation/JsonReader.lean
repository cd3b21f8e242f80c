import Pinout.Foundation.KeyOrder
import Pinout.Foundation.NumberText

/-! # Reading JSON

`JSON.parse`, unit by unit: a reader is in a phase, with the arrays and objects that are open around it. What is read of
a number (`readNumber`, `none` where it is no number) is a parameter, as its printing is. A printed value is read back,
whatever is open (`run_stringify`); and a text that starts with a brace is read only when its last brace closes the
first one (`not_parse_of_open`). -/

namespace Pinout.Foundation

/-- Set a field: in its place if there is one of its name, else behind the others. -/
def JsonObject.set (name : JsString) (value : Json) : JsonObject → JsonObject
  | [] => [(name, value)]
  | (other, found) :: fields =>
    if other = name then (name, value) :: fields else (other, found) :: JsonObject.set name value fields

theorem JsonObject.set_of_notMem {name : JsString} (value : Json) {fields : JsonObject}
    (h : name ∉ fields.map (·.1)) : fields.set name value = fields ++ [(name, value)] := by
  induction fields with
  | nil => rfl
  | cons field fields ih =>
    obtain ⟨other, found⟩ := field
    rw [List.map_cons, List.mem_cons, not_or] at h
    rw [JsonObject.set, if_neg (Ne.symm h.1), ih h.2, List.cons_append]

/-! ## The reader -/

inductive JsonFrame
  | array (items : List Json)
  /-- An object, with the fields before the one that is read, and the name of that. -/
  | object (fields : JsonObject) (name : JsString)

inductive JsonWord
  | yes | no | null

def JsonWord.text : JsonWord → JsString
  | yes => js "true"
  | no => js "false"
  | null => js "null"

def JsonWord.value : JsonWord → Json
  | yes => .bool true
  | no => .bool false
  | null => .null

inductive JsonPhase
  | value
  | firstItem
  | firstName
  | name
  | colon
  | string (isName : Bool) (text : JsString)
  | escape (isName : Bool) (text : JsString)
  | unicode (isName : Bool) (text : JsString) (digits code : Nat)
  | literal (word : JsonWord) (read : Nat)
  | number (text : JsString)
  | after (value : Json)

structure JsonReader where
  phase : JsonPhase := .value
  frames : List JsonFrame := []

namespace JsonReader

def isJsonSpace (u : UInt16) : Bool := u = 32 || u = 10 || u = 13 || u = 9

def isNumberChar (u : UInt16) : Bool := isNumberUnit u || u = 69

def escaped? (u : UInt16) : Option UInt16 :=
  if u = 34 ∨ u = 92 ∨ u = 47 then some u
  else if u = 98 then some 8
  else if u = 102 then some 12
  else if u = 110 then some 10
  else if u = 114 then some 13
  else if u = 116 then some 9
  else none

def hexDigit? (u : UInt16) : Option Nat :=
  if isDigit u then some (u.toNat - 48)
  else if 97 ≤ u.toNat ∧ u.toNat ≤ 102 then some (u.toNat - 87)
  else if 65 ≤ u.toNat ∧ u.toNat ≤ 70 then some (u.toNat - 55)
  else none

def stepValue (frames : List JsonFrame) (u : UInt16) : Option JsonReader :=
  if u = 123 then some ⟨.firstName, .object [] [] :: frames⟩
  else if u = 91 then some ⟨.firstItem, .array [] :: frames⟩
  else if u = 34 then some ⟨.string false [], frames⟩
  else if u = 116 then some ⟨.literal .yes 1, frames⟩
  else if u = 102 then some ⟨.literal .no 1, frames⟩
  else if u = 110 then some ⟨.literal .null 1, frames⟩
  else if isNumberChar u then some ⟨.number [u], frames⟩
  else none

def stepAfter (value : Json) (u : UInt16) : List JsonFrame → Option JsonReader
  | [] => if isJsonSpace u then some ⟨.after value, []⟩ else none
  | .array items :: outer =>
    if isJsonSpace u then some ⟨.after value, .array items :: outer⟩
    else if u = 44 then some ⟨.value, .array (items ++ [value]) :: outer⟩
    else if u = 93 then some ⟨.after (.arr (items ++ [value])), outer⟩
    else none
  | .object fields name :: outer =>
    if isJsonSpace u then some ⟨.after value, .object fields name :: outer⟩
    else if u = 44 then some ⟨.name, .object (fields.set name value) [] :: outer⟩
    else if u = 125 then some ⟨.after (.obj (fields.set name value)), outer⟩
    else none

def endString (isName : Bool) (text : JsString) (frames : List JsonFrame) : Option JsonReader :=
  if isName then
    match frames with
    | .object fields _ :: outer => some ⟨.colon, .object fields text :: outer⟩
    | _ => none
  else some ⟨.after (.str text), frames⟩

def stepString (isName : Bool) (text : JsString) (frames : List JsonFrame) (u : UInt16) : Option JsonReader :=
  if u = 34 then endString isName text frames
  else if u = 92 then some ⟨.escape isName text, frames⟩
  else if u.toNat < 32 then none
  else some ⟨.string isName (text ++ [u]), frames⟩

def stepEscape (isName : Bool) (text : JsString) (frames : List JsonFrame) (u : UInt16) : Option JsonReader :=
  if u = 117 then some ⟨.unicode isName text 0 0, frames⟩
  else (escaped? u).map fun v => ⟨.string isName (text ++ [v]), frames⟩

/-- A digit behind `\u`. -/
def stepUnicode (isName : Bool) (text : JsString) (digits code : Nat) (frames : List JsonFrame) (u : UInt16) :
    Option JsonReader :=
  (hexDigit? u).map fun d =>
    if digits = 3 then ⟨.string isName (text ++ [(code * 16 + d).toUInt16]), frames⟩
    else ⟨.unicode isName text (digits + 1) (code * 16 + d), frames⟩

def stepLiteral (word : JsonWord) (read : Nat) (frames : List JsonFrame) (u : UInt16) : Option JsonReader :=
  if word.text[read]? = some u then
    some (if read + 1 = word.text.length then ⟨.after word.value, frames⟩ else ⟨.literal word (read + 1), frames⟩)
  else none

variable (readNumber : JsString → Option ℚ)

def step (r : JsonReader) (u : UInt16) : Option JsonReader :=
  match r.phase with
  | .value => if isJsonSpace u then some r else stepValue r.frames u
  | .firstItem =>
    if isJsonSpace u then some r
    else if u = 93 then
      match r.frames with
      | .array items :: outer => some ⟨.after (.arr items), outer⟩
      | _ => none
    else stepValue r.frames u
  | .firstName =>
    if isJsonSpace u then some r
    else if u = 34 then some ⟨.string true [], r.frames⟩
    else if u = 125 then
      match r.frames with
      | .object fields _ :: outer => some ⟨.after (.obj fields), outer⟩
      | _ => none
    else none
  | .name =>
    if isJsonSpace u then some r
    else if u = 34 then some ⟨.string true [], r.frames⟩
    else none
  | .colon =>
    if isJsonSpace u then some r
    else if u = 58 then some ⟨.value, r.frames⟩
    else none
  | .string isName text => stepString isName text r.frames u
  | .escape isName text => stepEscape isName text r.frames u
  | .unicode isName text digits code => stepUnicode isName text digits code r.frames u
  | .literal word read => stepLiteral word read r.frames u
  | .number text =>
    if isNumberChar u then some ⟨.number (text ++ [u]), r.frames⟩
    else (readNumber text).bind fun q => stepAfter (.num q) u r.frames
  | .after value => stepAfter value u r.frames

def run (r : JsonReader) : JsString → Option JsonReader
  | [] => some r
  | u :: text => (step readNumber r u).bind fun r' => run r' text

/-- The value that was read, at the end of the text. -/
def finish (r : JsonReader) : Option Json :=
  match r.phase, r.frames with
  | .after value, [] => some value
  | .number text, [] => (readNumber text).map .num
  | _, _ => none

/-- `JSON.parse`; `none` when it throws. -/
def parse (text : JsString) : Option Json := (run readNumber {} text).bind (finish readNumber)

@[simp] theorem run_nil (r : JsonReader) : run readNumber r [] = some r := rfl

theorem run_cons (r : JsonReader) (u : UInt16) (text : JsString) :
    run readNumber r (u :: text) = (step readNumber r u).bind fun r' => run readNumber r' text := rfl

theorem run_append (r : JsonReader) (s t : JsString) :
    run readNumber r (s ++ t) = (run readNumber r s).bind fun r' => run readNumber r' t := by
  induction s generalizing r with
  | nil => rfl
  | cons u s ih =>
    rw [List.cons_append, run_cons, run_cons, Option.bind_assoc]
    exact congrArg (Option.bind _) (funext ih)

/-! ## Strings are read back -/

section Strings

variable {readNumber} {isName : Bool} {text : JsString} {frames : List JsonFrame}

/-- `e` stands for the unit `u` in a string. -/
def Reads (readNumber : JsString → Option ℚ) (e : JsString) (u : UInt16) : Prop :=
  ∀ isName text frames,
    run readNumber ⟨.string isName text, frames⟩ e = some ⟨.string isName (text ++ [u]), frames⟩

theorem hexDigit?_hexDigit {n : Nat} (h : n < 16) : hexDigit? (hexDigit n) = some n := by
  interval_cases n <;> decide

theorem reads_self {u : UInt16} (hquote : u ≠ 34) (hslash : u ≠ 92) (hcontrol : 32 ≤ u.toNat) :
    Reads readNumber [u] u := by
  intro isName text frames
  have hstep : step readNumber ⟨.string isName text, frames⟩ u = some ⟨.string isName (text ++ [u]), frames⟩ := by
    show stepString isName text frames u = _
    rw [stepString, if_neg hquote, if_neg hslash, if_neg (Nat.not_lt.mpr hcontrol)]
  rw [run_cons, hstep]
  rfl

theorem reads_escaped {u v : UInt16} (hv : v ≠ 117) (hescaped : escaped? v = some u) : Reads readNumber [92, v] u := by
  intro isName text frames
  have hstep : step readNumber ⟨.escape isName text, frames⟩ v = some ⟨.string isName (text ++ [u]), frames⟩ := by
    show stepEscape isName text frames v = _
    rw [stepEscape, if_neg hv, hescaped]
    rfl
  show (step readNumber ⟨.escape isName text, frames⟩ v).bind _ = _
  rw [hstep]
  rfl

theorem reads_unicodeEscape (u : UInt16) : Reads readNumber (unicodeEscape u) u := by
  intro isName text frames
  have hdigit : ∀ n < 16, ∀ digits code, step readNumber ⟨.unicode isName text digits code, frames⟩ (hexDigit n) =
      some (if digits = 3 then ⟨.string isName (text ++ [(code * 16 + n).toUInt16]), frames⟩
        else ⟨.unicode isName text (digits + 1) (code * 16 + n), frames⟩) := by
    intro n hn digits code
    show stepUnicode isName text digits code frames (hexDigit n) = _
    rw [stepUnicode, hexDigit?_hexDigit hn]
    rfl
  have hu : u.toNat < 65536 := u.toNat_lt
  have hsum : (((0 * 16 + u.toNat / 4096) * 16 + u.toNat / 256 % 16) * 16 + u.toNat / 16 % 16) * 16 + u.toNat % 16 =
      u.toNat := by omega
  have hback : u.toNat.toUInt16 = u := by simp [Nat.toUInt16]
  show run readNumber ⟨.unicode isName text 0 0, frames⟩ [hexDigit (u.toNat / 4096), hexDigit (u.toNat / 256 % 16),
    hexDigit (u.toNat / 16 % 16), hexDigit (u.toNat % 16)] = _
  rw [run_cons, hdigit _ (by omega), Option.bind_some, if_neg (by decide), run_cons,
    hdigit _ (Nat.mod_lt _ (by omega)), Option.bind_some, if_neg (by decide), run_cons,
    hdigit _ (Nat.mod_lt _ (by omega)), Option.bind_some, if_neg (by decide), run_cons,
    hdigit _ (Nat.mod_lt _ (by omega)), Option.bind_some, if_pos rfl, hsum, hback]
  rfl

theorem reads_quoteUnit (u : UInt16) : Reads readNumber (quoteUnit u) u := by
  unfold quoteUnit
  split
  · exact reads_unicodeEscape u
  split
  · next h =>
    obtain rfl := h
    exact reads_escaped (by decide) rfl
  split
  · next h =>
    obtain rfl := h
    exact reads_escaped (by decide) rfl
  split
  · next h =>
    obtain rfl := h
    exact reads_escaped (by decide) rfl
  split
  · next h =>
    obtain rfl := h
    exact reads_escaped (by decide) rfl
  split
  · next h =>
    obtain rfl := h
    exact reads_escaped (by decide) rfl
  split
  · next h =>
    obtain rfl := h
    exact reads_escaped (by decide) rfl
  split
  · next h =>
    obtain rfl := h
    exact reads_escaped (by decide) rfl
  split
  · exact reads_unicodeEscape u
  · exact reads_self ‹_› ‹_› (Nat.not_lt.mp ‹_›)

theorem reads_surrogate {u : UInt16} (h : isLead u = true ∨ isTrail u = true) : Reads readNumber [u] u := by
  have hlarge : 0xD800 ≤ u.toNat := by
    simp only [isLead, isTrail, decide_eq_true_eq] at h
    omega
  refine reads_self ?_ ?_ (by omega)
  · rintro rfl
    exact absurd hlarge (by decide)
  · rintro rfl
    exact absurd hlarge (by decide)

theorem run_quoteUnits (s : JsString) (isName : Bool) (text : JsString) (frames : List JsonFrame) :
    run readNumber ⟨.string isName text, frames⟩ (quoteUnits s).flatten =
      some ⟨.string isName (text ++ s), frames⟩ := by
  induction s using quoteUnits.induct generalizing text with
  | case1 => simp [quoteUnits]
  | case2 u =>
    rw [quoteUnits, List.flatten_singleton]
    exact reads_quoteUnit u isName text frames
  | case3 u v rest hpair ih =>
    rw [quoteUnits, if_pos hpair]
    rw [Bool.and_eq_true] at hpair
    rw [List.flatten_cons, List.flatten_cons, run_append, reads_surrogate (.inl hpair.1), Option.bind_some, run_append,
      reads_surrogate (.inr hpair.2), Option.bind_some, ih, List.append_assoc, List.append_assoc]
    rfl
  | case4 u v rest hpair ih =>
    rw [quoteUnits, if_neg hpair, List.flatten_cons, run_append, reads_quoteUnit u, Option.bind_some, ih,
      List.append_assoc]
    rfl

theorem run_quote (s : JsString) (isName : Bool) (frames : List JsonFrame) (rest : JsString) :
    run readNumber ⟨.string isName [], frames⟩ ((quoteUnits s).flatten ++ 34 :: rest) =
      (endString isName s frames).bind fun r => run readNumber r rest := by
  rw [run_append, run_quoteUnits, Option.bind_some, List.nil_append, run_cons]
  rfl

end Strings

/-! ## Values are read back -/

theorem isJsonSpace_of_lead {u : UInt16} {text : JsString} (h : Lead u text) : isJsonSpace u = false := by
  cases h with
  | number hunit =>
    rw [Bool.eq_false_iff]
    intro hspace
    simp only [isJsonSpace, Bool.or_eq_true, decide_eq_true_eq] at hspace
    rcases hspace with ((rfl | rfl) | rfl) | rfl <;> exact absurd hunit (by decide)
  | null | yes | no | string | array | object => decide

def EndsNumber (rest : JsString) : Prop := ∃ u tail, rest = u :: tail ∧ isNumberChar u = false

section Values

variable {readNumber} {numText : ℚ → JsString} {frames : List JsonFrame} {rest : JsString}

theorem stepValue_number {u : UInt16} (h : isNumberUnit u = true) :
    step readNumber ⟨.value, frames⟩ u = some ⟨.number [u], frames⟩ := by
  have hne : ∀ v : UInt16, isNumberUnit v = false → u ≠ v := by
    rintro v hv rfl
    rw [h] at hv
    cases hv
  have hspace : isJsonSpace u = false := by
    simp [isJsonSpace, hne 32 (by decide), hne 10 (by decide), hne 13 (by decide), hne 9 (by decide)]
  show (if isJsonSpace u then some ⟨.value, frames⟩ else stepValue frames u) = _
  rw [hspace, if_neg Bool.false_ne_true, stepValue, if_neg (hne _ (by decide)), if_neg (hne _ (by decide)),
    if_neg (hne _ (by decide)), if_neg (hne _ (by decide)), if_neg (hne _ (by decide)), if_neg (hne _ (by decide)),
    if_pos (by rw [isNumberChar, h, Bool.true_or])]

theorem run_number {text more : JsString} (h : ∀ u ∈ more, isNumberUnit u = true) :
    run readNumber ⟨.number text, frames⟩ (more ++ rest) = run readNumber ⟨.number (text ++ more), frames⟩ rest := by
  induction more generalizing text with
  | nil => rw [List.nil_append, List.append_nil]
  | cons u more ih =>
    have hunit : isNumberChar u = true := by rw [isNumberChar, h u List.mem_cons_self, Bool.true_or]
    have hstep : step readNumber ⟨.number text, frames⟩ u = some ⟨.number (text ++ [u]), frames⟩ := if_pos hunit
    rw [List.cons_append, run_cons, hstep, Option.bind_some, ih fun v hv => h v (List.mem_cons_of_mem u hv),
      List.append_assoc]
    rfl

theorem run_number_end {text : JsString} {q : ℚ} (hback : readNumber text = some q) (hend : EndsNumber rest) :
    run readNumber ⟨.number text, frames⟩ rest = run readNumber ⟨.after (.num q), frames⟩ rest := by
  obtain ⟨u, tail, rfl, hu⟩ := hend
  have hstep : step readNumber ⟨.number text, frames⟩ u = step readNumber ⟨.after (.num q), frames⟩ u := by
    show (if isNumberChar u then _ else (readNumber text).bind fun q => stepAfter (.num q) u frames) = _
    rw [if_neg (by rw [hu]; exact Bool.false_ne_true), hback]
    rfl
  rw [run_cons, run_cons, hstep]

/-- What a printed value is followed by ends it, if it is a number. -/
def Ends (value : Json) (rest : JsString) : Prop := ∀ q, value = .num q → EndsNumber rest

variable (readNumber numText) in
/-- A value is read back from its text, whatever is open and whatever follows. -/
def ReadBack (value : Json) : Prop :=
  ∀ frames rest, Ends value rest →
    run readNumber ⟨.value, frames⟩ (value.stringify numText ++ rest) = run readNumber ⟨.after value, frames⟩ rest

theorem ends_of_follows {value : Json} {u : UInt16} {tail : JsString} (h : u = 44 ∨ u = 93 ∨ u = 125) :
    Ends value (u :: tail) := by
  intro q _
  refine ⟨u, tail, rfl, ?_⟩
  rcases h with rfl | rfl | rfl <;> decide

/-- What stands behind the elements of a list ends the first of them. -/
theorem ends_furtherText {value : Json} {close : UInt16} (hclose : close = 93 ∨ close = 125) (rest : JsString)
    (texts : List JsString) : Ends value (furtherText (close :: rest) texts) := by
  cases texts with
  | nil => exact ends_of_follows (.inr hclose)
  | cons text texts => exact ends_of_follows (.inl rfl)

theorem readBack_number (hnum : ReadsNumbers numText readNumber) (q : ℚ) : ReadBack readNumber numText (.num q) := by
  intro frames rest hends
  obtain ⟨u, more, htext⟩ := List.exists_cons_of_ne_nil (hnum.ne_nil q)
  have hunits := hnum.units q
  rw [htext] at hunits
  have hback := hnum.back q
  rw [htext] at hback
  rw [Json.stringify, htext, List.cons_append, run_cons, stepValue_number (hunits u List.mem_cons_self),
    Option.bind_some, run_number fun v hv => hunits v (List.mem_cons_of_mem u hv)]
  exact run_number_end hback (hends q rfl)

theorem readBack_string (s : JsString) : ReadBack readNumber numText (.str s) := by
  intro frames rest _
  rw [Json.stringify, quote, List.cons_append, List.cons_append, List.append_assoc]
  show run readNumber ⟨.string false [], frames⟩ ((quoteUnits s).flatten ++ 34 :: rest) = _
  rw [run_quote]
  rfl

/-! ### Arrays -/

theorem run_furtherItems {items : List Json} (hitems : ∀ item ∈ items, ReadBack readNumber numText item)
    (done : List Json) (value : Json) (frames : List JsonFrame) (rest : JsString) :
    run readNumber ⟨.after value, .array done :: frames⟩
        (furtherText (93 :: rest) (items.map (Json.stringify numText))) =
      run readNumber ⟨.after (.arr (done ++ value :: items)), frames⟩ rest := by
  induction items generalizing done value with
  | nil => rfl
  | cons item items ih =>
    show run readNumber ⟨.value, .array (done ++ [value]) :: frames⟩
      (item.stringify numText ++ furtherText (93 :: rest) (items.map (Json.stringify numText))) = _
    rw [hitems item List.mem_cons_self _ _ (ends_furtherText (.inl rfl) _ _),
      ih fun v hv => hitems v (List.mem_cons_of_mem item hv),
      List.append_assoc]
    rfl

theorem run_firstItem {text : JsString} (hspace : ∀ u ∈ text.head?, isJsonSpace u = false ∧ u ≠ 93)
    (hne : text ≠ []) :
    run readNumber ⟨.firstItem, frames⟩ text = run readNumber ⟨.value, frames⟩ text := by
  obtain ⟨u, tail, rfl⟩ := List.exists_cons_of_ne_nil hne
  obtain ⟨hu, hclose⟩ := hspace u rfl
  have hfirst : step readNumber ⟨.firstItem, frames⟩ u = stepValue frames u := by
    show (if isJsonSpace u then _ else if u = 93 then _ else stepValue frames u) = _
    rw [hu, if_neg Bool.false_ne_true, if_neg hclose]
  have hvalue : step readNumber ⟨.value, frames⟩ u = stepValue frames u := by
    show (if isJsonSpace u then _ else stepValue frames u) = _
    rw [hu, if_neg Bool.false_ne_true]
  rw [run_cons, run_cons, hfirst, hvalue]

theorem readBack_array (hnum : ReadsNumbers numText readNumber) {items : List Json}
    (hitems : ∀ item ∈ items, ReadBack readNumber numText item) : ReadBack readNumber numText (.arr items) := by
  intro frames rest _
  rw [Json.stringify_arr, arrayText, List.cons_append, List.cons_append, List.append_assoc]
  show run readNumber ⟨.firstItem, .array [] :: frames⟩
    (List.intercalate [44] (items.map (Json.stringify numText)) ++ 93 :: rest) = _
  cases items with
  | nil => rfl
  | cons item items =>
    obtain ⟨u, tail, htext, hlead⟩ := (Json.jsonText_stringify hnum.ne_nil hnum.units item).lead
    have hends : Ends item (furtherText (93 :: rest) (items.map (Json.stringify numText))) :=
      ends_furtherText (.inl rfl) _ _
    rw [List.map_cons, intercalate_cons_append, run_firstItem, hitems item List.mem_cons_self _ _ hends,
      run_furtherItems fun v hv => hitems v (List.mem_cons_of_mem item hv)]
    · rfl
    · rw [htext]
      rintro v ⟨⟩
      exact ⟨isJsonSpace_of_lead hlead, hlead.ne.2.1⟩
    · rw [htext]
      exact List.cons_ne_nil _ _

/-! ### Objects -/

theorem run_entry {phase : JsonPhase} (hphase : phase = .firstName ∨ phase = .name) {name : JsString} {value : Json}
    (hvalue : ReadBack readNumber numText value) (done : JsonObject) (other : JsString) (frames : List JsonFrame)
    (hends : Ends value rest) :
    run readNumber ⟨phase, .object done other :: frames⟩ (entryText (name, value.stringify numText) ++ rest) =
      run readNumber ⟨.after value, .object done name :: frames⟩ rest := by
  have hopen : step readNumber ⟨phase, .object done other :: frames⟩ 34 =
      some ⟨.string true [], .object done other :: frames⟩ := by
    rcases hphase with rfl | rfl <;> rfl
  rw [entryText, quote, List.cons_append, List.cons_append, List.cons_append, run_cons, hopen, Option.bind_some,
    List.append_assoc, List.append_assoc, List.singleton_append, run_quote]
  show run readNumber ⟨.value, .object done name :: frames⟩ (value.stringify numText ++ rest) = _
  exact hvalue _ _ hends

theorem set_of_nodup {done : JsonObject} {name : JsString} {names : List JsString} (value : Json)
    (hnodup : (done.map (·.1) ++ name :: names).Nodup) : done.set name value = done ++ [(name, value)] := by
  refine JsonObject.set_of_notMem value fun hmem => ?_
  exact (List.nodup_append.mp hnodup).2.2 name hmem name List.mem_cons_self rfl

theorem run_furtherFields {fields : JsonObject}
    (hfields : ∀ name value, (name, value) ∈ fields → ReadBack readNumber numText value) {done : JsonObject}
    {name : JsString} (value : Json) (hnodup : (done.map (·.1) ++ name :: fields.map (·.1)).Nodup)
    (frames : List JsonFrame) (rest : JsString) :
    run readNumber ⟨.after value, .object done name :: frames⟩
        (furtherText (125 :: rest) (fields.map fun field => entryText (field.1, field.2.stringify numText))) =
      run readNumber ⟨.after (.obj (done ++ (name, value) :: fields)), frames⟩ rest := by
  induction fields generalizing done name value with
  | nil =>
    show run readNumber ⟨.after (.obj (done.set name value)), frames⟩ rest = _
    rw [set_of_nodup value hnodup]
  | cons field fields ih =>
    obtain ⟨next, found⟩ := field
    have hends : Ends found (furtherText (125 :: rest)
        (fields.map fun field => entryText (field.1, field.2.stringify numText))) :=
      ends_furtherText (.inr rfl) _ _
    show run readNumber ⟨.name, .object (done.set name value) [] :: frames⟩ (entryText (next, found.stringify numText) ++
      furtherText (125 :: rest) (fields.map fun field => entryText (field.1, field.2.stringify numText))) = _
    rw [set_of_nodup value hnodup, run_entry (.inr rfl) (hfields next found List.mem_cons_self) _ _ _ hends,
      ih (fun name value hmem => hfields name value (List.mem_cons_of_mem _ hmem)), List.append_assoc]
    · rfl
    · simpa using hnodup

theorem readBack_object {fields : JsonObject} (hnodup : (fields.map (·.1)).Nodup)
    (hfields : ∀ name value, (name, value) ∈ fields → ReadBack readNumber numText value) :
    ReadBack readNumber numText (.obj fields) := by
  intro frames rest _
  rw [Json.stringify_obj, objectText, List.cons_append, List.cons_append, List.append_assoc, List.map_map]
  show run readNumber ⟨.firstName, .object [] [] :: frames⟩ (List.intercalate [44] (fields.map fun field =>
    entryText (field.1, field.2.stringify numText)) ++ 125 :: rest) = _
  cases fields with
  | nil => rfl
  | cons field fields =>
    obtain ⟨name, value⟩ := field
    have hends : Ends value (furtherText (125 :: rest)
        (fields.map fun field => entryText (field.1, field.2.stringify numText))) :=
      ends_furtherText (.inr rfl) _ _
    rw [List.map_cons, intercalate_cons_append, run_entry (.inl rfl) (hfields name value List.mem_cons_self) _ _ _ hends,
      run_furtherFields (fun name value hmem => hfields name value (List.mem_cons_of_mem _ hmem)) value]
    · rfl
    · simpa using hnodup

/-- **A printed value is read back**, whatever is open and whatever follows. -/
theorem run_stringify (hnum : ReadsNumbers numText readNumber) {value : Json} (h : distinctNames value = true) :
    ReadBack readNumber numText value := by
  induction value using Json.induct with
  | null =>
    intro frames rest _
    rfl
  | bool b =>
    intro frames rest _
    cases b <;> rfl
  | num q => exact readBack_number hnum q
  | str s => exact readBack_string s
  | arr items ih => exact readBack_array hnum fun item hmem => ih item hmem (distinctNames_of_item h hmem)
  | obj fields ih =>
    have hnodup := nodup_of_distinctNames h
    refine readBack_object hnodup fun name value hmem => ih name value hmem ?_
    exact distinctNames_of_get? h ((JsonObject.mem_iff_get? hnodup).mp hmem)

/-- **Round trip.** An object is parsed from its text. -/
theorem parse_stringify_obj (hnum : ReadsNumbers numText readNumber) {fields : JsonObject}
    (h : distinctNames (.obj fields) = true) :
    parse readNumber ((Json.obj fields).stringify numText) = some (.obj fields) := by
  have hrun := run_stringify hnum h [] [] fun q hq => by cases hq
  rw [List.append_nil] at hrun
  rw [parse, hrun]
  rfl

end Values

/-! ## What is open has to be closed -/

section Open

variable {readNumber} {r r' : JsonReader} {u : UInt16} {frames : List JsonFrame} {value : Json}

def Done (r : JsonReader) : Prop := ∃ value, r = ⟨.after value, []⟩

theorem frames_of_stepValue (hopen : frames ≠ []) (h : stepValue frames u = some r') : r'.frames ≠ [] := by
  unfold stepValue at h
  split_ifs at h
  all_goals
    obtain rfl := Option.some.inj h
    first
    | exact hopen
    | exact List.cons_ne_nil _ _

theorem of_stepAfter (hopen : frames ≠ []) (h : stepAfter value u frames = some r') :
    r'.frames ≠ [] ∨ ((u = 93 ∨ u = 125) ∧ ∃ value, r'.phase = .after value) := by
  cases frames with
  | nil => exact absurd rfl hopen
  | cons frame outer =>
    cases frame with
    | array items =>
      rw [stepAfter] at h
      split_ifs at h with hspace hcomma hclose
      · exact .inl (Option.some.inj h ▸ List.cons_ne_nil _ _)
      · exact .inl (Option.some.inj h ▸ List.cons_ne_nil _ _)
      · obtain rfl := Option.some.inj h
        exact .inr ⟨.inl hclose, _, rfl⟩
    | object fields name =>
      rw [stepAfter] at h
      split_ifs at h with hspace hcomma hclose
      · exact .inl (Option.some.inj h ▸ List.cons_ne_nil _ _)
      · exact .inl (Option.some.inj h ▸ List.cons_ne_nil _ _)
      · obtain rfl := Option.some.inj h
        exact .inr ⟨.inr hclose, _, rfl⟩

theorem frames_of_endString {isName : Bool} {text : JsString} (hopen : frames ≠ [])
    (h : endString isName text frames = some r') : r'.frames ≠ [] := by
  unfold endString at h
  split at h
  · split at h
    · exact Option.some.inj h ▸ List.cons_ne_nil _ _
    · cases h
  · exact Option.some.inj h ▸ hopen

theorem frames_of_stepString {isName : Bool} {text : JsString} (hopen : frames ≠ [])
    (h : stepString isName text frames u = some r') : r'.frames ≠ [] := by
  unfold stepString at h
  split_ifs at h
  · exact frames_of_endString hopen h
  · exact Option.some.inj h ▸ hopen
  · exact Option.some.inj h ▸ hopen

theorem frames_of_stepEscape {isName : Bool} {text : JsString} (hopen : frames ≠ [])
    (h : stepEscape isName text frames u = some r') : r'.frames ≠ [] := by
  unfold stepEscape at h
  split_ifs at h
  · exact Option.some.inj h ▸ hopen
  · obtain ⟨v, -, rfl⟩ := Option.map_eq_some_iff.mp h
    exact hopen

theorem frames_of_stepUnicode {isName : Bool} {text : JsString} {digits code : Nat} (hopen : frames ≠ [])
    (h : stepUnicode isName text digits code frames u = some r') : r'.frames ≠ [] := by
  obtain ⟨d, -, rfl⟩ := Option.map_eq_some_iff.mp h
  split
  · exact hopen
  · exact hopen

theorem frames_of_stepLiteral {word : JsonWord} {read : Nat} (hopen : frames ≠ [])
    (h : stepLiteral word read frames u = some r') : r'.frames ≠ [] := by
  unfold stepLiteral at h
  split at h
  · obtain rfl := Option.some.inj h
    split
    · exact hopen
    · exact hopen
  · cases h

/-- **What is open stays open** until a bracket closes it. -/
theorem of_step_of_open (hopen : r.frames ≠ []) (h : step readNumber r u = some r') :
    r'.frames ≠ [] ∨ ((u = 93 ∨ u = 125) ∧ ∃ value, r'.phase = .after value) := by
  obtain ⟨phase, frames⟩ := r
  cases phase with
  | value =>
    change (if isJsonSpace u then some _ else stepValue frames u) = some r' at h
    split at h
    · exact .inl (Option.some.inj h ▸ hopen)
    · exact .inl (frames_of_stepValue hopen h)
  | firstItem =>
    simp only [step] at h
    split_ifs at h with hspace hclose
    · exact .inl (Option.some.inj h ▸ hopen)
    · split at h
      · obtain rfl := Option.some.inj h
        exact .inr ⟨.inl hclose, _, rfl⟩
      · cases h
    · exact .inl (frames_of_stepValue hopen h)
  | firstName =>
    simp only [step] at h
    split_ifs at h with hspace hquote hclose
    · exact .inl (Option.some.inj h ▸ hopen)
    · exact .inl (Option.some.inj h ▸ hopen)
    · split at h
      · obtain rfl := Option.some.inj h
        exact .inr ⟨.inr hclose, _, rfl⟩
      · cases h
  | name =>
    simp only [step] at h
    split_ifs at h
    · exact .inl (Option.some.inj h ▸ hopen)
    · exact .inl (Option.some.inj h ▸ hopen)
  | colon =>
    simp only [step] at h
    split_ifs at h
    · exact .inl (Option.some.inj h ▸ hopen)
    · exact .inl (Option.some.inj h ▸ hopen)
  | string isName text => exact .inl (frames_of_stepString hopen h)
  | escape isName text => exact .inl (frames_of_stepEscape hopen h)
  | unicode isName text digits code => exact .inl (frames_of_stepUnicode hopen h)
  | literal word read => exact .inl (frames_of_stepLiteral hopen h)
  | number text =>
    simp only [step] at h
    split_ifs at h
    · exact .inl (Option.some.inj h ▸ hopen)
    · obtain ⟨q, -, hafter⟩ := Option.bind_eq_some_iff.mp h
      exact of_stepAfter hopen hafter
  | after value => exact of_stepAfter hopen h

/-- Nothing but white space follows a value when nothing is open. -/
theorem run_done {text : JsString} (h : run readNumber ⟨.after value, []⟩ text = some r') :
    (∀ u ∈ text, isJsonSpace u = true) ∧ r' = ⟨.after value, []⟩ := by
  induction text with
  | nil => exact ⟨nofun, (Option.some.inj h).symm⟩
  | cons u text ih =>
    rw [run_cons] at h
    obtain ⟨s, hstep, hrun⟩ := Option.bind_eq_some_iff.mp h
    change (if isJsonSpace u then some _ else none) = some s at hstep
    split at hstep
    · next hspace =>
      obtain rfl := Option.some.inj hstep
      obtain ⟨hall, hr⟩ := ih hrun
      exact ⟨List.forall_mem_cons.mpr ⟨hspace, hall⟩, hr⟩
    · cases hstep

/-- **A text read with something open** leaves something open, or is a value with white space behind it. -/
theorem run_of_open {text : JsString} (hopen : r.frames ≠ []) (h : run readNumber r text = some r') :
    r'.frames ≠ [] ∨ Done r' := by
  induction text generalizing r with
  | nil => exact .inl (Option.some.inj h ▸ hopen)
  | cons u text ih =>
    rw [run_cons] at h
    obtain ⟨s, hstep, hrun⟩ := Option.bind_eq_some_iff.mp h
    by_cases hframes : s.frames = []
    · rcases of_step_of_open hopen hstep with hne | ⟨-, value, hphase⟩
      · exact absurd hframes hne
      · obtain ⟨phase, frames⟩ := s
        obtain rfl : phase = .after value := hphase
        obtain rfl : frames = [] := hframes
        exact .inr ⟨value, (run_done hrun).2⟩
    · exact ih hframes hrun

theorem finish_of_open (hopen : r.frames ≠ []) : finish readNumber r = none := by
  obtain ⟨phase, frames⟩ := r
  cases frames with
  | nil => exact absurd rfl hopen
  | cons frame outer => cases phase <;> rfl

/-! ### Objects inside what is open -/

/-- What a name in an object starts with, as opposed to what follows a string. -/
def NameUnit (u : UInt16) : Prop := isJsonSpace u = false ∧ u ≠ 44 ∧ u ≠ 58 ∧ u ≠ 93 ∧ u ≠ 125

theorem stepAfter_eq_none {u : UInt16} (hspace : isJsonSpace u = false) (hcomma : u ≠ 44) (hitems : u ≠ 93)
    (hfields : u ≠ 125) (value : Json) (frames : List JsonFrame) : stepAfter value u frames = none := by
  cases frames with
  | nil => rw [stepAfter, hspace, if_neg Bool.false_ne_true]
  | cons frame outer =>
    cases frame with
    | array items => rw [stepAfter, hspace, if_neg Bool.false_ne_true, if_neg hcomma, if_neg hitems]
    | object fields name => rw [stepAfter, hspace, if_neg Bool.false_ne_true, if_neg hcomma, if_neg hfields]

/-- A brace follows nothing but a comma, a bracket or a colon. -/
theorem stepAfter_brace (value : Json) (frames : List JsonFrame) : stepAfter value 123 frames = none :=
  stepAfter_eq_none (by decide) (by decide) (by decide) (by decide) value frames

/-- In a string a brace and a quotation mark end the string, and what a name starts with does not follow one. -/
theorem run_string_brace {w : UInt16} (hname : NameUnit w) (isName : Bool) (text : JsString)
    (frames : List JsonFrame) (tail : JsString) :
    run readNumber ⟨.string isName text, frames⟩ (123 :: 34 :: w :: tail) = none := by
  obtain ⟨hspace, hcomma, hcolon, hitems, hfields⟩ := hname
  show (endString isName (text ++ [123]) frames).bind (fun r => run readNumber r (w :: tail)) = none
  unfold endString
  split
  · split
    · next fields other outer =>
      show (step readNumber ⟨.colon, .object fields (text ++ [123]) :: outer⟩ w).bind _ = none
      have hstep : step readNumber ⟨.colon, .object fields (text ++ [123]) :: outer⟩ w = none := by
        show (if isJsonSpace w then _ else if w = 58 then _ else none) = none
        rw [hspace, if_neg Bool.false_ne_true, if_neg hcolon]
      rw [hstep]
      rfl
    · rfl
  · show (stepAfter (.str (text ++ [123])) w frames).bind _ = none
    rw [stepAfter_eq_none hspace hcomma hitems hfields]
    rfl

/-- **An object that is printed behind something torn** leaves open what the torn part opened, if it can be read at
all. -/
theorem run_object_of_open {numText : ℚ → JsString} (hnum : ReadsNumbers numText readNumber) {fields : JsonObject}
    (hdistinct : distinctNames (.obj fields) = true) {w : UInt16} {tail : JsString}
    (htext : (Json.obj fields).stringify numText = 123 :: 34 :: w :: tail) (hname : NameUnit w) (hopen : r.frames ≠ [])
    (h : run readNumber r ((Json.obj fields).stringify numText) = some r') : r'.frames ≠ [] := by
  obtain ⟨phase, frames⟩ := r
  have hvalue : run readNumber ⟨.value, frames⟩ ((Json.obj fields).stringify numText) =
      some ⟨.after (.obj fields), frames⟩ := by
    have hback := run_stringify hnum hdistinct frames [] fun q hq => by cases hq
    rwa [List.append_nil] at hback
  cases phase with
  | value =>
    rw [hvalue] at h
    exact Option.some.inj h ▸ hopen
  | firstItem =>
    rw [run_firstItem, hvalue] at h
    · exact Option.some.inj h ▸ hopen
    · rw [htext]
      rintro u ⟨⟩
      decide
    · rw [htext]
      exact List.cons_ne_nil _ _
  | firstName | name | colon | escape | unicode =>
    rw [htext] at h
    cases h
  | string isName text =>
    rw [htext, run_string_brace hname] at h
    cases h
  | literal word read =>
    have hbrace : stepLiteral word read frames 123 = none := by
      refine if_neg fun hget => ?_
      have hmem := List.mem_of_getElem? hget
      cases word <;> exact absurd hmem (by decide)
    rw [htext, run_cons] at h
    change (stepLiteral word read frames 123).bind _ = some r' at h
    rw [hbrace] at h
    cases h
  | number text =>
    rw [htext, run_cons] at h
    change ((readNumber text).bind fun q => stepAfter (.num q) 123 frames).bind _ = some r' at h
    rw [Option.bind_congr fun q _ => stepAfter_brace (.num q) frames, Option.bind_fun_none] at h
    cases h
  | after value =>
    rw [htext, run_cons] at h
    change (stepAfter value 123 frames).bind _ = some r' at h
    rw [stepAfter_brace] at h
    cases h

theorem run_brace (text : JsString) :
    run readNumber {} (123 :: text) = run readNumber ⟨.firstName, [.object [] []]⟩ text := rfl

/-- **Nothing is read of a torn object with an object behind it.** -/
theorem parse_torn_append {numText : ℚ → JsString} (hnum : ReadsNumbers numText readNumber) {fields : JsonObject}
    (hdistinct : distinctNames (.obj fields) = true) {w : UInt16} {tail : JsString}
    (htext : (Json.obj fields).stringify numText = 123 :: 34 :: w :: tail) (hname : NameUnit w) (torn : JsString) :
    parse readNumber (123 :: torn ++ (Json.obj fields).stringify numText) = none := by
  rw [parse, run_append, run_brace]
  cases hfirst : run readNumber ⟨.firstName, [.object [] []]⟩ torn with
  | none => rfl
  | some r =>
    rw [Option.bind_some]
    cases hrest : run readNumber r ((Json.obj fields).stringify numText) with
    | none => rfl
    | some r' =>
      rcases run_of_open (List.cons_ne_nil _ _) hfirst with hopen | ⟨value, rfl⟩
      · exact finish_of_open (run_object_of_open hnum hdistinct htext hname hopen hrest)
      · have hall := (run_done hrest).1 123 (by rw [htext]; exact List.mem_cons_self)
        exact absurd hall (by decide)

/-- **Something is open in an object that is torn.** -/
theorem run_torn {torn rest : JsString} (hparse : ∃ r, run readNumber {} (123 :: torn ++ rest) = some r)
    (hbrace : 125 ∈ rest) : ∃ r, run readNumber {} (123 :: torn) = some r ∧ r.frames ≠ [] := by
  obtain ⟨r', hrun⟩ := hparse
  rw [run_append] at hrun
  obtain ⟨r, hfirst, hrest⟩ := Option.bind_eq_some_iff.mp hrun
  refine ⟨r, hfirst, ?_⟩
  rw [run_brace] at hfirst
  rcases run_of_open (List.cons_ne_nil _ _) hfirst with hopen | ⟨value, rfl⟩
  · exact hopen
  · exact absurd ((run_done hrest).1 125 hbrace) (by decide)

end Open

end JsonReader

end Pinout.Foundation
