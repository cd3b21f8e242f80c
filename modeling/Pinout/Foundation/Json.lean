import Pinout.Foundation.Utf16
import Mathlib.Data.Rat.Init

/-! # JSON values

JSON values over UTF-16 strings, with numbers as rationals, the text `JSON.stringify` prints for
them, and the tests on a value's type that code reading untyped records makes. The text of a number
is a parameter (`numText`): nothing here depends on how a number is printed. -/

namespace Pinout.Foundation

inductive Json where
  | null
  | bool (b : Bool)
  | num (q : ℚ)
  | str (s : JsString)
  | arr (items : List Json)
  | obj (fields : List (JsString × Json))

/-- The fields of an object, `Record<string, unknown>`. -/
abbrev JsonObject : Type := List (JsString × Json)

namespace JsonObject

def get? (o : JsonObject) (key : JsString) : Option Json :=
  (o.find? fun f => f.1 = key).map Prod.snd

@[simp] theorem get?_nil (key : JsString) : get? [] key = none := rfl

theorem get?_cons (name key : JsString) (value : Json) (o : JsonObject) :
    get? ((name, value) :: o) key = if name = key then some value else get? o key := by
  by_cases h : name = key <;> simp [get?, h]

end JsonObject

namespace Json

/-- Induction over a value, with what holds of every item of an array and of the value of every field. -/
theorem induct {motive : Json → Prop} (null : motive .null) (bool : ∀ b, motive (.bool b)) (num : ∀ q, motive (.num q))
    (str : ∀ s, motive (.str s)) (arr : ∀ items, (∀ item ∈ items, motive item) → motive (.arr items))
    (obj : ∀ fields : JsonObject, (∀ name value, (name, value) ∈ fields → motive value) → motive (.obj fields)) :
    ∀ value, motive value
  | .null => null
  | .bool b => bool b
  | .num q => num q
  | .str s => str s
  | .arr items => arr items fun item hmem =>
    have : sizeOf item < 1 + sizeOf items := by
      have hlt := List.sizeOf_lt_of_mem hmem
      omega
    induct null bool num str arr obj item
  | .obj fields => obj fields fun name value hmem =>
    have : sizeOf value < 1 + sizeOf fields := by
      have hlt := List.sizeOf_lt_of_mem hmem
      rw [Prod.mk.sizeOf_spec] at hlt
      omega
    induct null bool num str arr obj value
termination_by value => sizeOf value

/-- The value when `typeof` is `'string'`. -/
def string? : Option Json → Option JsString
  | some (.str s) => some s
  | _ => none

/-- The value when `typeof` is `'number'`. -/
def number? : Option Json → Option ℚ
  | some (.num q) => some q
  | _ => none

/-- The value when `typeof` is `'boolean'`. -/
def boolean? : Option Json → Option Bool
  | some (.bool b) => some b
  | _ => none

def fields? : Option Json → Option JsonObject
  | some (.obj fields) => some fields
  | _ => none

/-- The value when it is truthy and `typeof` is `'object'`. -/
def object? : Option Json → Option Json
  | some (.obj fields) => some (.obj fields)
  | some (.arr items) => some (.arr items)
  | _ => none

def truthy : Json → Bool
  | .null => false
  | .bool b => b
  | .num q => q ≠ 0
  | .str s => s ≠ []
  | .arr _ | .obj _ => true

mutual

/-- Whether `String(value)` returns: an object with a `toString` field of its own has no text. -/
def hasText : Json → Bool
  | .arr items => itemsHaveText items
  | .obj fields => (JsonObject.get? fields (js "toString")).isNone
  | _ => true

/-- Whether the texts of the items of an array can be joined. -/
def itemsHaveText : List Json → Bool
  | [] => true
  | v :: items => hasText v && itemsHaveText items

end

variable (numText : ℚ → JsString)

mutual

def stringify : Json → JsString
  | .null => js "null"
  | .bool true => js "true"
  | .bool false => js "false"
  | .num q => numText q
  | .str s => quote s
  | .arr items => 91 :: List.intercalate [44] (stringifyItems items) ++ [93]
  | .obj fields => 123 :: List.intercalate [44] (stringifyFields fields) ++ [125]

def stringifyItems : List Json → List JsString
  | [] => []
  | v :: items => stringify v :: stringifyItems items

def stringifyFields : List (JsString × Json) → List JsString
  | [] => []
  | (name, v) :: fields => (quote name ++ 58 :: stringify v) :: stringifyFields fields

/-- `String(value)`. -/
def text : Json → JsString
  | .null => js "null"
  | .bool true => js "true"
  | .bool false => js "false"
  | .num q => numText q
  | .str s => s
  | .arr items => List.intercalate [44] (itemTexts items)
  | .obj _ => js "[object Object]"

/-- The texts an array joins; `null` is printed as nothing. -/
def itemTexts : List Json → List JsString
  | [] => []
  | .null :: items => [] :: itemTexts items
  | v :: items => text v :: itemTexts items

end

end Json

end Pinout.Foundation
