import Pinout.Errors
import Pinout.Foundation.Fallible
import Mathlib.Algebra.Order.Field.Rat

/-! # Schema validation

`assertSchema` (`packages/core/src/schema.ts`), the meaning of a schema's keywords, and where the two part. A node is
a schema with the value it is applied to; the keywords it violates are listed with the type of the node and whether the
types of the nodes above are those of their values. What is accepted is told by the violations that are checked. -/

namespace Pinout.Schema

open Foundation

/-! ## Schemas -/

/-- `type`. -/
inductive SchemaType
  | object | array | integer | number | boolean | string
  deriving DecidableEq, Repr

/-- A value `enum` lists. -/
inductive EnumValue
  | text (value : JsString)
  | number (value : ℚ)
  | boolean (value : Bool)
  deriving DecidableEq

/-- `JsonSchema`, without its description. -/
inductive JsonSchema
  | mk (type : Option SchemaType) (properties : List (JsString × JsonSchema)) (required : List JsString)
    (items : Option JsonSchema) (minItems maxItems : Option ℚ) (enum : Option (List EnumValue))
    (minimum maximum minLength : Option ℚ) (additionalProperties : Option Bool)

namespace JsonSchema

def type : JsonSchema → Option SchemaType
  | mk type .. => type

def properties : JsonSchema → List (JsString × JsonSchema)
  | mk _ properties .. => properties

def required : JsonSchema → List JsString
  | mk _ _ required .. => required

def items : JsonSchema → Option JsonSchema
  | mk _ _ _ items .. => items

def minItems : JsonSchema → Option ℚ
  | mk _ _ _ _ minItems .. => minItems

def maxItems : JsonSchema → Option ℚ
  | mk _ _ _ _ _ maxItems .. => maxItems

def enum : JsonSchema → Option (List EnumValue)
  | mk _ _ _ _ _ _ enum .. => enum

def minimum : JsonSchema → Option ℚ
  | mk _ _ _ _ _ _ _ minimum .. => minimum

def maximum : JsonSchema → Option ℚ
  | mk _ _ _ _ _ _ _ _ maximum .. => maximum

def minLength : JsonSchema → Option ℚ
  | mk _ _ _ _ _ _ _ _ _ minLength _ => minLength

def additionalProperties : JsonSchema → Option Bool
  | mk _ _ _ _ _ _ _ _ _ _ additionalProperties => additionalProperties

/-- The schema `properties` has for a name. -/
def property? (schema : JsonSchema) (name : JsString) : Option JsonSchema :=
  (schema.properties.find? fun entry => entry.1 = name).map Prod.snd

end JsonSchema

/-- The names every object inherits from `Object.prototype`. -/
def inheritedNames : List JsString :=
  [js "constructor", js "__defineGetter__", js "__defineSetter__", js "hasOwnProperty", js "__lookupGetter__",
    js "__lookupSetter__", js "isPrototypeOf", js "propertyIsEnumerable", js "toString", js "valueOf", js "__proto__",
    js "toLocaleString"]

/-- Whether `===` holds of a value and one that `enum` lists. -/
def EnumValue.is : EnumValue → Json → Bool
  | .text s, .str t => s = t
  | .number q, .num r => q = r
  | .boolean b, .bool c => b = c
  | _, _ => false

/-! ## Validation -/

section Validation

variable (numText : ℚ → JsString)

/-- The text of a value `enum` lists. -/
def EnumValue.render : EnumValue → JsString
  | .text s => s
  | .number q => numText q
  | .boolean true => js "true"
  | .boolean false => js "false"

/-- A `ValidationError`. -/
def validationError (message : JsString) : Thrown :=
  .pinoutError (js "ValidationError") (js "VALIDATION_ERROR") message

/-- A check that throws a `ValidationError` with a message when it fails. -/
def check (ok : Bool) (message : JsString) : Except Thrown Unit :=
  if ok then .ok () else .error (validationError message)

def bound (limit : Option ℚ) (holds : ℚ → Bool) (message : JsString → JsString) : Except Thrown Unit :=
  match limit with
  | none => .ok ()
  | some limit => check (holds limit) (message (numText limit))

def assertNumericBounds (schema : JsonSchema) (value : ℚ) (path : JsString) : Except Thrown Unit := do
  bound numText schema.minimum (fun minimum => minimum ≤ value) fun text => path ++ js " must be >= " ++ text ++ js "."
  bound numText schema.maximum (fun maximum => value ≤ maximum) fun text => path ++ js " must be <= " ++ text ++ js "."

/-- The check of `required`: a name may be inherited. -/
def assertRequired (schema : JsonSchema) (fields : JsonObject) (path : JsString) : Except Thrown Unit :=
  schema.required.forM fun key =>
    check ((fields.get? key).isSome || inheritedNames.contains key)
      (path ++ js " is missing required field '" ++ key ++ js "'.")

/-- The check of `enum`. -/
def assertEnum (schema : JsonSchema) (value : Json) (path : JsString) : Except Thrown Unit :=
  match schema.enum with
  | none => .ok ()
  | some listed =>
    check (listed.any fun entry => entry.is value)
      (path ++ js " must be one of: " ++ List.intercalate (js ", ") (listed.map (EnumValue.render numText)) ++ js ".")

mutual

def assertSchema (schema : JsonSchema) (value : Json) (path : JsString) : Except Thrown Unit :=
  match schema.type, value with
  | some .object, .obj fields => do
    assertRequired schema fields path
    assertFields schema fields path
  | some .object, _ => .error (validationError (path ++ js " must be an object."))
  | some .array, .arr items => do
    bound numText schema.minItems (fun least => least ≤ items.length) fun text =>
      path ++ js " must contain at least " ++ text ++ js " item(s)."
    bound numText schema.maxItems (fun most => items.length ≤ most) fun text =>
      path ++ js " must contain at most " ++ text ++ js " item(s)."
    match schema.items with
    | none => .ok ()
    | some itemSchema => assertItems itemSchema items path 0
  | some .array, _ => .error (validationError (path ++ js " must be an array."))
  | some .integer, .num q => do
    check q.isInt (path ++ js " must be an integer.")
    assertNumericBounds numText schema q path
  | some .integer, _ => .error (validationError (path ++ js " must be an integer."))
  | some .number, .num q => assertNumericBounds numText schema q path
  | some .number, _ => .error (validationError (path ++ js " must be a number."))
  | some .boolean, .bool _ => .ok ()
  | some .boolean, _ => .error (validationError (path ++ js " must be a boolean."))
  | some .string, .str s => do
    bound numText schema.minLength (fun least => least ≤ s.length) fun text =>
      path ++ js " is shorter than " ++ text ++ js "."
    assertEnum numText schema (.str s) path
  | some .string, _ => .error (validationError (path ++ js " must be a string."))
  | none, value => assertEnum numText schema value path

/-- The fields of an object: one that `properties` does not have is refused only without additional properties, and
what `properties` inherits for a name is no schema that asks for anything. -/
def assertFields (schema : JsonSchema) (fields : List (JsString × Json)) (path : JsString) : Except Thrown Unit :=
  match fields with
  | [] => .ok ()
  | (key, child) :: fields => do
    (match schema.property? key with
      | some childSchema => assertSchema childSchema child (if path = [] then key else path ++ js "." ++ key)
      | none =>
        check (inheritedNames.contains key || schema.additionalProperties ≠ some false)
          (path ++ js " has unexpected field '" ++ key ++ js "'."))
    assertFields schema fields path

def assertItems (itemSchema : JsonSchema) (items : List Json) (path : JsString) (index : Nat) :
    Except Thrown Unit :=
  match items with
  | [] => .ok ()
  | item :: items => do
    assertSchema itemSchema item (path ++ js "[" ++ numText index ++ js "]")
    assertItems itemSchema items path (index + 1)

end

def validateInputSchema (schema : JsonSchema) (value : Json) (path : JsString) : Except Thrown JsonObject := do
  assertSchema numText schema value (if path = [] then js "payload" else path)
  match value with
  | .obj fields => .ok fields
  | _ => .error (validationError (js "payload must be an object."))

def validateOutputSchema (schema : JsonSchema) (value : Json) : Except Thrown JsonObject :=
  let protocolError (message : JsString) : Thrown := .pinoutError (js "ProtocolError") (js "PROTOCOL_ERROR") message
  match assertSchema numText schema value (js "result") with
  | .error error => .error (protocolError (js "Capability output violated its declared schema: " ++ error.text))
  | .ok _ =>
    match value with
    | .obj fields => .ok fields
    | _ => .error (protocolError (js "Capability output must be an object."))

end Validation

/-! ## The meaning of a schema -/

def SchemaType.admits : SchemaType → Json → Bool
  | .object, .obj _ => true
  | .array, .arr _ => true
  | .integer, .num q => q.isInt
  | .number, .num _ => true
  | .boolean, .bool _ => true
  | .string, .str _ => true
  | _, _ => false

/-- A keyword of a node, with the name it is about. -/
inductive Keyword
  | type
  | required (name : JsString)
  | additionalProperties (name : JsString)
  | minItems
  | maxItems
  | minimum
  | maximum
  | minLength
  | enum

/-- What a keyword asks of the value at its node, when the schema has it: nothing of values of other kinds, but for
`type` and `enum`. -/
def Keyword.Holds (schema : JsonSchema) (value : Json) : Keyword → Prop
  | .type => ∀ type, schema.type = some type → type.admits value = true
  | .required name => ∀ fields, value = .obj fields → name ∈ schema.required → (JsonObject.get? fields name).isSome
  | .additionalProperties name =>
    ∀ fields, value = .obj fields → schema.additionalProperties = some false → name ∈ fields.map Prod.fst →
      (schema.property? name).isSome
  | .minItems => ∀ items, value = .arr items → ∀ least, schema.minItems = some least → least ≤ items.length
  | .maxItems => ∀ items, value = .arr items → ∀ most, schema.maxItems = some most → items.length ≤ most
  | .minimum => ∀ q, value = .num q → ∀ minimum, schema.minimum = some minimum → minimum ≤ q
  | .maximum => ∀ q, value = .num q → ∀ maximum, schema.maximum = some maximum → q ≤ maximum
  | .minLength => ∀ s, value = .str s → ∀ least, schema.minLength = some least → least ≤ s.length
  | .enum => ∀ listed, schema.enum = some listed → ∃ entry ∈ listed, entry.is value = true

namespace Keyword

variable {schema : JsonSchema}

@[simp] theorem minItems_holds {items : List Json} : minItems.Holds schema (.arr items) ↔
    ∀ least, schema.minItems = some least → least ≤ items.length := by
  simp [Holds]

@[simp] theorem maxItems_holds {items : List Json} : maxItems.Holds schema (.arr items) ↔
    ∀ most, schema.maxItems = some most → items.length ≤ most := by
  simp [Holds]

@[simp] theorem minimum_holds {q : ℚ} : minimum.Holds schema (.num q) ↔
    ∀ least, schema.minimum = some least → least ≤ q := by
  simp [Holds]

@[simp] theorem maximum_holds {q : ℚ} : maximum.Holds schema (.num q) ↔
    ∀ most, schema.maximum = some most → q ≤ most := by
  simp [Holds]

@[simp] theorem minLength_holds {s : JsString} : minLength.Holds schema (.str s) ↔
    ∀ least, schema.minLength = some least → least ≤ s.length := by
  simp [Holds]

end Keyword

/-- The nodes that are reached from one, when each node that is passed satisfies `P`: the values of the fields that
`properties` has, and the items of an array. -/
inductive Reaches (P : JsonSchema → Json → Prop) : JsonSchema → Json → JsonSchema → Json → Prop
  | here (schema : JsonSchema) (value : Json) : Reaches P schema value schema value
  | field {schema property schema' : JsonSchema} {fields : JsonObject} {name : JsString} {value value' : Json}
      (hpass : P schema (.obj fields)) (hfield : (name, value) ∈ fields) (hproperty : schema.property? name = some property)
      (h : Reaches P property value schema' value') : Reaches P schema (.obj fields) schema' value'
  | item {schema itemSchema schema' : JsonSchema} {items : List Json} {value value' : Json}
      (hpass : P schema (.arr items)) (hitem : value ∈ items) (hitems : schema.items = some itemSchema)
      (h : Reaches P itemSchema value schema' value') : Reaches P schema (.arr items) schema' value'

/-- A value satisfies every keyword that is present at every node reached. -/
def Meets (schema : JsonSchema) (value : Json) : Prop :=
  ∀ schema' value', Reaches (fun _ _ => True) schema value schema' value' →
    ∀ keyword : Keyword, keyword.Holds schema' value'

/-! ## What is checked -/

/-- A node that has the type of its value: only there does validation go on to the nodes below. -/
def Typed (schema : JsonSchema) (value : Json) : Prop := ∃ type, schema.type = some type ∧ type.admits value = true

/-- The keywords that are checked at a node: each of them with the types it is about, `enum` only without a type or
with the type `string`, and names only when they are not inherited. -/
def Keyword.Checked (schema : JsonSchema) : Keyword → Prop
  | .type => True
  | .required name | .additionalProperties name => schema.type = some .object ∧ name ∉ inheritedNames
  | .minItems | .maxItems => schema.type = some .array
  | .minimum | .maximum => schema.type = some .integer ∨ schema.type = some .number
  | .minLength => schema.type = some .string
  | .enum => schema.type = none ∨ schema.type = some .string

/-- A value satisfies the keywords that are checked, at the nodes validation reaches. -/
def MeetsChecked (schema : JsonSchema) (value : Json) : Prop :=
  ∀ schema' value', Reaches Typed schema value schema' value' →
    ∀ keyword : Keyword, keyword.Checked schema' → keyword.Holds schema' value'

section Checked

variable {numText : ℚ → JsString} {schema : JsonSchema} {value : Json} {path : JsString}

@[simp] theorem check_eq_ok {ok : Bool} {message : JsString} : check ok message = .ok () ↔ ok = true := by
  cases ok <;> simp [check]

@[simp] theorem bound_eq_ok {limit : Option ℚ} {holds : ℚ → Bool} {message : JsString → JsString} :
    bound numText limit holds message = .ok () ↔ ∀ q, limit = some q → holds q = true := by
  cases limit with
  | none => simp [bound]
  | some q => simp [bound]

theorem assertNumericBounds_eq_ok {q : ℚ} :
    assertNumericBounds numText schema q path = .ok () ↔
      Keyword.minimum.Holds schema (.num q) ∧ Keyword.maximum.Holds schema (.num q) := by
  simp [assertNumericBounds, check_then_eq_ok]

theorem assertEnum_eq_ok : assertEnum numText schema value path = .ok () ↔ Keyword.enum.Holds schema value := by
  unfold assertEnum Keyword.Holds
  cases schema.enum with
  | none => simp
  | some listed => simp [List.any_eq_true]

theorem assertRequired_eq_ok {fields : JsonObject} :
    assertRequired schema fields path = .ok () ↔
      ∀ name, name ∉ inheritedNames → (Keyword.required name).Holds schema (.obj fields) := by
  simp only [assertRequired, forM_eq_ok_iff, check_eq_ok, Bool.or_eq_true, List.contains_iff_mem]
  constructor
  · rintro h name hown _ ⟨⟩ hname
    exact (h name hname).resolve_right hown
  · intro h name hname
    by_cases hown : name ∈ inheritedNames
    · exact .inr hown
    · exact .inl (h name hown fields rfl hname)

/-- The fields are accepted when each is, by its own schema or for want of one. -/
theorem assertFields_eq_ok {fields : JsonObject} :
    assertFields numText schema fields path = .ok () ↔
      (∀ name child, (name, child) ∈ fields → ∀ property, schema.property? name = some property →
        assertSchema numText property child (if path = [] then name else path ++ js "." ++ name) = .ok ()) ∧
      ∀ name, name ∉ inheritedNames → (Keyword.additionalProperties name).Holds schema (.obj fields) := by
  induction fields with
  | nil => simp [assertFields, Keyword.Holds]
  | cons field fields ih =>
    obtain ⟨name, child⟩ := field
    rw [assertFields, check_then_eq_ok, ih]
    constructor
    · rintro ⟨hfirst, hchildren, hnames⟩
      refine ⟨fun other value hmem property hproperty => ?_, ?_⟩
      · rcases List.mem_cons.mp hmem with heq | hmem
        · obtain ⟨rfl, rfl⟩ := Prod.mk.inj heq
          rw [hproperty] at hfirst
          exact hfirst
        · exact hchildren other value hmem property hproperty
      · rintro other hown _ ⟨⟩ hclosed hmem
        rcases List.mem_cons.mp hmem with rfl | hmem
        · cases hproperty : schema.property? other with
          | some property => rfl
          | none => simp [hproperty, hown, hclosed] at hfirst
        · exact hnames other hown fields rfl hclosed hmem
    · rintro ⟨hchildren, hnames⟩
      refine ⟨?_, fun other value hmem => hchildren other value (List.mem_cons_of_mem _ hmem), ?_⟩
      · cases hproperty : schema.property? name with
        | some property => exact hchildren name child List.mem_cons_self property hproperty
        | none =>
          refine check_eq_ok.mpr ?_
          by_cases hown : name ∈ inheritedNames
          · simp [hown]
          · have hopen : schema.additionalProperties ≠ some false := by
              intro hclosed
              have hthere := hnames name hown ((name, child) :: fields) rfl hclosed List.mem_cons_self
              simp [hproperty] at hthere
            simp [hopen]
      · rintro other hown _ ⟨⟩ hclosed hmem
        exact hnames other hown ((name, child) :: fields) rfl hclosed (List.mem_cons_of_mem _ hmem)

theorem assertItems_eq_ok {items : List Json} {index : Nat} :
    assertItems numText schema items path index = .ok () ↔
      ∀ k item, items[k]? = some item →
        assertSchema numText schema item (path ++ js "[" ++ numText ↑(index + k) ++ js "]") = .ok () := by
  induction items generalizing index with
  | nil => simp [assertItems]
  | cons item items ih =>
    rw [assertItems, check_then_eq_ok, ih]
    constructor
    · rintro ⟨hfirst, hrest⟩ k other hother
      cases k with
      | zero =>
        obtain rfl : item = other := by simpa using hother
        exact hfirst
      | succ k =>
        have h := hrest k other (by simpa using hother)
        rwa [Nat.add_right_comm, Nat.add_assoc] at h
    · intro h
      refine ⟨h 0 item rfl, fun k other hother => ?_⟩
      have h := h (k + 1) other (by simpa using hother)
      rwa [← Nat.add_assoc, Nat.add_right_comm] at h

/-- The keywords checked at a node, by its type. -/
def OwnChecked (schema : JsonSchema) (value : Json) : Prop :=
  match schema.type with
  | none => Keyword.enum.Holds schema value
  | some .object =>
    (∀ name, name ∉ inheritedNames → (Keyword.required name).Holds schema value) ∧
      ∀ name, name ∉ inheritedNames → (Keyword.additionalProperties name).Holds schema value
  | some .array => Keyword.minItems.Holds schema value ∧ Keyword.maxItems.Holds schema value
  | some .integer | some .number => Keyword.minimum.Holds schema value ∧ Keyword.maximum.Holds schema value
  | some .boolean => True
  | some .string => Keyword.minLength.Holds schema value ∧ Keyword.enum.Holds schema value

theorem ownChecked_iff :
    (∀ keyword : Keyword, keyword.Checked schema → keyword.Holds schema value) ↔
      Keyword.type.Holds schema value ∧ OwnChecked schema value := by
  constructor
  · intro h
    refine ⟨h .type trivial, ?_⟩
    unfold OwnChecked
    cases htype : schema.type with
    | none => exact h .enum (.inl htype)
    | some type => cases type with
      | object => exact ⟨fun name hname => h (.required name) ⟨htype, hname⟩,
          fun name hname => h (.additionalProperties name) ⟨htype, hname⟩⟩
      | array => exact ⟨h .minItems htype, h .maxItems htype⟩
      | integer => exact ⟨h .minimum (.inl htype), h .maximum (.inl htype)⟩
      | number => exact ⟨h .minimum (.inr htype), h .maximum (.inr htype)⟩
      | boolean => trivial
      | string => exact ⟨h .minLength htype, h .enum (.inr htype)⟩
  · rintro ⟨htype, hown⟩ keyword hchecked
    unfold OwnChecked at hown
    cases keyword with
    | type => exact htype
    | required name =>
      rw [hchecked.1] at hown
      exact hown.1 name hchecked.2
    | additionalProperties name =>
      rw [hchecked.1] at hown
      exact hown.2 name hchecked.2
    | minItems =>
      rw [show schema.type = some .array from hchecked] at hown
      exact hown.1
    | maxItems =>
      rw [show schema.type = some .array from hchecked] at hown
      exact hown.2
    | minimum => rcases hchecked with h | h <;> (rw [h] at hown; exact hown.1)
    | maximum => rcases hchecked with h | h <;> (rw [h] at hown; exact hown.2)
    | minLength =>
      rw [show schema.type = some .string from hchecked] at hown
      exact hown.1
    | enum =>
      rcases hchecked with h | h
      · rw [h] at hown
        exact hown
      · rw [h] at hown
        exact hown.2

/-- What is checked from a node on: the node, and what is below it when it has the type of its value. -/
theorem meetsChecked_iff :
    MeetsChecked schema value ↔
      (Keyword.type.Holds schema value ∧ OwnChecked schema value) ∧
      (∀ fields, value = .obj fields → schema.type = some .object → ∀ name child, (name, child) ∈ fields →
        ∀ property, schema.property? name = some property → MeetsChecked property child) ∧
      ∀ items, value = .arr items → schema.type = some .array → ∀ itemSchema, schema.items = some itemSchema →
        ∀ item ∈ items, MeetsChecked itemSchema item := by
  rw [← ownChecked_iff]
  constructor
  · intro h
    refine ⟨h schema value (.here ..), ?_, ?_⟩
    · rintro fields rfl htype name child hfield property hproperty schema' value' hreach
      exact h schema' value' (.field ⟨.object, htype, rfl⟩ hfield hproperty hreach)
    · rintro items rfl htype itemSchema hitems item hitem schema' value' hreach
      exact h schema' value' (.item ⟨.array, htype, rfl⟩ hitem hitems hreach)
  · rintro ⟨hown, hfields, hitems⟩ schema' value' hreach
    cases hreach with
    | here => exact hown
    | field hpass hfield hproperty hreach =>
      obtain ⟨type, htype, hadmits⟩ := hpass
      obtain rfl : type = .object := by cases type <;> simp_all [SchemaType.admits]
      exact hfields _ rfl htype _ _ hfield _ hproperty schema' value' hreach
    | item hpass hitem hschema hreach =>
      obtain ⟨type, htype, hadmits⟩ := hpass
      obtain rfl : type = .array := by cases type <;> simp_all [SchemaType.admits]
      exact hitems _ rfl htype _ hschema _ hitem schema' value' hreach

theorem assertSchema_of_mistyped {type : SchemaType} (htype : schema.type = some type)
    (hadmits : type.admits value = false) : assertSchema numText schema value path ≠ .ok () := by
  intro h
  rw [assertSchema.eq_def, htype] at h
  cases type <;> cases value <;> simp [SchemaType.admits] at hadmits <;> simp [check_then_eq_ok, hadmits] at h

/-- What a node of the type of its value asks for: what is checked there, and what is checked below it. -/
theorem assertSchema_of_typed (htype : Keyword.type.Holds schema value) :
    assertSchema numText schema value path = .ok () ↔
      OwnChecked schema value ∧
      (∀ fields, value = .obj fields → schema.type = some .object → ∀ name child, (name, child) ∈ fields →
        ∀ property, schema.property? name = some property →
          assertSchema numText property child (if path = [] then name else path ++ js "." ++ name) = .ok ()) ∧
      ∀ items, value = .arr items → schema.type = some .array → ∀ itemSchema, schema.items = some itemSchema →
        ∀ (k : ℕ) (item : Json), items[k]? = some item →
          assertSchema numText itemSchema item (path ++ js "[" ++ numText ↑k ++ js "]") = .ok () := by
  unfold OwnChecked
  cases hnode : schema.type with
  | none =>
    rw [assertSchema.eq_def, hnode]
    simp [assertEnum_eq_ok]
  | some type =>
    have hadmits := htype type hnode
    cases type with
    | object =>
      cases value <;> simp [SchemaType.admits] at hadmits
      rw [assertSchema.eq_def, hnode]
      simp [check_then_eq_ok, assertRequired_eq_ok, assertFields_eq_ok]
      tauto
    | array =>
      cases value <;> simp [SchemaType.admits] at hadmits
      rw [assertSchema.eq_def, hnode]
      cases schema.items with
      | none => simp [check_then_eq_ok]
      | some itemSchema => simp [check_then_eq_ok, assertItems_eq_ok, and_assoc]
    | integer =>
      cases value <;> simp [SchemaType.admits] at hadmits
      rw [assertSchema.eq_def, hnode]
      simp [check_then_eq_ok, hadmits, assertNumericBounds_eq_ok]
    | number =>
      cases value <;> simp [SchemaType.admits] at hadmits
      rw [assertSchema.eq_def, hnode]
      simp [assertNumericBounds_eq_ok]
    | boolean =>
      cases value <;> simp [SchemaType.admits] at hadmits
      rw [assertSchema.eq_def, hnode]
      simp
    | string =>
      cases value <;> simp [SchemaType.admits] at hadmits
      rw [assertSchema.eq_def, hnode]
      simp [check_then_eq_ok, assertEnum_eq_ok]

/-- What is accepted at a node: the keywords checked there, and what is accepted below it. -/
theorem assertSchema_iff :
    assertSchema numText schema value path = .ok () ↔
      (Keyword.type.Holds schema value ∧ OwnChecked schema value) ∧
      (∀ fields, value = .obj fields → schema.type = some .object → ∀ name child, (name, child) ∈ fields →
        ∀ property, schema.property? name = some property →
          assertSchema numText property child (if path = [] then name else path ++ js "." ++ name) = .ok ()) ∧
      ∀ items, value = .arr items → schema.type = some .array → ∀ itemSchema, schema.items = some itemSchema →
        ∀ (k : ℕ) (item : Json), items[k]? = some item →
          assertSchema numText itemSchema item (path ++ js "[" ++ numText ↑k ++ js "]") = .ok () := by
  by_cases htype : Keyword.type.Holds schema value
  · rw [assertSchema_of_typed htype, and_iff_right htype]
  · have hmistyped : ∃ type, schema.type = some type ∧ type.admits value = false := by
      simpa [Keyword.Holds] using htype
    obtain ⟨type, hnode, hadmits⟩ := hmistyped
    exact iff_of_false (assertSchema_of_mistyped hnode hadmits) fun h => htype h.1.1

/-- A node is accepted when it meets what is checked, if that is so of what is below it, whatever its path. -/
theorem assertSchema_eq_ok_of_below
    (hfields : ∀ fields, value = .obj fields → ∀ name child, (name, child) ∈ fields → ∀ schema path,
      assertSchema numText schema child path = .ok () ↔ MeetsChecked schema child)
    (hitems : ∀ items, value = .arr items → ∀ item ∈ items, ∀ schema path,
      assertSchema numText schema item path = .ok () ↔ MeetsChecked schema item) :
    assertSchema numText schema value path = .ok () ↔ MeetsChecked schema value := by
  rw [assertSchema_iff, meetsChecked_iff]
  refine and_congr_right fun _ => and_congr ?_ ?_
  · constructor
    · intro h fields hvalue htype name child hmem property hproperty
      exact (hfields fields hvalue name child hmem property _).mp (h fields hvalue htype name child hmem property hproperty)
    · intro h fields hvalue htype name child hmem property hproperty
      exact (hfields fields hvalue name child hmem property _).mpr (h fields hvalue htype name child hmem property hproperty)
  · constructor
    · intro h items hvalue htype itemSchema hschema item hmem
      obtain ⟨k, hk⟩ := List.mem_iff_getElem?.mp hmem
      exact (hitems items hvalue item hmem itemSchema _).mp (h items hvalue htype itemSchema hschema k item hk)
    · intro h items hvalue htype itemSchema hschema k item hk
      have hmem : item ∈ items := List.mem_of_getElem? hk
      exact (hitems items hvalue item hmem itemSchema _).mpr (h items hvalue htype itemSchema hschema item hmem)

/-- **What is accepted is what meets the checked keywords.** -/
theorem assertSchema_eq_ok_iff (schema : JsonSchema) (value : Json) (path : JsString) :
    assertSchema numText schema value path = .ok () ↔ MeetsChecked schema value := by
  induction value using Json.induct generalizing schema path with
  | obj fields ih =>
    refine assertSchema_eq_ok_of_below ?_ nofun
    rintro _ ⟨⟩ name child hmem schema path
    exact ih name child hmem schema path
  | arr items ih =>
    refine assertSchema_eq_ok_of_below nofun ?_
    rintro _ ⟨⟩ item hmem schema path
    exact ih item hmem schema path
  | null | bool | num | str => exact assertSchema_eq_ok_of_below nofun nofun

end Checked

/-! ## Where validation is the meaning of the schema -/

/-- A keyword that a value violates at a node that is reached. -/
def Violated (schema : JsonSchema) (value : Json) : Prop :=
  ∃ schema' value', Reaches (fun _ _ => True) schema value schema' value' ∧
    ∃ keyword : Keyword, ¬ keyword.Holds schema' value'

/-- A keyword that a value violates at a node to which every node above is typed, where it is checked. -/
def ViolatedChecked (schema : JsonSchema) (value : Json) : Prop :=
  ∃ schema' value', Reaches Typed schema value schema' value' ∧
    ∃ keyword : Keyword, keyword.Checked schema' ∧ ¬ keyword.Holds schema' value'

/-- Validation of a value by a schema is the schema's meaning. -/
def MeansSchema (numText : ℚ → JsString) (schema : JsonSchema) (value : Json) (path : JsString) : Prop :=
  assertSchema numText schema value path = .ok () ↔ Meets schema value

theorem Reaches.mono {P Q : JsonSchema → Json → Prop} (hPQ : ∀ schema value, P schema value → Q schema value)
    {schema schema' : JsonSchema} {value value' : Json} (h : Reaches P schema value schema' value') :
    Reaches Q schema value schema' value' := by
  induction h with
  | here => exact .here ..
  | field hpass hfield hproperty _ ih => exact .field (hPQ _ _ hpass) hfield hproperty ih
  | item hpass hitem hitems _ ih => exact .item (hPQ _ _ hpass) hitem hitems ih

/-- What means to meet every keyword, and those that are checked, told by the violations. -/
theorem meets_iff {schema : JsonSchema} {value : Json} : Meets schema value ↔ ¬ Violated schema value := by
  unfold Meets Violated
  push Not
  rfl

theorem meetsChecked_iff_not {schema : JsonSchema} {value : Json} :
    MeetsChecked schema value ↔ ¬ ViolatedChecked schema value := by
  unfold MeetsChecked ViolatedChecked
  push Not
  rfl

theorem ViolatedChecked.violated {schema : JsonSchema} {value : Json} (h : ViolatedChecked schema value) :
    Violated schema value := by
  obtain ⟨schema', value', hreach, keyword, -, hnot⟩ := h
  exact ⟨schema', value', hreach.mono fun _ _ _ => trivial, keyword, hnot⟩

/-- **Validation is the meaning of the schema** exactly where a value that violates a keyword at some node violates one
that is checked. -/
theorem meansSchema_iff {numText : ℚ → JsString} {schema : JsonSchema} {value : Json} {path : JsString} :
    MeansSchema numText schema value path ↔ (Violated schema value → ViolatedChecked schema value) := by
  rw [MeansSchema, assertSchema_eq_ok_iff, meets_iff, meetsChecked_iff_not, not_iff_not]
  exact ⟨fun h => h.mpr, fun h => ⟨ViolatedChecked.violated, h⟩⟩

/-- A schema of an integer that is to be one of two. -/
def enumSchema : JsonSchema :=
  .mk (some .integer) [] [] none none none (some [.number 1, .number 2]) none none none none

/-- An integer is accepted that `enum` does not list. -/
theorem not_meansSchema :
    ¬ ∀ (numText : ℚ → JsString) (schema : JsonSchema) (value : Json) (path : JsString),
      MeansSchema numText schema value path := by
  intro h
  have haccepted : assertSchema (fun _ => []) enumSchema (.num 3) (js "payload") = .ok () := rfl
  have hmeets := (h (fun _ => []) enumSchema (.num 3) (js "payload")).mp haccepted
  obtain ⟨entry, hentry, his⟩ := hmeets _ _ (.here ..) .enum _ rfl
  simp only [List.mem_cons, List.not_mem_nil, or_false] at hentry
  rcases hentry with rfl | rfl <;> simp [EnumValue.is] at his

end Pinout.Schema
