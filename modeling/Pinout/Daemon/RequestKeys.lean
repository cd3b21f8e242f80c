import Pinout.Daemon.InvokeRoute
import Pinout.Foundation.KeyOrder
import Pinout.Foundation.NumberText

/-! # What a generated key tells of a request

`stableStringify` prints a value with the fields of its objects sorted by name, so that its text tells the value
up to key order and nothing less (`stableStringify_eq_iff`). The text a generated key is a digest of is printed by
it, of the device, the capability, the arguments and the owner. -/

namespace Pinout.Daemon

open Foundation

variable {numText : ℚ → JsString}

/-! ## The texts of values -/

theorem stableItems_eq_map (items : List Json) : stableItems numText items = items.map (stableStringify numText) := by
  induction items with
  | nil => rw [stableItems, List.map_nil]
  | cons item items ih => rw [stableItems, ih, List.map_cons]

theorem stableFields_eq_map (fields : JsonObject) :
    stableFields numText fields = fields.map fun field => (field.1, stableStringify numText field.2) := by
  induction fields with
  | nil => rw [stableFields, List.map_nil]
  | cons field fields ih =>
    obtain ⟨name, value⟩ := field
    rw [stableFields, ih, List.map_cons]

variable (numText) in
def sortedEntries (fields : JsonObject) : List (JsString × JsString) :=
  (stableFields numText fields).insertionSort fun f g => f.1 ≤ g.1

@[simp] theorem mem_sortedEntries {fields : JsonObject} {entry : JsString × JsString} :
    entry ∈ sortedEntries numText fields ↔ entry ∈ stableFields numText fields :=
  (List.perm_insertionSort _ _).mem_iff

theorem stableStringify_arr (items : List Json) :
    stableStringify numText (.arr items) = arrayText (items.map (stableStringify numText)) := by
  rw [stableStringify, stableItems_eq_map]
  rfl

theorem stableStringify_obj (fields : JsonObject) :
    stableStringify numText (.obj fields) = objectText (sortedEntries numText fields) := by
  rw [stableStringify]
  rfl

theorem prints_stableStringify (hnum : NumberTexts numText) : PrintsJson (stableStringify numText) where
  null := .null
  yes := .yes
  no := .no
  num q := .number (hnum.ne_nil q) (hnum.units q)
  str s := .string s
  arr := stableStringify_arr
  obj fields := by
    refine ⟨_, stableStringify_obj fields, fun entry hentry => ?_⟩
    rw [mem_sortedEntries, stableFields_eq_map] at hentry
    obtain ⟨field, hfield, rfl⟩ := List.mem_map.mp hentry
    exact ⟨field, hfield, rfl⟩

/-- **What is printed is the text of a value.** -/
theorem jsonText_stableStringify (hnum : NumberTexts numText) (value : Json) :
    JsonText (stableStringify numText value) :=
  (prints_stableStringify hnum).jsonText value

inductive Leads : Json → UInt16 → Prop
  | null : Leads .null 110
  | yes : Leads (.bool true) 116
  | no : Leads (.bool false) 102
  | num (q : ℚ) {u : UInt16} (hunit : isNumberUnit u = true) : Leads (.num q) u
  | str (s : JsString) : Leads (.str s) 34
  | arr (items : List Json) : Leads (.arr items) 91
  | obj (fields : JsonObject) : Leads (.obj fields) 123

inductive SameKind : Json → Json → Prop
  | null : SameKind .null .null
  | bool (b : Bool) : SameKind (.bool b) (.bool b)
  | num (q q' : ℚ) : SameKind (.num q) (.num q')
  | str (s s' : JsString) : SameKind (.str s) (.str s')
  | arr (items items' : List Json) : SameKind (.arr items) (.arr items')
  | obj (fields fields' : JsonObject) : SameKind (.obj fields) (.obj fields')

theorem leads_stableStringify (hnum : NumberTexts numText) (value : Json) :
    ∃ u rest, stableStringify numText value = u :: rest ∧ Leads value u := by
  cases value with
  | null => exact ⟨_, _, rfl, .null⟩
  | bool b =>
    cases b with
    | true => exact ⟨_, _, rfl, .yes⟩
    | false => exact ⟨_, _, rfl, .no⟩
  | num q =>
    obtain ⟨u, rest, h⟩ := List.exists_cons_of_ne_nil (hnum.ne_nil q)
    exact ⟨u, rest, h, .num q (hnum.units q u (h ▸ List.mem_cons_self))⟩
  | str s => exact ⟨_, _, rfl, .str s⟩
  | arr items => exact ⟨_, _, rfl, .arr items⟩
  | obj fields => exact ⟨_, _, stableStringify_obj fields, .obj fields⟩

theorem Leads.sameKind {v w : Json} {u : UInt16} (hv : Leads v u) (hw : Leads w u) : SameKind v w := by
  cases hv with
  | num q hunit =>
    cases hw with
    | num q' => exact .num q q'
    | null | yes | no | str | arr | obj => exact absurd hunit (by decide)
  | null =>
    cases hw with
    | null => exact .null
    | num _ hunit => exact absurd hunit (by decide)
  | yes =>
    cases hw with
    | yes => exact .bool true
    | num _ hunit => exact absurd hunit (by decide)
  | no =>
    cases hw with
    | no => exact .bool false
    | num _ hunit => exact absurd hunit (by decide)
  | str s =>
    cases hw with
    | str s' => exact .str s s'
    | num _ hunit => exact absurd hunit (by decide)
  | arr items =>
    cases hw with
    | arr items' => exact .arr items items'
    | num _ hunit => exact absurd hunit (by decide)
  | obj fields =>
    cases hw with
    | obj fields' => exact .obj fields fields'
    | num _ hunit => exact absurd hunit (by decide)

theorem sameKind_of_stableStringify_eq (hnum : NumberTexts numText) {v w : Json}
    (h : stableStringify numText v = stableStringify numText w) : SameKind v w := by
  obtain ⟨u, rest, hv, hu⟩ := leads_stableStringify hnum v
  obtain ⟨u', rest', hw, hu'⟩ := leads_stableStringify hnum w
  rw [hv, hw] at h
  obtain ⟨rfl, -⟩ := List.cons.inj h
  exact hu.sameKind hu'

theorem sameKind_of_sameUpToKeyOrder {v w : Json} (h : v.SameUpToKeyOrder w) : SameKind v w := by
  cases h with
  | null => exact .null
  | bool b => exact .bool b
  | num q => exact .num q q
  | str s => exact .str s s
  | arr h => exact .arr _ _
  | obj h => exact .obj _ _

/-! ## The text tells the value -/

theorem stableStringify_arr_eq_iff (hnum : NumberTexts numText) {items items' : List Json} :
    stableStringify numText (.arr items) = stableStringify numText (.arr items') ↔
      List.Forall₂ (fun v w => stableStringify numText v = stableStringify numText w) items items' := by
  rw [stableStringify_arr, stableStringify_arr]
  have htexts : ∀ items : List Json, ∀ text ∈ items.map (stableStringify numText), JsonText text := by
    intro items text htext
    obtain ⟨item, -, rfl⟩ := List.mem_map.mp htext
    exact jsonText_stableStringify hnum item
  have hlists : arrayText (items.map (stableStringify numText)) = arrayText (items'.map (stableStringify numText)) ↔
      items.map (stableStringify numText) = items'.map (stableStringify numText) :=
    ⟨arrayText_inj (htexts items) (htexts items'), congrArg arrayText⟩
  rw [hlists, ← List.forall₂_eq_eq_eq, List.forall₂_map_left_iff, List.forall₂_map_right_iff]

/-- Objects have one text exactly when they have the same fields, with the same texts. -/
theorem stableStringify_obj_eq_iff (hnum : NumberTexts numText) {f g : JsonObject} (hf : (f.map (·.1)).Nodup)
    (hg : (g.map (·.1)).Nodup) :
    stableStringify numText (.obj f) = stableStringify numText (.obj g) ↔
      ∀ name, (f.get? name).map (stableStringify numText) = (g.get? name).map (stableStringify numText) := by
  rw [stableStringify_obj, stableStringify_obj, sortedEntries, sortedEntries, stableFields_eq_map,
    stableFields_eq_map]
  exact objectText_insertionSort_iff (jsonText_stableStringify hnum) List.le_total (fun _ _ _ => List.le_trans)
    (fun _ _ _ _ => List.le_antisymm) hf hg

theorem eq_iff_of_sameKind (hnum : NumberTexts numText) {v w : Json}
    (h : SameKind v w → (stableStringify numText v = stableStringify numText w ↔ v.SameUpToKeyOrder w)) :
    stableStringify numText v = stableStringify numText w ↔ v.SameUpToKeyOrder w := by
  by_cases hkind : SameKind v w
  · exact h hkind
  · exact ⟨fun heq => absurd (sameKind_of_stableStringify_eq hnum heq) hkind,
      fun hsame => absurd (sameKind_of_sameUpToKeyOrder hsame) hkind⟩

/-- **`stableStringify` is injective up to key order.** -/
theorem stableStringify_eq_iff (hnum : NumberTexts numText) {v w : Json} (hv : distinctNames v = true)
    (hw : distinctNames w = true) :
    stableStringify numText v = stableStringify numText w ↔ v.SameUpToKeyOrder w := by
  induction v using Json.induct generalizing w with
  | null =>
    refine eq_iff_of_sameKind hnum fun hkind => ?_
    cases hkind with
    | null => exact ⟨fun _ => .null, fun _ => rfl⟩
  | bool b =>
    refine eq_iff_of_sameKind hnum fun hkind => ?_
    cases hkind with
    | bool => exact ⟨fun _ => .bool b, fun _ => rfl⟩
  | num q =>
    refine eq_iff_of_sameKind hnum fun hkind => ?_
    cases hkind with
    | num _ q' =>
      rw [stableStringify, stableStringify, hnum.injective.eq_iff]
      refine ⟨fun h => h ▸ .num q, fun h => ?_⟩
      cases h with
      | num => rfl
  | str s =>
    refine eq_iff_of_sameKind hnum fun hkind => ?_
    cases hkind with
    | str _ s' =>
      rw [stableStringify, stableStringify]
      refine ⟨fun h => ?_, fun h => ?_⟩
      · obtain ⟨rfl, -⟩ := quote_append_inj (congrArg (· ++ []) h)
        exact .str s
      · cases h with
        | str => rfl
  | arr items ih =>
    refine eq_iff_of_sameKind hnum fun hkind => ?_
    cases hkind with
    | arr _ items' =>
      rw [stableStringify_arr_eq_iff hnum, Json.sameUpToKeyOrder_arr_iff, List.forall₂_iff_zip, List.forall₂_iff_zip]
      refine and_congr_right fun _ => forall_congr' fun v => forall_congr' fun w => imp_congr_right fun hmem => ?_
      obtain ⟨hitem, hitem'⟩ := List.of_mem_zip hmem
      exact ih v hitem (distinctNames_of_item hv hitem) (distinctNames_of_item hw hitem')
  | obj fields ih =>
    refine eq_iff_of_sameKind hnum fun hkind => ?_
    cases hkind with
    | obj _ fields' =>
      rw [stableStringify_obj_eq_iff hnum (nodup_of_distinctNames hv) (nodup_of_distinctNames hw),
        Json.sameUpToKeyOrder_obj_iff]
      refine forall_congr' fun name => ?_
      cases hv' : fields.get? name with
      | none =>
        cases hw' : fields'.get? name with
        | none => exact ⟨fun _ => .none, fun _ => rfl⟩
        | some w => exact ⟨nofun, nofun⟩
      | some v =>
        cases hw' : fields'.get? name with
        | none => exact ⟨nofun, nofun⟩
        | some w =>
          have hmem := (JsonObject.mem_iff_get? (nodup_of_distinctNames hv)).mpr hv'
          have hvalue := ih name v hmem (distinctNames_of_get? hv hv') (distinctNames_of_get? hw hw')
          rw [Option.map_some, Option.map_some, Option.some.injEq, hvalue, Option.rel_some_some]

/-! ## The key tells the request -/

def keyFields (deviceId capability : JsString) (args : Json) (owner : Option JsString) : JsonObject :=
  [(js "deviceId", .str deviceId), (js "capability", .str capability), (js "args", args),
    (js "owner", owner.elim .null .str)]

theorem distinctNames_keyFields {deviceId capability : JsString} {args : Json} {owner : Option JsString}
    (hargs : distinctNames args = true) : distinctNames (.obj (keyFields deviceId capability args owner)) = true := by
  have howner : distinctNames (owner.elim .null .str) = true := by cases owner <;> rfl
  have hnames : ((keyFields deviceId capability args owner).map (·.1)).Nodup := by
    change [js "deviceId", js "capability", js "args", js "owner"].Nodup
    decide
  rw [distinctNames, decide_eq_true hnames]
  simp [keyFields, fieldsDistinct, distinctNames, hargs, howner]

theorem sameUpToKeyOrder_owner_iff {owner owner' : Option JsString} :
    (owner.elim Json.null .str).SameUpToKeyOrder (owner'.elim .null .str) ↔ owner = owner' := by
  constructor
  · intro h
    cases owner <;> cases owner' <;> cases h <;> rfl
  · rintro rfl
    cases owner with
    | none => exact .null
    | some s => exact .str s

theorem sameUpToKeyOrder_keyFields_iff {deviceId deviceId' capability capability' : JsString} {args args' : Json}
    {owner owner' : Option JsString} :
    (Json.obj (keyFields deviceId capability args owner)).SameUpToKeyOrder
        (.obj (keyFields deviceId' capability' args' owner')) ↔
      deviceId = deviceId' ∧ capability = capability' ∧ args.SameUpToKeyOrder args' ∧ owner = owner' := by
  rw [keyFields, keyFields, Json.sameUpToKeyOrder_cons_iff rfl rfl,
    Json.sameUpToKeyOrder_cons_iff rfl rfl, Json.sameUpToKeyOrder_cons_iff rfl rfl,
    Json.sameUpToKeyOrder_cons_iff rfl rfl, Json.sameUpToKeyOrder_str_iff,
    Json.sameUpToKeyOrder_str_iff, sameUpToKeyOrder_owner_iff]
  simp [Json.sameUpToKeyOrder_nil]

/-- **A generated key tells the request**: two requests have one key exactly when they are of one caller, for one
device and one capability, with arguments that are equal up to key order. -/
theorem deterministicIdempotencyKey_eq_iff (numText : ℚ → JsString) (hnum : NumberTexts numText)
    (digest : JsString → JsString) (hdigest : Function.Injective digest)
    (deviceId deviceId' capability capability' : JsString) (args args' : Json)
    (hargs : distinctNames args = true) (hargs' : distinctNames args' = true) (owner owner' : Option JsString) :
    deterministicIdempotencyKey numText digest deviceId capability args owner =
        deterministicIdempotencyKey numText digest deviceId' capability' args' owner' ↔
      deviceId = deviceId' ∧ capability = capability' ∧ args.SameUpToKeyOrder args' ∧ owner = owner' := by
  have hkeys : deterministicIdempotencyKey numText digest deviceId capability args owner =
        deterministicIdempotencyKey numText digest deviceId' capability' args' owner' ↔
      stableStringify numText (.obj (keyFields deviceId capability args owner)) =
        stableStringify numText (.obj (keyFields deviceId' capability' args' owner')) :=
    ⟨fun h => hdigest (List.append_cancel_left h), fun h => congrArg (fun text => js "auto-" ++ digest text) h⟩
  rw [hkeys, stableStringify_eq_iff hnum (distinctNames_keyFields hargs) (distinctNames_keyFields hargs'),
    sameUpToKeyOrder_keyFields_iff]

/-! ## Two callers -/

/-- A lamp switched on by a caller, in the text of which the key is a digest. -/
def switchText (caller : JsString) : JsString :=
  js "\x7b\"args\":\x7b\"on\":true,\"pin\":\"led\"\x7d,\"capability\":\"gpio.write\",\"deviceId\":\"lamp\"," ++
    (js "\"owner\":\"" ++ caller ++ js "\"\x7d")

/-- The first halves of the SHA-256 digests of two texts. -/
def switchDigest (text : JsString) : JsString :=
  if text = switchText (js "agent") then js "614278fe93e2d1b2266378d5fe6a14a9"
  else if text = switchText (js "other") then js "8bfb4683ba62c645fc2bd16d92e49346"
  else 0 :: text

def switchPreimage (digest : JsString) : JsString :=
  if digest = js "614278fe93e2d1b2266378d5fe6a14a9" then switchText (js "agent")
  else if digest = js "8bfb4683ba62c645fc2bd16d92e49346" then switchText (js "other")
  else digest.tail

theorem injective_switchDigest : Function.Injective switchDigest := by
  have hinverse : Function.LeftInverse switchPreimage switchDigest := by
    intro text
    rw [switchDigest]
    split_ifs with hagent hother
    · rw [hagent]
      decide +kernel
    · rw [hother]
      decide +kernel
    · have hfirst : ∀ {d : JsString}, d.head? ≠ some 0 → 0 :: text ≠ d := fun hd heq => hd (heq ▸ rfl)
      rw [switchPreimage, if_neg (hfirst (by decide)), if_neg (hfirst (by decide)), List.tail_cons]
  exact hinverse.injective

def sortedArgs : Json := .obj [(js "on", .bool true), (js "pin", .str (js "led"))]

def swappedArgs : Json := .obj [(js "pin", .str (js "led")), (js "on", .bool true)]

/-- The caller may name the arguments in any order. -/
theorem deterministicIdempotencyKey_swappedArgs :
    deterministicIdempotencyKey ratioText switchDigest (js "lamp") (js "gpio.write") swappedArgs
        (some (js "agent")) =
      deterministicIdempotencyKey ratioText switchDigest (js "lamp") (js "gpio.write") sortedArgs
        (some (js "agent")) := by
  refine (deterministicIdempotencyKey_eq_iff ratioText readsNumbers_ratioText.numberTexts switchDigest injective_switchDigest
    _ _ _ _ _ _ (by decide) (by decide) _ _).mpr ⟨rfl, rfl, ?_, rfl⟩
  refine .obj fun name => ?_
  simp only [JsonObject.get?_cons, JsonObject.get?_nil]
  by_cases hpin : js "pin" = name
  · rw [if_pos hpin, if_neg (hpin ▸ by decide), if_pos hpin]
    exact .some (.str _)
  · rw [if_neg hpin, if_neg hpin]
    by_cases hon : js "on" = name
    · rw [if_pos hon]
      exact .some (.bool _)
    · rw [if_neg hon]
      exact .none

/-- **Requests of two callers have different keys**, although device, capability and arguments are equal. -/
theorem not_deterministicIdempotencyKey_eq_iff :
    ¬ ∀ (numText : ℚ → JsString) (_ : NumberTexts numText) (digest : JsString → JsString)
      (_ : Function.Injective digest) (deviceId deviceId' capability capability' : JsString) (args args' : Json)
      (_ : distinctNames args = true) (_ : distinctNames args' = true) (owner owner' : Option JsString),
        deterministicIdempotencyKey numText digest deviceId capability args owner =
            deterministicIdempotencyKey numText digest deviceId' capability' args' owner' ↔
          deviceId = deviceId' ∧ capability = capability' ∧ args.SameUpToKeyOrder args' := by
  intro h
  have hsame : sortedArgs.SameUpToKeyOrder sortedArgs :=
    Json.sameUpToKeyOrder_cons_iff rfl rfl |>.mpr ⟨.bool true,
      Json.sameUpToKeyOrder_cons_iff rfl rfl |>.mpr ⟨.str _, .obj fun _ => .none⟩⟩
  have hkeys := (h ratioText readsNumbers_ratioText.numberTexts switchDigest injective_switchDigest (js "lamp") (js "lamp")
    (js "gpio.write") (js "gpio.write") sortedArgs sortedArgs (by decide) (by decide) (some (js "agent"))
    (some (js "other"))).mpr ⟨rfl, rfl, hsame⟩
  have hagent : deterministicIdempotencyKey ratioText switchDigest (js "lamp") (js "gpio.write") sortedArgs
      (some (js "agent")) = js "auto-614278fe93e2d1b2266378d5fe6a14a9" := by decide +kernel
  have hother : deterministicIdempotencyKey ratioText switchDigest (js "lamp") (js "gpio.write") sortedArgs
      (some (js "other")) = js "auto-8bfb4683ba62c645fc2bd16d92e49346" := by decide +kernel
  rw [hagent, hother] at hkeys
  exact absurd hkeys (by decide)

end Pinout.Daemon
