import Mathlib.Data.List.Nodup
import Pinout.Foundation.NumberPrinting
import Pinout.Scpi.Headers

/-! # Spellings of mnemonics

`scpiCommandKey` (`packages/protocols-scpi/src/parser.ts`) names a command by its expanded header, so that the spellings
of a mnemonic are one command. The path of a command can be read from its key (`keyPath_scpiCommandKey`), so keys are as
different as expanded headers. The table of mnemonics has one short form twice: `STAT` is the short form of `STATe` and
of `STATus`, and it is expanded to the second (`expandMnemonic_text`). -/

namespace Pinout.Scpi

open Foundation Protocol

/-! ## Keys -/

def channelText (channel : Option Nat) : JsString :=
  match channel with
  | none => []
  | some n => (JsNumber.ofNat n).text

def scpiCommandKey (command : ScpiCommand) : JsString :=
  [58].intercalate command.path ++ (channelText command.channel ++ if command.query then [63] else [])

def keyOf (text : JsString) : Option JsString :=
  match parseScpiCommand text with
  | .error _ => none
  | .ok command => some (scpiCommandKey command)

/-- A unit of the path in a key: a letter in upper case, `:` or `*`. -/
def isPathUnit (u : UInt16) : Bool := (65 ≤ u.toNat && u.toNat ≤ 90) || u = 58 || u = 42

/-- The path of a key. What follows it begins with a small letter only behind the capital one of `Infinity`. -/
def keyPath (key : JsString) : List JsString :=
  let name := key.takeWhile isPathUnit
  (if (key.dropWhile isPathUnit).head? = some 110 then name.dropLast else name).splitOn 58

theorem channelText_cases (channel : Option Nat) (query : Bool) :
    (∀ u ∈ (channelText channel ++ if query then [63] else []).head?, isPathUnit u = false ∧ u ≠ 110) ∨
      channelText channel = js "Infinity" := by
  have hmark : ∀ u ∈ (if query then [63] else [] : JsString).head?, isPathUnit u = false ∧ u ≠ 110 := by
    cases query with
    | false => nofun
    | true =>
      rintro u ⟨⟩
      decide
  cases channel with
  | none => exact .inl hmark
  | some n =>
    refine (JsNumber.text_ofNat n).imp_left fun hdigit u hu => ?_
    obtain ⟨digit, hhead, hdigit⟩ := hdigit
    rw [channelText, List.head?_append, Option.mem_def.mp hhead] at hu
    obtain rfl := Option.some.inj hu
    have hlit : ∀ n : UInt16, digit = n ↔ digit.toNat = n.toNat := fun n => UInt16.toNat_inj.symm
    simp only [isDigit, decide_eq_true_eq] at hdigit
    simp only [isPathUnit, Bool.or_eq_false_iff, Bool.and_eq_false_iff, decide_eq_false_iff_not, ne_eq, hlit,
      UInt16.reduceToNat]
    omega

/-- **The path of a command** can be read from its key. -/
theorem keyPath_scpiCommandKey {command : ScpiCommand} (hne : command.path ≠ [])
    (hunits : ∀ part ∈ command.path, ∀ u ∈ part, isPathUnit u = true ∧ u ≠ 58) :
    keyPath (scpiCommandKey command) = command.path := by
  have hsplit : ([58].intercalate command.path).splitOn 58 = command.path :=
    List.splitOn_intercalate 58 (fun part hpart hmem => (hunits part hpart 58 hmem).2 rfl) hne
  have hpath : ∀ u ∈ [58].intercalate command.path, isPathUnit u = true := by
    intro u hu
    rcases @eq_or_mem_of_splitOn _ _ 58 _ _ _ hu with rfl | ⟨part, hpart, hin⟩
    · rfl
    · rw [hsplit] at hpart
      exact (hunits part hpart u hin).1
  rw [keyPath, scpiCommandKey]
  rcases channelText_cases command.channel command.query with hends | hinfinity
  · rw [takeWhile_append_of_head hpath fun u hu => (hends u hu).1,
      dropWhile_append_of_head hpath fun u hu => (hends u hu).1, if_neg, hsplit]
    exact fun hhead => (hends 110 hhead).2 rfl
  · -- the first letter of `Infinity` looks like one of the path
    have hbehind : channelText command.channel ++ (if command.query then [63] else []) =
        73 :: (js "nfinity" ++ if command.query then [63] else []) := by
      rw [hinfinity]
      rfl
    have hname : ∀ u ∈ [58].intercalate command.path ++ [73], isPathUnit u = true :=
      List.forall_mem_append.mpr ⟨hpath, by decide⟩
    have hends : ∀ u ∈ (js "nfinity" ++ if command.query then [63] else [] : JsString).head?, isPathUnit u = false := by
      rintro u ⟨⟩
      rfl
    rw [hbehind, List.append_cons, takeWhile_append_of_head hname hends, dropWhile_append_of_head hname hends,
      if_pos (show (js "nfinity" ++ _).head? = some (110 : UInt16) from rfl), List.dropLast_concat, hsplit]

/-! ## Headers -/

/-- A level of a header: a mnemonic, and the digits behind it. -/
structure Level where
  mnemonic : JsString
  digits : JsString
  nonempty : mnemonic ≠ []
  isLetter_mnemonic : ∀ u ∈ mnemonic, isLetter u = true
  isDigit_digits : ∀ u ∈ digits, isDigit u = true

namespace Level

def text (level : Level) : JsString := level.mnemonic ++ level.digits

def part (level : Level) : JsString := expandMnemonic level.mnemonic

def number (level : Level) : Option Nat := if level.digits.isEmpty then none else some (parseDecimal level.digits)

variable {level : Level}

theorem text_ne_nil (level : Level) : level.text ≠ [] := List.append_ne_nil_of_left_ne_nil level.nonempty _

theorem isLetter_or_isDigit (level : Level) : ∀ u ∈ level.text, isLetter u = true ∨ isDigit u = true := by
  intro u hu
  exact (List.mem_append.mp hu).imp (level.isLetter_mnemonic u) (level.isDigit_digits u)

theorem isLetter_of_isDigit {u : UInt16} (h : isDigit u = true) : isLetter u = false := by
  simp only [isDigit, decide_eq_true_eq] at h
  simp only [isLetter, Bool.or_eq_false_iff, Bool.and_eq_false_iff, decide_eq_false_iff_not]
  omega

theorem isLetter_head?_digits (level : Level) : ∀ u ∈ level.digits.head?, isLetter u = false :=
  fun u hu => isLetter_of_isDigit (level.isDigit_digits u (List.mem_of_mem_head? hu))

theorem takeWhile_text (level : Level) : level.text.takeWhile isLetter = level.mnemonic :=
  takeWhile_append_of_head level.isLetter_mnemonic level.isLetter_head?_digits

theorem dropWhile_text (level : Level) : level.text.dropWhile isLetter = level.digits :=
  dropWhile_append_of_head level.isLetter_mnemonic level.isLetter_head?_digits

end Level

def headerText (colon : Bool) (levels : List Level) : JsString :=
  (if colon then [58] else []) ++ [58].intercalate (levels.map Level.text)

/-- **The path of levels** and their first number. -/
theorem parsePath_levels (name : JsString) (levels : List Level) :
    parsePath name (levels.map Level.text) = .ok (levels.map Level.part, levels.findSome? Level.number) := by
  induction levels with
  | nil => rfl
  | cons level levels ih =>
    have hdigits : level.digits.all isDigit = true := List.all_eq_true.mpr level.isDigit_digits
    rw [List.map_cons, parsePath, level.takeWhile_text, level.dropWhile_text, if_neg (by simpa using level.text_ne_nil),
      if_neg (by simpa [hdigits] using level.nonempty), ih, List.findSome?_cons, Level.number, List.map_cons,
      Level.part]
    cases level.digits.isEmpty <;> rfl

/-- **A header is read** level by level. -/
theorem parseHeader_headerText (colon : Bool) {levels : List Level} (hne : levels ≠ []) :
    parseHeader (headerText colon levels) = .ok (levels.map Level.part, levels.findSome? Level.number) := by
  have hsplit : ([58].intercalate (levels.map Level.text)).splitOn 58 = levels.map Level.text := by
    refine List.splitOn_intercalate 58 (fun text htext hmem => ?_) (by simpa using hne)
    obtain ⟨level, -, rfl⟩ := List.mem_map.mp htext
    exact (level.isLetter_or_isDigit 58 hmem).elim (by rintro ⟨⟩) (by rintro ⟨⟩)
  cases colon with
  | true =>
    rw [headerText, if_pos rfl, List.singleton_append, parseHeader, hsplit, parsePath_levels]
  | false =>
    rw [headerText, if_neg (by decide), List.nil_append, parseHeader.eq_def]
    -- a header that begins with a level is no common command
    have hhead : ∀ u ∈ ([58].intercalate (levels.map Level.text)).head?, isLetter u = true ∨ isDigit u = true := by
      intro u hu
      obtain ⟨level, rest, rfl⟩ := List.exists_cons_of_ne_nil hne
      have hfirst : ([58].intercalate ((level :: rest).map Level.text)).head? = level.text.head? := by
        cases rest with
        | nil => rw [List.map_singleton, List.intercalate_singleton]
        | cons other rest =>
          rw [List.map_cons, List.map_cons, List.intercalate_cons_cons, List.append_assoc,
            List.head?_append_of_ne_nil _ level.text_ne_nil]
      rw [hfirst] at hu
      exact level.isLetter_or_isDigit u (List.mem_of_mem_head? hu)
    split
    · next heq =>
      rw [heq] at hhead
      exact (hhead 42 rfl).elim (by rintro ⟨⟩) (by rintro ⟨⟩)
    · next heq =>
      rw [heq] at hhead
      exact (hhead 58 rfl).elim (by rintro ⟨⟩) (by rintro ⟨⟩)
    · rw [hsplit, parsePath_levels]

theorem isHeaderUnit_of_headerText (colon : Bool) {levels : List Level} (hne : levels ≠ []) :
    headerText colon levels ≠ [] ∧ ∀ u ∈ headerText colon levels, isHeaderUnit u = true :=
  isHeaderUnit_of_parseHeader (parseHeader_headerText colon hne)

/-- What follows a header does not continue it. -/
def EndsHeader (tail : JsString) : Prop := ∀ u ∈ tail.head?, isHeaderUnit u = false

/-- **The key of a header** and what follows it. -/
theorem keyOf_headerText (colon : Bool) {levels : List Level} (hne : levels ≠ []) {tail : JsString}
    (htail : EndsHeader tail) :
    keyOf (headerText colon levels ++ tail) = (parseTail tail).map fun parsed =>
      scpiCommandKey ⟨levels.map Level.part, levels.findSome? Level.number, parsed.1, parsed.2⟩ := by
  obtain ⟨hname, hunits⟩ := isHeaderUnit_of_headerText colon hne
  have hparse := @parseScpiCommand_append _ tail hname hunits htail
  rw [keyOf]
  cases hparsed : parseTail tail with
  | none =>
    cases hcommand : parseScpiCommand (headerText colon levels ++ tail) with
    | error thrown => rfl
    | ok command =>
      rw [(hparse.mp hcommand).2] at hparsed
      cases hparsed
  | some parsed =>
    have hcommand := (@hparse ⟨_, _, parsed.1, parsed.2⟩).mpr ⟨parseHeader_headerText colon hne, hparsed⟩
    rw [hcommand]
    rfl

/-! ## Spellings -/

/-- `expandMnemonic`, of a mnemonic in upper case. -/
def expandUpper (upper : JsString) : JsString :=
  match mnemonicPairs.reverse.find? fun pair => upperCase (js pair.1) = upper || upperCase (js pair.2) = upper with
  | some pair => upperCase (js pair.1)
  | none => upper

theorem expandMnemonic_eq (mnemonic : JsString) : expandMnemonic mnemonic = expandUpper (upperCase mnemonic) := rfl

def isUpper (u : UInt16) : Bool := 65 ≤ u.toNat && u.toNat ≤ 90

theorem nodup_long : (mnemonicPairs.map fun pair => upperCase (js pair.1)).Nodup := by
  decide +kernel

/-- **The table of mnemonics**: each form is expanded to the long one, but for the short form of `STATe`. -/
theorem expandUpper_of_mem : ∀ pair ∈ mnemonicPairs,
    expandUpper (upperCase (js pair.1)) = upperCase (js pair.1) ∧
      expandUpper (upperCase (js pair.2)) =
        if pair = ("STATe", "STAT") then js "STATUS" else upperCase (js pair.1) := by
  decide +kernel

theorem isUpper_of_mem : ∀ pair ∈ mnemonicPairs, upperCase (js pair.1) ≠ [] ∧ upperCase (js pair.2) ≠ [] ∧
    ∀ u ∈ upperCase (js pair.1), isUpper u = true := by
  decide +kernel

theorem isUpper_of_mem_upperUnit : ∀ n < 123,
    isLetter (.ofNat n) = true → ∀ u ∈ upperUnit (.ofNat n), isUpper u = true := by
  decide +kernel

theorem isUpper_of_mem_upperCase {text : JsString} (hletters : ∀ u ∈ text, isLetter u = true) :
    ∀ u ∈ upperCase text, isUpper u = true := by
  intro u hu
  obtain ⟨v, hv, hu⟩ := List.mem_flatMap.mp hu
  have hletter := hletters v hv
  have hbound : v.toNat < 123 := by
    simp only [isLetter, Bool.or_eq_true, Bool.and_eq_true, decide_eq_true_eq] at hletter
    omega
  rw [← @UInt16.ofNat_toNat v] at hu hletter
  exact isUpper_of_mem_upperUnit v.toNat hbound hletter u hu

/-- **An expanded mnemonic** is in upper case. -/
theorem isUpper_of_mem_expandMnemonic {mnemonic : JsString} (hletters : ∀ u ∈ mnemonic, isLetter u = true) :
    ∀ u ∈ expandMnemonic mnemonic, isUpper u = true := by
  rw [expandMnemonic]
  split
  · next pair hpair =>
    exact (isUpper_of_mem pair (List.mem_reverse.mp (List.mem_of_find?_eq_some hpair))).2.2
  · exact isUpper_of_mem_upperCase hletters

/-- **The path of levels** can be read from their key. -/
theorem keyPath_levels {levels : List Level} (hne : levels ≠ []) (channel : Option Nat) (query : Bool)
    (args : List ScpiArgument) :
    keyPath (scpiCommandKey ⟨levels.map Level.part, channel, query, args⟩) = levels.map Level.part := by
  refine keyPath_scpiCommandKey (by simpa using hne) fun part hpart u hu => ?_
  obtain ⟨level, -, rfl⟩ := List.mem_map.mp hpart
  have hupper := isUpper_of_mem_expandMnemonic level.isLetter_mnemonic u hu
  have hlit : ∀ n : UInt16, u = n ↔ u.toNat = n.toNat := fun n => UInt16.toNat_inj.symm
  simp only [isUpper, Bool.and_eq_true, decide_eq_true_eq] at hupper
  simp only [isPathUnit, Bool.or_eq_true, Bool.and_eq_true, decide_eq_true_eq, ne_eq, hlit, UInt16.reduceToNat]
  omega

structure Spelling where
  pair : String × String
  text : JsString
  mem_pair : pair ∈ mnemonicPairs
  isLetter_text : ∀ u ∈ text, isLetter u = true
  spells : upperCase text = upperCase (js pair.1) ∨ upperCase text = upperCase (js pair.2)

namespace Spelling

/-- The short form of `STATe`. -/
def ShortState (x : Spelling) : Prop := x.pair = ("STATe", "STAT") ∧ upperCase x.text = js "STAT"

instance (x : Spelling) : Decidable x.ShortState := inferInstanceAs (Decidable (_ ∧ _))

def on (x : Spelling) (level : Level) : Level where
  mnemonic := x.text
  digits := level.digits
  nonempty := by
    intro htext
    obtain ⟨hlong, hshort, -⟩ := isUpper_of_mem x.pair x.mem_pair
    have hspells := x.spells
    rw [htext] at hspells
    exact hspells.elim (fun h => hlong h.symm) fun h => hshort h.symm
  isLetter_mnemonic := x.isLetter_text
  isDigit_digits := level.isDigit_digits

/-- Spellings that may stand for each other in every header. -/
def Interchangeable (x y : Spelling) : Prop :=
  ∀ colon before level behind tail, EndsHeader tail →
    keyOf (headerText colon (before ++ x.on level :: behind) ++ tail) =
      keyOf (headerText colon (before ++ y.on level :: behind) ++ tail)

/-- Spellings that never have a key in common when they stand at one level. -/
def Apart (x y : Spelling) : Prop :=
  ∀ colon before level behind tail colon' before' level' behind' tail' key, EndsHeader tail → EndsHeader tail' →
    before.length = before'.length → keyOf (headerText colon (before ++ x.on level :: behind) ++ tail) = some key →
      keyOf (headerText colon' (before' ++ y.on level' :: behind') ++ tail') ≠ some key

/-- The short form of `STATe`, and another spelling of it or one of `STATus`. -/
def Clash (x y : Spelling) : Prop :=
  (x.ShortState ∧ ¬ y.ShortState ∧ y.pair ∈ [("STATe", "STAT"), ("STATus", "STAT")]) ∨
    (y.ShortState ∧ ¬ x.ShortState ∧ x.pair ∈ [("STATe", "STAT"), ("STATus", "STAT")])

variable {x y : Spelling}

/-- **What a spelling is expanded to**: the long form, but for the short form of `STATe`. -/
theorem expandMnemonic_text (x : Spelling) :
    expandMnemonic x.text = if x.ShortState then js "STATUS" else upperCase (js x.pair.1) := by
  obtain ⟨hlong, hshort⟩ := expandUpper_of_mem x.pair x.mem_pair
  rw [expandMnemonic_eq]
  rcases x.spells with htext | htext
  · rw [htext, hlong, if_neg]
    rintro ⟨hpair, hstat⟩
    rw [htext, hpair] at hstat
    revert hstat
    decide
  · rw [htext, hshort]
    by_cases hpair : x.pair = ("STATe", "STAT")
    · rw [if_pos hpair, if_pos]
      refine ⟨hpair, ?_⟩
      rw [htext, hpair]
      rfl
    · rw [if_neg hpair, if_neg fun h => hpair h.1]

theorem keyOf_single (x : Spelling) (level : Level) :
    keyOf (headerText false ([] ++ x.on level :: []) ++ []) =
      some (scpiCommandKey ⟨[x.on level].map Level.part, [x.on level].findSome? Level.number, false, []⟩) := by
  rw [List.nil_append, @keyOf_headerText false _ (List.cons_ne_nil _ _) [] (by simp [EndsHeader])]
  rfl

/-- **Spellings may stand for each other** exactly when they are expanded alike. -/
theorem interchangeable_iff : Interchangeable x y ↔ expandMnemonic x.text = expandMnemonic y.text := by
  constructor
  · intro h
    let level : Level := ⟨[65], [], by decide, by decide, by decide⟩
    have hkeys := h false [] level [] [] (by simp [EndsHeader])
    rw [keyOf_single, keyOf_single] at hkeys
    have hpaths := congrArg keyPath (Option.some.inj hkeys)
    rw [keyPath_levels (List.cons_ne_nil _ _), keyPath_levels (List.cons_ne_nil _ _)] at hpaths
    exact (List.cons.inj hpaths).1
  · intro h colon before level behind tail htail
    have hparts : (before ++ x.on level :: behind).map Level.part =
      (before ++ y.on level :: behind).map Level.part := by
      rw [List.map_append, List.map_append, List.map_cons, List.map_cons, Level.part, Level.part]
      exact congrArg (fun part => before.map Level.part ++ part :: behind.map Level.part) h
    have hnumbers : (before ++ x.on level :: behind).findSome? Level.number =
        (before ++ y.on level :: behind).findSome? Level.number := by
      rw [List.findSome?_append, List.findSome?_append, List.findSome?_cons, List.findSome?_cons]
      rfl
    rw [keyOf_headerText colon (by simp) htail, keyOf_headerText colon (by simp) htail, hparts, hnumbers]

/-- **Spellings are told apart** exactly when they are expanded differently. -/
theorem apart_iff : Apart x y ↔ expandMnemonic x.text ≠ expandMnemonic y.text := by
  constructor
  · intro h heq
    let level : Level := ⟨[65], [], by decide, by decide, by decide⟩
    have hends : EndsHeader [] := by simp [EndsHeader]
    refine h false [] level [] [] false [] level [] [] _ hends hends rfl (keyOf_single x level) ?_
    rw [← interchangeable_iff.mpr heq false [] level [] [] hends, keyOf_single]
  · intro h colon before level behind tail colon' before' level' behind' tail' key htail htail' hlength hkey hkey'
    rw [keyOf_headerText colon (by simp) htail] at hkey
    rw [keyOf_headerText colon' (by simp) htail'] at hkey'
    obtain ⟨parsed, -, rfl⟩ := Option.map_eq_some_iff.mp hkey
    obtain ⟨parsed', -, hkeys⟩ := Option.map_eq_some_iff.mp hkey'
    have hpaths := congrArg keyPath hkeys
    rw [keyPath_levels (by simp), keyPath_levels (by simp), List.map_append, List.map_append, List.map_cons,
      List.map_cons] at hpaths
    obtain ⟨-, hbehind⟩ := List.append_inj hpaths (by rw [List.length_map, List.length_map, hlength])
    exact h (List.cons.inj hbehind).1.symm

theorem pair_eq_of_long {pair pair' : String × String} (hmem : pair ∈ mnemonicPairs) (hmem' : pair' ∈ mnemonicPairs)
    (h : upperCase (js pair.1) = upperCase (js pair'.1)) : pair = pair' :=
  List.inj_on_of_nodup_map nodup_long hmem hmem' h

theorem status_iff {z : Spelling} (hx : x.ShortState) :
    ((x.pair = z.pair → js "STATUS" = upperCase (js z.pair.1)) ∧
        (x.pair ≠ z.pair → js "STATUS" ≠ upperCase (js z.pair.1))) ↔
      z.pair ∉ [("STATe", "STAT"), ("STATus", "STAT")] := by
  rw [hx.1]
  by_cases hstate : z.pair = ("STATe", "STAT")
  · rw [hstate]
    decide
  · by_cases hstatus : z.pair = ("STATus", "STAT")
    · rw [hstatus]
      decide
    · have hne : js "STATUS" ≠ upperCase (js z.pair.1) := fun h =>
        hstatus (pair_eq_of_long z.mem_pair (by decide) h.symm)
      simp [hstate, hstatus, hne, Ne.symm hstate]

/-- **Spellings agree on keys**, those of one mnemonic by having the same and those of two by having different ones,
exactly when they are not the short form of `STATe` and something that it is confused with. -/
theorem keys_iff (x y : Spelling) :
    ((x.pair = y.pair → Interchangeable x y) ∧ (x.pair ≠ y.pair → Apart x y)) ↔ ¬ Clash x y := by
  rw [interchangeable_iff, apart_iff, expandMnemonic_text x, expandMnemonic_text y, Clash]
  by_cases hx : x.ShortState
  · rw [if_pos hx]
    by_cases hy : y.ShortState
    · rw [if_pos hy]
      have hpair : x.pair = y.pair := hx.1.trans hy.1.symm
      simp [hx, hy, hpair]
    · rw [if_neg hy, status_iff hx]
      simp [hx, hy]
  · rw [if_neg hx]
    by_cases hy : y.ShortState
    · rw [if_pos hy]
      refine (and_congr (imp_congr eq_comm eq_comm) (imp_congr ne_comm ne_comm)).trans ((status_iff hy).trans ?_)
      simp [hx, hy]
    · rw [if_neg hy]
      have hlong : upperCase (js x.pair.1) = upperCase (js y.pair.1) ↔ x.pair = y.pair :=
        ⟨pair_eq_of_long x.mem_pair y.mem_pair, fun h => by rw [h]⟩
      simp [hx, hy, hlong]

/-- `STAT` is expanded to `STATUS`: it is no spelling of `STATe` any more, and the same as a spelling of `STATus`. -/
theorem keys_state :
    keyOf (js "OUTP:STAT?") = some (js "OUTPUT:STATUS?") ∧ keyOf (js "OUTP:STATe?") = some (js "OUTPUT:STATE?") ∧
      ∃ short long status : Spelling, short.text = js "STAT" ∧ long.text = js "STATe" ∧ status.text = js "STATus" ∧
        (short.pair = long.pair ∧ ¬ Interchangeable short long) ∧ short.pair ≠ status.pair ∧ ¬ Apart short status := by
  refine ⟨by decide +kernel, by decide +kernel,
    ⟨("STATe", "STAT"), js "STAT", by decide, by decide, .inr rfl⟩,
    ⟨("STATe", "STAT"), js "STATe", by decide, by decide, .inl rfl⟩,
    ⟨("STATus", "STAT"), js "STATus", by decide, by decide, .inl rfl⟩, rfl, rfl, rfl, ⟨rfl, ?_⟩, by decide, ?_⟩
  · rw [interchangeable_iff]
    decide +kernel
  · rw [apart_iff]
    decide +kernel

end Spelling

end Pinout.Scpi
