import Mathlib.Data.List.Forall2
import Pinout.Foundation.Fallible
import Pinout.Foundation.NumberPrinting
import Pinout.Foundation.Splitting
import Pinout.Grbl.Client

/-! # The numbers in motion commands

`rapidMove` and `feedMove` of `packages/protocols-grbl/src/grblClient.ts` accept numbers that are finite, and write them
into a line as `String` does. A controller reads a line word by word (`readLine`): a letter, and a number with an
optional sign and an optional point. The words of a line are the ones that were meant, with the accepted numbers, as
long as no number is written with an exponent (`Motion.reads_iff`). -/

namespace Pinout.Grbl

open Foundation Protocol

/-! ## Controllers -/

/-- What is in front of the first letter of a line, and its words: each letter with what follows it up to the next one.
Blanks do not count. -/
def cut : JsString → JsString × List (UInt16 × JsString)
  | [] => ([], [])
  | u :: text =>
    let (body, words) := cut text
    if u = 32 then (body, words) else if isLetter u then ([], (u, body) :: words) else (u :: body, words)

def unsigned (body : JsString) : JsString :=
  match body with
  | u :: rest => if u = 43 ∨ u = 45 then rest else body
  | [] => []

/-- The number of a word: an optional sign, digits, and an optional point. -/
def readNumber (body : JsString) : Option ℚ :=
  let whole := (unsigned body).takeWhile isDigit
  let behind := (unsigned body).dropWhile isDigit
  let fraction := behind.drop 1
  if (behind = [] ∨ behind.head? = some 46) ∧ fraction.all isDigit ∧ whole ++ fraction ≠ [] then
    some ((if body.head? = some 45 then -1 else 1) * (parseDecimal (whole ++ fraction) / 10 ^ fraction.length))
  else none

def readWords : List (UInt16 × JsString) → Option (List (UInt16 × ℚ))
  | [] => some []
  | word :: words =>
    match readNumber word.2, readWords words with
    | some value, some values => some ((word.1, value) :: values)
    | _, _ => none

def readLine (line : JsString) : Option (List (UInt16 × ℚ)) :=
  if (cut line).1 = [] then readWords (cut line).2 else none

section Words

variable {body : JsString} {words : List (UInt16 × JsString)}

/-- What is no letter and no blank belongs to the word in front of it. -/
theorem cut_append (hbody : ∀ u ∈ body, isLetter u = false ∧ u ≠ 32) (rest : JsString) :
    cut (body ++ rest) = (body ++ (cut rest).1, (cut rest).2) := by
  induction body with
  | nil => rfl
  | cons u body ih =>
    obtain ⟨⟨hletter, hblank⟩, hbody⟩ := List.forall_mem_cons.mp hbody
    rw [List.cons_append, cut, ih hbody]
    dsimp only
    rw [if_neg hblank, if_neg (by rw [hletter]; nofun), List.cons_append]

theorem cut_blank (text : JsString) : cut (32 :: text) = cut text := by
  rw [cut]
  dsimp only
  rw [if_pos rfl]

theorem cut_letter {u : UInt16} (hletter : isLetter u = true) (text : JsString) :
    cut (u :: text) = ([], (u, (cut text).1) :: (cut text).2) := by
  have hblank : u ≠ 32 := by
    rintro rfl
    cases hletter
  rw [cut]
  dsimp only
  rw [if_neg hblank, if_pos hletter]

def spaced (word : UInt16 × JsString) : JsString := 32 :: word.1 :: word.2

def IsWord (word : UInt16 × JsString) : Prop :=
  isLetter word.1 = true ∧ ∀ u ∈ word.2, isLetter u = false ∧ u ≠ 32

/-- **Words that are written one behind the other** are cut again. -/
theorem cut_spaced (hwords : ∀ word ∈ words, IsWord word) : cut (words.flatMap spaced) = ([], words) := by
  induction words with
  | nil => rfl
  | cons word words ih =>
    obtain ⟨⟨hletter, hbody⟩, hwords⟩ := List.forall_mem_cons.mp hwords
    rw [List.flatMap_cons, spaced, List.cons_append, List.cons_append, cut_blank, cut_letter hletter, cut_append hbody,
      ih hwords, List.append_nil]

theorem map_fst_cut (line : JsString) : (cut line).2.map Prod.fst = line.filter isLetter := by
  induction line with
  | nil => rfl
  | cons u line ih =>
    rw [cut]
    dsimp only
    split
    · next hblank => rw [ih, hblank, List.filter_cons_of_neg (by decide)]
    · split
      · next hletter => rw [List.map_cons, ih, List.filter_cons_of_pos hletter]
      · next hletter => rw [ih, List.filter_cons_of_neg hletter]

/-- Words have a letter each, and a line that has no more letters than words has none in its numbers. -/
theorem length_letters (hwords : ∀ word ∈ words, isLetter word.1 = true) :
    words.length ≤ ((words.flatMap spaced).filter isLetter).length ∧
      (((words.flatMap spaced).filter isLetter).length ≤ words.length →
        ∀ word ∈ words, ∀ u ∈ word.2, isLetter u = false) := by
  induction words with
  | nil => exact ⟨le_rfl, nofun⟩
  | cons word words ih =>
    obtain ⟨hletter, hwords⟩ := List.forall_mem_cons.mp hwords
    obtain ⟨hle, hno⟩ := ih hwords
    rw [List.flatMap_cons, spaced, List.cons_append, List.cons_append, List.filter_cons_of_neg (by decide),
      List.filter_cons_of_pos hletter, List.filter_append, List.length_cons, List.length_cons, List.length_append]
    refine ⟨by omega, fun hlength => List.forall_mem_cons.mpr ⟨?_, hno (by omega)⟩⟩
    have hnone : word.2.filter isLetter = [] := List.length_eq_zero_iff.mp (by omega)
    simpa using hnone

/-- **The words that are read**: each with its number. -/
theorem readWords_eq_some_iff {values : List (UInt16 × ℚ)} : readWords words = some values ↔
    List.Forall₂ (fun word value => word.1 = value.1 ∧ readNumber word.2 = some value.2) words values := by
  induction words generalizing values with
  | nil => rw [readWords, Option.some.injEq, List.forall₂_nil_left_iff, eq_comm]
  | cons word words ih =>
    constructor
    · intro h
      rw [readWords] at h
      split at h
      · next value rest hvalue hrest =>
        obtain rfl := Option.some.inj h
        exact .cons ⟨rfl, hvalue⟩ (ih.mp hrest)
      · cases h
    · intro h
      obtain ⟨⟨letter, value⟩, rest, ⟨hletter, hvalue⟩, hrest, rfl⟩ := List.forall₂_cons_left_iff.mp h
      rw [readWords, hvalue, ih.mpr hrest, hletter]

theorem map_fst_readLine {line : JsString} {values : List (UInt16 × ℚ)} (h : readLine line = some values) :
    values.map Prod.fst = line.filter isLetter := by
  rw [readLine] at h
  split at h
  · rw [← map_fst_cut, eq_comm, ← List.forall₂_eq_eq_eq, List.forall₂_map_left_iff, List.forall₂_map_right_iff]
    exact (readWords_eq_some_iff.mp h).imp fun _ _ hword => hword.1
  · cases h

end Words

/-! ## Numbers as they are written -/

/-- A number as a controller reads it: the number of the language that is closest to it. -/
def Denotes (value : ℚ) (x : Double) : Prop := ∀ y : Double, |value - x.value| ≤ |value - y.value|

/-- A number that is written without an exponent. -/
def Plain (x : Double) : Prop := x.value = 0 ∨ Double.small.magnitude ≤ |x.value| ∧ |x.value| < 10 ^ 21

def isNumberUnit (u : UInt16) : Bool := isDigit u || u = 45 || u = 46

theorem isNumberUnit_spec {u : UInt16} (h : isNumberUnit u = true) : isLetter u = false ∧ u ≠ 32 := by
  have hlit : ∀ n : UInt16, u = n ↔ u.toNat = n.toNat := fun n => UInt16.toNat_inj.symm
  simp only [isNumberUnit, isDigit, Bool.or_eq_true, decide_eq_true_eq, hlit, UInt16.reduceToNat] at h
  simp only [isLetter, Bool.or_eq_false_iff, Bool.and_eq_false_iff, decide_eq_false_iff_not, ne_eq, hlit,
    UInt16.reduceToNat]
  omega

/-- **Digits with an optional sign and an optional point** are a number. -/
theorem readNumber_plain (negative : Bool) {whole fraction : JsString} (hne : whole ≠ [])
    (hdigits : ∀ u ∈ whole ++ fraction, isDigit u = true) :
    readNumber ((if negative then [45] else []) ++ (whole ++ if fraction = [] then [] else 46 :: fraction)) =
      some ((if negative then -1 else 1) * ((parseDecimal (whole ++ fraction) : ℚ) / 10 ^ fraction.length)) := by
  obtain ⟨hwhole, hfraction⟩ := List.forall_mem_append.mp hdigits
  obtain ⟨u, tail, rfl⟩ := List.exists_cons_of_ne_nil hne
  have hu : isDigit u = true := hwhole u List.mem_cons_self
  have hsign : ¬ (u = 43 ∨ u = 45) ∧ u ≠ 45 := by
    constructor
    · rintro (rfl | rfl) <;> cases hu
    · rintro rfl
      cases hu
  generalize hbehind : (if fraction = [] then [] else 46 :: fraction : JsString) = behind
  have hpoint : ∀ v ∈ behind.head?, isDigit v = false := by
    rw [← hbehind]
    split
    · nofun
    · rintro v ⟨⟩
      rfl
  have hend : (behind = [] ∨ behind.head? = some 46) ∧ behind.drop 1 = fraction := by
    rw [← hbehind]
    split
    · next hnil => exact ⟨.inl rfl, hnil.symm⟩
    · exact ⟨.inr rfl, rfl⟩
  have hunsigned : unsigned ((if negative then [45] else []) ++ (u :: tail ++ behind)) = u :: tail ++ behind := by
    cases negative with
    | true => rfl
    | false =>
      rw [if_neg (by decide), List.nil_append, List.cons_append, unsigned]
      exact if_neg hsign.1
  have hhead : ((if negative then [45] else []) ++ (u :: tail ++ behind)).head? = some 45 ↔ negative = true := by
    cases negative with
    | true => exact iff_of_true rfl rfl
    | false => exact iff_of_false (fun h => hsign.2 (Option.some.inj h)) nofun
  rw [readNumber, hunsigned, takeWhile_append_of_head hwhole hpoint, dropWhile_append_of_head hwhole hpoint]
  rw [hend.2, if_pos ⟨hend.1, List.all_eq_true.mpr hfraction, List.cons_ne_nil _ _⟩]
  simp only [hhead]

/-- **Digits** are read. -/
theorem readNumber_digits {text : JsString} (hne : text ≠ []) (hdigits : ∀ u ∈ text, isDigit u = true) :
    readNumber text = some (parseDecimal text : ℚ) := by
  have hread := @readNumber_plain false text [] hne (by simpa using hdigits)
  simpa using hread

theorem readNumber_zero : readNumber [48] = some 0 := readNumber_digits (by decide) (by decide)

variable {x : Double}

/-- What the text of a number without exponent says. -/
def spelled (x : Double) : ℚ :=
  if x.significand = 0 then 0 else (if x.negative then -1 else 1) * x.shortest.value

def spelledNumber : JsNumber → ℚ
  | .finite x => spelled x
  | _ => 0

/-- **A number without exponent** is written as a controller reads it. -/
theorem readNumber_text (hplain : Plain x) :
    (∀ u ∈ x.text, isNumberUnit u = true) ∧ readNumber x.text = some (spelled x) := by
  rw [Double.text, spelled]
  by_cases hzero : x.significand = 0
  · rw [if_pos hzero, if_pos hzero]
    exact ⟨by decide, readNumber_zero⟩
  · rw [if_neg hzero, if_neg hzero]
    have hx := Nat.pos_of_ne_zero hzero
    have hsize := hplain.resolve_left fun h => hzero (Double.value_eq_zero_iff.mp h)
    obtain ⟨hlow, hhigh⟩ := (Double.point_iff hx).mpr hsize
    obtain ⟨whole, fraction, hlayout, hne, hdigits, hvalue⟩ := layout_plain (Double.shortest_spec hx).1 hlow hhigh
    dsimp only
    rw [hlayout, readNumber_plain x.negative hne hdigits, hvalue]
    refine ⟨?_, rfl⟩
    have hnumber : ∀ u ∈ whole ++ fraction, isNumberUnit u = true := by
      intro u hu
      rw [isNumberUnit, hdigits u hu]
      rfl
    obtain ⟨hwhole, hfraction⟩ := List.forall_mem_append.mp hnumber
    refine List.forall_mem_append.mpr ⟨?_, List.forall_mem_append.mpr ⟨hwhole, ?_⟩⟩
    · cases x.negative with
      | true => decide
      | false => exact List.forall_mem_nil _
    · split
      · exact List.forall_mem_nil _
      · exact List.forall_mem_cons.mpr ⟨rfl, hfraction⟩

/-- **What is written of a number** denotes it. -/
theorem denotes_spelled (x : Double) : Denotes (spelled x) x := by
  intro y
  rw [spelled]
  by_cases hzero : x.significand = 0
  · rw [if_pos hzero, Double.value_eq_zero_iff.mpr hzero, sub_zero, abs_zero]
    exact abs_nonneg _
  · rw [if_neg hzero]
    have hnear := Double.abs_sub_le (Double.shortest_spec (Nat.pos_of_ne_zero hzero)).2 y
    have hnonneg : 0 ≤ x.shortest.value := by
      rw [Decimal.value]
      positivity
    have hsize : 0 ≤ y.magnitude := Double.abs_value y ▸ abs_nonneg _
    -- a number of the other sign is further away
    have hother : |x.shortest.value - x.magnitude| ≤ |x.shortest.value + y.magnitude| := by
      refine hnear.trans ?_
      rw [abs_of_nonneg (add_nonneg hnonneg hsize), abs_le]
      constructor <;> linarith
    have hflip : ∀ a b : ℚ, |-1 * a - b| = |a + b| := by
      intro a b
      rw [← abs_neg]
      congr 1
      ring
    rw [Double.value, Double.value]
    cases x.negative with
    | false =>
      cases y.negative with
      | false => simpa using hnear
      | true => simpa using hother
    | true =>
      rw [if_pos rfl, if_pos rfl, hflip, hflip]
      cases y.negative with
      | false => simpa [← sub_eq_add_neg] using hother
      | true => simpa [← sub_eq_add_neg] using hnear

/-- **A number with an exponent** has a letter in it. -/
theorem mem_text_of_not_plain (h : ¬ Plain x) : 101 ∈ x.text := by
  rw [Plain, not_or] at h
  have hzero : x.significand ≠ 0 := fun hsig => h.1 (Double.value_eq_zero_iff.mpr hsig)
  have hx := Nat.pos_of_ne_zero hzero
  obtain ⟨front, back, hlayout⟩ := layout_exponent (Double.fixedDigits_ne_nil hx) (mt (Double.point_iff hx).mp h.2)
  rw [Double.text, if_neg hzero]
  dsimp only
  rw [hlayout]
  simp

/-! ## Motions -/

theorem isFinite_text (n : JsNumber) : isFinite n.text = true ↔ ∃ x, n = .finite x := by
  cases n with
  | nan => exact iff_of_false (by decide) nofun
  | infinity negative =>
    refine iff_of_false ?_ nofun
    cases negative <;> decide
  | finite x =>
    refine iff_of_true ?_ ⟨x, rfl⟩
    rw [isFinite, decide_eq_true_eq, JsNumber.text]
    by_cases hpositive : x.negative = false ∨ x.significand = 0
    · obtain ⟨u, hhead, hu⟩ := Double.isDigit_head?_text hpositive
      have hother : ∀ text : JsString, (∀ v ∈ text.head?, isDigit v = false) → x.text ≠ text := by
        rintro text hfirst rfl
        rw [hfirst u hhead] at hu
        cases hu
      exact ⟨hother _ (by decide), hother _ (by decide), hother _ (by decide)⟩
    · rw [not_or] at hpositive
      obtain ⟨u, rest, htext, hu⟩ := Double.text_of_negative (by simpa using hpositive.1) hpositive.2
      rw [htext]
      refine ⟨nofun, nofun, fun h => ?_⟩
      obtain rfl := (List.cons.inj (List.cons.inj h).2).1
      cases hu

theorem isNonPositive_text (x : Double) : isNonPositive x.text = true ↔ x.value ≤ 0 := by
  rw [isNonPositive, decide_eq_true_eq]
  by_cases hzero : x.significand = 0
  · rw [Double.value_eq_zero_iff.mpr hzero, Double.text, if_pos hzero]
    exact iff_of_true (.inl rfl) le_rfl
  · have hsize : 0 < x.magnitude := by
      rw [← Double.abs_value, abs_pos, Ne, Double.value_eq_zero_iff]
      exact hzero
    cases hnegative : x.negative with
    | true =>
      obtain ⟨u, rest, htext, -⟩ := Double.text_of_negative hnegative hzero
      rw [htext, Double.value, if_pos hnegative]
      exact iff_of_true (.inr rfl) (by linarith)
    | false =>
      obtain ⟨u, hhead, hu⟩ := Double.isDigit_head?_text (.inl hnegative)
      rw [Double.value, if_neg (by rw [hnegative]; decide)]
      refine iff_of_false ?_ (not_le.mpr hsize)
      rintro (htext | hminus)
      · -- the text of zero is read as zero
        by_cases hplain : Plain x
        · have hread := (readNumber_text hplain).2
          rw [htext, spelled, if_neg hzero, if_neg (by rw [hnegative]; decide), one_mul] at hread
          have hvalue := Option.some.inj (readNumber_zero.symm.trans hread)
          exact (Double.shortest_value_pos (Nat.pos_of_ne_zero hzero)).ne hvalue
        · have hletter := mem_text_of_not_plain hplain
          rw [htext] at hletter
          revert hletter
          decide
      · rw [Option.mem_def.mp hhead] at hminus
        obtain rfl := Option.some.inj hminus
        cases hu

structure Target where
  x : Option JsNumber := none
  y : Option JsNumber := none
  z : Option JsNumber := none

namespace Target

def texts (t : Target) : GrblPosition := ⟨t.x.map JsNumber.text, t.y.map JsNumber.text, t.z.map JsNumber.text⟩

def axes (t : Target) : List (JsString × UInt16 × Option JsNumber) :=
  [(js "x", 88, t.x), (js "y", 89, t.y), (js "z", 90, t.z)]

end Target

def given : List (JsString × UInt16 × Option JsNumber) → List (UInt16 × JsNumber)
  | [] => []
  | (_, _, none) :: axes => given axes
  | (_, letter, some number) :: axes => (letter, number) :: given axes

/-- A call that moves the machine: `feedMove` when there is a feed rate, `rapidMove` otherwise. -/
structure Motion where
  position : Target
  feedMmPerMin : Option JsNumber := none

namespace Motion

def call (m : Motion) : GrblCall :=
  match m.feedMmPerMin with
  | none => .rapidMove m.position.texts
  | some feed => .feedMove m.position.texts feed.text

/-- The numbers of a call, with the letters of their words. -/
def numbers (m : Motion) : List (UInt16 × JsNumber) := given m.position.axes ++ m.feedMmPerMin.toList.map (70, ·)

/-- `G0` or `G1`. -/
def code (m : Motion) : JsString := if m.feedMmPerMin.isSome then js "1" else js "0"

def words (m : Motion) : List (UInt16 × JsString) :=
  [js "21", js "90", js "94", m.code].map ((71 : UInt16), ·) ++ m.numbers.map fun word => (word.1, word.2.text)

/-- Whether a call is accepted: some axis is given, each number is finite and the feed rate is positive. -/
def Accepted (m : Motion) : Prop :=
  given m.position.axes ≠ [] ∧ (∀ word ∈ m.numbers, ∃ x, word.2 = .finite x) ∧
    ∀ x, m.feedMmPerMin = some (.finite x) → 0 < x.value

end Motion

/-- **The loop over the axes** returns the words of those that are given, when their numbers are finite. -/
theorem buildAxes_eq_ok_iff {axes : List (JsString × UInt16 × Option JsNumber)} {texts : List JsString} :
    buildAxes (axes.map fun axis => (axis.1, [axis.2.1], axis.2.2.map JsNumber.text)) = .ok texts ↔
      (∀ word ∈ given axes, ∃ x, word.2 = .finite x) ∧ texts = (given axes).map fun word => word.1 :: word.2.text := by
  induction axes generalizing texts with
  | nil =>
    rw [List.map_nil, buildAxes, Except.ok.injEq, given, List.map_nil, eq_comm]
    exact ⟨fun h => ⟨List.forall_mem_nil _, h⟩, fun h => h.2⟩
  | cons axis axes ih =>
    obtain ⟨axis, letter, number⟩ := axis
    cases number with
    | none => exact ih
    | some number =>
      rw [List.map_cons, Option.map_some, buildAxes, given, List.forall_mem_cons, List.map_cons, ← isFinite_text]
      split
      · next hfinite =>
        rw [map_eq_ok_iff]
        simp only [ih, hfinite, true_and, List.singleton_append]
        constructor
        · rintro ⟨rest, ⟨hnumbers, rfl⟩, rfl⟩
          exact ⟨hnumbers, rfl⟩
        · rintro ⟨hnumbers, rfl⟩
          exact ⟨_, ⟨hnumbers, rfl⟩, rfl⟩
      · next hinfinite => exact iff_of_false (by rintro ⟨⟩) fun h => hinfinite h.1.1

/-- **A move** is built of the words of the axes that are given. -/
theorem buildMove_eq_ok_iff {code : JsString} {position : Target} {move : JsString} :
    buildMove code position.texts = .ok move ↔
      (given position.axes ≠ [] ∧ ∀ word ∈ given position.axes, ∃ x, word.2 = .finite x) ∧
        move =
          js "G21 G90 G94 " ++ (code ++ (given position.axes).flatMap fun word => 32 :: word.1 :: word.2.text) := by
  have haxes : [(js "x", js "X", position.texts.x), (js "y", js "Y", position.texts.y),
      (js "z", js "Z", position.texts.z)] =
      position.axes.map fun axis => (axis.1, [axis.2.1], axis.2.2.map JsNumber.text) := rfl
  rw [buildMove, haxes]
  cases hbuild : buildAxes (position.axes.map fun axis => (axis.1, [axis.2.1], axis.2.2.map JsNumber.text)) with
  | error e =>
    refine iff_of_false (by rintro ⟨⟩) fun h => ?_
    rw [buildAxes_eq_ok_iff.mpr ⟨h.1.2, rfl⟩] at hbuild
    cases hbuild
  | ok texts =>
    obtain ⟨hfinite, rfl⟩ := buildAxes_eq_ok_iff.mp hbuild
    cases hgiven : given position.axes with
    | nil => exact iff_of_false (by rintro ⟨⟩) fun h => h.1.1 rfl
    | cons word rest =>
      rw [hgiven] at hfinite
      have hmove : js "G21 G90 G94 " ++ code ++ js " " ++ (word.1 :: word.2.text) ++
          (rest.map fun word => word.1 :: word.2.text).flatMap (js " " ++ ·) =
            js "G21 G90 G94 " ++ (code ++ (word :: rest).flatMap fun word => 32 :: word.1 :: word.2.text) := by
        rw [List.flatMap_map, List.flatMap_cons, List.append_assoc, List.append_assoc, List.append_assoc]
        rfl
      rw [List.map_cons]
      dsimp only
      rw [hmove, Except.ok.injEq, eq_comm]
      exact ⟨fun h => ⟨⟨List.cons_ne_nil _ _, hfinite⟩, h⟩, fun h => h.2⟩

namespace Motion

variable {m : Motion}

def line (m : Motion) : JsString := (m.words.flatMap spaced).drop 1

theorem blank_line (m : Motion) : 32 :: m.line = m.words.flatMap spaced := rfl

theorem line_eq (m : Motion) : m.line = js "G21 G90 G94 G" ++ (m.code ++
    m.numbers.flatMap fun word => 32 :: word.1 :: word.2.text) := by
  have hfixed : ([js "21", js "90", js "94", m.code].map ((71 : UInt16), ·)).flatMap spaced =
      32 :: (js "G21 G90 G94 G" ++ m.code) := by
    simp only [List.map_cons, List.map_nil, List.flatMap_cons, List.flatMap_nil, spaced, List.append_nil]
    rfl
  rw [line, words, List.flatMap_append, hfixed, List.flatMap_map, List.cons_append, List.drop_succ_cons, List.drop_zero,
    List.append_assoc]
  rfl

/-- **What is written** when a call is accepted. -/
theorem text_eq_ok_iff {text : JsString} : m.call.text = .ok text ↔ m.Accepted ∧ text = m.line ++ [10] := by
  rw [line_eq]
  obtain ⟨position, feed⟩ := m
  cases feed with
  | none =>
    change (buildMove (js "G0") position.texts).map (· ++ js "\n") = .ok text ↔ _
    have hnumbers : numbers ⟨position, none⟩ = given position.axes := List.append_nil _
    rw [map_eq_ok_iff, Accepted, hnumbers]
    simp only [buildMove_eq_ok_iff]
    constructor
    · rintro ⟨move, ⟨⟨hne, hfinite⟩, rfl⟩, rfl⟩
      exact ⟨⟨hne, hfinite, by rintro _ ⟨⟩⟩, rfl⟩
    · rintro ⟨⟨hne, hfinite, -⟩, rfl⟩
      exact ⟨_, ⟨⟨hne, hfinite⟩, rfl⟩, rfl⟩
  | some feed =>
    have hnumbers : numbers ⟨position, some feed⟩ = given position.axes ++ [(70, feed)] := rfl
    rw [Accepted, hnumbers, List.forall_mem_append, List.forall_mem_singleton]
    have hfeed : (∃ x, feed = .finite x) ∧ (∀ x, some feed = some (.finite x) → 0 < x.value) ↔
        ¬ (¬ isFinite feed.text = true ∨ isNonPositive feed.text = true) := by
      rw [not_or, not_not, isFinite_text]
      refine and_congr_right ?_
      rintro ⟨x, rfl⟩
      rw [JsNumber.text, isNonPositive_text, not_le]
      exact ⟨fun h => h x rfl, by rintro h _ ⟨⟩; exact h⟩
    change GrblCall.text (.feedMove position.texts feed.text) = .ok text ↔ _
    rw [GrblCall.text]
    split
    · next hrefused => exact iff_of_false (by rintro ⟨⟩) fun h => (hfeed.mp ⟨h.1.2.1.2, h.1.2.2⟩) hrefused
    · next haccepted =>
      obtain ⟨hfinite, hpositive⟩ := hfeed.mpr haccepted
      have hline : ∀ axes : JsString, js "G21 G90 G94 " ++ (js "G1" ++ axes) ++ js " F" ++ feed.text ++ js "\n" =
          js "G21 G90 G94 G" ++ (js "1" ++ (axes ++ spaced (70, feed.text))) ++ [10] := by
        intro axes
        simp only [List.append_assoc]
        rfl
      rw [map_eq_ok_iff, List.flatMap_append, List.flatMap_singleton]
      simp only [buildMove_eq_ok_iff]
      constructor
      · rintro ⟨move, ⟨⟨hne, haxes⟩, rfl⟩, rfl⟩
        exact ⟨⟨hne, ⟨haxes, hfinite⟩, hpositive⟩, hline _⟩
      · rintro ⟨⟨hne, ⟨haxes, -⟩, -⟩, rfl⟩
        exact ⟨_, ⟨⟨hne, haxes⟩, rfl⟩, hline _⟩

/-- What a controller should read of a line: millimeters, absolute positions and feed per minute, the kind of the move,
and each number that was given, in order. -/
def Reads (m : Motion) (line : JsString) : Prop :=
  ∃ values, readLine line =
      some ([(71, 21), (71, 90), (71, 94), (71, if m.feedMmPerMin.isSome then 1 else 0)] ++ values) ∧
    List.Forall₂ (fun word value => word.1 = value.1 ∧ ∃ x, word.2 = .finite x ∧ Denotes value.2 x) m.numbers values

theorem isLetter_of_mem_words : ∀ word ∈ m.words, isLetter word.1 = true := by
  have hgiven : ∀ axes : List (JsString × UInt16 × Option JsNumber), (∀ axis ∈ axes, isLetter axis.2.1 = true) →
      ∀ word ∈ given axes, isLetter word.1 = true := by
    intro axes haxes
    induction axes with
    | nil => nofun
    | cons axis axes ih =>
      obtain ⟨axis, letter, number⟩ := axis
      obtain ⟨hletter, hrest⟩ := List.forall_mem_cons.mp haxes
      cases number with
      | none => exact ih hrest
      | some number => exact List.forall_mem_cons.mpr ⟨hletter, ih hrest⟩
  have hnumbers : ∀ word ∈ m.numbers, isLetter word.1 = true := by
    refine List.forall_mem_append.mpr ⟨hgiven _ ?_, ?_⟩
    · intro axis haxis
      simp only [Target.axes, List.mem_cons, List.not_mem_nil, or_false] at haxis
      rcases haxis with rfl | rfl | rfl <;> rfl
    · intro word hword
      obtain ⟨number, -, rfl⟩ := List.mem_map.mp hword
      rfl
  refine List.forall_mem_append.mpr ⟨by simp [isLetter], fun word hword => ?_⟩
  obtain ⟨number, hmem, rfl⟩ := List.mem_map.mp hword
  exact hnumbers number hmem

theorem cut_line (m : Motion) : cut m.line = cut (m.words.flatMap spaced) := by
  rw [← cut_blank, blank_line]

/-- **A line without exponents** is read as the call was meant. -/
theorem reads_of_plain (hfinite : ∀ word ∈ m.numbers, ∃ x, word.2 = .finite x)
    (hplain : ∀ word ∈ m.numbers, ∀ x, word.2 = .finite x → Plain x) : m.Reads m.line := by
  have hspelled : ∀ word ∈ m.numbers, ∃ x, word.2 = .finite x ∧ (∀ u ∈ word.2.text, isNumberUnit u = true) ∧
      readNumber word.2.text = some (spelledNumber word.2) := by
    intro word hword
    obtain ⟨x, hx⟩ := hfinite word hword
    rw [hx]
    exact ⟨x, rfl, readNumber_text (hplain word hword x hx)⟩
  have hfixed : ∀ text ∈ [js "21", js "90", js "94", m.code], text ≠ [] ∧ ∀ u ∈ text, isDigit u = true := by
    rw [code]
    cases m.feedMmPerMin.isSome <;> decide
  have hwords : ∀ word ∈ m.words, IsWord word := by
    intro word hword
    refine ⟨isLetter_of_mem_words word hword, fun u hu => isNumberUnit_spec ?_⟩
    rcases List.mem_append.mp hword with hmem | hmem
    · obtain ⟨text, htext, rfl⟩ := List.mem_map.mp hmem
      rw [isNumberUnit, (hfixed text htext).2 u hu]
      rfl
    · obtain ⟨number, hnumber, rfl⟩ := List.mem_map.mp hmem
      obtain ⟨x, -, hunits, -⟩ := hspelled number hnumber
      exact hunits u hu
  refine ⟨m.numbers.map fun word => (word.1, spelledNumber word.2), ?_, ?_⟩
  · rw [readLine, cut_line, cut_spaced hwords, if_pos rfl, readWords_eq_some_iff]
    refine List.rel_append ?_ ?_
    · have hread : ∀ text ∈ [js "21", js "90", js "94", m.code], readNumber text = some (parseDecimal text : ℚ) :=
        fun text htext => readNumber_digits (hfixed text htext).1 (hfixed text htext).2
      simp only [List.forall_mem_cons] at hread
      obtain ⟨h21, h90, h94, hcode, -⟩ := hread
      refine .cons ⟨rfl, h21⟩ (.cons ⟨rfl, h90⟩ (.cons ⟨rfl, h94⟩ (.cons ⟨rfl, hcode.trans ?_⟩ .nil)))
      rw [code]
      cases m.feedMmPerMin.isSome with
      | true => exact congrArg some Nat.cast_one
      | false => exact congrArg some Nat.cast_zero
    · rw [List.forall₂_map_left_iff, List.forall₂_map_right_iff, List.forall₂_same]
      intro word hword
      obtain ⟨x, -, -, hread⟩ := hspelled word hword
      exact ⟨rfl, hread⟩
  · rw [List.forall₂_map_right_iff, List.forall₂_same]
    intro word hword
    obtain ⟨x, hx⟩ := hfinite word hword
    refine ⟨rfl, x, hx, ?_⟩
    rw [hx]
    exact denotes_spelled x

/-- **A line with an exponent** has one letter too many. -/
theorem plain_of_reads (h : m.Reads m.line) : ∀ word ∈ m.numbers, ∀ x, word.2 = .finite x → Plain x := by
  obtain ⟨values, hread, hvalues⟩ := h
  have hletters := congrArg List.length (map_fst_readLine hread)
  have hline : m.line.filter isLetter = (m.words.flatMap spaced).filter isLetter := by
    rw [← blank_line, List.filter_cons_of_neg (by decide)]
  have hlength : m.words.length = 4 + m.numbers.length := by
    rw [words, List.length_append, List.length_map, List.length_map]
    rfl
  have hno := (length_letters isLetter_of_mem_words).2 (by
    rw [← hline, ← hletters, hlength, List.length_map, List.length_append, hvalues.length_eq]
    rfl)
  rintro word hword x hx
  by_contra hnot
  have hletter := hno (word.1, word.2.text) (List.mem_append_right _ (List.mem_map_of_mem hword)) 101
    (by rw [hx]; exact mem_text_of_not_plain hnot)
  cases hletter

/-- **The words of a motion command** are plain decimal numbers that denote the accepted numbers exactly when each of
these is zero or neither too small nor too large. -/
theorem reads_iff {line : JsString} (h : m.call.text = .ok (line ++ [10])) :
    m.Reads line ↔ ∀ word ∈ m.numbers, ∀ x, word.2 = .finite x → Plain x := by
  obtain ⟨⟨-, hfinite, -⟩, hline⟩ := text_eq_ok_iff.mp h
  rw [List.append_cancel_right hline]
  exact ⟨plain_of_reads, reads_of_plain hfinite⟩

theorem text_single (x : Double) : (⟨{ x := some (.finite x) }, none⟩ : Motion).call.text =
    .ok (js "G21 G90 G94 G0 X" ++ x.text ++ [10]) := by
  have haccepted : (⟨{ x := some (.finite x) }, none⟩ : Motion).Accepted :=
    ⟨List.cons_ne_nil _ _, List.forall_mem_singleton.mpr ⟨x, rfl⟩, nofun⟩
  refine text_eq_ok_iff.mpr ⟨haccepted, ?_⟩
  rw [line_eq]
  change _ = js "G21 G90 G94 G" ++ (js "0" ++ (32 :: 88 :: x.text ++ [])) ++ [10]
  rw [List.append_nil]
  rfl

/-- One axis at one and a half millimeters. -/
theorem reads_iff_half :
    (⟨{ x := some (.finite ⟨false, 3 * 2 ^ 51, 1022, by decide, by decide, by decide⟩) }, none⟩ : Motion).Reads
      (js "G21 G90 G94 G0 X1.5") := by
  let x : Double := ⟨false, 3 * 2 ^ 51, 1022, by decide, by decide, by decide⟩
  have htext : x.text = js "1.5" := by decide +kernel
  have hwritten := text_single x
  rw [htext] at hwritten
  refine (@reads_iff ⟨{ x := some (.finite x) }, none⟩ (js "G21 G90 G94 G0 X1.5") hwritten).mpr
    (List.forall_mem_singleton.mpr ?_)
  rintro _ ⟨⟩
  exact .inr ((Double.point_iff (by decide)).mp ⟨by decide +kernel, by decide +kernel⟩)

/-- The tenth of a nanometer that is accepted is written with an exponent, and read as a whole millimeter and a word
of its own. -/
theorem not_reads_exponent :

    (⟨{ x := some (.finite ⟨false, 7555786372591432, 998, by decide, by decide, by decide⟩) }, none⟩ : Motion).call.text =
        .ok (js "G21 G90 G94 G0 X1e-7" ++ [10]) ∧
      readLine (js "G21 G90 G94 G0 X1e-7") = some [(71, 21), (71, 90), (71, 94), (71, 0), (88, 1), (101, -7)] ∧
        ¬
          (⟨{ x := some (.finite ⟨false, 7555786372591432, 998, by decide, by decide, by decide⟩) }, none⟩ : Motion).Reads
          (js "G21 G90 G94 G0 X1e-7") := by
  let x : Double := ⟨false, 7555786372591432, 998, by decide, by decide, by decide⟩
  have htext : x.text = js "1e-7" := by decide +kernel
  have hwritten := text_single x
  rw [htext] at hwritten
  have hread : readLine (js "G21 G90 G94 G0 X1e-7") =
      some [(71, 21), (71, 90), (71, 94), (71, 0), (88, 1), (101, -7)] := by
    decide +kernel
  refine ⟨hwritten, hread, ?_⟩
  rintro ⟨values, hvalues, hnumbers⟩
  rw [hread] at hvalues
  have hlength := congrArg List.length (Option.some.inj hvalues)
  have hone : 1 = values.length := hnumbers.length_eq
  rw [List.length_append, ← hone] at hlength
  cases hlength

end Motion

end Pinout.Grbl
