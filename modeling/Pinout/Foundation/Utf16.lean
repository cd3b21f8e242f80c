import Mathlib.Data.List.Basic
import Mathlib.Tactic.IntervalCases

/-! # UTF-16 strings, decimals and JSON quoting

Strings as JavaScript has them: sequences of 16-bit code units, lone surrogates included. Two
textual encodings are developed with their inverses: the decimal digits of a natural number
(`parseDecimal_decimal`) and the JSON quotation of a string, which is injective and delimits itself
(`quote_append_inj`). -/

namespace Pinout.Foundation

abbrev JsString : Type := List UInt16

instance instLawfulBEqJsString : LawfulBEq JsString := inferInstance

/-- The code units of one character: itself, or its surrogate pair. -/
def utf16 (c : Char) : JsString :=
  if c.toNat < 0x10000 then [c.toNat.toUInt16]
  else [(0xD800 + (c.toNat - 0x10000) / 0x400).toUInt16,
    (0xDC00 + (c.toNat - 0x10000) % 0x400).toUInt16]

def js (s : String) : JsString := s.toList.flatMap utf16

theorem js_ofList (l : List Char) : js (String.ofList l) = l.flatMap utf16 := by
  rw [js, String.toList_ofList]

-- What holds of each unit of a text is decided along the text, not over all the units there are.
instance (s : JsString) (p : UInt16 → Prop) [DecidablePred p] : Decidable (∀ u ∈ s, p u) := List.decidableBAll p s

instance decidableForallMemUnit (u : Option UInt16) (p : UInt16 → Prop) [DecidablePred p] : Decidable (∀ v ∈ u, p v) :=
  Option.decidableForallMem u

/-! ## Letters -/

/-- `[A-Za-z]`. -/
def isLetter (u : UInt16) : Bool :=
  (65 ≤ u.toNat && u.toNat ≤ 90) || (97 ≤ u.toNat && u.toNat ≤ 122)

/-- A character in upper case, as far as that is a letter of the basic alphabet; the others do not
count where this is used. -/
def upperUnit (u : UInt16) : JsString :=
  if 97 ≤ u.toNat ∧ u.toNat ≤ 122 then [u - 32]
  else match u.toNat with
    | 0x00DF => js "SS"
    | 0x0131 => js "I"
    | 0x017F => js "S"
    | 0xFB00 => js "FF"
    | 0xFB01 => js "FI"
    | 0xFB02 => js "FL"
    | 0xFB03 => js "FFI"
    | 0xFB04 => js "FFL"
    | 0xFB05 | 0xFB06 => js "ST"
    | _ => [u]

/-- `toUpperCase`. -/
def upperCase (text : JsString) : JsString := text.flatMap upperUnit

/-- A letter as the flag `i` compares it. -/
def foldUnit (u : UInt16) : UInt16 := if 65 ≤ u ∧ u ≤ 90 then u + 32 else u

/-- Whether a text starts with a literal, up to case. -/
def startsWith (text literal : JsString) : Bool := literal.isPrefixOf (text.map foldUnit)

/-- Whether a literal of a list is found somewhere in a text, up to case. -/
def mentions (literals : List JsString) (text : JsString) : Bool :=
  text.tails.any fun rest => literals.any fun literal => startsWith rest literal

/-! ## Decimal digits -/

/-- A code unit `0`–`9`. -/
def isDigit (u : UInt16) : Bool := 48 ≤ u.toNat ∧ u.toNat ≤ 57

def decimal (n : Nat) : JsString := (Nat.toDigits 10 n).map fun c => c.toNat.toUInt16

/-- The number a string of decimal digits denotes. -/
def parseDecimal (l : JsString) : Nat := l.foldl (fun acc u => 10 * acc + (u.toNat - 48)) 0

theorem toNat_digit_unit {c : Char} (h : c.isDigit = true) : c.toNat.toUInt16.toNat = c.toNat := by
  have hle : c.toNat ≤ 57 := by
    simp only [Char.isDigit, Bool.and_eq_true, decide_eq_true_eq] at h
    exact h.2
  rw [Nat.toUInt16, UInt16.toNat_ofNat']
  exact Nat.mod_eq_of_lt (by omega)

theorem isDigit_of_mem_decimal {n : Nat} {u : UInt16} (h : u ∈ decimal n) : isDigit u = true := by
  obtain ⟨c, hc, rfl⟩ := List.mem_map.mp h
  have hdigit : c.isDigit = true := Nat.isDigit_of_mem_toDigits (by decide) (by decide) hc
  have hcode := toNat_digit_unit hdigit
  simp only [Char.isDigit, Bool.and_eq_true, decide_eq_true_eq] at hdigit
  simp only [isDigit, hcode, decide_eq_true_eq]
  exact hdigit

/-- Reading digit characters and reading their code units agree. -/
theorem foldl_digits {l : List Char} (h : ∀ c ∈ l, c.isDigit = true) (acc : Nat) :
    (l.map fun c => c.toNat.toUInt16).foldl (fun acc u => 10 * acc + (u.toNat - 48)) acc =
      Nat.ofDigitChars 10 l acc := by
  induction l generalizing acc with
  | nil => rw [Nat.ofDigitChars_nil]; rfl
  | cons c l ih =>
    rw [List.map_cons, List.foldl_cons, Nat.ofDigitChars_cons,
      ih (fun d hd => h d (List.mem_cons_of_mem c hd)),
      toNat_digit_unit (h c List.mem_cons_self)]
    rfl

@[simp] theorem parseDecimal_decimal (n : Nat) : parseDecimal (decimal n) = n := by
  rw [parseDecimal, decimal, foldl_digits fun c hc =>
    Nat.isDigit_of_mem_toDigits (by decide) (by decide) hc]
  exact Nat.ofDigitChars_ten_toDigits

theorem decimal_ne_nil (n : Nat) : decimal n ≠ [] := by
  simp [decimal, Nat.toDigits_ne_nil]

/-- A decimal text ends where the digits do, so it can be told from what follows it. -/
theorem decimal_append_inj {n m : Nat} {u v : UInt16} {r r' : JsString} (hu : isDigit u = false)
    (hv : isDigit v = false) (h : decimal n ++ u :: r = decimal m ++ v :: r') : n = m := by
  have htake : ∀ (k : Nat) (w : UInt16) (l : JsString), isDigit w = false →
      (decimal k ++ w :: l).takeWhile isDigit = decimal k := by
    intro k w l hw
    rw [List.takeWhile_append_of_pos fun x hx => isDigit_of_mem_decimal hx,
      List.takeWhile_cons_of_neg (by simp [hw]), List.append_nil]
  have hdigits : decimal n = decimal m := by
    rw [← htake n u r hu, h, htake m v r' hv]
  rw [← parseDecimal_decimal n, hdigits, parseDecimal_decimal]

/-! ## JSON quotation

A string is quoted unit by unit. A code unit that JSON must escape becomes an escape sequence, a
surrogate pair is kept, and a lone surrogate becomes a `\u` escape, as `JSON.stringify` does. -/

/-- The hexadecimal digit (lower case) of a number below sixteen. -/
def hexDigit (n : Nat) : UInt16 := if n < 10 then (48 + n).toUInt16 else (87 + n).toUInt16

/-- The value of a lower-case hexadecimal digit. -/
def hexValue (u : UInt16) : Nat := if u.toNat < 58 then u.toNat - 48 else u.toNat - 87

/-- The `\uXXXX` escape of a code unit. -/
def unicodeEscape (u : UInt16) : JsString :=
  [92, 117, hexDigit (u.toNat / 4096), hexDigit (u.toNat / 256 % 16),
    hexDigit (u.toNat / 16 % 16), hexDigit (u.toNat % 16)]

def isLead (u : UInt16) : Bool := 0xD800 ≤ u.toNat ∧ u.toNat ≤ 0xDBFF

def isTrail (u : UInt16) : Bool := 0xDC00 ≤ u.toNat ∧ u.toNat ≤ 0xDFFF

/-- The quotation of a code unit that is not part of a surrogate pair. -/
def quoteUnit (u : UInt16) : JsString :=
  if isLead u || isTrail u then unicodeEscape u
  else if u = 34 then [92, 34]
  else if u = 92 then [92, 92]
  else if u = 8 then [92, 98]
  else if u = 12 then [92, 102]
  else if u = 10 then [92, 110]
  else if u = 13 then [92, 114]
  else if u = 9 then [92, 116]
  else if u.toNat < 32 then unicodeEscape u
  else [u]

/-- The quotations of the code units of a string, one for each. -/
def quoteUnits : JsString → List JsString
  | [] => []
  | [u] => [quoteUnit u]
  | u :: v :: rest =>
    if isLead u && isTrail v then [u] :: [v] :: quoteUnits rest
    else quoteUnit u :: quoteUnits (v :: rest)

def quote (s : JsString) : JsString := 34 :: (quoteUnits s).flatten ++ [34]

def unescape (u : UInt16) : UInt16 :=
  if u = 98 then 8 else if u = 102 then 12 else if u = 110 then 10
  else if u = 114 then 13 else if u = 116 then 9 else u

/-- Read one quoted code unit; `none` at the closing quotation mark. -/
def readUnit : JsString → Option (UInt16 × JsString)
  | [] => none
  | u :: rest =>
    if u = 34 then none
    else if u = 92 then
      match rest with
      | [] => none
      | e :: rest' =>
        if e = 117 then
          match rest' with
          | a :: b :: c :: d :: rest'' =>
            some ((hexValue a * 4096 + hexValue b * 256 + hexValue c * 16 + hexValue d).toUInt16,
              rest'')
          | _ => none
        else some (unescape e, rest')
    else some (u, rest)

/-- `e` is a quotation of the code unit `u`: it is read back as `u`, whatever follows it. -/
def Quotes (e : JsString) (u : UInt16) : Prop := ∀ r, readUnit (e ++ r) = some (u, r)

theorem hexValue_hexDigit {n : Nat} (h : n < 16) : hexValue (hexDigit n) = n := by
  interval_cases n <;> rfl

theorem quotes_unicodeEscape (u : UInt16) : Quotes (unicodeEscape u) u := by
  intro r
  have hu : u.toNat < 65536 := u.toNat_lt
  have hsum : hexValue (hexDigit (u.toNat / 4096)) * 4096 +
      hexValue (hexDigit (u.toNat / 256 % 16)) * 256 +
      hexValue (hexDigit (u.toNat / 16 % 16)) * 16 + hexValue (hexDigit (u.toNat % 16)) =
      u.toNat := by
    rw [hexValue_hexDigit (by omega), hexValue_hexDigit (Nat.mod_lt _ (by omega)),
      hexValue_hexDigit (Nat.mod_lt _ (by omega)), hexValue_hexDigit (Nat.mod_lt _ (by omega))]
    omega
  have hback : u.toNat.toUInt16 = u := by simp [Nat.toUInt16]
  have hread : readUnit (unicodeEscape u ++ r) = some (UInt16.ofNat
      (hexValue (hexDigit (u.toNat / 4096)) * 4096 +
      hexValue (hexDigit (u.toNat / 256 % 16)) * 256 +
      hexValue (hexDigit (u.toNat / 16 % 16)) * 16 + hexValue (hexDigit (u.toNat % 16))), r) := rfl
  rw [hread, hsum]
  exact congrArg (fun v => some (v, r)) hback

/-- A code unit that is neither a quotation mark nor a backslash quotes itself. -/
theorem quotes_self {u : UInt16} (hq : u ≠ 34) (hb : u ≠ 92) : Quotes [u] u := by
  intro r
  simp only [List.singleton_append, readUnit]
  rw [if_neg hq, if_neg hb]

theorem quotes_quoteUnit (u : UInt16) : Quotes (quoteUnit u) u := by
  unfold quoteUnit
  split
  · exact quotes_unicodeEscape u
  split
  · next h => subst h; intro r; rfl
  split
  · next h => subst h; intro r; rfl
  split
  · next h => subst h; intro r; rfl
  split
  · next h => subst h; intro r; rfl
  split
  · next h => subst h; intro r; rfl
  split
  · next h => subst h; intro r; rfl
  split
  · next h => subst h; intro r; rfl
  split
  · exact quotes_unicodeEscape u
  · exact quotes_self ‹_› ‹_›

/-- A surrogate is neither a quotation mark nor a backslash. -/
theorem quotes_surrogate {u : UInt16} (h : isLead u = true ∨ isTrail u = true) : Quotes [u] u := by
  refine quotes_self ?_ ?_ <;> rintro rfl <;> revert h <;> decide

/-- Every code unit of a string is quoted by its place in `quoteUnits`. -/
theorem forall₂_quoteUnits (s : JsString) : List.Forall₂ Quotes (quoteUnits s) s := by
  induction s using quoteUnits.induct with
  | case1 => exact List.Forall₂.nil
  | case2 u => exact List.Forall₂.cons (quotes_quoteUnit u) List.Forall₂.nil
  | case3 u v rest h ih =>
    rw [quoteUnits, if_pos h]
    simp only [Bool.and_eq_true] at h
    exact List.Forall₂.cons (quotes_surrogate (Or.inl h.1))
      (List.Forall₂.cons (quotes_surrogate (Or.inr h.2)) ih)
  | case4 u v rest h ih =>
    rw [quoteUnits, if_neg h]
    exact List.Forall₂.cons (quotes_quoteUnit u) ih

/-- Two quoted unit sequences that spell the same text up to their closing marks quote the same
string, and the same text follows them. -/
theorem forall₂_quotes_inj {es es' : List JsString} {s s' r r' : JsString}
    (h : List.Forall₂ Quotes es s) (h' : List.Forall₂ Quotes es' s')
    (heq : es.flatten ++ 34 :: r = es'.flatten ++ 34 :: r') : s = s' ∧ r = r' := by
  induction h generalizing es' s' with
  | nil =>
    cases h' with
    | nil => exact ⟨rfl, by simpa using heq⟩
    | @cons _ _ fs _ hq' _ =>
      rw [List.flatten_cons, List.append_assoc] at heq
      have hread := hq' (fs.flatten ++ 34 :: r')
      rw [← heq] at hread
      simp [readUnit] at hread
  | @cons _ _ fs _ hq _ ih =>
    cases h' with
    | nil =>
      rw [List.flatten_cons, List.append_assoc] at heq
      have hread := hq (fs.flatten ++ 34 :: r)
      rw [heq] at hread
      simp [readUnit] at hread
    | cons hq' htail' =>
      rw [List.flatten_cons, List.flatten_cons, List.append_assoc, List.append_assoc] at heq
      have hread := hq (fs.flatten ++ 34 :: r)
      rw [heq, hq'] at hread
      obtain ⟨rfl, hrest⟩ := Prod.mk.inj (Option.some.inj hread)
      obtain ⟨rfl, rfl⟩ := ih htail' hrest.symm
      exact ⟨rfl, rfl⟩

/-- **JSON quotation is injective and delimits itself**: equal texts that start with a quoted string
start with the same one, and go on equally. -/
theorem quote_append_inj {s s' r r' : JsString} (h : quote s ++ r = quote s' ++ r') :
    s = s' ∧ r = r' := by
  simp only [quote, List.cons_append, List.append_assoc, List.nil_append, List.cons.injEq,
    true_and] at h
  exact forall₂_quotes_inj (forall₂_quoteUnits s) (forall₂_quoteUnits s') h

end Pinout.Foundation
