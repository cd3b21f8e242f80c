import Mathlib.Data.List.TakeWhile
import Mathlib.Data.Rat.Lemmas
import Pinout.Foundation.JsonText

/-! # Texts of numbers

What is used of the texts that are printed for numbers: that they are made of the units of numbers and tell the
numbers (`NumberTexts`), or that they are read back (`ReadsNumbers`). -/

namespace Pinout.Foundation

/-- The texts of numbers are made of the units of numbers, and different numbers have different texts. -/
structure NumberTexts (numText : ℚ → JsString) : Prop where
  ne_nil : ∀ q, numText q ≠ []
  units : ∀ q, ∀ u ∈ numText q, isNumberUnit u = true
  injective : Function.Injective numText

/-- The texts of numbers are made of the units of numbers, and are read back. -/
structure ReadsNumbers (numText : ℚ → JsString) (readNumber : JsString → Option ℚ) : Prop where
  ne_nil : ∀ q, numText q ≠ []
  units : ∀ q, ∀ u ∈ numText q, isNumberUnit u = true
  back : ∀ q, readNumber (numText q) = some q

theorem ReadsNumbers.numberTexts {numText : ℚ → JsString} {readNumber : JsString → Option ℚ}
    (h : ReadsNumbers numText readNumber) : NumberTexts numText where
  ne_nil := h.ne_nil
  units := h.units
  injective p q heq := by
    have hback := h.back p
    rw [heq, h.back q] at hback
    exact (Option.some.inj hback).symm

/-! ## Fractions -/

/-- What follows the numerator in the text of a number. -/
def denominatorText (d : Nat) : JsString := if d = 1 then [] else 101 :: decimal d

/-- The text of a number: of an integer, its digits. -/
def ratioText (q : ℚ) : JsString :=
  (if q.num < 0 then [45] else []) ++ (decimal q.num.natAbs ++ denominatorText q.den)

/-- A numerator and a denominator, as they are printed. -/
def readFraction (text : JsString) : ℚ :=
  parseDecimal (text.takeWhile isDigit) /
    match text.dropWhile isDigit with
    | [] => 1
    | _ :: rest => parseDecimal rest

def readRatio (text : JsString) : Option ℚ :=
  if text.head? = some 45 then some (-readFraction text.tail) else some (readFraction text)

theorem readFraction_decimal (n d : Nat) : readFraction (decimal n ++ denominatorText d) = n / d := by
  have hdigits : ∀ u ∈ decimal n, isDigit u = true := fun u hu => isDigit_of_mem_decimal hu
  rw [readFraction, denominatorText]
  by_cases hd : d = 1
  · rw [if_pos hd, List.append_nil, List.takeWhile_eq_self_iff.mpr hdigits, List.dropWhile_eq_nil_iff.mpr hdigits,
      parseDecimal_decimal, hd, Nat.cast_one]
  · rw [if_neg hd, List.takeWhile_append_of_pos hdigits, List.dropWhile_append_of_pos hdigits,
      List.takeWhile_cons_of_neg (by decide), List.dropWhile_cons_of_neg (by decide), List.append_nil,
      parseDecimal_decimal]
    dsimp only
    rw [parseDecimal_decimal]

theorem readRatio_ratioText (q : ℚ) : readRatio (ratioText q) = some q := by
  rw [ratioText, readRatio]
  by_cases hneg : q.num < 0
  · have hnum : ((q.num.natAbs : ℚ)) = -q.num := by
      have habs : (q.num.natAbs : ℤ) = -q.num := by omega
      rw [← Int.cast_natCast, habs, Int.cast_neg]
    rw [if_pos hneg, List.singleton_append, List.head?_cons, if_pos rfl, List.tail_cons, readFraction_decimal, hnum,
      neg_div, neg_neg, Rat.num_div_den]
  · have hnum : ((q.num.natAbs : ℚ)) = q.num := by
      have habs : (q.num.natAbs : ℤ) = q.num := by omega
      rw [← Int.cast_natCast, habs]
    have hhead : (decimal q.num.natAbs ++ denominatorText q.den).head? ≠ some 45 := by
      obtain ⟨u, tail, hu⟩ := List.exists_cons_of_ne_nil (decimal_ne_nil q.num.natAbs)
      have hdigit : isDigit u = true := isDigit_of_mem_decimal (hu ▸ List.mem_cons_self)
      rw [hu, List.cons_append, List.head?_cons]
      rintro ⟨⟩
      exact absurd hdigit (by decide)
    rw [if_neg hneg, List.nil_append, if_neg hhead, readFraction_decimal, hnum, Rat.num_div_den]

theorem readsNumbers_ratioText : ReadsNumbers ratioText readRatio where
  ne_nil q := by simp [ratioText, decimal_ne_nil]
  units q u hu := by
    have hdigits : ∀ n, u ∈ decimal n → isNumberUnit u = true := by
      intro n h
      simp [isNumberUnit, isDigit_of_mem_decimal h]
    rcases List.mem_append.mp hu with hsign | hrest
    · split at hsign
      · obtain rfl := List.mem_singleton.mp hsign
        rfl
      · exact absurd hsign List.not_mem_nil
    · rcases List.mem_append.mp hrest with hnum | hden
      · exact hdigits _ hnum
      · rw [denominatorText] at hden
        split at hden
        · exact absurd hden List.not_mem_nil
        · rcases List.mem_cons.mp hden with rfl | hden
          · rfl
          · exact hdigits _ hden
  back := readRatio_ratioText

end Pinout.Foundation
