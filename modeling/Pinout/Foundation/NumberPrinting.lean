import Mathlib.Algebra.Order.Field.Basic
import Mathlib.Data.List.Induction
import Mathlib.Data.Nat.Find
import Mathlib.Data.Rat.Cast.Order
import Mathlib.Tactic.FieldSimp
import Mathlib.Tactic.Linarith
import Mathlib.Tactic.NormNum
import Mathlib.Tactic.Qify
import Mathlib.Tactic.Ring
import Pinout.Foundation.Utf16

/-! # Printing numbers

The finite numbers of the language (`Double`) and the text of one (`Double.text`, `Number::toString`): the decimal with
the fewest digits that is read back as the number, laid out by where its decimal point is, with an exponent when that
is far away. A decimal that is read back is closest to the number among all numbers (`Double.abs_sub_le`), seventeen
digits are always enough (`Double.exists_candidate`), and the exponent is there exactly from `10 ^ 21` on and below the
number that `10 ^ -6` is read as. -/

namespace Pinout.Foundation

/-! ## Numbers -/

/-- What numbers are multiples of: `2 ^ -1074`. -/
def bias : Nat := 1074

def largest : Nat := 2045

/-- The lowest decimal position that is counted: `10 ^ -340`. -/
def lowest : Nat := 340

/-- A finite number: a significand of at most 53 bits, and the exponent of its last bit. -/
structure Double where
  negative : Bool
  significand : Nat
  exponent : Nat
  significand_lt : significand < 2 ^ 53
  exponent_le : exponent ≤ largest
  normal : 2 ^ 52 ≤ significand ∨ exponent = 0

namespace Double

/-- A number without its sign, counted in `2 ^ -1074`. -/
def scaled (x : Double) : Nat := x.significand * 2 ^ x.exponent

def magnitude (x : Double) : ℚ := x.scaled / 2 ^ bias

def value (x : Double) : ℚ := if x.negative then -x.magnitude else x.magnitude

/-- Four times the distance to what is read as the number below. -/
def below (x : Double) : Nat :=
  if x.significand = 2 ^ 52 ∧ 0 < x.exponent then 2 ^ x.exponent else 2 * 2 ^ x.exponent

/-- Four times the distance to what is read as the number above. -/
def above (x : Double) : Nat := 2 * 2 ^ x.exponent

end Double

/-- A decimal: its digits, how many they are, and the position of the last one, counted from `10 ^ -340`. -/
structure Decimal where
  count : Nat
  digits : Nat
  position : Nat
  deriving DecidableEq, Repr

namespace Decimal

def value (d : Decimal) : ℚ := d.digits * 10 ^ d.position / 10 ^ lowest

/-- Where the decimal point is, counted from the first digit. -/
def point (d : Decimal) : Int := d.count + d.position - lowest

structure Exact (d : Decimal) : Prop where
  pos : 0 < d.count
  le : 10 ^ (d.count - 1) ≤ d.digits
  lt : d.digits < 10 ^ d.count

end Decimal

namespace Double

/-- Whether a decimal is read as the number: it is closer to it than to others, or as close and the number is even. -/
def reads (x : Double) (digits position : Nat) : Bool :=
  let written := 4 * (digits * (10 ^ position * 2 ^ bias))
  let low := (4 * x.scaled - x.below) * 10 ^ lowest
  let high := (4 * x.scaled + x.above) * 10 ^ lowest
  if x.significand % 2 = 0 then low ≤ written && written ≤ high else low < written && written < high

def leading (x : Double) : Nat :=
  Nat.findGreatest (fun position => 10 ^ position * 2 ^ bias ≤ x.scaled * 10 ^ lowest) 660

/-- A decimal with one digit more than it says has a digit less. -/
def carry (count digits position : Nat) : Decimal :=
  if digits = 10 ^ count then ⟨count, 10 ^ (count - 1), position + 1⟩ else ⟨count, digits, position⟩

/-- A decimal with some number of digits that is read as the number: the closest to it, or the next one on its other
side. -/
def candidate (x : Double) (count : Nat) : Option Decimal :=
  let position := x.leading + 1 - count
  let unit := 10 ^ position * 2 ^ bias
  let down := x.scaled * 10 ^ lowest / unit
  let rest := x.scaled * 10 ^ lowest % unit
  let closest :=
    if 2 * rest < unit then down else if unit < 2 * rest then down + 1
    else if down % 2 = 0 then down else down + 1
  let other := down + (down + 1) - closest
  if x.reads closest position then some (carry count closest position)
  else if x.reads other position then some (carry count other position)
  else none

/-- The decimal with the fewest digits that is read as the number. -/
def shortest (x : Double) : Decimal :=
  ((List.range 17).findSome? fun n => x.candidate (n + 1)).getD ⟨1, 0, 0⟩

end Double

/-- The digits of a number, in a text of given length. -/
def fixedDigits : Nat → Nat → JsString
  | 0, _ => []
  | count + 1, n => fixedDigits count (n / 10) ++ [(48 + n % 10).toUInt16]

/-- The text of digits with a decimal point at a place: `Number::toString` of a positive number. -/
def layout (digits : JsString) (point : Int) : JsString :=
  if digits.length ≤ point ∧ point ≤ 21 then digits ++ List.replicate (point.toNat - digits.length) 48
  else if 0 < point ∧ point ≤ 21 then digits.take point.toNat ++ 46 :: digits.drop point.toNat
  else if -6 < point ∧ point ≤ 0 then 48 :: 46 :: (List.replicate (-point).toNat 48 ++ digits)
  else
    let exponent := point - 1
    digits.take 1 ++ (if digits.length = 1 then [] else 46 :: digits.drop 1) ++
      101 :: (if exponent < 0 then 45 else 43) :: decimal exponent.natAbs

def Double.text (x : Double) : JsString :=
  if x.significand = 0 then [48]
  else
    let d := x.shortest
    (if x.negative then [45] else []) ++ layout (fixedDigits d.count d.digits) d.point

/-! ## What is read as a number -/

namespace Double

variable {x y : Double} {digits position : Nat}

/-- The distance to what is read as the number below is at most half the distance to a smaller number. -/
theorem below_le (h : y.scaled < x.scaled) : x.below + 2 * y.scaled ≤ 2 * x.scaled := by
  have hscaled : x.scaled = x.significand * 2 ^ x.exponent := rfl
  rcases Nat.lt_or_ge y.exponent x.exponent with hexp | hexp
  · -- the smaller number has a finer unit
    obtain ⟨d, hd⟩ := Nat.exists_eq_add_of_lt hexp
    have hnormal : 2 ^ 52 ≤ x.significand := x.normal.resolve_right (by omega)
    have hy : y.scaled ≤ (2 ^ 53 - 1) * 2 ^ (y.exponent + d) := by
      refine Nat.mul_le_mul (by have := y.significand_lt; omega) ?_
      exact Nat.pow_le_pow_right (by decide) (by omega)
    have hx : 2 ^ x.exponent = 2 * 2 ^ (y.exponent + d) := by rw [hd, pow_succ, mul_comm]
    rw [below, hscaled, hx]
    generalize 2 ^ (y.exponent + d) = unit at *
    split
    · next hsig =>
      rw [hsig.1]
      omega
    · next hsig =>
      have hmore : 2 ^ 52 + 1 ≤ x.significand := by
        rcases Nat.lt_or_ge (2 ^ 52) x.significand with hlt | hle
        · exact hlt
        · exact absurd ⟨Nat.le_antisymm hle hnormal, by omega⟩ hsig
      have hlarge : (2 ^ 52 + 1) * (2 * unit) ≤ x.significand * (2 * unit) := Nat.mul_le_mul_right _ hmore
      omega
  · -- both are multiples of the unit of the number
    obtain ⟨d, hd⟩ := Nat.exists_eq_add_of_le hexp
    have hy : y.scaled = y.significand * 2 ^ d * 2 ^ x.exponent := by
      rw [scaled, hd, pow_add, mul_assoc, mul_comm (2 ^ x.exponent)]
    have hunit : x.below ≤ 2 * 2 ^ x.exponent := by
      rw [below]
      split <;> omega
    rw [hy, hscaled] at h
    have hlt : y.significand * 2 ^ d < x.significand := lt_of_mul_lt_mul_right h (Nat.zero_le _)
    have hstep : (y.significand * 2 ^ d + 1) * 2 ^ x.exponent ≤ x.significand * 2 ^ x.exponent :=
      Nat.mul_le_mul_right _ hlt
    rw [Nat.add_mul, Nat.one_mul, ← hy, ← hscaled] at hstep
    omega

/-- The distance to what is read as the number above is at most half the distance to a larger number. -/
theorem above_le (h : x.scaled < y.scaled) : x.above + 2 * x.scaled ≤ 2 * y.scaled := by
  rcases Nat.lt_or_ge y.exponent x.exponent with hexp | hexp
  · -- a number with a finer unit is not larger
    obtain ⟨d, hd⟩ := Nat.exists_eq_add_of_lt hexp
    have hnormal : 2 ^ 52 ≤ x.significand := x.normal.resolve_right (by omega)
    have hy : y.scaled ≤ (2 ^ 53 - 1) * 2 ^ (y.exponent + d) := by
      refine Nat.mul_le_mul (by have := y.significand_lt; omega) ?_
      exact Nat.pow_le_pow_right (by decide) (by omega)
    have hx : 2 ^ 52 * (2 * 2 ^ (y.exponent + d)) ≤ x.scaled := by
      rw [scaled, hd, pow_succ, mul_comm 2]
      exact Nat.mul_le_mul_right _ hnormal
    generalize 2 ^ (y.exponent + d) = unit at *
    omega
  · obtain ⟨d, hd⟩ := Nat.exists_eq_add_of_le hexp
    have hy : y.scaled = y.significand * 2 ^ d * 2 ^ x.exponent := by
      rw [scaled, hd, pow_add, mul_assoc, mul_comm (2 ^ x.exponent)]
    have hscaled : x.scaled = x.significand * 2 ^ x.exponent := rfl
    rw [hy, hscaled] at h
    have hlt : x.significand < y.significand * 2 ^ d := lt_of_mul_lt_mul_right h (Nat.zero_le _)
    have hstep : (x.significand + 1) * 2 ^ x.exponent ≤ y.significand * 2 ^ d * 2 ^ x.exponent :=
      Nat.mul_le_mul_right _ hlt
    rw [Nat.add_mul, Nat.one_mul, ← hy, ← hscaled] at hstep
    rw [above]
    omega

/-- What is read as a number lies between what is read as the next ones. -/
theorem bounds_of_reads (h : x.reads digits position = true) :
    4 * (x.scaled * 10 ^ lowest) ≤ 4 * (digits * (10 ^ position * 2 ^ bias)) + x.below * 10 ^ lowest ∧
      4 * (digits * (10 ^ position * 2 ^ bias)) ≤ 4 * (x.scaled * 10 ^ lowest) + x.above * 10 ^ lowest := by
  have hbounds : (4 * x.scaled - x.below) * 10 ^ lowest ≤ 4 * (digits * (10 ^ position * 2 ^ bias)) ∧
      4 * (digits * (10 ^ position * 2 ^ bias)) ≤ (4 * x.scaled + x.above) * 10 ^ lowest := by
    rw [reads] at h
    split at h
    · simpa using h
    · rw [Bool.and_eq_true, decide_eq_true_eq, decide_eq_true_eq] at h
      exact ⟨h.1.le, h.2.le⟩
  rw [Nat.sub_mul, Nat.add_mul, mul_assoc] at hbounds
  omega

/-! ## The search for a decimal -/

theorem leading_spec (hx : 0 < x.significand) : 10 ^ x.leading * 2 ^ bias ≤ x.scaled * 10 ^ lowest ∧
    x.scaled * 10 ^ lowest < 10 ^ (x.leading + 1) * 2 ^ bias ∧ 16 ≤ x.leading := by
  have hone : 1 ≤ x.scaled := Nat.one_le_iff_ne_zero.mpr (by rw [scaled]; positivity)
  have hlow : 10 ^ 16 * 2 ^ bias ≤ x.scaled * 10 ^ lowest := by
    have hpowers : 10 ^ 16 * 2 ^ bias ≤ 1 * 10 ^ lowest := by decide +kernel
    exact le_trans hpowers (Nat.mul_le_mul_right _ hone)
  have hhigh : x.scaled * 10 ^ lowest < 10 ^ (660 + 1) * 2 ^ bias := by
    have hscaled : x.scaled ≤ 2 ^ 53 * 2 ^ largest :=
      Nat.mul_le_mul x.significand_lt.le (Nat.pow_le_pow_right (by decide) x.exponent_le)
    have hpowers : 2 ^ 53 * 2 ^ largest * 10 ^ lowest < 10 ^ (660 + 1) * 2 ^ bias := by decide +kernel
    exact lt_of_le_of_lt (Nat.mul_le_mul_right _ hscaled) hpowers
  have hleast : 16 ≤ x.leading := Nat.le_findGreatest (by decide) hlow
  refine ⟨?_, ?_, hleast⟩
  · exact Nat.findGreatest_spec (P := fun position => 10 ^ position * 2 ^ bias ≤ x.scaled * 10 ^ lowest)
      (by decide : 16 ≤ 660) hlow
  · rcases Nat.lt_or_ge x.leading 660 with hlt | hge
    · exact Nat.lt_of_not_le (Nat.findGreatest_is_greatest
        (P := fun position => 10 ^ position * 2 ^ bias ≤ x.scaled * 10 ^ lowest) (Nat.lt_succ_self _) hlt)
    · have heq : x.leading = 660 := Nat.le_antisymm (Nat.findGreatest_le _) hge
      rw [heq]
      exact hhigh

/-- Carrying keeps what is written, and gives a decimal as many digits as it says. -/
theorem carry_spec {count : Nat} (hcount : 0 < count) (hle : 10 ^ (count - 1) ≤ digits) (hlt : digits ≤ 10 ^ count)
    (hreads : x.reads digits position = true) :
    (carry count digits position).Exact ∧ x.reads (carry count digits position).digits
      (carry count digits position).position = true := by
  rw [carry]
  split
  · next heq =>
    refine ⟨⟨hcount, le_rfl, Nat.pow_lt_pow_right (by decide) (Nat.sub_lt hcount Nat.one_pos)⟩, ?_⟩
    have hsame : 10 ^ (count - 1) * (10 ^ (position + 1) * 2 ^ bias) = digits * (10 ^ position * 2 ^ bias) := by
      obtain ⟨n, rfl⟩ := Nat.exists_eq_add_of_lt hcount
      rw [heq, Nat.zero_add, Nat.add_sub_cancel, pow_succ 10 position, pow_succ 10 n]
      ring
    rw [reads] at hreads ⊢
    rw [hsame]
    exact hreads
  · next hne => exact ⟨⟨hcount, hle, lt_of_le_of_ne hlt hne⟩, hreads⟩

/-- The numbers of digits that a decimal is made of, for a number of digits. -/
theorem down_spec (hx : 0 < x.significand) {count : Nat} (hcount : 0 < count) (hle : count ≤ 17) :
    10 ^ (count - 1) ≤ x.scaled * 10 ^ lowest / (10 ^ (x.leading + 1 - count) * 2 ^ bias) ∧
      x.scaled * 10 ^ lowest / (10 ^ (x.leading + 1 - count) * 2 ^ bias) < 10 ^ count := by
  obtain ⟨hlow, hhigh, hleast⟩ := leading_spec hx
  have hunit : 0 < 10 ^ (x.leading + 1 - count) * 2 ^ bias := by positivity
  refine ⟨(Nat.le_div_iff_mul_le hunit).mpr ?_, (Nat.div_lt_iff_lt_mul hunit).mpr ?_⟩
  · rw [← mul_assoc, ← pow_add, show count - 1 + (x.leading + 1 - count) = x.leading by omega]
    exact hlow
  · rw [← mul_assoc, ← pow_add, show count + (x.leading + 1 - count) = x.leading + 1 by omega]
    exact hhigh

/-- **A candidate** has as many digits as it says, and is read as the number. -/
theorem candidate_spec (hx : 0 < x.significand) {count : Nat} (hcount : 0 < count) (hle : count ≤ 17) {d : Decimal}
    (h : x.candidate count = some d) : d.Exact ∧ x.reads d.digits d.position = true := by
  obtain ⟨hlow, hhigh⟩ := down_spec hx hcount hle
  rw [candidate] at h
  generalize x.scaled * 10 ^ lowest / (10 ^ (x.leading + 1 - count) * 2 ^ bias) = down at *
  generalize hclosest : (if 2 * (x.scaled * 10 ^ lowest % (10 ^ (x.leading + 1 - count) * 2 ^ bias)) <
      10 ^ (x.leading + 1 - count) * 2 ^ bias then down
    else if 10 ^ (x.leading + 1 - count) * 2 ^ bias <
      2 * (x.scaled * 10 ^ lowest % (10 ^ (x.leading + 1 - count) * 2 ^ bias)) then down + 1
    else if down % 2 = 0 then down else down + 1) = closest at h
  have hcases : closest = down ∨ closest = down + 1 := by
    rw [← hclosest]
    split
    · exact .inl rfl
    · split
      · exact .inr rfl
      · split
        · exact .inl rfl
        · exact .inr rfl
  split at h
  · next hreads =>
    obtain rfl := Option.some.inj h
    exact carry_spec hcount (by omega) (by omega) hreads
  · split at h
    · next hreads =>
      obtain rfl := Option.some.inj h
      exact carry_spec hcount (by omega) (by omega) hreads
    · cases h

/-- The unit of seventeen digits is finer than what is read as the next numbers. -/
theorem two_mul_unit_lt (hx : 0 < x.significand) :
    2 * (10 ^ (x.leading + 1 - 17) * 2 ^ bias) < x.below * 10 ^ lowest := by
  obtain ⟨hlow, -, hleast⟩ := leading_spec hx
  have hunit : 10 ^ 16 * (10 ^ (x.leading + 1 - 17) * 2 ^ bias) ≤ x.significand * (2 ^ x.exponent * 10 ^ lowest) := by
    rw [← mul_assoc, ← pow_add, show 16 + (x.leading + 1 - 17) = x.leading by omega, ← mul_assoc]
    exact hlow
  have hpos : 0 < 2 ^ x.exponent * 10 ^ lowest := by positivity
  rw [below]
  split
  · next hboundary =>
    rw [hboundary.1] at hunit
    generalize 10 ^ (x.leading + 1 - 17) * 2 ^ bias = unit at *
    omega
  · have hsig : x.significand * (2 ^ x.exponent * 10 ^ lowest) ≤ 2 ^ 53 * (2 ^ x.exponent * 10 ^ lowest) :=
      Nat.mul_le_mul_right _ x.significand_lt.le
    rw [mul_assoc]
    generalize 10 ^ (x.leading + 1 - 17) * 2 ^ bias = unit at *
    omega

/-- What is closer than half a unit of seventeen digits is read as the number. -/
theorem reads_of_close (hx : 0 < x.significand) (hposition : position = x.leading + 1 - 17)
    (hlow : 2 * (x.scaled * 10 ^ lowest) ≤ 2 * (digits * (10 ^ position * 2 ^ bias)) + 10 ^ position * 2 ^ bias)
    (hhigh : 2 * (digits * (10 ^ position * 2 ^ bias)) ≤ 2 * (x.scaled * 10 ^ lowest) + 10 ^ position * 2 ^ bias) :
    x.reads digits position = true := by
  have hunit := two_mul_unit_lt hx
  rw [← hposition] at hunit
  have habove : x.below * 10 ^ lowest ≤ x.above * 10 ^ lowest := by
    refine Nat.mul_le_mul_right _ ?_
    rw [below, above]
    split <;> omega
  have hbelow : x.below * 10 ^ lowest ≤ 2 * (x.scaled * 10 ^ lowest) := by
    have hscaled : 1 * 2 ^ x.exponent ≤ x.scaled := Nat.mul_le_mul_right _ hx
    rw [← mul_assoc]
    refine Nat.mul_le_mul_right _ ?_
    rw [below]
    split <;> omega
  have hstrict : (4 * x.scaled - x.below) * 10 ^ lowest < 4 * (digits * (10 ^ position * 2 ^ bias)) ∧
      4 * (digits * (10 ^ position * 2 ^ bias)) < (4 * x.scaled + x.above) * 10 ^ lowest := by
    rw [Nat.sub_mul, Nat.add_mul, mul_assoc]
    omega
  rw [reads]
  split
  · rw [Bool.and_eq_true, decide_eq_true_eq, decide_eq_true_eq]
    exact ⟨hstrict.1.le, hstrict.2.le⟩
  · rw [Bool.and_eq_true, decide_eq_true_eq, decide_eq_true_eq]
    exact hstrict

/-- **Seventeen digits** are enough. -/
theorem exists_candidate (hx : 0 < x.significand) : ∃ d, x.candidate 17 = some d := by
  rw [candidate]
  generalize hposition : x.leading + 1 - 17 = position
  have hparts := Nat.div_add_mod (x.scaled * 10 ^ lowest) (10 ^ position * 2 ^ bias)
  have hrest := Nat.mod_lt (x.scaled * 10 ^ lowest) (show 0 < 10 ^ position * 2 ^ bias by positivity)
  have hclose := fun digits => @reads_of_close x digits position hx hposition.symm
  generalize x.scaled * 10 ^ lowest / (10 ^ position * 2 ^ bias) = down at *
  generalize x.scaled * 10 ^ lowest % (10 ^ position * 2 ^ bias) = rest at *
  rw [if_pos]
  · exact ⟨_, rfl⟩
  · refine hclose _ ?_ ?_
    all_goals
      rw [← hparts]
      generalize 10 ^ position * 2 ^ bias = unit at *
      have hnext : (down + 1) * unit = unit * down + unit := by ring
      have hdown : down * unit = unit * down := mul_comm _ _
      split
      · omega
      · split
        · omega
        · split <;> omega

/-- **The shortest decimal** has as many digits as it says, and is read as the number. -/
theorem shortest_spec (hx : 0 < x.significand) :
    x.shortest.Exact ∧ x.reads x.shortest.digits x.shortest.position = true := by
  rw [shortest]
  cases hfind : (List.range 17).findSome? fun n => x.candidate (n + 1) with
  | some d =>
    obtain ⟨n, hn, hd⟩ := List.exists_of_findSome?_eq_some hfind
    exact candidate_spec hx (Nat.succ_pos n) (List.mem_range.mp hn) hd
  | none =>
    obtain ⟨d, hd⟩ := exists_candidate hx
    have hnone := List.findSome?_eq_none_iff.mp hfind 16 (List.mem_range.mpr (by decide))
    rw [hd] at hnone
    cases hnone

/-! ## What is written -/

/-- What is read as a number is at least halfway from a smaller one. -/
theorem half_le_of_reads (hreads : x.reads digits position = true) (h : y.scaled < x.scaled) :
    2 * ((x.scaled + y.scaled) * 10 ^ lowest) ≤ 4 * (digits * (10 ^ position * 2 ^ bias)) := by
  have hbelow := Nat.mul_le_mul_right (10 ^ lowest) (below_le h)
  have hlow := (bounds_of_reads hreads).1
  rw [Nat.add_mul, mul_assoc, mul_assoc] at hbelow
  rw [Nat.add_mul]
  omega

theorem le_half_of_reads (hreads : x.reads digits position = true) (h : x.scaled < y.scaled) :
    4 * (digits * (10 ^ position * 2 ^ bias)) ≤ 2 * ((x.scaled + y.scaled) * 10 ^ lowest) := by
  have habove := Nat.mul_le_mul_right (10 ^ lowest) (above_le h)
  have hhigh := (bounds_of_reads hreads).2
  rw [Nat.add_mul, mul_assoc, mul_assoc] at habove
  rw [Nat.add_mul]
  omega

/-- **What is read as a number** is closest to it among all numbers. -/
theorem abs_sub_le {d : Decimal} (hreads : x.reads d.digits d.position = true) (y : Double) :
    |d.value - x.magnitude| ≤ |d.value - y.magnitude| := by
  have hscale : (0 : ℚ) < 4 * (2 ^ bias * 10 ^ lowest) := by positivity
  have hvalue : d.value =
      ((4 * (d.digits * (10 ^ d.position * 2 ^ bias)) : Nat) : ℚ) / (4 * (2 ^ bias * 10 ^ lowest)) := by
    rw [Decimal.value]
    push_cast
    field_simp
  have hmagnitude : ∀ z : Double, z.magnitude =
      ((4 * (z.scaled * 10 ^ lowest) : Nat) : ℚ) / (4 * (2 ^ bias * 10 ^ lowest)) := by
    intro z
    rw [magnitude]
    push_cast
    field_simp
  rw [hvalue, hmagnitude x, hmagnitude y, ← sub_div, ← sub_div, abs_div, abs_div, abs_of_pos hscale]
  refine div_le_div_of_nonneg_right ?_ hscale.le
  rcases Nat.lt_trichotomy y.scaled x.scaled with hlt | heq | hgt
  · have hhalf := half_le_of_reads hreads hlt
    have horder := Nat.mul_le_mul_right (10 ^ lowest) hlt.le
    rw [Nat.add_mul] at hhalf
    refine le_trans (abs_le.mpr ⟨?_, ?_⟩) (le_abs_self _)
    all_goals
      qify at hhalf horder
      push_cast
      linarith
  · rw [heq]
  · have hhalf := le_half_of_reads hreads hgt
    have horder := Nat.mul_le_mul_right (10 ^ lowest) hgt.le
    rw [Nat.add_mul] at hhalf
    refine le_trans (abs_le.mpr ⟨?_, ?_⟩) (neg_le_abs _)
    all_goals
      qify at hhalf horder
      push_cast
      linarith

/-! ## Where the decimal point is -/

/-- `10 ^ 21`. -/
def large : Double := ⟨false, 5 ^ 21 * 2 ^ 4, bias + 17, by decide, by decide, by decide⟩

/-- The number that `10 ^ -6` is read as. -/
def small : Double := ⟨false, 4722366482869645, bias - 72, by decide, by decide, by decide⟩

/-- Where the two numbers are among the powers of ten, and what is written of them. -/
theorem scaled_powers :
    (large.scaled = 10 ^ 21 * 2 ^ bias ∧ large.scaled * 10 ^ lowest = 10 ^ 361 * 2 ^ bias ∧
      ¬ large.shortest.digits * (10 ^ large.shortest.position * 2 ^ bias) < large.scaled * 10 ^ lowest) ∧
    small.scaled * 10 ^ lowest ≤ 10 ^ 334 * 2 ^ bias ∧
      4 * (10 ^ 334 * 2 ^ bias) ≤ 4 * (small.scaled * 10 ^ lowest) + small.above * 10 ^ lowest ∧
      ¬ small.shortest.digits * (10 ^ small.shortest.position * 2 ^ bias) < 10 ^ 334 * 2 ^ bias := by
  decide +kernel

theorem abs_value (x : Double) : |x.value| = x.magnitude := by
  have hnonneg : 0 ≤ x.magnitude := by
    rw [magnitude]
    positivity
  rw [value]
  split
  · rw [abs_neg, abs_of_nonneg hnonneg]
  · exact abs_of_nonneg hnonneg

theorem value_eq_zero_iff : x.value = 0 ↔ x.significand = 0 := by
  rw [← abs_eq_zero, abs_value, magnitude, div_eq_zero_iff, Nat.cast_eq_zero, scaled, Nat.mul_eq_zero]
  simp

theorem magnitude_le_iff : x.magnitude ≤ y.magnitude ↔ x.scaled ≤ y.scaled := by
  rw [magnitude, magnitude, div_le_div_iff_of_pos_right (by positivity), Nat.cast_le]

theorem magnitude_large : large.magnitude = 10 ^ 21 := by
  rw [magnitude, scaled_powers.1.1]
  push_cast
  exact mul_div_cancel_right₀ _ (by positivity)

theorem eq_of_scaled (h : x.scaled = y.scaled) :
    x.significand = y.significand ∧ x.exponent = y.exponent := by
  have hfiner : ∀ {a b : Double}, a.exponent < b.exponent → a.scaled < b.scaled := by
    intro a b hexp
    obtain ⟨d, hd⟩ := Nat.exists_eq_add_of_lt hexp
    have hnormal : 2 ^ 52 ≤ b.significand := b.normal.resolve_right (by omega)
    calc a.scaled < 2 ^ 53 * 2 ^ a.exponent := Nat.mul_lt_mul_of_pos_right a.significand_lt (by positivity)
      _ = 2 ^ 52 * 2 ^ (a.exponent + 1) := by rw [pow_succ 2 a.exponent]; ring
      _ ≤ 2 ^ 52 * 2 ^ b.exponent := Nat.mul_le_mul_left _ (Nat.pow_le_pow_right (by decide) (by omega))
      _ ≤ b.scaled := Nat.mul_le_mul_right _ hnormal
  have hexp : x.exponent = y.exponent := by
    rcases Nat.lt_trichotomy x.exponent y.exponent with hlt | heq | hgt
    · exact absurd h (hfiner hlt).ne
    · exact heq
    · exact absurd h (hfiner hgt).ne'
  refine ⟨?_, hexp⟩
  rw [scaled, scaled, hexp] at h
  exact Nat.eq_of_mul_eq_mul_right (by positivity) h

theorem shortest_congr (h : x.scaled = y.scaled) : x.shortest = y.shortest := by
  obtain ⟨hsig, hexp⟩ := eq_of_scaled h
  obtain ⟨negative, significand, exponent, _, _, _⟩ := x
  obtain ⟨negative', significand', exponent', _, _, _⟩ := y
  obtain rfl : significand = significand' := hsig
  obtain rfl : exponent = exponent' := hexp
  rfl

/-- A decimal is below a power of ten when it has its first digit below that. -/
theorem lt_pow_iff {d : Decimal} (hd : d.Exact) (n : Nat) :
    d.digits * (10 ^ d.position * 2 ^ bias) < 10 ^ n * 2 ^ bias ↔ d.count + d.position ≤ n := by
  have hbias : 0 < 2 ^ bias := by positivity
  rw [← mul_assoc, Nat.mul_lt_mul_right hbias]
  constructor
  · intro hlt
    have hfirst : 10 ^ (d.count - 1 + d.position) < 10 ^ n := by
      rw [pow_add]
      exact lt_of_le_of_lt (Nat.mul_le_mul_right _ hd.le) hlt
    have hcount := hd.pos
    have hpow := (Nat.pow_lt_pow_iff_right (by decide)).mp hfirst
    omega
  · intro hle
    calc d.digits * 10 ^ d.position < 10 ^ d.count * 10 ^ d.position :=
          Nat.mul_lt_mul_of_pos_right hd.lt (by positivity)
      _ = 10 ^ (d.count + d.position) := (pow_add _ _ _).symm
      _ ≤ 10 ^ n := Nat.pow_le_pow_right (by decide) hle

/-- **Up to twenty-one digits** stand in front of the decimal point exactly below `10 ^ 21`. -/
theorem point_le_iff (hx : 0 < x.significand) : x.shortest.point ≤ 21 ↔ x.scaled < large.scaled := by
  obtain ⟨hexact, hreads⟩ := shortest_spec hx
  have hpoint : x.shortest.point ≤ 21 ↔ x.shortest.count + x.shortest.position ≤ 361 := by
    rw [Decimal.point, show (lowest : Int) = 340 from rfl]
    omega
  obtain ⟨⟨-, hlarge, hself⟩, -⟩ := scaled_powers
  rw [hpoint, ← lt_pow_iff hexact, ← hlarge]
  rcases Nat.lt_trichotomy x.scaled large.scaled with hlt | heq | hgt
  · have hhalf := le_half_of_reads hreads hlt
    have horder : x.scaled * 10 ^ lowest < large.scaled * 10 ^ lowest := Nat.mul_lt_mul_of_pos_right hlt (by positivity)
    rw [Nat.add_mul] at hhalf
    exact iff_of_true (by omega) hlt
  · rw [shortest_congr heq]
    exact iff_of_false hself (by omega)
  · have hhalf := half_le_of_reads hreads hgt
    have horder : large.scaled * 10 ^ lowest < x.scaled * 10 ^ lowest := Nat.mul_lt_mul_of_pos_right hgt (by positivity)
    rw [Nat.add_mul] at hhalf
    exact iff_of_false (by omega) (by omega)

/-- **At most five zeros** stand behind the decimal point exactly from the number on that `10 ^ -6` is read as. -/
theorem lt_point_iff (hx : 0 < x.significand) : -6 < x.shortest.point ↔ small.scaled ≤ x.scaled := by
  obtain ⟨hexact, hreads⟩ := shortest_spec hx
  have hpoint : -6 < x.shortest.point ↔ ¬ x.shortest.count + x.shortest.position ≤ 334 := by
    rw [Decimal.point, show (lowest : Int) = 340 from rfl]
    omega
  obtain ⟨-, hsmall, hnext, hself⟩ := scaled_powers
  rw [hpoint, ← lt_pow_iff hexact]
  rcases Nat.lt_trichotomy x.scaled small.scaled with hlt | heq | hgt
  · have hhalf := le_half_of_reads hreads hlt
    have horder : x.scaled * 10 ^ lowest < small.scaled * 10 ^ lowest := Nat.mul_lt_mul_of_pos_right hlt (by positivity)
    rw [Nat.add_mul] at hhalf
    exact iff_of_false (by omega) (by omega)
  · rw [shortest_congr heq]
    exact iff_of_true hself heq.ge
  · have hhalf := half_le_of_reads hreads hgt
    have habove := above_le hgt
    refine iff_of_true ?_ hgt.le
    generalize small.above = gap at hnext habove
    generalize small.scaled = least at hnext habove hhalf
    generalize 10 ^ 334 * 2 ^ bias = power at hnext ⊢
    have hscaled := Nat.mul_le_mul_right (10 ^ lowest) habove
    rw [Nat.add_mul, mul_assoc, mul_assoc] at hscaled
    rw [Nat.add_mul] at hhalf
    omega

/-- **Where there is no exponent**, by the size of the number. -/
theorem point_iff (hx : 0 < x.significand) : -6 < x.shortest.point ∧ x.shortest.point ≤ 21 ↔
    small.magnitude ≤ |x.value| ∧ |x.value| < 10 ^ 21 := by
  rw [lt_point_iff hx, point_le_iff hx, abs_value, ← magnitude_large, magnitude_le_iff, ← not_le, ← not_le,
    magnitude_le_iff]

end Double

/-! ## Texts -/

theorem parseDecimal_append (s t : JsString) : parseDecimal (s ++ t) =
    parseDecimal s * 10 ^ t.length + parseDecimal t := by
  induction t using List.reverseRecOn with
  | nil => simp [parseDecimal]
  | append_singleton t u ih =>
    have hlast : ∀ l : JsString, parseDecimal (l ++ [u]) = 10 * parseDecimal l + (u.toNat - 48) := by
      intro l
      simp [parseDecimal]
    rw [← List.append_assoc, hlast, hlast, ih, List.length_append, List.length_singleton, pow_succ]
    ring

theorem parseDecimal_replicate (n : Nat) : parseDecimal (List.replicate n 48) = 0 := by
  induction n with
  | zero => rfl
  | succ n ih =>
    rw [List.replicate_succ, ← List.singleton_append, parseDecimal_append, ih, show parseDecimal [48] = 0 from rfl,
      Nat.zero_mul]

@[simp] theorem length_fixedDigits (count n : Nat) : (fixedDigits count n).length = count := by
  induction count generalizing n with
  | zero => rfl
  | succ count ih => rw [fixedDigits, List.length_append, ih, List.length_singleton]

theorem toNat_digit (n : Nat) : (48 + n % 10).toUInt16.toNat = 48 + n % 10 := by
  rw [Nat.toUInt16, UInt16.toNat_ofNat']
  omega

theorem isDigit_of_mem_fixedDigits {count n : Nat} {u : UInt16} (h : u ∈ fixedDigits count n) : isDigit u = true := by
  induction count generalizing n with
  | zero => cases h
  | succ count ih =>
    rw [fixedDigits, List.mem_append, List.mem_singleton] at h
    rcases h with h | rfl
    · exact ih h
    · rw [isDigit, toNat_digit]
      exact decide_eq_true (by omega)

theorem parseDecimal_fixedDigits {count n : Nat} (h : n < 10 ^ count) : parseDecimal (fixedDigits count n) = n := by
  induction count generalizing n with
  | zero =>
    rw [pow_zero, Nat.lt_one_iff] at h
    rw [h]
    rfl
  | succ count ih =>
    have hdiv : n / 10 < 10 ^ count := by
      rw [pow_succ] at h
      exact (Nat.div_lt_iff_lt_mul (by decide)).mpr h
    rw [fixedDigits, parseDecimal_append, ih hdiv, List.length_singleton, pow_one]
    have hunit : parseDecimal [(48 + n % 10).toUInt16] = n % 10 := by
      change 10 * 0 + ((48 + n % 10).toUInt16.toNat - 48) = n % 10
      rw [toNat_digit]
      omega
    rw [hunit]
    omega

theorem isDigit_of_mem_zeros (n : Nat) : ∀ u ∈ List.replicate n (48 : UInt16), isDigit u = true := by
  intro u hu
  rw [List.eq_of_mem_replicate hu]
  rfl

/-- What is written is the value of a decimal when its digits stand in the places of those of the decimal. -/
theorem Decimal.div_eq_value (d : Decimal) {n m : Nat}
    (h : (n : ℚ) * 10 ^ lowest = d.digits * 10 ^ d.position * 10 ^ m) : (n : ℚ) / 10 ^ m = d.value := by
  rw [Decimal.value, div_eq_div_iff (by positivity) (by positivity), h]

/-- **A decimal point that is not far away** stands between digits, and what is written there is the decimal. -/
theorem layout_plain {d : Decimal} (hd : d.Exact) (hlow : -6 < d.point) (hhigh : d.point ≤ 21) :
    ∃ whole fraction : JsString, layout (fixedDigits d.count d.digits) d.point =
        whole ++ (if fraction = [] then [] else 46 :: fraction) ∧ whole ≠ [] ∧
      (∀ u ∈ whole ++ fraction, isDigit u = true) ∧
        (parseDecimal (whole ++ fraction) : ℚ) / 10 ^ fraction.length = d.value := by
  have hlength := length_fixedDigits d.count d.digits
  have hparse := parseDecimal_fixedDigits hd.lt
  have hdigits : ∀ u ∈ fixedDigits d.count d.digits, isDigit u = true := fun u => isDigit_of_mem_fixedDigits
  have hpoint : d.point = d.count + d.position - lowest := rfl
  have hcount := hd.pos
  generalize fixedDigits d.count d.digits = text at *
  rw [layout]
  by_cases hwhole : (text.length : Int) ≤ d.point
  · rw [if_pos ⟨hwhole, hhigh⟩]
    refine ⟨text ++ List.replicate (d.point.toNat - text.length) 48, [], by simp, ?_, ?_, ?_⟩
    · rw [Ne, List.append_eq_nil_iff, ← List.length_eq_zero_iff]
      omega
    · rw [List.append_nil, List.forall_mem_append]
      exact ⟨hdigits, isDigit_of_mem_zeros _⟩
    · refine d.div_eq_value ?_
      rw [List.append_nil, parseDecimal_append, parseDecimal_replicate, hparse, List.length_replicate, hlength,
        Nat.add_zero, List.length_nil, pow_zero, mul_one]
      push_cast
      rw [mul_assoc, ← pow_add]
      congr 2
      omega
  · rw [if_neg fun h => hwhole h.1]
    by_cases hinner : 0 < d.point
    · rw [if_pos ⟨hinner, hhigh⟩]
      refine ⟨text.take d.point.toNat, text.drop d.point.toNat, ?_, ?_, ?_, ?_⟩
      · rw [if_neg]
        rw [← List.length_eq_zero_iff, List.length_drop]
        omega
      · rw [Ne, ← List.length_eq_zero_iff, List.length_take]
        omega
      · rw [List.take_append_drop]
        exact hdigits
      · refine d.div_eq_value ?_
        rw [List.take_append_drop, hparse, List.length_drop, hlength, mul_assoc, ← pow_add]
        congr 2
        omega
    · rw [if_neg fun h => hinner h.1, if_pos ⟨hlow, by omega⟩]
      refine ⟨[48], List.replicate (-d.point).toNat 48 ++ text, ?_, List.cons_ne_nil _ _, ?_, ?_⟩
      · rw [if_neg]
        · rfl
        · rw [List.append_eq_nil_iff, ← List.length_eq_zero_iff (l := text)]
          omega
      · rw [List.forall_mem_append, List.forall_mem_append]
        exact ⟨by simp [isDigit], isDigit_of_mem_zeros _, hdigits⟩
      · refine d.div_eq_value ?_
        rw [parseDecimal_append, parseDecimal_append, parseDecimal_replicate, hparse, List.length_append,
          List.length_replicate, hlength, show parseDecimal [48] = 0 from rfl, Nat.zero_mul, Nat.zero_mul, Nat.zero_add,
          Nat.zero_add, mul_assoc, ← pow_add]
        congr 2
        omega

/-- A decimal point that is far away is written as an exponent. -/
theorem layout_exponent {digits : JsString} {point : Int} (hdigits : digits ≠ []) (h : ¬ (-6 < point ∧ point ≤ 21)) :
    ∃ front back, layout digits point = front ++ 101 :: back := by
  have hlength : 0 < digits.length := List.length_pos_of_ne_nil hdigits
  rw [layout, if_neg (by omega), if_neg (by omega), if_neg (by omega)]
  exact ⟨_, _, rfl⟩

theorem isDigit_head?_layout {digits : JsString} (hne : digits ≠ []) (hdigits : ∀ u ∈ digits, isDigit u = true)
    (point : Int) : ∃ u ∈ (layout digits point).head?, isDigit u = true := by
  obtain ⟨u, digits, rfl⟩ := List.exists_cons_of_ne_nil hne
  have hu := hdigits u List.mem_cons_self
  rw [layout]
  split
  · exact ⟨u, rfl, hu⟩
  · split
    · next hinner =>
      obtain ⟨n, hn⟩ := Int.eq_succ_of_zero_lt hinner.1
      rw [hn]
      exact ⟨u, rfl, hu⟩
    · split
      · exact ⟨48, rfl, rfl⟩
      · exact ⟨u, rfl, hu⟩

namespace Double

variable {x : Double}

theorem shortest_value_pos (hx : 0 < x.significand) : 0 < x.shortest.value := by
  have hdigits : 0 < x.shortest.digits := lt_of_lt_of_le (by positivity) (shortest_spec hx).1.le
  rw [Decimal.value]
  positivity

theorem fixedDigits_ne_nil (hx : 0 < x.significand) : fixedDigits x.shortest.count x.shortest.digits ≠ [] := by
  have hcount := (shortest_spec hx).1.pos
  rw [Ne, ← List.length_eq_zero_iff, length_fixedDigits]
  omega

theorem isDigit_head?_text (h : x.negative = false ∨ x.significand = 0) : ∃ u ∈ x.text.head?, isDigit u = true := by
  rw [text]
  split
  · exact ⟨48, rfl, rfl⟩
  · next hne =>
    rw [h.resolve_right hne, if_neg (by decide), List.nil_append]
    exact isDigit_head?_layout (fixedDigits_ne_nil (Nat.pos_of_ne_zero hne)) (fun u => isDigit_of_mem_fixedDigits) _

theorem text_of_negative (hnegative : x.negative = true) (hne : x.significand ≠ 0) :
    ∃ u rest, x.text = 45 :: u :: rest ∧ isDigit u = true := by
  obtain ⟨u, hhead, hu⟩ := isDigit_head?_layout (fixedDigits_ne_nil (Nat.pos_of_ne_zero hne))
    (fun u => isDigit_of_mem_fixedDigits) x.shortest.point
  refine ⟨u, (layout (fixedDigits x.shortest.count x.shortest.digits) x.shortest.point).tail, ?_, hu⟩
  rw [text, if_neg hne, if_pos hnegative]
  exact congrArg (45 :: ·) (List.cons_head?_tail hhead).symm

end Double

/-! ## Numbers of the language -/

inductive JsNumber
  | nan
  | infinity (negative : Bool)
  | finite (x : Double)

namespace JsNumber

/-- `String(number)`. -/
def text : JsNumber → JsString
  | nan => js "NaN"
  | infinity negative => if negative then js "-Infinity" else js "Infinity"
  | finite x => x.text

/-- The number with a significand and an exponent, when that is not too large. -/
def ofParts (significand exponent : Nat) : JsNumber :=
  if h : significand < 2 ^ 53 ∧ exponent ≤ largest ∧ (2 ^ 52 ≤ significand ∨ exponent = 0) then
    finite ⟨false, significand, exponent, h.1, h.2.1, h.2.2⟩
  else infinity false

/-- The number with as many bits as given, whose rounded significand may be one bit longer than it should be. -/
def ofRounded (significand bits : Nat) : JsNumber :=
  if significand = 2 ^ 53 then ofParts (2 ^ 52) (bias + bits - 52) else ofParts significand (bias + bits - 53)

/-- The number closest to a natural number, the even one of two that are equally close. -/
def ofNat (n : Nat) : JsNumber :=
  if n = 0 then ofParts 0 0
  else
    let bits := n.log2 + 1
    let unit := 2 ^ (bits - 53)
    let down := n * 2 ^ (53 - bits) / unit
    let rest := n * 2 ^ (53 - bits) % unit
    ofRounded
      (if 2 * rest < unit then down else if unit < 2 * rest then down + 1
        else if down % 2 = 0 then down else down + 1)
      bits

/-- The text of a natural number begins with a digit, but for numbers that are too large. -/
theorem text_ofNat (n : Nat) : (∃ u ∈ (ofNat n).text.head?, isDigit u = true) ∨ (ofNat n).text = js "Infinity" := by
  have hparts : ∀ significand exponent, (∃ u ∈ (ofParts significand exponent).text.head?, isDigit u = true) ∨
      (ofParts significand exponent).text = js "Infinity" := by
    intro significand exponent
    rw [ofParts]
    split
    · exact .inl (Double.isDigit_head?_text (.inl rfl))
    · exact .inr rfl
  have hrounded : ∀ significand bits, (∃ u ∈ (ofRounded significand bits).text.head?, isDigit u = true) ∨
      (ofRounded significand bits).text = js "Infinity" := by
    intro significand bits
    rw [ofRounded]
    split
    · exact hparts _ _
    · exact hparts _ _
  rw [ofNat]
  split
  · exact hparts 0 0
  · exact hrounded _ _

end JsNumber

end Pinout.Foundation
