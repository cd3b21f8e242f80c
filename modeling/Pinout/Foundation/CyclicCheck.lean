import Mathlib.Data.Nat.Bitwise
import Mathlib.Logic.Function.Iterate
import Pinout.Foundation.Bitmap

/-! # Cyclic checks

A cyclic redundancy check that works from the low bit up: a state is moved down one place, and the
generator is added where a one falls out. The state after a message is the message, read as a number
with its first byte lowest and added to the first state, moved down once for every bit
(`foldl_crcByte`). Moving is linear in exclusive or and loses no state that fits the generator, so a burst
that is no longer than the generator never goes unnoticed (`cyclicCheck_burst`). -/

namespace Pinout.Foundation

def moveDown (generator state : Nat) : Nat :=
  if state % 2 = 1 then (state >>> 1) ^^^ generator else state >>> 1

def cyclicCheck (generator start : Nat) (message : List UInt8) : Nat :=
  message.foldl (fun state byte => (moveDown generator)^[8] (state ^^^ byte.toNat)) start

/-- A message as a number, its first byte lowest. -/
def messageNumber : List UInt8 → Nat
  | [] => 0
  | byte :: rest => 2 ^ 8 * messageNumber rest + byte.toNat

/-- A message in which some bits are turned over. -/
def damage (message error : List UInt8) : List UInt8 := List.zipWith (· ^^^ ·) message error

/-! ## Messages as numbers -/

theorem testBit_messageNumber (message : List UInt8) (i : Nat) :
    (messageNumber message).testBit i = getBit message i := by
  induction message generalizing i with
  | nil => simp [messageNumber, getBit]
  | cons byte rest ih =>
    rw [messageNumber, Nat.testBit_two_pow_mul_add _ byte.toNat_lt, ih]
    split
    · next hlow =>
      rw [getBit, Nat.div_eq_of_lt hlow, Nat.mod_eq_of_lt hlow]
      rfl
    · next hhigh =>
      have hbyte : i / 8 = (i - 8) / 8 + 1 := by omega
      have hbit : (i - 8) % 8 = i % 8 := by omega
      rw [getBit, getBit, hbyte, hbit, List.getElem?_cons_succ]

theorem messageNumber_damage {message error : List UInt8} (h : error.length = message.length) :
    messageNumber (damage message error) = messageNumber message ^^^ messageNumber error := by
  rw [damage]
  induction message generalizing error with
  | nil =>
    obtain rfl : error = [] := List.length_eq_zero_iff.mp h
    rfl
  | cons byte message ih =>
    match error, h with
    | flips :: error, h =>
      rw [List.zipWith_cons_cons, messageNumber, messageNumber, messageNumber,
        ih (Nat.succ.inj h), UInt8.toNat_xor]
      apply Nat.eq_of_testBit_eq
      intro i
      rw [Nat.testBit_xor,
        Nat.testBit_two_pow_mul_add _ (Nat.xor_lt_two_pow byte.toNat_lt flips.toNat_lt),
        Nat.testBit_two_pow_mul_add _ byte.toNat_lt, Nat.testBit_two_pow_mul_add _ flips.toNat_lt]
      split
      · exact Nat.testBit_xor ..
      · exact Nat.testBit_xor ..

/-! ## Moving down -/

section Moving

variable (generator : Nat)

@[simp] theorem moveDown_zero : moveDown generator 0 = 0 := rfl

/-- **Moving down is linear.** -/
theorem moveDown_xor (a b : Nat) :
    moveDown generator (a ^^^ b) = moveDown generator a ^^^ moveDown generator b := by
  simp only [moveDown, Nat.xor_mod_two_eq_one, Nat.shiftRight_xor_distrib]
  by_cases ha : a % 2 = 1 <;> by_cases hb : b % 2 = 1
  · simp only [ha, hb, iff_self, not_true_eq_false, if_false, if_true]
    rw [Nat.xor_assoc, Nat.xor_comm (b >>> 1), ← Nat.xor_assoc generator, Nat.xor_self, Nat.zero_xor]
  · simp only [ha, hb, iff_false, not_true_eq_false, not_false_eq_true, if_true, if_false]
    rw [Nat.xor_assoc, Nat.xor_comm (b >>> 1), ← Nat.xor_assoc]
  · simp only [ha, hb, false_iff, not_true_eq_false, not_false_eq_true, if_true, if_false]
    rw [Nat.xor_assoc]
  · simp only [ha, hb, iff_self, not_true_eq_false, if_false]

theorem iterate_moveDown_xor (k a b : Nat) :
    (moveDown generator)^[k] (a ^^^ b) =
      (moveDown generator)^[k] a ^^^ (moveDown generator)^[k] b := by
  induction k generalizing a b with
  | zero => rfl
  | succ k ih =>
    rw [Function.iterate_succ_apply, Function.iterate_succ_apply, Function.iterate_succ_apply,
      moveDown_xor, ih]

theorem iterate_moveDown_mul (k n : Nat) : (moveDown generator)^[k] (2 ^ k * n) = n := by
  induction k with
  | zero => simp
  | succ k ih =>
    have hmove : moveDown generator (2 ^ (k + 1) * n) = 2 ^ k * n := by
      have heven : 2 ^ (k + 1) * n = 2 * (2 ^ k * n) := by
        rw [pow_succ, Nat.mul_comm _ 2, Nat.mul_assoc]
      rw [heven, moveDown, if_neg (by omega), Nat.shiftRight_one]
      omega
    rw [Function.iterate_succ_apply, hmove, ih]

theorem iterate_moveDown_zero (k : Nat) : (moveDown generator)^[k] 0 = 0 := by
  have h := iterate_moveDown_mul generator k 0
  rwa [Nat.mul_zero] at h

variable {generator}

theorem moveDown_lt {w state : Nat} (hgenerator : generator < 2 ^ w) (h : state < 2 ^ w) :
    moveDown generator state < 2 ^ w := by
  have hhalf : state >>> 1 < 2 ^ w := by
    rw [Nat.shiftRight_one]
    omega
  rw [moveDown]
  split
  · exact Nat.xor_lt_two_pow hhalf hgenerator
  · exact hhalf

theorem iterate_moveDown_lt {w state : Nat} (hgenerator : generator < 2 ^ w) (h : state < 2 ^ w)
    (k : Nat) : (moveDown generator)^[k] state < 2 ^ w := by
  induction k generalizing state with
  | zero => exact h
  | succ k ih => exact ih (moveDown_lt hgenerator h)

/-- **No state is lost**: where the generator has the top bit, only nothing moves down to nothing. -/
theorem moveDown_ne_zero {w state : Nat} (hgenerator : 2 ^ w ≤ generator)
    (hstate : state < 2 ^ (w + 1)) (h : state ≠ 0) : moveDown generator state ≠ 0 := by
  rw [pow_succ] at hstate
  rw [moveDown, Nat.shiftRight_one]
  split
  · -- the upper half of a state has no top bit, the generator has
    intro hzero
    have heq : state / 2 = generator := by
      rw [← Nat.xor_zero (state / 2), ← Nat.xor_self generator, ← Nat.xor_assoc, hzero,
        Nat.zero_xor]
    omega
  · omega

theorem iterate_moveDown_ne_zero {w state : Nat} (hlow : 2 ^ w ≤ generator)
    (hhigh : generator < 2 ^ (w + 1)) (hstate : state < 2 ^ (w + 1)) (h : state ≠ 0) (k : Nat) :
    (moveDown generator)^[k] state ≠ 0 := by
  induction k generalizing state with
  | zero => exact h
  | succ k ih => exact ih (moveDown_lt hhigh hstate) (moveDown_ne_zero hlow hstate h)

end Moving

/-! ## Messages -/

section Messages

variable {generator : Nat}

/-- **The check of a message** is its number, added to the first state and moved down a bit at a time. -/
theorem cyclicCheck_eq_iterate (generator start : Nat) (message : List UInt8) :
    cyclicCheck generator start message =
      (moveDown generator)^[8 * message.length] (start ^^^ messageNumber message) := by
  induction message generalizing start with
  | nil => simp [cyclicCheck, messageNumber]
  | cons byte rest ih =>
    have hsplit : messageNumber (byte :: rest) = byte.toNat ^^^ 2 ^ 8 * messageNumber rest := by
      apply Nat.eq_of_testBit_eq
      intro i
      have hbyte : byte.toNat < 2 ^ 8 := byte.toNat_lt
      rw [messageNumber, Nat.testBit_two_pow_mul_add _ hbyte, Nat.testBit_xor, Nat.testBit_two_pow_mul]
      split
      · next hlow => simp [Nat.not_le.mpr hlow]
      · next hhigh =>
        rw [Nat.testBit_lt_two_pow (lt_of_lt_of_le hbyte (Nat.pow_le_pow_right (by decide)
          (Nat.not_lt.mp hhigh)))]
        simp [Nat.not_lt.mp hhigh]
    calc cyclicCheck generator start (byte :: rest)
        = cyclicCheck generator ((moveDown generator)^[8] (start ^^^ byte.toNat)) rest := rfl
      _ = (moveDown generator)^[8 * rest.length]
            ((moveDown generator)^[8] (start ^^^ byte.toNat) ^^^ messageNumber rest) := ih _
      _ = (moveDown generator)^[8 * rest.length]
            ((moveDown generator)^[8] (start ^^^ messageNumber (byte :: rest))) := by
          rw [hsplit, ← Nat.xor_assoc, iterate_moveDown_xor _ 8 (start ^^^ byte.toNat),
            iterate_moveDown_mul]
      _ = (moveDown generator)^[8 * (byte :: rest).length]
            (start ^^^ messageNumber (byte :: rest)) := by
          rw [← Function.iterate_add_apply, List.length_cons, Nat.mul_succ]

theorem cyclicCheck_lt {w start : Nat} (hw : 8 ≤ w) (hgenerator : generator < 2 ^ w)
    (hstart : start < 2 ^ w) (message : List UInt8) : cyclicCheck generator start message < 2 ^ w := by
  rw [cyclicCheck]
  induction message generalizing start with
  | nil => exact hstart
  | cons byte rest ih =>
    have hbyte : byte.toNat < 2 ^ w :=
      lt_of_lt_of_le byte.toNat_lt (Nat.pow_le_pow_right (by decide) hw)
    exact ih (iterate_moveDown_lt hgenerator (Nat.xor_lt_two_pow hstart hbyte) 8)

theorem cyclicCheck_append (start : Nat) (message more : List UInt8) :
    cyclicCheck generator start (message ++ more) =
      cyclicCheck generator (cyclicCheck generator start message) more := List.foldl_append

/-- **What follows a message is its check** exactly when the whole leaves nothing. -/
theorem cyclicCheck_append_eq_zero_iff {w start : Nat} (hw : 8 ≤ w + 1) (hlow : 2 ^ w ≤ generator)
    (hhigh : generator < 2 ^ (w + 1)) (hstart : start < 2 ^ (w + 1)) (message : List UInt8)
    {check : List UInt8} (hcheck : messageNumber check < 2 ^ (w + 1)) :
    cyclicCheck generator start (message ++ check) = 0 ↔
      messageNumber check = cyclicCheck generator start message := by
  have hstate := cyclicCheck_lt hw hhigh hstart message
  rw [cyclicCheck_append, cyclicCheck_eq_iterate _ _ check]
  constructor
  · intro hzero
    by_contra hne
    refine iterate_moveDown_ne_zero hlow hhigh (Nat.xor_lt_two_pow hstate hcheck) ?_ _ hzero
    exact Nat.xor_ne_zero_iff.mpr (Ne.symm hne)
  · intro heq
    rw [heq, Nat.xor_self, iterate_moveDown_zero]

/-! ## Bursts -/

/-- Something is turned over, and all of it within `n` consecutive bits. -/
structure IsBurst (n : Nat) (error : List UInt8) : Prop where
  nonzero : ∃ i, getBit error i = true
  confined : ∃ start, ∀ i, getBit error i = true → start ≤ i ∧ i < start + n

theorem IsBurst.exists_messageNumber {n : Nat} {error : List UInt8} (h : IsBurst n error) :
    ∃ start m, messageNumber error = 2 ^ start * m ∧ m ≠ 0 ∧ m < 2 ^ n ∧ start ≤ 8 * error.length := by
  obtain ⟨⟨i, hi⟩, start, hconfined⟩ := h
  have hbelow : i < 8 * error.length := by
    by_contra hbeyond
    rw [getBit, List.getElem?_eq_none (by omega)] at hi
    simp at hi
  refine ⟨start, messageNumber error >>> start, ?_, ?_, ?_, ?_⟩
  · rw [Nat.mul_comm, ← Nat.shiftLeft_eq]
    apply Nat.eq_of_testBit_eq
    intro j
    rw [Nat.testBit_shiftLeft, Nat.testBit_shiftRight, testBit_messageNumber]
    by_cases hj : start ≤ j
    · rw [decide_eq_true hj, Bool.true_and, Nat.add_sub_cancel' hj, testBit_messageNumber]
    · rw [decide_eq_false hj, Bool.false_and]
      exact Bool.eq_false_iff.mpr fun hbit => hj (hconfined j hbit).1
  · intro hzero
    have hbit : (messageNumber error >>> start).testBit (i - start) = true := by
      rw [Nat.testBit_shiftRight, Nat.add_sub_cancel' (hconfined i hi).1, testBit_messageNumber]
      exact hi
    rw [hzero, Nat.zero_testBit] at hbit
    cases hbit
  · apply Nat.lt_pow_two_of_testBit
    intro j hj
    rw [Nat.testBit_shiftRight, testBit_messageNumber]
    refine Bool.eq_false_iff.mpr fun hbit => ?_
    have hlt := (hconfined _ hbit).2
    omega
  · exact le_of_lt (lt_of_le_of_lt (hconfined i hi).1 hbelow)

/-- **A burst is noticed**: a message that leaves nothing leaves something after a burst that is no longer
than the generator. -/
theorem cyclicCheck_burst {w start : Nat} (hlow : 2 ^ w ≤ generator) (hhigh : generator < 2 ^ (w + 1))
    {message error : List UInt8} (hlength : error.length = message.length)
    (hburst : IsBurst (w + 1) error) (hclean : cyclicCheck generator start message = 0) :
    cyclicCheck generator start (damage message error) ≠ 0 := by
  obtain ⟨place, m, hnumber, hne, hlt, hplace⟩ := hburst.exists_messageNumber
  rw [cyclicCheck_eq_iterate] at hclean
  have hdamaged : (damage message error).length = message.length := by
    rw [damage, List.length_zipWith, hlength, Nat.min_self]
  rw [cyclicCheck_eq_iterate, hdamaged, messageNumber_damage hlength, ← Nat.xor_assoc,
    iterate_moveDown_xor, hclean, Nat.zero_xor, hnumber]
  have hsteps : 8 * message.length = (8 * message.length - place) + place := by omega
  rw [hsteps, Function.iterate_add_apply, iterate_moveDown_mul]
  exact iterate_moveDown_ne_zero hlow hhigh hlt hne _

end Messages

end Pinout.Foundation
