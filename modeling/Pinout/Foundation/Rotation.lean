import Mathlib.Algebra.Quaternion
import Mathlib.Algebra.Star.Unitary
import Mathlib.Tactic.LinearCombination

/-! # Rotations by unit quaternions

A quaternion of length one is unitary, and its conjugation takes a vector to a vector: Rodrigues' form of it. -/

open Quaternion

namespace Pinout.Foundation

universe u

variable {R : Type u} [CommRing R]

theorem mem_unitary_iff_normSq (q : ℍ[R]) : q ∈ unitary ℍ[R] ↔ normSq q = 1 := by
  have hone : ((1 : R) : ℍ[R]) = 1 := Quaternion.coe_one
  rw [Unitary.mem_iff, star_mul_self, self_mul_star, and_self, ← hone, Quaternion.coe_inj]

/-! ### Conjugation, by cross products of the vectors of the two -/

section Rodrigues

variable {q v : ℍ[R]}

theorem re_conj (hunit : normSq q = 1) : (q * v * star q).re = v.re := by
  rw [normSq_def'] at hunit
  simp
  linear_combination v.re * hunit

theorem imI_conj (hunit : normSq q = 1) :
    (q * v * star q).imI = v.imI + 2 * (q.re * (q.imJ * v.imK - q.imK * v.imJ) +
      (q.imJ * (q.imI * v.imJ - q.imJ * v.imI) - q.imK * (q.imK * v.imI - q.imI * v.imK))) := by
  rw [normSq_def'] at hunit
  simp
  linear_combination v.imI * hunit

theorem imJ_conj (hunit : normSq q = 1) :
    (q * v * star q).imJ = v.imJ + 2 * (q.re * (q.imK * v.imI - q.imI * v.imK) +
      (q.imK * (q.imJ * v.imK - q.imK * v.imJ) - q.imI * (q.imI * v.imJ - q.imJ * v.imI))) := by
  rw [normSq_def'] at hunit
  simp
  linear_combination v.imJ * hunit

theorem imK_conj (hunit : normSq q = 1) :
    (q * v * star q).imK = v.imK + 2 * (q.re * (q.imI * v.imJ - q.imJ * v.imI) +
      (q.imI * (q.imK * v.imI - q.imI * v.imK) - q.imJ * (q.imJ * v.imK - q.imK * v.imJ))) := by
  rw [normSq_def'] at hunit
  simp
  linear_combination v.imK * hunit

end Rodrigues

end Pinout.Foundation
