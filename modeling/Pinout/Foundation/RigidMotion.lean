import Mathlib.Algebra.Group.End
import Mathlib.Algebra.GroupWithZero.Action.Defs
import Mathlib.Tactic.Abel

/-! # Rigid motions

A group that acts on a space turns what is placed in it, and a vector moves it: a placement is a position with an
orientation, and the motion by `g` and `t` takes a position `p` to `g • p + t` and an orientation `o` to `g * o`.
Motions are permutations of the placements, so that the product of two is the second one followed by the first. -/

namespace Pinout.Foundation

universe u v

variable {G : Type u} {V : Type v} [Group G] [AddCommGroup V] [DistribMulAction G V]

/-- The motion that turns by `g` and then moves by `t`. -/
def rigidMotion (g : G) (t : V) : Equiv.Perm (V × G) where
  toFun p := (g • p.1 + t, g * p.2)
  invFun p := (g⁻¹ • (p.1 - t), g⁻¹ * p.2)
  left_inv p := by simp
  right_inv p := by simp

@[simp] theorem rigidMotion_apply (g : G) (t : V) (p : V × G) :
    rigidMotion g t p = (g • p.1 + t, g * p.2) := rfl

/-- A motion tells how it turns and how far it moves, by what it does to a single placement. -/
theorem rigidMotion_apply_eq_iff {g h : G} {t s : V} {p : V × G} :
    rigidMotion g t p = rigidMotion h s p ↔ g = h ∧ t = s := by
  constructor
  · intro heq
    simp only [rigidMotion_apply, Prod.mk.injEq, mul_left_inj] at heq
    obtain ⟨hposition, rfl⟩ := heq
    exact ⟨rfl, add_left_cancel hposition⟩
  · rintro ⟨rfl, rfl⟩
    rfl

theorem rigidMotion_mul (g h : G) (t s : V) :
    rigidMotion g t * rigidMotion h s = rigidMotion (g * h) (t + g • s) := by
  ext p
  · simp only [Equiv.Perm.mul_apply, rigidMotion_apply, smul_add, mul_smul]
    abel
  · simp [mul_assoc]

theorem rigidMotion_inv (g : G) (t : V) : (rigidMotion g t)⁻¹ = rigidMotion g⁻¹ (-(g⁻¹ • t)) := by
  rw [inv_eq_iff_mul_eq_one, rigidMotion_mul]
  ext p <;> simp

/-- The order of two motions does not matter exactly when it matters to neither part of them. -/
theorem rigidMotion_mul_apply_eq_iff {g h : G} {t s : V} {p : V × G} :
    (rigidMotion g t * rigidMotion h s) p = (rigidMotion h s * rigidMotion g t) p ↔
      g * h = h * g ∧ t + g • s = s + h • t := by
  rw [rigidMotion_mul, rigidMotion_mul, rigidMotion_apply_eq_iff]

end Pinout.Foundation
