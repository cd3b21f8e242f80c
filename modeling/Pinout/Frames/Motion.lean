import Pinout.Foundation.RigidMotion
import Pinout.Foundation.Rotation
import Pinout.Frames.Frames
import Mathlib.Algebra.Group.MinimalAxioms

/-! # Transforms as rigid motions

Unit quaternions act on vectors by `rotateVector`. A transform whose rotation is one of them is a rigid motion of the
poses: applying it applies the motion, inverting it inverts the motion. Composing two multiplies their motions in the
order they are listed, so that the second one acts first: it is composition where the two commute. -/

open scoped Quaternion

namespace Pinout.Frames

open Foundation

/-! ## Vectors -/

namespace Vector3

instance : Zero Vector3 := ⟨⟨0, 0, 0⟩⟩

instance : Add Vector3 := ⟨fun v u => ⟨v.x + u.x, v.y + u.y, v.z + u.z⟩⟩

instance : Neg Vector3 := ⟨fun v => ⟨-v.x, -v.y, -v.z⟩⟩

theorem zero_def : (0 : Vector3) = ⟨0, 0, 0⟩ := rfl

theorem add_def (v u : Vector3) : v + u = ⟨v.x + u.x, v.y + u.y, v.z + u.z⟩ := rfl

theorem neg_def (v : Vector3) : -v = ⟨-v.x, -v.y, -v.z⟩ := rfl

instance : AddCommGroup Vector3 where
  toAddGroup := AddGroup.ofLeftAxioms (fun v u s => by simp [add_def, add_assoc])
    (fun v => by simp [add_def, zero_def]) (fun v => by simp [add_def, neg_def, zero_def])
  add_comm v u := by simp [add_def, add_comm]

/-- A vector as a quaternion without a real part. -/
def toPure (v : Vector3) : ℍ[ℚ] :=
  ⟨0, v.x, v.y, v.z⟩

@[simp] theorem re_toPure (v : Vector3) : v.toPure.re = 0 := rfl

@[simp] theorem imI_toPure (v : Vector3) : v.toPure.imI = v.x := rfl

@[simp] theorem imJ_toPure (v : Vector3) : v.toPure.imJ = v.y := rfl

@[simp] theorem imK_toPure (v : Vector3) : v.toPure.imK = v.z := rfl

theorem toPure_injective : Function.Injective toPure := by
  intro v u h
  exact Vector3.ext (congrArg QuaternionAlgebra.imI h) (congrArg QuaternionAlgebra.imJ h)
    (congrArg QuaternionAlgebra.imK h)

@[simp] theorem toPure_zero : (0 : Vector3).toPure = 0 := rfl

@[simp] theorem toPure_add (v u : Vector3) : (v + u).toPure = v.toPure + u.toPure := by
  ext <;> simp [add_def]

end Vector3

/-! ## Unit quaternions -/

abbrev UnitQuaternion : Type := unitary ℍ[ℚ]

namespace UnitQuaternion

def components (q : UnitQuaternion) : Quaternion :=
  ⟨(q : ℍ[ℚ]).imI, (q : ℍ[ℚ]).imJ, (q : ℍ[ℚ]).imK, (q : ℍ[ℚ]).re⟩

theorem components_injective : Function.Injective components := by
  intro q p h
  simp only [components, Quaternion.mk.injEq] at h
  obtain ⟨hx, hy, hz, hw⟩ := h
  exact Subtype.ext (QuaternionAlgebra.ext hw hx hy hz)

theorem sq_add_sq_eq_one (q : UnitQuaternion) :
    q.components.x ^ 2 + q.components.y ^ 2 + q.components.z ^ 2 + q.components.w ^ 2 = 1 := by
  have hunit := (mem_unitary_iff_normSq (q : ℍ[ℚ])).mp q.2
  rw [Quaternion.normSq_def'] at hunit
  simp only [components]
  linear_combination hunit

end UnitQuaternion

def Quaternion.IsUnit (q : Quaternion) : Prop :=
  q.x ^ 2 + q.y ^ 2 + q.z ^ 2 + q.w ^ 2 = 1

instance (q : Quaternion) : Decidable q.IsUnit :=
  inferInstanceAs (Decidable (_ = _))

/-- The element of the algebra with the components of a quaternion. -/
def Quaternion.toAlgebra (q : Quaternion) : ℍ[ℚ] :=
  ⟨q.w, q.x, q.y, q.z⟩

/-- What has length one are the components of a unit quaternion. -/
theorem Quaternion.IsUnit.exists_components {q : Quaternion} (hunit : q.IsUnit) :
    ∃ g : UnitQuaternion, g.components = q := by
  refine ⟨⟨q.toAlgebra, (mem_unitary_iff_normSq _).mpr ?_⟩, rfl⟩
  rw [Quaternion.normSq_def']
  calc q.w ^ 2 + q.x ^ 2 + q.y ^ 2 + q.z ^ 2 = q.x ^ 2 + q.y ^ 2 + q.z ^ 2 + q.w ^ 2 := by ring
    _ = 1 := hunit

theorem quaternion_eq_of_isUnit {q : Quaternion} (hunit : q.IsUnit) : quaternion q.x q.y q.z q.w = .ok q := by
  have hlength : hypot q.x q.y q.z q.w = 1 := by
    rw [hypot, hunit]
    simp
  simp [quaternion, hlength]

/-! ## What the functions of the source do to unit quaternions -/

section Components

variable (g h : UnitQuaternion) (v : Vector3)

theorem quaternionMultiply_components :
    quaternionMultiply g.components h.components = .ok (g * h).components := by
  rw [← quaternion_eq_of_isUnit (g * h).sq_add_sq_eq_one, quaternionMultiply]
  congr 1 <;> simp [UnitQuaternion.components]

theorem quaternionConjugate_components : quaternionConjugate g.components = g⁻¹.components := by
  rw [← Unitary.star_eq_inv]
  simp [quaternionConjugate, UnitQuaternion.components]

theorem toPure_rotateVector_components :
    (rotateVector g.components v).toPure = (g : ℍ[ℚ]) * v.toPure * star (g : ℍ[ℚ]) := by
  have hunit := (mem_unitary_iff_normSq (g : ℍ[ℚ])).mp g.2
  refine QuaternionAlgebra.ext ?_ ?_ ?_ ?_
  · exact (re_conj (v := v.toPure) hunit).symm
  · exact (imI_conj (v := v.toPure) hunit).symm
  · exact (imJ_conj (v := v.toPure) hunit).symm
  · exact (imK_conj (v := v.toPure) hunit).symm

end Components

instance : DistribMulAction UnitQuaternion Vector3 where
  smul g v := rotateVector g.components v
  one_smul v := by
    refine Vector3.toPure_injective ?_
    exact (toPure_rotateVector_components 1 v).trans (by simp)
  mul_smul g h v := by
    refine Vector3.toPure_injective ?_
    calc (rotateVector (g * h).components v).toPure
        = (g * h : UnitQuaternion) * v.toPure * star ((g * h : UnitQuaternion) : ℍ[ℚ]) :=
          toPure_rotateVector_components (g * h) v
      _ = g * (h * v.toPure * star (h : ℍ[ℚ])) * star (g : ℍ[ℚ]) := by simp [mul_assoc]
      _ = (rotateVector g.components (rotateVector h.components v)).toPure := by
          rw [toPure_rotateVector_components, toPure_rotateVector_components]
  smul_zero g := by
    refine Vector3.toPure_injective ?_
    exact (toPure_rotateVector_components g 0).trans (by simp)
  smul_add g v u := by
    refine Vector3.toPure_injective ?_
    calc (rotateVector g.components (v + u)).toPure
        = g * v.toPure * star (g : ℍ[ℚ]) + g * u.toPure * star (g : ℍ[ℚ]) := by
          rw [toPure_rotateVector_components, Vector3.toPure_add, mul_add, add_mul]
      _ = (rotateVector g.components v + rotateVector g.components u).toPure := by
          rw [Vector3.toPure_add, toPure_rotateVector_components, toPure_rotateVector_components]

theorem rotateVector_components (g : UnitQuaternion) (v : Vector3) : rotateVector g.components v = g • v := rfl

/-! ## Transforms -/

section Rigid

variable (now madeAt madeAt' : Int) (a b c : String) (g h : UnitQuaternion) (t s : Vector3)

def rigid : Transform :=
  ⟨a, b, t, g.components, madeAt⟩

def placed (frame : String) (at_ : Vector3 × UnitQuaternion) : FrameReference :=
  ⟨frame, at_.1, at_.2.components⟩

theorem applyTransform_rigid (p : Vector3 × UnitQuaternion) :
    applyTransform (rigid madeAt a b g t) (placed a p) = .ok (placed b (rigidMotion g t p)) := by
  simp [applyTransform, rigid, placed, quaternionMultiply_components, rotateVector_components, Vector3.add_def]

/-- Composing multiplies the motions in the order they are listed. -/
theorem composeTransforms_rigid :
    composeTransforms now (rigid madeAt a b g t) (rigid madeAt' b c h s) =
      .ok (rigid now a c (g * h) (t + g • s)) := by
  simp [composeTransforms, rigid, makeTransform, quaternionMultiply_components, rotateVector_components,
    Vector3.add_def]

theorem invertTransform_rigid :
    invertTransform now (rigid madeAt a b g t) = rigid now b a g⁻¹ (-(g⁻¹ • t)) := by
  simp [invertTransform, rigid, makeTransform, quaternionConjugate_components, rotateVector_components,
    Vector3.neg_def]

end Rigid

/-! ## Composition -/

/-- The composed transform takes the pose where the two take it one after the other. -/
def ComposesAt (now : Int) (first second : Transform) (reference : FrameReference) : Prop :=
  ∃ result, (composeTransforms now first second >>= fun composed => applyTransform composed reference) = .ok result ∧
    (applyTransform first reference >>= applyTransform second) = .ok result

/-- The inverted transform takes the pose back. -/
def UndoneAt (now : Int) (transform : Transform) (reference : FrameReference) : Prop :=
  (applyTransform transform reference >>= applyTransform (invertTransform now transform)) = .ok reference

/-- The order of the two makes no difference: neither to their rotations nor to how far they move together. -/
def Interchange (first second : Transform) : Prop :=
  quaternionMultiply first.rotation second.rotation = quaternionMultiply second.rotation first.rotation ∧
    first.translation + rotateVector first.rotation second.translation =
      second.translation + rotateVector second.rotation first.translation

instance (first second : Transform) : Decidable (Interchange first second) :=
  inferInstanceAs (Decidable (_ ∧ _))

theorem placed_inj {frame : String} {p q : Vector3 × UnitQuaternion} : placed frame p = placed frame q ↔ p = q := by
  constructor
  · intro h
    simp only [placed, FrameReference.mk.injEq, Pose.mk.injEq, true_and] at h
    exact Prod.ext h.1 (UnitQuaternion.components_injective h.2)
  · rintro rfl
    rfl

theorem interchange_rigid {a b c : String} {madeAt madeAt' : Int} {g h : UnitQuaternion} {t s : Vector3} :
    Interchange (rigid madeAt a b g t) (rigid madeAt' b c h s) ↔ g * h = h * g ∧ t + g • s = s + h • t := by
  simp [Interchange, rigid, quaternionMultiply_components, rotateVector_components,
    UnitQuaternion.components_injective.eq_iff]

/-- A transform with a unit quaternion is the transform of a rigid motion. -/
theorem Transform.exists_rigid {transform : Transform} (hunit : transform.rotation.IsUnit) :
    ∃ madeAt a b g t, transform = rigid madeAt a b g t := by
  obtain ⟨g, hg⟩ := hunit.exists_components
  exact ⟨transform.madeAt, transform.fromFrame, transform.toFrame, g, transform.translation, by rw [rigid, hg]⟩

theorem FrameReference.exists_placed {reference : FrameReference} (hunit : reference.pose.orientation.IsUnit) :
    ∃ frame p, reference = placed frame p := by
  obtain ⟨g, hg⟩ := hunit.exists_components
  exact ⟨reference.frame, (reference.pose.position, g), by rw [placed, hg]⟩

theorem undoneAt (now : Int) {transform : Transform} {reference : FrameReference}
    (htransform : transform.rotation.IsUnit) (hreference : reference.pose.orientation.IsUnit)
    (hframe : reference.frame = transform.fromFrame) : UndoneAt now transform reference := by
  obtain ⟨madeAt, a, b, g, t, rfl⟩ := Transform.exists_rigid htransform
  obtain ⟨frame, p, rfl⟩ := FrameReference.exists_placed hreference
  obtain rfl : frame = a := hframe
  rw [UndoneAt, invertTransform_rigid, applyTransform_rigid]
  calc applyTransform (rigid now b frame g⁻¹ (-(g⁻¹ • t))) (placed b (rigidMotion g t p))
      = .ok (placed frame (((rigidMotion g t)⁻¹ * rigidMotion g t) p)) := by
        rw [applyTransform_rigid, ← rigidMotion_inv, Equiv.Perm.mul_apply]
    _ = .ok (placed frame p) := by rw [inv_mul_cancel, Equiv.Perm.one_apply]

/-- Transforms compose at a pose exactly when their order makes no difference. -/
theorem composesAt_iff (now : Int) {first second : Transform} {reference : FrameReference}
    (hfirst : first.rotation.IsUnit) (hsecond : second.rotation.IsUnit)
    (hreference : reference.pose.orientation.IsUnit) (hchain : first.toFrame = second.fromFrame)
    (hframe : reference.frame = first.fromFrame) :
    ComposesAt now first second reference ↔ Interchange first second := by
  obtain ⟨madeAt, a, b, g, t, rfl⟩ := Transform.exists_rigid hfirst
  obtain ⟨madeAt', b', c, h, s, rfl⟩ := Transform.exists_rigid hsecond
  obtain ⟨frame, p, rfl⟩ := FrameReference.exists_placed hreference
  obtain rfl : b = b' := hchain
  obtain rfl : frame = a := hframe
  have hcomposed : (composeTransforms now (rigid madeAt frame b g t) (rigid madeAt' b c h s) >>=
      fun composed => applyTransform composed (placed frame p)) =
        .ok (placed c ((rigidMotion g t * rigidMotion h s) p)) := by
    rw [composeTransforms_rigid, rigidMotion_mul]
    exact applyTransform_rigid now frame c _ _ p
  have hsequence : (applyTransform (rigid madeAt frame b g t) (placed frame p) >>=
      applyTransform (rigid madeAt' b c h s)) = .ok (placed c ((rigidMotion h s * rigidMotion g t) p)) := by
    rw [applyTransform_rigid]
    exact applyTransform_rigid madeAt' b c h s _
  rw [ComposesAt, hcomposed, hsequence, interchange_rigid, ← rigidMotion_mul_apply_eq_iff (p := p)]
  simp only [Except.ok.injEq, exists_eq_left']
  rw [placed_inj, eq_comm]

/-- Frame composition is composition, and inverting undoes, exactly where the order of the transforms makes no
difference: at every pose or at none. -/
theorem composes_and_undoes_iff (now : Int) {first second : Transform} {reference : FrameReference}
    (hfirst : first.rotation.IsUnit) (hsecond : second.rotation.IsUnit)
    (hreference : reference.pose.orientation.IsUnit) (hchain : first.toFrame = second.fromFrame)
    (hframe : reference.frame = first.fromFrame) :
    ComposesAt now first second reference ∧ UndoneAt now first reference ↔ Interchange first second := by
  rw [composesAt_iff now hfirst hsecond hreference hchain hframe]
  exact and_iff_left (undoneAt now hfirst hreference hframe)

def originOf (frame : String) : FrameReference :=
  ⟨frame, ⟨⟨0, 0, 0⟩, ⟨0, 0, 0, 1⟩⟩⟩

def halfTurn (fromFrame toFrame : String) : Transform :=
  ⟨fromFrame, toFrame, ⟨0, 0, 0⟩, ⟨0, 0, 1, 0⟩, 0⟩

def sidestep (fromFrame toFrame : String) : Transform :=
  ⟨fromFrame, toFrame, ⟨1, 0, 0⟩, ⟨0, 0, 0, 1⟩, 0⟩

/-- Two steps in a row are composed. -/
theorem composes_and_undoes_sidesteps :
    ComposesAt 0 (sidestep "world" "base") (sidestep "base" "tcp") (originOf "world") ∧
      UndoneAt 0 (sidestep "world" "base") (originOf "world") :=
  (composes_and_undoes_iff 0 (by decide +kernel) (by decide +kernel) (by decide +kernel) rfl rfl).mpr
    (by decide +kernel)

/-- A half turn and then a step is composed to a step the other way. -/
theorem not_composes : ¬ ∀ (now : Int) (first second : Transform) (reference : FrameReference),
    first.rotation.IsUnit → second.rotation.IsUnit → reference.pose.orientation.IsUnit →
    first.toFrame = second.fromFrame → reference.frame = first.fromFrame →
    ComposesAt now first second reference ∧ UndoneAt now first reference := by
  intro h
  obtain ⟨⟨result, hcomposed, hsequence⟩, -⟩ := h 0 (halfTurn "world" "base") (sidestep "base" "tcp")
    (originOf "world") (by decide +kernel) (by decide +kernel) (by decide +kernel) rfl rfl
  rw [← hsequence] at hcomposed
  exact absurd hcomposed (by decide +kernel)

end Pinout.Frames
