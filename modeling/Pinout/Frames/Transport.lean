import Pinout.Frames.Chains

/-! # Poses in another frame

`transformFrameReference` takes every pose of a frame to the target by one rigid motion: two poses are as far from each
other there as they were, and turned against each other as they were. -/

open scoped Quaternion

namespace Pinout.Frames

open Foundation

def squareDistance (a b : Vector3) : ℚ := (a.x - b.x) ^ 2 + (a.y - b.y) ^ 2 + (a.z - b.z) ^ 2

/-- The second two poses are placed towards each other as the first two. -/
def Congruent (p q p' q' : Pose) : Prop :=
  squareDistance p'.position q'.position = squareDistance p.position q.position ∧
    quaternionMultiply (quaternionConjugate p'.orientation) q'.orientation =
      quaternionMultiply (quaternionConjugate p.orientation) q.orientation

theorem squareDistance_eq (a b : Vector3) : squareDistance a b = Quaternion.normSq (a - b).toPure := by
  rw [sub_eq_add_neg, Quaternion.normSq_def', squareDistance, Vector3.toPure]
  simp only [Vector3.add_def, Vector3.neg_def]
  ring

/-- A rotation keeps lengths. -/
theorem normSq_smul (g : UnitQuaternion) (v : Vector3) :
    Quaternion.normSq (g • v).toPure = Quaternion.normSq v.toPure := by
  have hunit := (mem_unitary_iff_normSq (g : ℍ[ℚ])).mp g.2
  rw [← rotateVector_components, toPure_rotateVector_components, map_mul, map_mul, Quaternion.normSq_star, hunit,
    one_mul, mul_one]

/-- A rigid motion keeps poses congruent. -/
theorem congruent_rigidMotion (a b : String) (g : UnitQuaternion) (t : Vector3) (p q : Vector3 × UnitQuaternion) :
    Congruent (placed a p).pose (placed a q).pose (placed b (rigidMotion g t p)).pose
      (placed b (rigidMotion g t q)).pose := by
  constructor
  · have hmoved : g • p.1 + t - (g • q.1 + t) = g • (p.1 - q.1) := by rw [smul_sub]; abel
    show squareDistance (g • p.1 + t) (g • q.1 + t) = squareDistance p.1 q.1
    rw [squareDistance_eq, squareDistance_eq, hmoved, normSq_smul]
  · simp [placed, quaternionConjugate_components, quaternionMultiply_components, mul_assoc]

/-- What is composed of rigid motions is one. -/
theorem isUnit_of_composeAll {now : Int} {composed result : Transform} {path : List Transform}
    (hcomposed : composed.rotation.IsUnit) (hpath : ∀ transform ∈ path, transform.rotation.IsUnit)
    (h : composeAll now composed path = .ok result) : result.rotation.IsUnit := by
  induction path generalizing composed with
  | nil =>
    obtain rfl := Except.ok.inj h
    exact hcomposed
  | cons transform path ih =>
    rw [List.forall_mem_cons] at hpath
    obtain ⟨next, hnext, h⟩ := exists_of_bind_eq_ok h
    refine ih ?_ hpath.2 h
    have hchain : composed.toFrame = transform.fromFrame := by
      by_contra hne
      rw [composeTransforms, if_pos hne] at hnext
      cases hnext
    obtain ⟨madeAt, a, b, g, t, rfl⟩ := Transform.exists_rigid hcomposed
    obtain ⟨madeAt', b', c, k, s, rfl⟩ := Transform.exists_rigid hpath.1
    obtain rfl : b = b' := hchain
    rw [composeTransforms_rigid] at hnext
    obtain rfl := Except.ok.inj hnext
    exact (g * k).sq_add_sq_eq_one

/-- **Poses stay congruent.** Whatever transforms are listed, as long as their rotations have length one: two poses of a
frame that are taken to a target frame are poses of the target, congruent to what they were. -/
theorem congruent_of_transformFrameReference (now : Int) {transforms : List Transform}
    (htransforms : ∀ transform ∈ transforms, transform.rotation.IsUnit) {reference other result result' : FrameReference}
    {target : String} (hframe : other.frame = reference.frame) (hreference : reference.pose.orientation.IsUnit)
    (hother : other.pose.orientation.IsUnit)
    (hresult : transformFrameReference now transforms reference target = .ok result)
    (hresult' : transformFrameReference now transforms other target = .ok result') :
    result.frame = target ∧ result'.frame = target ∧ Congruent reference.pose other.pose result.pose result'.pose := by
  refine ⟨frame_of_transformFrameReference hresult, frame_of_transformFrameReference hresult', ?_⟩
  rw [transformFrameReference] at hresult hresult'
  rw [hframe] at hresult'
  by_cases hsame : reference.frame = target
  · rw [if_pos hsame] at hresult hresult'
    obtain rfl := Except.ok.inj hresult
    obtain rfl := Except.ok.inj hresult'
    exact ⟨rfl, rfl⟩
  · rw [if_neg hsame] at hresult hresult'
    obtain ⟨chain, hchain, happly⟩ := exists_of_bind_eq_ok hresult
    obtain ⟨chain', hchain', happly'⟩ := exists_of_bind_eq_ok hresult'
    obtain rfl : chain = chain' := Except.ok.inj (hchain.symm.trans hchain')
    obtain ⟨transform, path, hpath, -, hcomposed⟩ := of_transformChain_eq_ok hchain
    have hunit : chain.rotation.IsUnit := isUnit_of_composeAll (htransforms _ (hpath.mem _ (by simp)))
      (fun transform hmem => htransforms _ (hpath.mem _ (List.mem_cons_of_mem _ hmem))) hcomposed
    have hfrom := (frames_of_transformChain hchain).1
    obtain ⟨madeAt, a, b, g, t, rfl⟩ := Transform.exists_rigid hunit
    obtain ⟨frame, p, rfl⟩ := FrameReference.exists_placed hreference
    obtain ⟨frame', q, rfl⟩ := FrameReference.exists_placed hother
    obtain rfl : frame' = frame := hframe
    obtain rfl : a = frame' := hfrom
    rw [applyTransform_rigid] at happly happly'
    obtain rfl := Except.ok.inj happly
    obtain rfl := Except.ok.inj happly'
    exact congruent_rigidMotion _ _ g t p q

/-- A tool that is half a turn and then a step away from the world. -/
def tool : List Transform := [halfTurn "world" "base", sidestep "base" "tcp"]

def workpiece : FrameReference := ⟨"world", ⟨3, 4, 0⟩, ⟨1, 0, 0, 0⟩⟩

/-- The origin of the world and a workpiece, seen from the tool. -/
theorem congruent_tool :
    Congruent (originOf "world").pose workpiece.pose ⟨⟨-1, 0, 0⟩, ⟨0, 0, 1, 0⟩⟩ ⟨⟨-4, -4, 0⟩, ⟨0, 1, 0, 0⟩⟩ := by
  have hframe : workpiece.frame = (originOf "world").frame := rfl
  have hresult : transformFrameReference 0 tool (originOf "world") "tcp" =
      .ok ⟨"tcp", ⟨-1, 0, 0⟩, ⟨0, 0, 1, 0⟩⟩ := by decide +kernel
  have hresult' : transformFrameReference 0 tool workpiece "tcp" = .ok ⟨"tcp", ⟨-4, -4, 0⟩, ⟨0, 1, 0, 0⟩⟩ := by
    decide +kernel
  exact (congruent_of_transformFrameReference 0 (by decide +kernel) hframe (by decide +kernel) (by decide +kernel)
    hresult hresult').2.2

end Pinout.Frames
