import Pinout.Foundation.Fallible
import Mathlib.Data.Rat.Sqrt

/-! # Rigid-body frame math

`packages/core/src/frames/frames.ts` over exact arithmetic. A transform from one frame to another carries the pose of
the first one's origin in the coordinates of the second: `applyTransform` takes `p` to `R·p + t`. Frames that do not
chain are refused. -/

namespace Pinout.Frames

open Foundation

@[ext]
structure Vector3 where
  x : ℚ
  y : ℚ
  z : ℚ
  deriving DecidableEq, Repr

@[ext]
structure Quaternion where
  x : ℚ
  y : ℚ
  z : ℚ
  w : ℚ
  deriving DecidableEq, Repr

structure Pose where
  position : Vector3
  orientation : Quaternion
  deriving DecidableEq, Repr

structure FrameReference where
  frame : String
  pose : Pose
  deriving DecidableEq, Repr

structure Transform where
  fromFrame : String
  toFrame : String
  translation : Vector3
  rotation : Quaternion
  madeAt : Int
  deriving DecidableEq, Repr

/-! ## Quaternions -/

/-- `Math.hypot`, exact where the sum of the squares is a square. -/
def hypot (x y z w : ℚ) : ℚ :=
  Rat.sqrt (x ^ 2 + y ^ 2 + z ^ 2 + w ^ 2)

/-- `quaternion`: unit length on entry. -/
def quaternion (x y z w : ℚ) : Except String Quaternion :=
  let length := hypot x y z w
  if length = 0 then .error "Quaternion must be non-zero and finite."
  else .ok ⟨x / length, y / length, z / length, w / length⟩

def quaternionMultiply (a b : Quaternion) : Except String Quaternion :=
  quaternion
    (a.w * b.x + a.x * b.w + a.y * b.z - a.z * b.y)
    (a.w * b.y - a.x * b.z + a.y * b.w + a.z * b.x)
    (a.w * b.z + a.x * b.y - a.y * b.x + a.z * b.w)
    (a.w * b.w - a.x * b.x - a.y * b.y - a.z * b.z)

def quaternionConjugate (q : Quaternion) : Quaternion :=
  ⟨-q.x, -q.y, -q.z, q.w⟩

def cross (a b : Vector3) : Vector3 :=
  ⟨a.y * b.z - a.z * b.y, a.z * b.x - a.x * b.z, a.x * b.y - a.y * b.x⟩

def rotateVector (q : Quaternion) (v : Vector3) : Vector3 :=
  let qv : Vector3 := ⟨q.x, q.y, q.z⟩
  let t := cross qv v
  let t2 := cross qv t
  ⟨v.x + 2 * (q.w * t.x + t2.x), v.y + 2 * (q.w * t.y + t2.y), v.z + 2 * (q.w * t.z + t2.z)⟩

/-! ## Transforms -/

/-- `makeTransform`, at the time `now`. -/
def makeTransform (now : Int) (fromFrame toFrame : String) (translation : Vector3) (rotation : Quaternion) : Transform :=
  ⟨fromFrame, toFrame, translation, rotation, now⟩

/-- What `applyTransform` throws for a pose of another frame. -/
def poseMismatch (transform : Transform) (reference : FrameReference) : String :=
  "FRAME_MISMATCH: pose is in frame '" ++ reference.frame ++ "' but the transform maps '" ++ transform.fromFrame ++
    "' → '" ++ transform.toFrame ++ "'. Frames are never silently mixed."

def applyTransform (transform : Transform) (reference : FrameReference) : Except String FrameReference :=
  if reference.frame ≠ transform.fromFrame then .error (poseMismatch transform reference)
  else do
    let rotated := rotateVector transform.rotation reference.pose.position
    let position : Vector3 :=
      ⟨rotated.x + transform.translation.x, rotated.y + transform.translation.y, rotated.z + transform.translation.z⟩
    let orientation ← quaternionMultiply transform.rotation reference.pose.orientation
    return ⟨transform.toFrame, ⟨position, orientation⟩⟩

/-- What `composeTransforms` throws for transforms that do not chain. -/
def composeMismatch (first second : Transform) : String :=
  "FRAME_MISMATCH: cannot compose '" ++ first.fromFrame ++ "→" ++ first.toFrame ++ "' with '" ++ second.fromFrame ++ "→" ++
    second.toFrame ++ "'."

def composeTransforms (now : Int) (first second : Transform) : Except String Transform :=
  if first.toFrame ≠ second.fromFrame then .error (composeMismatch first second)
  else do
    let rotatedTranslation := rotateVector first.rotation second.translation
    let translation : Vector3 :=
      ⟨first.translation.x + rotatedTranslation.x, first.translation.y + rotatedTranslation.y,
        first.translation.z + rotatedTranslation.z⟩
    let rotation ← quaternionMultiply first.rotation second.rotation
    return makeTransform now first.fromFrame second.toFrame translation rotation

def invertTransform (now : Int) (transform : Transform) : Transform :=
  let inverseRotation := quaternionConjugate transform.rotation
  let rotated := rotateVector inverseRotation transform.translation
  makeTransform now transform.toFrame transform.fromFrame ⟨-rotated.x, -rotated.y, -rotated.z⟩ inverseRotation

/-! ## Chains -/

/-- `composed ? composeTransforms(composed, transform) : transform`. -/
def composeOnto (now : Int) (composed : Option Transform) (transform : Transform) : Except String Transform :=
  match composed with
  | some composed => composeTransforms now composed transform
  | none => .ok transform

/-- The loop of `transformChain`, from what it has composed and the frame it has reached. -/
def chainFrom (now : Int) (toFrame : String) :
    List Transform → Option Transform → String → Except String (Option Transform × String)
  | [], composed, current => .ok (composed, current)
  | transform :: transforms, composed, current =>
    if transform.fromFrame ≠ current then chainFrom now toFrame transforms composed current
    else do
      let composed ← composeOnto now composed transform
      if transform.toFrame = toFrame then return (some composed, transform.toFrame)
      else chainFrom now toFrame transforms (some composed) transform.toFrame

/-- What `transformChain` throws where it finds no chain. -/
def noChain (fromFrame toFrame : String) : String :=
  "FRAME_MISMATCH: no transform chain from '" ++ fromFrame ++ "' to '" ++ toFrame ++ "'."

/-- `transformChain`, the clock read once. -/
def transformChain (now : Int) (transforms : List Transform) (fromFrame toFrame : String) : Except String Transform := do
  match ← chainFrom now toFrame transforms none fromFrame with
  | (some composed, current) => if current = toFrame then .ok composed else .error (noChain fromFrame toFrame)
  | (none, _) => .error (noChain fromFrame toFrame)

def transformFrameReference (now : Int) (transforms : List Transform) (reference : FrameReference) (target : String) :
    Except String FrameReference :=
  if reference.frame = target then .ok reference
  else do
    let chain ← transformChain now transforms reference.frame target
    applyTransform chain reference

end Pinout.Frames
