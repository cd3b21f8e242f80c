import Pinout.Foundation.Route
import Pinout.Frames.Motion

/-! # Chains of transforms

`transformChain` goes through the listed transforms once: it takes the first one that leaves the frame it has reached,
and goes on after it. In a tree of frames it finds the path from one frame to another exactly when the path stands in
the list in its own order and no side branch stands in its way. -/

namespace Pinout.Frames

open Foundation

/-! ## What does not throw -/

/-- `quaternion` refuses nothing else. -/
def Quaternion.Nonzero (q : Quaternion) : Prop :=
  q.x ^ 2 + q.y ^ 2 + q.z ^ 2 + q.w ^ 2 ≠ 0

instance (q : Quaternion) : Decidable q.Nonzero :=
  inferInstanceAs (Decidable (_ ≠ _))

theorem hypot_ne_zero {x y z w : ℚ} (h : x ^ 2 + y ^ 2 + z ^ 2 + w ^ 2 ≠ 0) : hypot x y z w ≠ 0 := by
  have hpos : 0 < x ^ 2 + y ^ 2 + z ^ 2 + w ^ 2 := lt_of_le_of_ne (by positivity) h.symm
  rw [hypot, Rat.sqrt, Rat.mkRat_ne_zero]
  · have hnum : 0 < (x ^ 2 + y ^ 2 + z ^ 2 + w ^ 2).num := Rat.num_pos.mpr hpos
    have hsqrt : 0 < Nat.sqrt (x ^ 2 + y ^ 2 + z ^ 2 + w ^ 2).num.toNat := Nat.sqrt_pos.mpr (by omega)
    simp only [Int.sqrt]
    omega
  · exact (Nat.sqrt_pos.mpr (Rat.den_pos _)).ne'

theorem exists_quaternion {x y z w : ℚ} (h : x ^ 2 + y ^ 2 + z ^ 2 + w ^ 2 ≠ 0) :
    ∃ q, quaternion x y z w = .ok q ∧ q.Nonzero := by
  have hlength := hypot_ne_zero h
  refine ⟨_, by rw [quaternion, if_neg hlength], ?_⟩
  simp only [Quaternion.Nonzero, div_pow, ← add_div]
  exact div_ne_zero h (pow_ne_zero 2 hlength)

theorem exists_quaternionMultiply {a b : Quaternion} (ha : a.Nonzero) (hb : b.Nonzero) :
    ∃ q, quaternionMultiply a b = .ok q ∧ q.Nonzero := by
  refine exists_quaternion ?_
  calc _ = (a.x ^ 2 + a.y ^ 2 + a.z ^ 2 + a.w ^ 2) * (b.x ^ 2 + b.y ^ 2 + b.z ^ 2 + b.w ^ 2) := by ring
    _ ≠ 0 := mul_ne_zero ha hb

/-- What is composed maps from where the first one does to where the second one does. -/
theorem frames_of_composeTransforms {now : Int} {first second composed : Transform}
    (h : composeTransforms now first second = .ok composed) :
    composed.fromFrame = first.fromFrame ∧ composed.toFrame = second.toFrame := by
  rw [composeTransforms] at h
  split_ifs at h
  obtain ⟨rotation, -, h⟩ := exists_of_bind_eq_ok h
  obtain rfl := Except.ok.inj h
  exact ⟨rfl, rfl⟩

theorem exists_composeTransforms (now : Int) {first second : Transform} (hchain : second.fromFrame = first.toFrame)
    (hfirst : first.rotation.Nonzero) (hsecond : second.rotation.Nonzero) :
    ∃ composed, composeTransforms now first second = .ok composed ∧ composed.rotation.Nonzero := by
  obtain ⟨q, hq, hnonzero⟩ := exists_quaternionMultiply hfirst hsecond
  refine ⟨makeTransform now first.fromFrame second.toFrame
    (first.translation + rotateVector first.rotation second.translation) q, ?_, hnonzero⟩
  simp [composeTransforms, hchain, hq, Vector3.add_def]

/-! ## Paths -/

abbrev IsPath (transforms : List Transform) (fromFrame toFrame : String) (path : List Transform) : Prop :=
  Route Transform.fromFrame Transform.toFrame transforms fromFrame toFrame path

/-- The listed transforms form a tree of frames, or several. -/
abbrev IsFrameTree (transforms : List Transform) : Prop :=
  EdgeForest Transform.fromFrame Transform.toFrame transforms

/-- The composition of the transforms along a path, from what is composed before it. -/
def composeAll (now : Int) (composed : Transform) (path : List Transform) : Except String Transform :=
  path.foldlM (composeTransforms now) composed

@[simp] theorem composeAll_nil (now : Int) (composed : Transform) : composeAll now composed [] = .ok composed := rfl

@[simp] theorem composeAll_cons (now : Int) (composed transform : Transform) (path : List Transform) :
    composeAll now composed (transform :: path) =
      composeTransforms now composed transform >>= fun composed => composeAll now composed path := rfl

/-- The transforms of the path stand in the list in the order of the path, and before each of them, after the one
before it, none that leaves the same frame. -/
def InOrder : List Transform → List Transform → Prop
  | _, [] => True
  | transforms, transform :: path =>
    ∃ before after, transforms = before ++ transform :: after ∧
      (∀ other ∈ before, other.fromFrame ≠ transform.fromFrame) ∧ InOrder after path

theorem inOrder_cons_iff {listed transform : Transform} {transforms path : List Transform}
    (hleaves : listed.fromFrame ≠ transform.fromFrame) :
    InOrder (listed :: transforms) (transform :: path) ↔ InOrder transforms (transform :: path) := by
  constructor
  · rintro ⟨_ | ⟨first, before⟩, after, heq, hbefore, hrest⟩
    · obtain ⟨rfl, -⟩ := List.cons.inj heq
      exact absurd rfl hleaves
    · obtain ⟨rfl, rfl⟩ := List.cons.inj heq
      exact ⟨before, after, rfl, fun other hother => hbefore other (.tail _ hother), hrest⟩
  · rintro ⟨before, after, rfl, hbefore, hrest⟩
    exact ⟨listed :: before, after, rfl, by simpa using ⟨hleaves, hbefore⟩, hrest⟩

theorem frames_of_composeAll {now : Int} {transforms path : List Transform} {toFrame : String}
    {composed result : Transform} (hpath : IsPath transforms composed.toFrame toFrame path)
    (h : composeAll now composed path = .ok result) :
    result.fromFrame = composed.fromFrame ∧ result.toFrame = toFrame := by
  induction path generalizing composed with
  | nil =>
    obtain rfl := Except.ok.inj h
    exact ⟨rfl, Route.nil_iff.mp hpath⟩
  | cons transform path ih =>
    obtain ⟨-, -, hrest⟩ := Route.cons_iff.mp hpath
    obtain ⟨next, hnext, h⟩ := exists_of_bind_eq_ok h
    obtain ⟨hnextFrom, hnextTo⟩ := frames_of_composeTransforms hnext
    obtain ⟨hfrom, hto⟩ := ih (hnextTo ▸ hrest) h
    exact ⟨hfrom.trans hnextFrom, hto⟩

theorem exists_composeAll (now : Int) {transforms path : List Transform} {toFrame : String} {composed : Transform}
    (hnonzero : ∀ transform ∈ transforms, transform.rotation.Nonzero) (hcomposed : composed.rotation.Nonzero)
    (hpath : IsPath transforms composed.toFrame toFrame path) :
    ∃ result, composeAll now composed path = .ok result := by
  induction path generalizing composed with
  | nil => exact ⟨composed, rfl⟩
  | cons transform path ih =>
    obtain ⟨hfrom, hmem, hrest⟩ := Route.cons_iff.mp hpath
    obtain ⟨next, hnext, hnextNonzero⟩ :=
      exists_composeTransforms now hfrom hcomposed (hnonzero transform hmem)
    obtain ⟨result, hresult⟩ := ih hnextNonzero ((frames_of_composeTransforms hnext).2 ▸ hrest)
    refine ⟨result, ?_⟩
    rw [composeAll_cons, hnext]
    exact hresult

/-! ## The loop -/

section Loop

variable {now : Int} {toFrame : String}

theorem chainFrom_skip {before after : List Transform} {composed : Option Transform} {current : String}
    (hbefore : ∀ other ∈ before, other.fromFrame ≠ current) :
    chainFrom now toFrame (before ++ after) composed current = chainFrom now toFrame after composed current := by
  induction before with
  | nil => rfl
  | cons other before ih =>
    rw [List.forall_mem_cons] at hbefore
    rw [List.cons_append, chainFrom, if_pos hbefore.1]
    exact ih hbefore.2

theorem chainFrom_take (transform : Transform) (transforms : List Transform) (composed : Option Transform) :
    chainFrom now toFrame (transform :: transforms) composed transform.fromFrame =
      (composeOnto now composed transform >>= fun composed =>
        if transform.toFrame = toFrame then .ok (some composed, transform.toFrame)
        else chainFrom now toFrame transforms (some composed) transform.toFrame) := by
  rw [chainFrom, if_neg (not_not.mpr rfl)]
  rfl

/-- What stands in order is followed to its end, where it reaches the target nowhere before. -/
theorem chainFrom_of_inOrder {transforms edges path : List Transform} {transform : Transform}
    {composed : Option Transform} (htree : IsFrameTree edges)
    (hpath : IsPath edges transform.toFrame toFrame path) (horder : InOrder transforms (transform :: path)) :
    chainFrom now toFrame transforms composed transform.fromFrame =
      (do
        let composed ← composeOnto now composed transform
        let composed ← composeAll now composed path
        return (some composed, toFrame)) := by
  induction path generalizing transforms transform composed with
  | nil =>
    obtain ⟨before, after, rfl, hbefore, -⟩ := horder
    rw [chainFrom_skip hbefore, chainFrom_take]
    refine bind_congr fun result => ?_
    rw [if_pos (Route.nil_iff.mp hpath), Route.nil_iff.mp hpath]
    rfl
  | cons next path ih =>
    obtain ⟨before, after, rfl, hbefore, horder⟩ := horder
    have honward : transform.toFrame ≠ toFrame := by
      intro hreached
      rw [hreached] at hpath
      exact List.cons_ne_nil next path (hpath.unique htree (.nil toFrame))
    obtain ⟨hfrom, -, hrest⟩ := Route.cons_iff.mp hpath
    rw [chainFrom_skip hbefore, chainFrom_take]
    refine bind_congr fun result => ?_
    rw [if_neg honward, ← hfrom, ih hrest horder]
    simp [composeOnto]

/-- What the loop has taken when it ends is a path that stands in order, composed. -/
theorem of_chainFrom_eq_ok {transforms : List Transform} {composed : Option Transform} {current reached : String}
    {result : Option Transform} (h : chainFrom now toFrame transforms composed current = .ok (result, reached)) :
    result = composed ∧ reached = current ∨
      ∃ transform path chained, IsPath transforms current reached (transform :: path) ∧
        InOrder transforms (transform :: path) ∧
        (composeOnto now composed transform >>= fun composed => composeAll now composed path) = .ok chained ∧
        result = some chained := by
  induction transforms generalizing composed current with
  | nil =>
    obtain ⟨rfl, rfl⟩ : composed = result ∧ current = reached := by simpa [chainFrom] using h
    exact .inl ⟨rfl, rfl⟩
  | cons listed transforms ih =>
    have hsub : ∀ transform ∈ transforms, transform ∈ listed :: transforms := fun _ => List.mem_cons_of_mem listed
    by_cases hleaves : listed.fromFrame = current
    · subst hleaves
      rw [chainFrom_take] at h
      obtain ⟨next, hnext, h⟩ := exists_of_bind_eq_ok h
      right
      by_cases hreached : listed.toFrame = toFrame
      · rw [if_pos hreached] at h
        obtain ⟨rfl, rfl⟩ : some next = result ∧ listed.toFrame = reached := by simpa using h
        exact ⟨listed, [], next, .cons (by simp) (.nil _), ⟨[], transforms, rfl, by simp, trivial⟩,
          by rw [hnext]; rfl, rfl⟩
      · rw [if_neg hreached] at h
        rcases ih h with ⟨rfl, rfl⟩ | ⟨transform, path, chained, hpath, horder, hchained, rfl⟩
        · exact ⟨listed, [], next, .cons (by simp) (.nil _), ⟨[], transforms, rfl, by simp, trivial⟩,
            by rw [hnext]; rfl, rfl⟩
        · exact ⟨listed, transform :: path, chained, .cons (by simp) (hpath.mono hsub),
            ⟨[], transforms, rfl, by simp, horder⟩, by rw [hnext]; exact hchained, rfl⟩
    · rw [chainFrom, if_pos hleaves] at h
      rcases ih h with hnothing | ⟨transform, path, chained, hpath, horder, hchained, rfl⟩
      · exact .inl hnothing
      · have hfrom := (Route.cons_iff.mp hpath).1
        exact .inr ⟨transform, path, chained, hpath.mono hsub,
          (inOrder_cons_iff (by rwa [hfrom])).mpr horder, hchained, rfl⟩

end Loop

/-! ## The function -/

/-- The chain from one frame to another is found whenever there is one: it is the composition along every path, of one
transform at least, and throws where there is no path. -/
def ChainFound (now : Int) (transforms : List Transform) (fromFrame toFrame : String) : Prop :=
  ((∃ thrown, transformChain now transforms fromFrame toFrame = .error thrown) ↔
    ¬ ∃ transform path, IsPath transforms fromFrame toFrame (transform :: path)) ∧
  ∀ result, transformChain now transforms fromFrame toFrame = .ok result →
    result.fromFrame = fromFrame ∧ result.toFrame = toFrame ∧
      ∀ transform path, IsPath transforms fromFrame toFrame (transform :: path) →
        composeAll now transform path = .ok result

/-- What the function returns is the composition along a path that stands in order. -/
theorem of_transformChain_eq_ok {now : Int} {transforms : List Transform} {fromFrame toFrame : String}
    {result : Transform} (h : transformChain now transforms fromFrame toFrame = .ok result) :
    ∃ transform path, IsPath transforms fromFrame toFrame (transform :: path) ∧
      InOrder transforms (transform :: path) ∧ composeAll now transform path = .ok result := by
  obtain ⟨⟨composed, current⟩, hloop, h⟩ := exists_of_bind_eq_ok h
  cases composed with
  | none => cases h
  | some composed =>
    simp only at h
    split_ifs at h with hreached
    obtain rfl := Except.ok.inj h
    subst hreached
    rcases of_chainFrom_eq_ok hloop with ⟨hnothing, -⟩ | ⟨transform, path, chained, hpath, horder, hchained, heq⟩
    · cases hnothing
    · obtain rfl := Option.some.inj heq
      exact ⟨transform, path, hpath, horder, hchained⟩

/-- What the function returns maps from the one frame to the other. -/
theorem frames_of_transformChain {now : Int} {transforms : List Transform} {fromFrame toFrame : String}
    {result : Transform} (h : transformChain now transforms fromFrame toFrame = .ok result) :
    result.fromFrame = fromFrame ∧ result.toFrame = toFrame := by
  obtain ⟨transform, path, hpath, -, hcomposed⟩ := of_transformChain_eq_ok h
  obtain ⟨hfrom, -, hrest⟩ := Route.cons_iff.mp hpath
  obtain ⟨hresultFrom, hresultTo⟩ := frames_of_composeAll hrest hcomposed
  exact ⟨hresultFrom.trans hfrom, hresultTo⟩

theorem frame_of_transformFrameReference {now : Int} {transforms : List Transform} {reference result : FrameReference}
    {target : String} (h : transformFrameReference now transforms reference target = .ok result) :
    result.frame = target := by
  rw [transformFrameReference] at h
  split_ifs at h with hsame
  · rw [← Except.ok.inj h, hsame]
  · obtain ⟨chain, hchain, happly⟩ := exists_of_bind_eq_ok h
    rw [applyTransform] at happly
    split_ifs at happly
    obtain ⟨orientation, -, happly⟩ := exists_of_bind_eq_ok happly
    obtain rfl := Except.ok.inj happly
    exact (frames_of_transformChain hchain).2

theorem transformChain_of_inOrder {now : Int} {transforms path : List Transform} {transform : Transform}
    {fromFrame toFrame : String} (htree : IsFrameTree transforms)
    (hnonzero : ∀ transform ∈ transforms, transform.rotation.Nonzero)
    (hpath : IsPath transforms fromFrame toFrame (transform :: path))
    (horder : InOrder transforms (transform :: path)) :
    ∃ result, transformChain now transforms fromFrame toFrame = .ok result ∧
      composeAll now transform path = .ok result := by
  obtain ⟨rfl, hmem, hrest⟩ := Route.cons_iff.mp hpath
  obtain ⟨result, hresult⟩ := exists_composeAll now hnonzero (hnonzero transform hmem) hrest
  have hloop : chainFrom now toFrame transforms none transform.fromFrame = .ok (some result, toFrame) := by
    rw [chainFrom_of_inOrder htree hrest horder]
    change (composeAll now transform path >>= fun composed => .ok (some composed, toFrame)) = _
    rw [hresult]
    rfl
  refine ⟨result, ?_, hresult⟩
  rw [transformChain, hloop]
  exact if_pos rfl

/-- In a tree of frames a chain is found exactly when every path from one frame to the other stands in the list in its
own order, with no side branch in its way. -/
theorem chainFound_iff (now : Int) {transforms : List Transform} (fromFrame toFrame : String)
    (htree : IsFrameTree transforms) (hnonzero : ∀ transform ∈ transforms, transform.rotation.Nonzero) :
    ChainFound now transforms fromFrame toFrame ↔
      ∀ path, IsPath transforms fromFrame toFrame path → InOrder transforms path := by
  constructor
  · rintro ⟨hthrows, -⟩ path hpath
    cases path with
    | nil => trivial
    | cons transform path =>
      cases hresult : transformChain now transforms fromFrame toFrame with
      | error thrown => exact absurd ⟨transform, path, hpath⟩ (hthrows.mp ⟨thrown, hresult⟩)
      | ok result =>
        obtain ⟨transform', path', hpath', horder', -⟩ := of_transformChain_eq_ok hresult
        rwa [hpath.unique htree hpath']
  · intro horder
    have hfound : ∀ transform path, IsPath transforms fromFrame toFrame (transform :: path) →
        ∃ result, transformChain now transforms fromFrame toFrame = .ok result ∧
          composeAll now transform path = .ok result :=
      fun transform path hpath => transformChain_of_inOrder htree hnonzero hpath (horder _ hpath)
    refine ⟨⟨?_, ?_⟩, ?_⟩
    · rintro ⟨thrown, hthrown⟩ ⟨transform, path, hpath⟩
      obtain ⟨result, hresult, -⟩ := hfound transform path hpath
      rw [hresult] at hthrown
      cases hthrown
    · intro hnone
      cases hresult : transformChain now transforms fromFrame toFrame with
      | error thrown => exact ⟨thrown, rfl⟩
      | ok result =>
        obtain ⟨transform, path, hpath, -⟩ := of_transformChain_eq_ok hresult
        exact absurd ⟨transform, path, hpath⟩ hnone
    · intro result hresult
      refine ⟨(frames_of_transformChain hresult).1, (frames_of_transformChain hresult).2, ?_⟩
      intro transform path hpath
      obtain ⟨other, hother, hcomposed⟩ := hfound transform path hpath
      rw [hcomposed, ← hother, hresult]

def still (fromFrame toFrame : String) : Transform :=
  ⟨fromFrame, toFrame, ⟨0, 0, 0⟩, ⟨0, 0, 0, 1⟩, 0⟩

/-- From the world to the base, and from there to a camera and to a tool. -/
def workcell : List Transform :=
  [still "world" "base", still "base" "camera", still "base" "tool0"]

theorem isFrameTree_workcell : IsFrameTree workcell :=
  ((EdgeForest.nil.cons "tool0" (by decide) (by decide) (by simp)).cons "camera" (by decide) (by decide)
    (by decide)).cons "world" (by decide) (by decide) (by decide)

theorem isPath_workcell (toFrame : String) (hmem : still "base" toFrame ∈ workcell) :
    IsPath workcell "world" toFrame [still "world" "base", still "base" toFrame] :=
  Route.cons_iff.mpr ⟨rfl, by simp [workcell], Route.cons_iff.mpr ⟨rfl, hmem, .nil toFrame⟩⟩

/-- The camera is found. -/
theorem chainFound_camera : ChainFound 0 workcell "world" "camera" :=
  (chainFound_iff 0 "world" "camera" isFrameTree_workcell (by decide +kernel)).mpr fun path hpath => by
    rw [← (isPath_workcell "camera" (by decide)).unique isFrameTree_workcell hpath]
    exact ⟨[], _, rfl, by simp, [], _, rfl, by simp, trivial⟩

/-- The tool is not: the camera is taken for the way to it. -/
theorem not_chainFound : ¬ ∀ (now : Int) (transforms : List Transform) (fromFrame toFrame : String),
    IsFrameTree transforms → (∀ transform ∈ transforms, transform.rotation.Nonzero) →
    ChainFound now transforms fromFrame toFrame := by
  intro h
  obtain ⟨hthrows, -⟩ := h 0 workcell "world" "tool0" isFrameTree_workcell (by decide +kernel)
  exact hthrows.mp ⟨noChain "world" "tool0", by decide +kernel⟩ ⟨_, _, isPath_workcell "tool0" (by decide)⟩

end Pinout.Frames
