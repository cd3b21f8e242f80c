import Pinout.Foundation.Fallible
import Pinout.Foundation.NumberPrinting
import Pinout.Ur.Backend

/-! # Motion limits

`moveToPose` of `packages/protocols-ur/src/urBackend.ts` compares the speed, the acceleration and the blend radius of a
payload with the configured limits, and `buildMoveLCommand` and `buildMoveJCommand` of `urscript.ts` fill in what the
payload leaves out. What is filled in is compared with nothing (`respects_iff`). -/

namespace Pinout.Ur

open Foundation Protocol

/-! ## Payloads -/

inductive PayloadValue
  | undefined
  | number (n : JsNumber)
  | string (text : JsString)
  | object (text : JsString) (get : JsString → PayloadValue)
  | other (text : JsString)

/-- `String(value)`. -/
def PayloadValue.text : PayloadValue → JsString
  | undefined => js "undefined"
  | number n => n.text
  | string text => text
  | object text _ => text
  | other text => text

abbrev Payload := JsString → PayloadValue

/-- `UrPose`: base-frame meters and axis-angle radians. -/
structure UrPose where
  x : Double
  y : Double
  z : Double
  rx : Double
  ry : Double
  rz : Double

/-- `poseToArray`. -/
def UrPose.toArray (pose : UrPose) : List Double := [pose.x, pose.y, pose.z, pose.rx, pose.ry, pose.rz]

def invalid {α : Type} (message : JsString) : Except UrFailure α := .error (.deviceError (js "VALIDATION_ERROR") message)

def requireComponent (get : JsString → PayloadValue) (key : JsString) : Except UrFailure Double :=
  match get key with
  | .number (.finite x) => .ok x
  | _ => invalid (js "Pose component '" ++ key ++
      js "' must be a finite number (meters for x/y/z, radians for rx/ry/rz).")

def requirePose : PayloadValue → Except UrFailure UrPose
  | .object _ get => do
    let x ← requireComponent get (js "x")
    let y ← requireComponent get (js "y")
    let z ← requireComponent get (js "z")
    let rx ← requireComponent get (js "rx")
    let ry ← requireComponent get (js "ry")
    let rz ← requireComponent get (js "rz")
    return ⟨x, y, z, rx, ry, rz⟩
  | _ => invalid (js "A 'pose' object with x, y, z (meters) and rx, ry, rz (radians, axis-angle) is required.")

def optionalNumber (accepts : ℚ → Bool) (expected : JsString) : PayloadValue → Except UrFailure (Option Double)
  | .undefined => .ok none
  | .number (.finite x) =>
    if accepts x.value then .ok (some x)
    else invalid (js "Expected a " ++ expected ++ js " finite number; received " ++ x.text ++ js ".")
  | value => invalid (js "Expected a " ++ expected ++ js " finite number; received " ++ value.text ++ js ".")

def optionalPositiveNumber : PayloadValue → Except UrFailure (Option Double) :=
  optionalNumber (fun q => decide (0 < q)) (js "positive")

def optionalNonNegativeNumber : PayloadValue → Except UrFailure (Option Double) :=
  optionalNumber (fun q => decide (0 ≤ q)) (js "non-negative")

/-! ## Limits -/

/-- `UrSafetyLimits`, as far as moves go. -/
structure UrSafetyLimits where
  maxSpeedMps : JsNumber
  maxAccelerationMps2 : JsNumber
  maxBlendRadiusM : JsNumber
  maxJointSpeedRadPerS : JsNumber
  maxJointAccelerationRadPerS2 : JsNumber

namespace UrSafetyLimits

def maxSpeed (limits : UrSafetyLimits) (joint : Bool) : JsNumber :=
  if joint then limits.maxJointSpeedRadPerS else limits.maxSpeedMps

/-- The largest acceleration of a kind of movement. -/
def maxAcceleration (limits : UrSafetyLimits) (joint : Bool) : JsNumber :=
  if joint then limits.maxJointAccelerationRadPerS2 else limits.maxAccelerationMps2

end UrSafetyLimits

/-- `value > limit`. -/
def exceeds (value : ℚ) : JsNumber → Bool
  | .finite limit => decide (limit.value < value)
  | .infinity negative => negative
  | .nan => false

/-- A check of what a payload gives against a limit, with `limitError`. -/
def checkLimit (field unit : JsString) (limit : JsNumber) : Option Double → Except UrFailure PUnit
  | some x =>
    if exceeds x.value limit then
      invalid (js "'" ++ field ++ js "' of " ++ x.text ++ js " " ++ unit ++ js " exceeds the configured limit of " ++
        limit.text ++ js " " ++ unit ++ js ".")
    else .ok ⟨⟩
  | none => .ok ⟨⟩

/-! ## Commands -/

structure UrMoveOptions where
  speed : Option Double
  acceleration : Option Double
  blendRadius : Option Double

/-- `UR_DEFAULT_MOVE_SPEED`: 0.1. -/
def defaultMoveSpeed : Double := ⟨false, 7205759403792794, 1018, by decide, by decide, by decide⟩

/-- `UR_DEFAULT_MOVE_ACCELERATION`: 1.2. -/
def defaultMoveAcceleration : Double := ⟨false, 5404319552844595, 1022, by decide, by decide, by decide⟩

/-- The blend radius of a move that gives none. -/
def defaultBlendRadius : Double := ⟨false, 0, 0, by decide, by decide, by decide⟩

/-- `assertPositive` and `assertNonNegative`. -/
def assertNumber (accepts : ℚ → Bool) (expected field : JsString) (x : Double) : Except UrFailure Double :=
  if accepts x.value then .ok x
  else .error (.script (js "UR_SCRIPT_INVALID_ARGUMENT")
    (js "'" ++ field ++ js "' must be a " ++ expected ++ js " finite number; received " ++ x.text ++ js "."))

def formatPose (pose : UrPose) : JsString :=
  js "p[" ++ pose.x.text ++ js ", " ++ pose.y.text ++ js ", " ++ pose.z.text ++ js ", " ++ pose.rx.text ++ js ", " ++
    pose.ry.text ++ js ", " ++ pose.rz.text ++ js "]"

/-- The name of the command of a kind of movement. -/
def commandName (joint : Bool) : JsString := if joint then js "movej" else js "movel"

/-- `buildMoveLCommand` and `buildMoveJCommand`. -/
def buildMoveCommand (joint : Bool) (pose : UrPose) (options : UrMoveOptions) : Except UrFailure JsString := do
  let acceleration ← assertNumber (fun q => decide (0 < q)) (js "positive") (js "acceleration")
    (options.acceleration.getD defaultMoveAcceleration)
  let speed ← assertNumber (fun q => decide (0 < q)) (js "positive") (js "speed")
    (options.speed.getD defaultMoveSpeed)
  let blend ← assertNumber (fun q => decide (0 ≤ q)) (js "non-negative") (js "blendRadius")
    (options.blendRadius.getD defaultBlendRadius)
  return commandName joint ++ js "(" ++ formatPose pose ++ js ", a=" ++ acceleration.text ++ js ", v=" ++
    speed.text ++ js ", r=" ++ blend.text ++ js ")"

/-- `payload.movement === 'joint'`. -/
def isJoint (payload : Payload) : Bool :=
  match payload (js "movement") with
  | .string text => text = js "joint"
  | _ => false

/-- Whether a kind of movement is one of the two, when it is given. -/
def isMovement (payload : Payload) : Bool :=
  match payload (js "movement") with
  | .undefined => true
  | .string text => text = js "joint" || text = js "linear"
  | _ => false

def checkMovement (payload : Payload) : Except UrFailure PUnit :=
  if isMovement payload then .ok ⟨⟩
  else invalid (js "payload.movement must be 'linear' or 'joint' when provided.")

/-- What `moveToPose` takes from a payload, or what its checks throw. -/
def readMove (limits : UrSafetyLimits) (payload : Payload) : Except UrFailure (UrPose × UrMoveOptions) := do
  let pose ← requirePose (payload (js "pose"))
  let joint := isJoint payload
  checkMovement payload
  let speed ← optionalPositiveNumber (payload (js "speed"))
  let acceleration ← optionalPositiveNumber (payload (js "acceleration"))
  let blendRadius ← optionalNonNegativeNumber (payload (js "blendRadius"))
  checkLimit (js "speed") (if joint then js "rad/s" else js "m/s") (limits.maxSpeed joint) speed
  checkLimit (js "acceleration") (if joint then js "rad/s²" else js "m/s²") (limits.maxAcceleration joint) acceleration
  checkLimit (js "blendRadius") (js "m") limits.maxBlendRadiusM blendRadius
  return (pose, ⟨speed, acceleration, blendRadius⟩)

/-- `moveToPose`: what its checks throw, and the command that is built. -/
def moveToPose (limits : UrSafetyLimits) (payload : Payload) : Motion :=
  match readMove limits payload with
  | .error e => .moveToPose (some e) (.error e)
  | .ok (pose, options) => .moveToPose none (buildMoveCommand (isJoint payload) pose options)

/-- The line that a motion writes when nothing stands in its way. -/
def Motion.line : Motion → Option JsString
  | .moveToPose none (.ok command) => some command
  | _ => none

/-! ## Controllers -/

def between (front back text : JsString) : Option JsString :=
  let rest := text.drop front.length
  if front <+: text ∧ back <:+ rest then some (rest.take (rest.length - back.length)) else none

/-- What stands around the arguments of a move, between commas. -/
def moveLabels (joint : Bool) : List (JsString × JsString) :=
  [(commandName joint ++ js "(p[", []), (js " ", []), (js " ", []), (js " ", []), (js " ", []), (js " ", js "]"),
    (js " a=", []), (js " v=", []), (js " r=", js ")")]

section Reading

variable (read : JsString → Option ℚ)

/-- The numbers of pieces that stand between labels. -/
def readPieces : List (JsString × JsString) → List JsString → Option (List ℚ)
  | [], [] => some []
  | label :: labels, piece :: pieces =>
    match (between label.1 label.2 piece).bind read, readPieces labels pieces with
    | some value, some values => some (value :: values)
    | _, _ => none
  | _, _ => none

/-- What a controller reads of a line: the kind of the movement, and its arguments. -/
def readMoveLine (line : JsString) : Option (Bool × List ℚ) :=
  match readPieces read (moveLabels false) (line.splitOn 44) with
  | some values => some (false, values)
  | none => (readPieces read (moveLabels true) (line.splitOn 44)).map (true, ·)

end Reading

def moveText (joint : Bool) (numbers : List Double) : JsString :=
  [44].intercalate (List.zipWith (fun label x => label.1 ++ (x.text ++ label.2)) (moveLabels joint) numbers)

theorem between_append (front back text : JsString) : between front back (front ++ (text ++ back)) = some text := by
  rw [between, if_pos]
  · simp
  · simp

theorem comma_notMem_layout {digits : JsString} (h : (44 : UInt16) ∉ digits) (point : Int) :
    (44 : UInt16) ∉ layout digits point := by
  have hzeros : ∀ n, (44 : UInt16) ∉ List.replicate n 48 := fun n hmem =>
    absurd (isDigit_of_mem_zeros n _ hmem) (by decide)
  have hdecimal : ∀ n, (44 : UInt16) ∉ decimal n := fun n hmem => absurd (isDigit_of_mem_decimal hmem) (by decide)
  have htake : ∀ n, (44 : UInt16) ∉ digits.take n := fun n hmem => h (List.mem_of_mem_take hmem)
  have hdrop : ∀ n, (44 : UInt16) ∉ digits.drop n := fun n hmem => h (List.mem_of_mem_drop hmem)
  have hsign : (44 : UInt16) ≠ if point - 1 < 0 then 45 else 43 := by split <;> decide
  rw [layout]
  split
  · exact List.not_mem_append h (hzeros _)
  · split
    · exact List.not_mem_append (htake _) (List.not_mem_cons_of_ne_of_not_mem (by decide) (hdrop _))
    · split
      · simp [h, hzeros]
      · refine List.not_mem_append (List.not_mem_append (htake _) ?_)
          (List.not_mem_cons_of_ne_of_not_mem (by decide) (List.not_mem_cons_of_ne_of_not_mem hsign (hdecimal _)))
        split
        · exact List.not_mem_nil
        · exact List.not_mem_cons_of_ne_of_not_mem (by decide) (hdrop _)

/-- **No number has a comma in its text.** -/
theorem comma_notMem_text (x : Double) : (44 : UInt16) ∉ x.text := by
  rw [Double.text]
  split
  · decide
  · refine List.not_mem_append ?_ (comma_notMem_layout (fun h => absurd (isDigit_of_mem_fixedDigits h) (by decide)) _)
    split <;> decide

/-- The pieces of a line are the numbers between the labels. -/
theorem readPieces_zipWith {read : JsString → Option ℚ} {labels : List (JsString × JsString)} {numbers : List Double}
    (hlength : labels.length = numbers.length) (hread : ∀ x ∈ numbers, read x.text = some x.value) :
    readPieces read labels (List.zipWith (fun label x => label.1 ++ (x.text ++ label.2)) labels numbers) =
      some (numbers.map Double.value) := by
  induction labels generalizing numbers with
  | nil =>
    rw [List.length_eq_zero_iff.mp hlength.symm]
    rfl
  | cons label labels ih =>
    obtain ⟨x, numbers, rfl⟩ := List.exists_cons_of_length_eq_add_one hlength.symm
    obtain ⟨hx, hread⟩ := List.forall_mem_cons.mp hread
    rw [List.zipWith_cons_cons, readPieces, between_append, Option.bind_some, hx, ih (Nat.succ.inj hlength) hread]
    rfl

/-- **A line of a move** is read as the move, when its numbers are. -/
theorem readMoveLine_moveText {read : JsString → Option ℚ} {joint : Bool} {numbers : List Double}
    (hlength : numbers.length = 9) (hread : ∀ x ∈ numbers, read x.text = some x.value) :
    readMoveLine read (moveText joint numbers) = some (joint, numbers.map Double.value) := by
  have hlabels : ∀ label ∈ moveLabels joint, (44 : UInt16) ∉ label.1 ∧ (44 : UInt16) ∉ label.2 := by
    cases joint <;> decide
  have hpieces := @readPieces_zipWith read (moveLabels joint) _ (by cases joint <;> exact hlength.symm) hread
  obtain ⟨x, numbers, rfl⟩ := List.exists_cons_of_length_eq_add_one hlength
  have hsplit : (moveText joint (x :: numbers)).splitOn 44 =
      List.zipWith (fun label x => label.1 ++ (x.text ++ label.2)) (moveLabels joint) (x :: numbers) := by
    refine List.splitOn_intercalate 44 (fun piece hpiece hmem => ?_) (List.cons_ne_nil _ _)
    obtain ⟨label, y, hzip, rfl⟩ : ∃ label y, (label, y) ∈ (moveLabels joint).zip (x :: numbers) ∧
        label.1 ++ (y.text ++ label.2) = piece := by simpa [← List.map_uncurry_zip_eq_zipWith] using hpiece
    obtain ⟨hfront, hback⟩ := hlabels label (List.of_mem_zip hzip).1
    exact List.not_mem_append hfront (List.not_mem_append (comma_notMem_text y) hback) hmem
  rw [readMoveLine, hsplit]
  cases joint with
  | false => rw [hpieces]
  | true =>
    -- a line of one kind does not begin as one of the other
    have hprefix : ¬ (commandName false ++ js "(p[") <+: (commandName true ++ js "(p[") ++ (x.text ++ []) := by
      intro h
      have hnames := List.prefix_of_prefix_length_le h (List.prefix_append _ _) le_rfl
      revert hnames
      decide
    have hother : readPieces read (moveLabels false) (List.zipWith (fun label x => label.1 ++ (x.text ++ label.2))
        (moveLabels true) (x :: numbers)) = none := by
      rw [moveLabels, moveLabels, List.zipWith_cons_cons, readPieces, between, if_neg fun h => hprefix h.1]
      rfl
    rw [hother, hpieces]
    rfl

/-! ## Moves within limits -/

def poseKeys : List JsString := [js "x", js "y", js "z", js "rx", js "ry", js "rz"]

def PayloadValue.get : PayloadValue → JsString → PayloadValue
  | object _ get, key => get key
  | _, _ => undefined

def PayloadValue.number? : PayloadValue → Option Double
  | number (.finite x) => some x
  | _ => none

/-- Whether a payload gives nothing under a name. -/
def PayloadValue.isUndefined : PayloadValue → Bool
  | undefined => true
  | _ => false

/-- The numbers that the line of a payload may have in it. -/
def numbers (payload : Payload) : List Double :=
  (poseKeys.map (payload (js "pose")).get ++
    [payload (js "speed"), payload (js "acceleration"), payload (js "blendRadius")]).filterMap PayloadValue.number? ++
    [defaultMoveSpeed, defaultMoveAcceleration, defaultBlendRadius]

def IsPositive : JsNumber → Prop
  | .finite limit => 0 < limit.value
  | .infinity negative => negative = false
  | .nan => False

structure UrSafetyLimits.Positive (limits : UrSafetyLimits) : Prop where
  speed : ∀ joint, IsPositive (limits.maxSpeed joint)
  acceleration : ∀ joint, IsPositive (limits.maxAcceleration joint)
  blend : IsPositive limits.maxBlendRadiusM

def AtMost (value : ℚ) : JsNumber → Prop
  | .finite limit => value ≤ limit.value
  | .infinity negative => negative = false
  | .nan => False

/-- **What a line has to be**: a move to the pose of the payload, with arguments that are at most the limits of its
kind. -/
def Respects (read : JsString → Option ℚ) (limits : UrSafetyLimits) (payload : Payload) (line : JsString) : Prop :=
  ∃ joint pose a v r, readMoveLine read line = some (joint, pose ++ [a, v, r]) ∧
    pose.map some = poseKeys.map (fun key => ((payload (js "pose")).get key).number?.map Double.value) ∧
    AtMost a (limits.maxAcceleration joint) ∧ AtMost v (limits.maxSpeed joint) ∧ AtMost r limits.maxBlendRadiusM

/-- What is filled in for a payload is at most the limits of its kind. -/
structure DefaultsWithin (limits : UrSafetyLimits) (payload : Payload) : Prop where
  speed : (payload (js "speed")).isUndefined = true →
    AtMost defaultMoveSpeed.value (limits.maxSpeed (isJoint payload))
  acceleration : (payload (js "acceleration")).isUndefined = true →
    AtMost defaultMoveAcceleration.value (limits.maxAcceleration (isJoint payload))

variable {limits : UrSafetyLimits} {payload : Payload} {line : JsString} {read : JsString → Option ℚ}

theorem requireComponent_eq_ok {get : JsString → PayloadValue} {key : JsString} {x : Double}
    (h : requireComponent get key = .ok x) : (get key).number? = some x := by
  unfold requireComponent at h
  split at h
  · next hkey =>
    rw [hkey]
    exact congrArg some (Except.ok.inj h)
  · cases h

theorem requirePose_eq_ok {value : PayloadValue} {pose : UrPose} (h : requirePose value = .ok pose) :
    poseKeys.map (fun key => (value.get key).number?) = pose.toArray.map some := by
  cases value with
  | object text get =>
    obtain ⟨x, hx, h⟩ := exists_of_bind_eq_ok h
    obtain ⟨y, hy, h⟩ := exists_of_bind_eq_ok h
    obtain ⟨z, hz, h⟩ := exists_of_bind_eq_ok h
    obtain ⟨rx, hrx, h⟩ := exists_of_bind_eq_ok h
    obtain ⟨ry, hry, h⟩ := exists_of_bind_eq_ok h
    obtain ⟨rz, hrz, h⟩ := exists_of_bind_eq_ok h
    cases h
    simp only [poseKeys, PayloadValue.get, List.map_cons, List.map_nil, UrPose.toArray, requireComponent_eq_ok hx,
      requireComponent_eq_ok hy, requireComponent_eq_ok hz, requireComponent_eq_ok hrx, requireComponent_eq_ok hry,
      requireComponent_eq_ok hrz]
  | undefined | number _ | string _ | other _ => cases h

theorem optionalNumber_eq_ok {accepts : ℚ → Bool} {expected : JsString} {value : PayloadValue} {o : Option Double}
    (h : optionalNumber accepts expected value = .ok o) :
    value = .undefined ∧ o = none ∨ ∃ x, value = .number (.finite x) ∧ o = some x := by
  unfold optionalNumber at h
  split at h
  · exact .inl ⟨rfl, (Except.ok.inj h).symm⟩
  · next x =>
    split at h
    · exact .inr ⟨x, rfl, (Except.ok.inj h).symm⟩
    · cases h
  · cases h

/-- **An argument** is at most the limit when it was given, and otherwise when what is filled in is. -/
theorem atMost_getD_iff {accepts : ℚ → Bool} {expected field unit : JsString} {value : PayloadValue}
    {o : Option Double} {limit : JsNumber} (hlimit : IsPositive limit)
    (hvalue : optionalNumber accepts expected value = .ok o) (hcheck : checkLimit field unit limit o = .ok ⟨⟩)
    (default : Double) :
    AtMost (o.getD default).value limit ↔ (value.isUndefined = true → AtMost default.value limit) := by
  rcases optionalNumber_eq_ok hvalue with ⟨rfl, rfl⟩ | ⟨x, rfl, rfl⟩
  · exact ⟨fun h _ => h, fun h => h rfl⟩
  · refine iff_of_true ?_ nofun
    have hexceeds : exceeds x.value limit = false := by
      by_contra h
      rw [checkLimit, if_pos (by simpa using h)] at hcheck
      cases hcheck
    cases limit with
    | nan => cases hlimit
    | infinity negative => exact hlimit
    | finite limit => exact not_lt.mp (of_decide_eq_false hexceeds)

theorem getD_mem_numbers {accepts : ℚ → Bool} {expected name : JsString} {o : Option Double} {default : Double}
    (hvalue : optionalNumber accepts expected (payload name) = .ok o)
    (hname : name ∈ [js "speed", js "acceleration", js "blendRadius"])
    (hdefault : default ∈ [defaultMoveSpeed, defaultMoveAcceleration, defaultBlendRadius]) :
    o.getD default ∈ numbers payload := by
  rcases optionalNumber_eq_ok hvalue with ⟨-, rfl⟩ | ⟨x, hx, rfl⟩
  · exact List.mem_append_right _ hdefault
  · refine List.mem_append_left _ (List.mem_filterMap.mpr ⟨payload name, List.mem_append_right _ ?_, ?_⟩)
    · exact List.mem_map_of_mem (f := payload) hname
    · rw [hx]
      rfl

theorem assertNumber_eq_ok {accepts : ℚ → Bool} {expected field : JsString} {x y : Double}
    (h : assertNumber accepts expected field x = .ok y) : y = x := by
  unfold assertNumber at h
  split at h
  · exact (Except.ok.inj h).symm
  · cases h

theorem buildMoveCommand_eq_ok {joint : Bool} {pose : UrPose} {options : UrMoveOptions}
    (h : buildMoveCommand joint pose options = .ok line) :
    line = moveText joint (pose.toArray ++ [options.acceleration.getD defaultMoveAcceleration,
      options.speed.getD defaultMoveSpeed, options.blendRadius.getD defaultBlendRadius]) := by
  obtain ⟨a, ha, h⟩ := exists_of_bind_eq_ok h
  obtain ⟨v, hv, h⟩ := exists_of_bind_eq_ok h
  obtain ⟨r, hr, h⟩ := exists_of_bind_eq_ok h
  obtain rfl := assertNumber_eq_ok ha
  obtain rfl := assertNumber_eq_ok hv
  obtain rfl := assertNumber_eq_ok hr
  cases h
  have hopen : js "(p[" = js "(" ++ js "p[" := by decide
  have hcommas : js ", " = 44 :: js " " ∧ js ", a=" = 44 :: js " a=" ∧ js ", v=" = 44 :: js " v=" ∧
      js ", r=" = 44 :: js " r=" := by decide
  rw [formatPose, moveText, moveLabels, hopen, hcommas.1, hcommas.2.1, hcommas.2.2.1, hcommas.2.2.2]
  simp [UrPose.toArray, List.intercalate]

/-- **What a written line is read as**: the requested pose, and arguments that are at most the limits exactly when what
is filled in is. -/
theorem exists_readMoveLine (hlimits : limits.Positive) (hline : (moveToPose limits payload).line = some line)
    (hread : ∀ x ∈ numbers payload, read x.text = some x.value) :
    ∃ pose a v r, readMoveLine read line = some (isJoint payload, pose ++ [a, v, r]) ∧
      pose.map some = poseKeys.map (fun key => ((payload (js "pose")).get key).number?.map Double.value) ∧
      (AtMost a (limits.maxAcceleration (isJoint payload)) ∧ AtMost v (limits.maxSpeed (isJoint payload)) ↔
        DefaultsWithin limits payload) ∧ AtMost r limits.maxBlendRadiusM := by
  unfold moveToPose at hline
  split at hline
  · cases hline
  · next pose options hmove =>
    obtain ⟨_, hpose, hmove⟩ := exists_of_bind_eq_ok hmove
    obtain ⟨_, -, hmove⟩ := exists_of_bind_eq_ok hmove
    obtain ⟨speed, hspeed, hmove⟩ := exists_of_bind_eq_ok hmove
    obtain ⟨acceleration, hacceleration, hmove⟩ := exists_of_bind_eq_ok hmove
    obtain ⟨blend, hblend, hmove⟩ := exists_of_bind_eq_ok hmove
    obtain ⟨_, hspeed', hmove⟩ := exists_of_bind_eq_ok hmove
    obtain ⟨_, hacceleration', hmove⟩ := exists_of_bind_eq_ok hmove
    obtain ⟨_, hblend', hmove⟩ := exists_of_bind_eq_ok hmove
    cases hmove
    have hkeys := requirePose_eq_ok hpose
    have hcommand : buildMoveCommand (isJoint payload) pose ⟨speed, acceleration, blend⟩ = .ok line := by
      cases hbuilt : buildMoveCommand (isJoint payload) pose ⟨speed, acceleration, blend⟩ with
      | error e =>
        rw [hbuilt] at hline
        cases hline
      | ok command =>
        rw [hbuilt] at hline
        exact congrArg Except.ok (Option.some.inj hline)
    obtain rfl := buildMoveCommand_eq_ok hcommand
    refine ⟨pose.toArray.map Double.value, (acceleration.getD defaultMoveAcceleration).value,
      (speed.getD defaultMoveSpeed).value, (blend.getD defaultBlendRadius).value, ?_, ?_, ?_, ?_⟩
    · rw [readMoveLine_moveText rfl]
      · rfl
      · intro x hx
        refine hread x ?_
        rcases List.mem_append.mp hx with hx | hx
        · refine List.mem_append_left _ (List.mem_filterMap.mpr ?_)
          have hmem := hkeys ▸ List.mem_map_of_mem (f := some) hx
          obtain ⟨key, hkey, hvalue⟩ := List.mem_map.mp hmem
          exact ⟨_, List.mem_append_left _ (List.mem_map_of_mem hkey), hvalue⟩
        · simp only [List.mem_cons, List.not_mem_nil, or_false] at hx
          rcases hx with rfl | rfl | rfl
          · exact getD_mem_numbers hacceleration (by simp) (by simp)
          · exact getD_mem_numbers hspeed (by simp) (by simp)
          · exact getD_mem_numbers hblend (by simp) (by simp)
    · have hvalues := congrArg (List.map (Option.map Double.value)) hkeys
      rw [List.map_map, List.map_map] at hvalues
      rw [List.map_map]
      exact hvalues.symm
    · have ha := atMost_getD_iff (hlimits.acceleration _) hacceleration hacceleration' defaultMoveAcceleration
      have hv := atMost_getD_iff (hlimits.speed _) hspeed hspeed' defaultMoveSpeed
      rw [ha, hv]
      exact ⟨fun h => ⟨h.2, h.1⟩, fun h => ⟨h.2, h.1⟩⟩
    · refine (atMost_getD_iff hlimits.blend hblend hblend' defaultBlendRadius).mpr fun _ => ?_
      have hzero : defaultBlendRadius.value = 0 := Double.value_eq_zero_iff.mpr rfl
      have hblend := hlimits.blend
      cases hmax : limits.maxBlendRadiusM with
      | nan => exact (hmax ▸ hblend : IsPositive .nan)
      | infinity negative => exact (hmax ▸ hblend : IsPositive (.infinity negative))
      | finite limit =>
        rw [hmax] at hblend
        rw [hzero]
        exact le_of_lt hblend

theorem respects_iff_of_read {joint : Bool} {pose : List ℚ} {a v r : ℚ}
    (hmove : readMoveLine read line = some (joint, pose ++ [a, v, r]))
    (hpose : pose.map some = poseKeys.map (fun key => ((payload (js "pose")).get key).number?.map Double.value)) :
    Respects read limits payload line ↔
      AtMost a (limits.maxAcceleration joint) ∧ AtMost v (limits.maxSpeed joint) ∧ AtMost r limits.maxBlendRadiusM := by
  constructor
  · rintro ⟨joint', pose', a', v', r', hmove', hpose', hlimits⟩
    rw [hmove, Option.some.injEq, Prod.mk.injEq] at hmove'
    obtain ⟨rfl, hnumbers⟩ := hmove'
    have hsame : pose' = pose := List.map_injective_iff.mpr (Option.some_injective ℚ) (hpose'.trans hpose.symm)
    subst hsame
    obtain ⟨rfl, rfl, rfl⟩ : a = a' ∧ v = v' ∧ r = r' := by simpa using hnumbers
    exact hlimits
  · exact fun hlimits => ⟨joint, pose, a, v, r, hmove, hpose, hlimits⟩

/-- **A written line respects the limits** exactly when what is filled in for the payload is within them. -/
theorem respects_iff (hlimits : limits.Positive) (hline : (moveToPose limits payload).line = some line)
    (hread : ∀ x ∈ numbers payload, read x.text = some x.value) :
    Respects read limits payload line ↔ DefaultsWithin limits payload := by
  obtain ⟨pose, a, v, r, hmove, hpose, hdefaults, hr⟩ := exists_readMoveLine hlimits hline hread
  rw [respects_iff_of_read hmove hpose, ← hdefaults]
  exact ⟨fun h => ⟨h.1, h.2.1⟩, fun h => ⟨h.1, h.2, hr⟩⟩

/-- A payload that gives a pose and nothing else. -/
def origin : Payload := fun name =>
  if name = js "pose" then .object (js "[object Object]") fun _ => .number (.finite defaultBlendRadius) else .undefined

def slowSpeed : Double := ⟨false, 7205759403792794, 1017, by decide, by decide, by decide⟩

def slowLimits : UrSafetyLimits where
  maxSpeedMps := .finite slowSpeed
  maxAccelerationMps2 := .finite defaultMoveAcceleration
  maxBlendRadiusM := .finite defaultMoveSpeed
  maxJointSpeedRadPerS := .finite defaultMoveSpeed
  maxJointAccelerationRadPerS2 := .finite defaultMoveAcceleration

def wideLimits : UrSafetyLimits := { slowLimits with maxSpeedMps := .finite defaultMoveSpeed }

def readThree (text : JsString) : Option ℚ :=
  if text = js "0" then some 0 else if text = js "0.1" then some defaultMoveSpeed.value
  else if text = js "1.2" then some defaultMoveAcceleration.value else none

theorem value_pos {x : Double} (hsign : x.negative = false) (hne : x.significand ≠ 0) : 0 < x.value := by
  rw [Double.value, if_neg (by rw [hsign]; decide)]
  exact lt_of_le_of_ne (Double.abs_value x ▸ abs_nonneg _)
    fun h => hne (Double.value_eq_zero_iff.mp (abs_eq_zero.mp ((Double.abs_value x).trans h.symm)))

theorem text_defaults : defaultBlendRadius.text = js "0" ∧ defaultMoveSpeed.text = js "0.1" ∧
    defaultMoveAcceleration.text = js "1.2" := by
  decide +kernel

theorem readThree_numbers : ∀ x ∈ numbers origin, readThree x.text = some x.value := by
  have hnumbers : numbers origin =
      List.replicate 6 defaultBlendRadius ++ [defaultMoveSpeed, defaultMoveAcceleration, defaultBlendRadius] := rfl
  have hzero : readThree defaultBlendRadius.text = some defaultBlendRadius.value := by
    rw [text_defaults.1, Double.value_eq_zero_iff.mpr rfl]
    rfl
  rw [hnumbers, List.forall_mem_append]
  refine ⟨fun x hx => List.eq_of_mem_replicate hx ▸ hzero, ?_⟩
  simp only [List.forall_mem_cons, List.not_mem_nil, IsEmpty.forall_iff, implies_true, and_true]
  refine ⟨?_, ?_, hzero⟩
  · rw [text_defaults.2.1]
    rfl
  · rw [text_defaults.2.2]
    rfl

def originLine : JsString := js "movel(p[0, 0, 0, 0, 0, 0], a=1.2, v=0.1, r=0)"

theorem line_origin : (moveToPose slowLimits origin).line = some originLine ∧
    (moveToPose wideLimits origin).line = some originLine := by
  decide +kernel

theorem positive_limits : slowLimits.Positive ∧ wideLimits.Positive := by
  have hspeed : 0 < defaultMoveSpeed.value := value_pos rfl (by decide)
  have hacceleration : 0 < defaultMoveAcceleration.value := value_pos rfl (by decide)
  have hslow : 0 < slowSpeed.value := value_pos rfl (by decide)
  exact ⟨⟨Bool.forall_bool.mpr ⟨hslow, hspeed⟩, Bool.forall_bool.mpr ⟨hacceleration, hacceleration⟩, hspeed⟩,
    ⟨Bool.forall_bool.mpr ⟨hspeed, hspeed⟩, Bool.forall_bool.mpr ⟨hacceleration, hacceleration⟩, hspeed⟩⟩

/-- A line whose speed is the largest one. -/
theorem respects_wideLimits : Respects readThree wideLimits origin originLine :=
  (respects_iff positive_limits.2 line_origin.2 readThree_numbers).mpr ⟨fun _ => le_rfl, fun _ => le_rfl⟩

/-- **A speed that was filled in** is above the largest one. -/
theorem not_respects_slowLimits : ¬ ∀ read limits payload line, UrSafetyLimits.Positive limits →
    (moveToPose limits payload).line = some line → (∀ x ∈ numbers payload, read x.text = some x.value) →
      Respects read limits payload line := by
  intro h
  have hrespects := h readThree slowLimits origin originLine positive_limits.1 line_origin.1 readThree_numbers
  obtain ⟨pose, a, v, r, hmove, hpose, hdefaults, -⟩ :=
    exists_readMoveLine positive_limits.1 line_origin.1 readThree_numbers
  obtain ⟨ha, hv, -⟩ := (respects_iff_of_read hmove hpose).mp hrespects
  have hspeed : defaultMoveSpeed.value ≤ slowSpeed.value := (hdefaults.mp ⟨ha, hv⟩).speed rfl
  revert hspeed
  decide +kernel

end Pinout.Ur
