import Pinout.Generator.CapabilitySafety
import Mathlib.Data.List.Infix

/-! # Provenance of limits

`detectContradictions` and `applyProvenancePolicy` (`packages/generator/src/safety/provenance.ts`). A contradiction
marks those of its sides that are not documented. Whether a limit may become a hard rule depends on its own provenance
and confidence alone (`map_hardEligible`), so documented limits that contradict each other both may
(`provenanceLaw_iff`). -/

namespace Pinout.Generator

open Foundation

inductive SafetyProvenance
  | documented | inferred | unknown | conflicted
  deriving DecidableEq, Repr

structure ProvenancedConstraint extends SafetyConstraint where
  confidence : ℚ
  provenance : SafetyProvenance
  hardEligible : Bool
  unit : Option JsString := none

structure DocumentedClaim where
  claim : JsString
  capability : Option JsString := none
  value : Option ℚ := none
  unit : Option JsString := none
  supported : Option Bool := none

inductive Side
  | constraint (c : ProvenancedConstraint)
  | claim (c : DocumentedClaim)

/-- The kinds of contradictions that are detected. -/
inductive ContradictionKind
  | numericConflict | unitConflict | supportedConflict

structure Contradiction where
  id : JsString
  kind : ContradictionKind
  message : JsString
  a : Side
  b : Side

/-! ## Contradictions -/

def unitFamilies : List (JsString × List JsString) :=
  [(js "temperature", [js "C", js "F", js "K"]), (js "voltage", [js "V", js "mV"]), (js "current", [js "A", js "mA"]),
    (js "length", [js "m", js "mm", js "cm"]), (js "speed", [js "m/s", js "mm/s", js "rpm", js "deg/s", js "rad/s"]),
    (js "pressure", [js "Pa", js "kPa", js "bar", js "psi"])]

def unitFamily (unit : Option JsString) : Option JsString :=
  unit.bind fun unit => (unitFamilies.find? fun family => family.2.contains unit).map (·.1)

/-- `unitMismatch`, of two units that may be missing. -/
def unitMismatch (a b : Option JsString) : Bool :=
  a.isSome && b.isSome && a ≠ b && unitFamily a ≠ unitFamily b

structure ComparableBound where
  capability : JsString
  argument : Option JsString := none
  minimum : Option ℚ := none
  maximum : Option ℚ := none
  unit : Option JsString := none
  ref : Side

def ProvenancedConstraint.limits (c : ProvenancedConstraint) : Bool := c.minimum.isSome || c.maximum.isSome

/-- What `normalizeToBounds` makes of a constraint. -/
def boundOfConstraint (c : ProvenancedConstraint) : Option ComparableBound :=
  if c.limits then some
    { capability := c.capability, argument := c.argument, minimum := c.minimum, maximum := c.maximum, unit := c.unit
      ref := .constraint c }
  else none

/-- `toLowerCase`, as far as it counts for the letters of a word of the basic alphabet. -/
def lowerLetters (text : JsString) : JsString := text.map fun u => if 65 ≤ u ∧ u ≤ 90 then u + 32 else u

/-- What `normalizeToBounds` makes of a claim. -/
def boundOfClaim (c : DocumentedClaim) : Option ComparableBound :=
  match c.value, c.capability with
  | some value, some capability =>
    let least : Bool := js "minimum" <:+: lowerLetters c.claim
    some
      { capability, minimum := if least then some value else none, maximum := if least then none else some value
        unit := c.unit, ref := .claim c }
  | _, _ => none

def normalizeToBounds (constraints : List ProvenancedConstraint) (claims : List DocumentedClaim) :
    List ComparableBound :=
  constraints.filterMap boundOfConstraint ++ claims.filterMap boundOfClaim

section Detection

variable (numText : ℚ → JsString)

/-- The text of a limit that two bounds state differently. -/
def conflictText (name : JsString) (a b : ComparableBound) (p q : ℚ) : JsString :=
  name ++ js " for '" ++ a.capability ++ ((a.argument.filter (· ≠ [])).map (46 :: ·)).getD [] ++
    js "' is stated as " ++ numText p ++ a.unit.getD [] ++ js " in one source and " ++ numText q ++ b.unit.getD [] ++
    js " in another."

def differing (p q : Option ℚ) : Option (ℚ × ℚ) :=
  match p, q with
  | some p, some q => if p ≠ q then some (p, q) else none
  | _, _ => none

def numericConflict (a b : ComparableBound) : Option (ContradictionKind × JsString) :=
  if unitMismatch a.unit b.unit ∧ a.argument = b.argument then
    some (.unitConflict, js "Bounds for '" ++ a.capability ++ 46 :: a.argument.getD (js "undefined") ++
      js "' are stated in incompatible units (" ++ a.unit.getD [] ++ js " vs " ++ b.unit.getD [] ++
      js "); semantic comparison impossible.")
  else if unitMismatch a.unit b.unit then none
  else if a.argument ≠ b.argument ∧ a.argument.isSome ∧ b.argument.isSome then none
  else match differing a.maximum b.maximum, differing a.minimum b.minimum with
    | some (p, q), _ => some (.numericConflict, conflictText numText (js "Maximum") a b p q)
    | none, some (p, q) => some (.numericConflict, conflictText numText (js "Minimum") a b p q)
    | none, none => none

/-- The pairs of entries of a list, each with those behind it. -/
def pairs {α : Type} : List α → List (α × α)
  | [] => []
  | a :: l => l.map (a, ·) ++ pairs l

/-- The contradiction of two bounds, but for its number. -/
def boundConflict (a b : ComparableBound) : Option (JsString → Contradiction) :=
  if a.capability = b.capability then
    (numericConflict numText a b).map fun (kind, message) id => { id, kind, message, a := a.ref, b := b.ref }
  else none

/-- `${supported}`. -/
def supportedText : Option Bool → JsString
  | some true => js "true"
  | some false => js "false"
  | none => js "undefined"

/-- The contradiction of two claims, but for its number. -/
def supportedConflict (a b : DocumentedClaim) : Option (JsString → Contradiction) :=
  if a.claim = b.claim ∧ a.supported ≠ b.supported then some fun id =>
    { id, kind := .supportedConflict, a := .claim a, b := .claim b
      message := js "Sources disagree whether '" ++ a.claim ++ js "' is supported (" ++ supportedText a.supported ++
        js " vs " ++ supportedText b.supported ++ js ")." }
  else none

def detectContradictions (constraints : List ProvenancedConstraint) (claims : List DocumentedClaim) :
    List Contradiction :=
  let found := (pairs (normalizeToBounds constraints claims)).filterMap fun (a, b) => boundConflict numText a b
  let supported := (pairs (claims.filter (·.supported.isSome))).filterMap fun (a, b) => supportedConflict a b
  (found ++ supported).zipIdx.map fun (make, n) => make (js "contradiction-" ++ decimal (n + 1))

/-! ## The policy -/

def constraintIdentity (c : ProvenancedConstraint) : JsString :=
  c.capability ++ 124 :: c.argument.getD [] ++ 124 :: c.minimum.elim [] numText ++ 124 :: c.maximum.elim [] numText

/-- The identity of a side that is a constraint. -/
def Side.identity? : Side → Option JsString
  | .constraint c => some (constraintIdentity numText c)
  | .claim _ => none

/-- `constraint.provenance === 'DOCUMENTED' && constraint.confidence >= 0.8`. -/
def ProvenancedConstraint.hardens (c : ProvenancedConstraint) : Bool :=
  c.provenance = .documented && 4 / 5 ≤ c.confidence

def applyProvenancePolicy (constraints : List ProvenancedConstraint) (contradictions : List Contradiction) :
    List ProvenancedConstraint :=
  let conflicted := contradictions.flatMap fun x => [x.a, x.b].filterMap (Side.identity? numText)
  constraints.map fun c =>
    if conflicted.contains (constraintIdentity numText c) ∧ c.provenance ≠ .documented then
      { c with provenance := .conflicted, hardEligible := false }
    else { c with hardEligible := c.hardens }

/-- **Which limits may become hard rules** does not depend on the contradictions. -/
theorem map_hardEligible (constraints : List ProvenancedConstraint) (contradictions : List Contradiction) :
    (applyProvenancePolicy numText constraints contradictions).map (·.hardEligible) =
      constraints.map (·.hardens) := by
  rw [applyProvenancePolicy, List.map_map]
  refine List.map_congr_left fun c _ => ?_
  dsimp only [Function.comp_apply]
  split
  · next h => simp [ProvenancedConstraint.hardens, h.2]
  · rfl

end Detection

/-! ## The law -/

/-- Two constraints state limits of one capability that are comparable and differ, or are in incompatible units. -/
def Contradicts (a b : ProvenancedConstraint) : Prop :=
  a.limits ∧ b.limits ∧ a.capability = b.capability ∧ (a.argument = b.argument ∨ a.argument = none ∨ b.argument = none) ∧
    (unitMismatch a.unit b.unit ∨ (differing a.maximum b.maximum).isSome ∨ (differing a.minimum b.minimum).isSome)

instance (a b : ProvenancedConstraint) : Decidable (Contradicts a b) := inferInstanceAs (Decidable (_ ∧ _))

/-- What is said of the limits that may become hard rules: no two contradict each other, all are documented, and one
that is in no contradiction may whatever other contradictions there are. -/
structure ProvenanceLaw (numText : ℚ → JsString) (constraints : List ProvenancedConstraint)
    (claims : List DocumentedClaim) : Prop where
  apart : (applyProvenancePolicy numText constraints (detectContradictions numText constraints claims)).Pairwise
    fun a b => a.hardEligible → b.hardEligible → ¬ Contradicts a b
  documented : ∀ c ∈ applyProvenancePolicy numText constraints (detectContradictions numText constraints claims),
    c.hardEligible → c.provenance = .documented
  frame : ∀ (n : Nat) (c : ProvenancedConstraint), constraints[n]? = some c →
    (∀ x ∈ detectContradictions numText constraints claims, x.a ≠ .constraint c ∧ x.b ≠ .constraint c) →
    ∀ others : List Contradiction, (∀ x ∈ others, x.a ≠ .constraint c ∧ x.b ≠ .constraint c) →
      (applyProvenancePolicy numText constraints others)[n]?.map (·.hardEligible) =
        (applyProvenancePolicy numText constraints (detectContradictions numText constraints claims))[n]?.map
          (·.hardEligible)

variable {numText : ℚ → JsString} {constraints : List ProvenancedConstraint} {claims : List DocumentedClaim}

/-- **The law holds exactly when no two limits that are documented, with confidence, contradict each other.** -/
theorem provenanceLaw_iff : ProvenanceLaw numText constraints claims ↔
    constraints.Pairwise fun a b => a.hardens → b.hardens → ¬ Contradicts a b := by
  have hmade : ∀ contradictions, ∃ f : ProvenancedConstraint → ProvenancedConstraint,
      applyProvenancePolicy numText constraints contradictions = constraints.map f ∧
        ∀ c, (f c).hardEligible = c.hardens ∧ (f c).toSafetyConstraint = c.toSafetyConstraint ∧ (f c).unit = c.unit ∧
          (c.hardens → (f c).provenance = c.provenance) := by
    intro contradictions
    refine ⟨_, rfl, fun c => ?_⟩
    split
    · next h => simp [ProvenancedConstraint.hardens, h.2]
    · simp
  obtain ⟨f, hf, hspec⟩ := hmade (detectContradictions numText constraints claims)
  have hcontradicts : ∀ a b, Contradicts (f a) (f b) ↔ Contradicts a b := by
    intro a b
    obtain ⟨-, ha, hunit, -⟩ := hspec a
    obtain ⟨-, hb, hunit', -⟩ := hspec b
    rw [Contradicts, Contradicts, ProvenancedConstraint.limits, ProvenancedConstraint.limits, ha, hb, hunit, hunit']
    rfl
  have hpairs : (constraints.map f).Pairwise (fun a b => a.hardEligible → b.hardEligible → ¬ Contradicts a b) ↔
      constraints.Pairwise fun a b => a.hardens → b.hardens → ¬ Contradicts a b := by
    rw [List.pairwise_map]
    simp only [hcontradicts, (hspec _).1]
  constructor
  · intro h
    have hapart := h.apart
    rw [hf] at hapart
    exact hpairs.mp hapart
  · intro h
    refine ⟨?_, ?_, fun n c _ _ others _ => ?_⟩
    · rw [hf]
      exact hpairs.mpr h
    · rw [hf]
      intro c hc heligible
      obtain ⟨c, -, rfl⟩ := List.mem_map.mp hc
      obtain ⟨hhardens, -, -, hprovenance⟩ := hspec c
      rw [hhardens] at heligible
      rw [hprovenance heligible]
      exact of_decide_eq_true (Bool.and_eq_true_iff.mp heligible).1
    · rw [← List.getElem?_map, ← List.getElem?_map, map_hardEligible, map_hardEligible]

def limitAt (maximum : ℚ) : ProvenancedConstraint where
  type := .range
  capability := js "temperature.set"
  argument := some (js "value")
  maximum := some maximum
  requiresHumanReview := false
  documented := true
  confidence := 9 / 10
  provenance := .documented
  hardEligible := false

/-- Two manuals that disagree: both limits may become hard rules. -/
theorem not_provenanceLaw_manuals :
    ¬ ProvenanceLaw (fun _ => []) [limitAt 80, limitAt 100] [] := by
  rw [provenanceLaw_iff]
  decide +kernel

end Pinout.Generator
