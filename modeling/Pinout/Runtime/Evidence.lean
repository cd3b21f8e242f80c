import Pinout.Foundation.Fallible
import Pinout.Policy.Engine
import Mathlib.Tactic.Linarith

/-! # Evidence and its freshness

What is known of a device's physical state (`packages/core/src/spec/evidence.ts`), how old it is, and the prerequisites
of an action (`evaluatePrerequisites`, `packages/core/src/runtime/deviceInstance.ts`). A number of milliseconds may be
any number, also one that is not finite; timestamps are read by the platform. -/

namespace Pinout.Evidence

open Foundation Policy

/-! ## Evidence -/

inductive EvidenceSource
  | commanded | acknowledged | gpioReadback | sensor | simulated | none
  deriving DecidableEq, Repr

def EvidenceSource.text : EvidenceSource → JsString
  | commanded => js "commanded"
  | acknowledged => js "acknowledged"
  | gpioReadback => js "gpio-readback"
  | sensor => js "sensor"
  | simulated => js "simulated"
  | none => js "none"

inductive EvidenceProvenance
  | simulated | hardware | unknown
  deriving DecidableEq, Repr

structure EvidenceValue where
  value : Json := .null
  stamp : Option JsString := none
  source : EvidenceSource := .none

structure EvidenceState where
  commanded : EvidenceValue := {}
  acknowledged : EvidenceValue := {}
  observed : EvidenceValue := {}
  freshnessMs : Option Bound := none
  stale : Bool := false
  provenance : EvidenceProvenance := .unknown

def unknownEvidence (provenance : EvidenceProvenance) : EvidenceState :=
  { provenance := provenance }

structure StatePrerequisite where
  key : JsString
  expectedValue : Option Json := none
  maxAgeMs : Option Bound := none

/-- `a - b`, for a finite `b`. -/
def minus : Bound → ℚ → Bound
  | .num p, q => .num (p - q)
  | infinite, _ => infinite

/-- `Math.max(0, a)`. -/
def clamp : Bound → Bound
  | .num p => .num (max 0 p)
  | .negInfinity => .num 0
  | other => other

inductive TimeInput
  | unspecified
  | number (ms : Bound)
  | text (stamp : JsString)
  | date (ms : Option ℚ)

section Freshness

/- Here `parseTime` is `new Date(stamp).getTime()`, nothing for `NaN`; `clock` is `Date.now()`. -/
variable (parseTime : JsString → Option ℚ) (clock : ℚ)

def getTimestampMs : TimeInput → Bound
  | .unspecified => .num clock
  | .number ms => ms
  | .text stamp => (parseTime stamp).elim .nan .num
  | .date ms => ms.elim .nan .num

def computeFreshness (state : EvidenceState) (now : TimeInput) (maxAgeMs : Option Bound) : EvidenceState :=
  match state.observed.stamp with
  | none => { state with freshnessMs := none, stale := false }
  | some stamp =>
    let nowMs := getTimestampMs parseTime clock now
    match parseTime stamp with
    | none => { state with freshnessMs := none, stale := true }
    | some obsMs =>
      let freshnessMs := clamp (minus nowMs obsMs)
      { state with
        freshnessMs := some freshnessMs
        stale := maxAgeMs.elim state.stale fun maxAgeMs => maxAgeMs.lt freshnessMs }

def isStale (state : EvidenceState) (maxAgeMs : Bound) (now : TimeInput) : Bool :=
  match state.observed.stamp with
  | none => true
  | some stamp =>
    let nowMs := getTimestampMs parseTime clock now
    match parseTime stamp with
    | none => true
    | some obsMs =>
      let ageMs := minus nowMs obsMs
      maxAgeMs.lt ageMs || ageMs.lt (.num 0)

def hasObservedValue (state : EvidenceState) : Bool :=
  !(state.observed.value matches .null) && state.observed.stamp.isSome && state.observed.source ≠ .none

@[simp] theorem observed_computeFreshness (state : EvidenceState) (now : TimeInput) (maxAgeMs : Option Bound) :
    (computeFreshness parseTime clock state now maxAgeMs).observed = state.observed := by
  unfold computeFreshness
  split
  · rfl
  · dsimp only
    split <;> rfl

end Freshness

/-! ## Prerequisites -/

/-- What a `DeviceInstance` knows of its state, and what its capabilities ask of it. -/
structure DeviceInstance where
  id : JsString
  maxStateAge : List (JsString × Bound) := []
  defaultMaxStateAgeMs : Option Bound := none
  prerequisites : List (JsString × List StatePrerequisite) := []
  /-- The evidence of the backend, of its operational state and of `evidenceMap`, in this order. -/
  evidence : List (JsString × EvidenceState) := []

section Prerequisites

/- Here `parseTime` and `clock` are as above, `same` is `===` on two values and `numText` prints a number. -/
variable (parseTime : JsString → Option ℚ) (clock : ℚ) (same : Json → Json → Bool) (numText : ℚ → JsString)

namespace DeviceInstance

def getMaxAgeMs (device : DeviceInstance) (key : JsString) : Option Bound :=
  ((device.maxStateAge.find? fun entry => entry.1 = key).map Prod.snd).or device.defaultMaxStateAgeMs

/-- `getStateEvidence`, read at a key: what comes later replaces what came before. -/
def getEvidence (device : DeviceInstance) (key : JsString) : Option EvidenceState :=
  (device.evidence.reverse.find? fun entry => entry.1 = key).map fun entry =>
    computeFreshness parseTime clock entry.2 .unspecified (device.getMaxAgeMs key)

/-- The limit of a prerequisite: `prereq.maxAgeMs ?? this.getMaxAgeMs(prereq.key)`. -/
def limit (device : DeviceInstance) (prereq : StatePrerequisite) : Option Bound :=
  prereq.maxAgeMs.or (device.getMaxAgeMs prereq.key)

end DeviceInstance

def stampJson : Option JsString → Json
  | some stamp => .str stamp
  | none => .null

/-- `PinoutStructuredError` of a prerequisite. -/
def prerequisiteError (code message : JsString) (device : DeviceInstance) (capability : JsString)
    (details : JsonObject) : Thrown :=
  .structuredError { pinoutStructuredError code .safety message with
    device := some device.id
    capability := some capability
    details := details }

def missingError (device : DeviceInstance) (capability : JsString) (prereq : StatePrerequisite)
    (evidence : Option EvidenceState) : Thrown :=
  let observed := (evidence.map EvidenceState.observed).getD {}
  prerequisiteError (js "PREREQUISITE_MISSING")
    (js "Prerequisite '" ++ prereq.key ++ js "' is missing or has no observed physical evidence for capability '" ++
      capability ++ js "'.")
    device capability
    ([(js "key", .str prereq.key)] ++ (prereq.expectedValue.map fun value => (js "expectedValue", value)).toList ++
      [(js "observedValue", observed.value), (js "observedSource", .str observed.source.text),
        (js "observedAt", stampJson observed.stamp)])

/-- What is thrown where something else was observed. -/
def mismatchError (device : DeviceInstance) (capability : JsString) (prereq : StatePrerequisite) (expected : Json)
    (observed : EvidenceValue) : Thrown :=
  prerequisiteError (js "PREREQUISITE_MISSING")
    (js "Prerequisite '" ++ prereq.key ++ js "' expected value '" ++ Json.text numText expected ++
      js "' but observed '" ++ Json.text numText observed.value ++ js "' for capability '" ++ capability ++ js "'.")
    device capability
    [(js "key", .str prereq.key), (js "expectedValue", expected), (js "observedValue", observed.value),
      (js "observedSource", .str observed.source.text), (js "observedAt", stampJson observed.stamp)]

/-- What is thrown where the observation is too old. -/
def staleError (device : DeviceInstance) (capability : JsString) (prereq : StatePrerequisite) (maxAge ageMs : Bound)
    (observed : EvidenceValue) : Thrown :=
  prerequisiteError (js "PREREQUISITE_STALE")
    (js "Prerequisite '" ++ prereq.key ++ js "' observed value is stale (" ++ ageMs.text numText ++
      js "ms > maxAge " ++ maxAge.text numText ++ js "ms) for capability '" ++ capability ++ js "'.")
    device capability
    [(js "key", .str prereq.key), (js "maxAgeMs", boundJson maxAge), (js "ageMs", boundJson ageMs),
      (js "observedAt", stampJson observed.stamp), (js "observedValue", observed.value)]

/-- The staleness check of a prerequisite, for an observation made at `stamp`. -/
def checkStaleness (device : DeviceInstance) (capability : JsString) (prereq : StatePrerequisite)
    (observed : EvidenceValue) (stamp : JsString) : Except Thrown Unit :=
  match device.limit prereq with
  | none => .ok ()
  | some maxAge =>
    match parseTime stamp with
    | none => .error (staleError numText device capability prereq maxAge .nan observed)
    | some obsMs =>
      let ageMs := minus (.num clock) obsMs
      if maxAge.lt ageMs || ageMs.lt (.num 0) then
        .error (staleError numText device capability prereq maxAge ageMs observed)
      else .ok ()

/-- The body of the loop of `evaluatePrerequisites`. -/
def checkPrerequisite (device : DeviceInstance) (capability : JsString) (prereq : StatePrerequisite) :
    Except Thrown Unit :=
  match device.getEvidence parseTime clock prereq.key with
  | none => .error (missingError device capability prereq none)
  | some evidence =>
    match evidence.observed.stamp with
    | none => .error (missingError device capability prereq (some evidence))
    | some stamp =>
      if (evidence.observed.value matches .null) || evidence.observed.source = .none then
        .error (missingError device capability prereq (some evidence))
      else
        match prereq.expectedValue with
        | some expected =>
          if same evidence.observed.value expected then
            checkStaleness parseTime clock numText device capability prereq evidence.observed stamp
          else .error (mismatchError numText device capability prereq expected evidence.observed)
        | none => checkStaleness parseTime clock numText device capability prereq evidence.observed stamp

/-- `evaluatePrerequisites`, the clock read once. -/
def evaluatePrerequisites (device : DeviceInstance) (capability : JsString) : Except Thrown Unit :=
  (((device.prerequisites.find? fun entry => entry.1 = capability).map Prod.snd).getD []).forM
    (checkPrerequisite parseTime clock same numText device capability)

/-! ## Three notions of staleness -/

def DeviceInstance.Has (device : DeviceInstance) (key : JsString) (state : EvidenceState) : Prop :=
  (device.evidence.reverse.find? fun entry => entry.1 = key).map Prod.snd = some state

/-- The three say the same of an observation: what is computed, what is asked for, and whether the prerequisite is
refused. -/
def Agree (device : DeviceInstance) (capability : JsString) (prereq : StatePrerequisite) (state : EvidenceState)
    (maxAgeMs : Bound) : Prop :=
  ((computeFreshness parseTime clock state .unspecified (some maxAgeMs)).stale = true ↔
      isStale parseTime clock state maxAgeMs .unspecified = true) ∧
    (isStale parseTime clock state maxAgeMs .unspecified = true ↔
      checkPrerequisite parseTime clock same numText device capability prereq ≠ .ok ())

section

variable {device : DeviceInstance} {capability : JsString} {prereq : StatePrerequisite} {state : EvidenceState}

theorem DeviceInstance.Has.getEvidence (hhas : device.Has prereq.key state) :
    device.getEvidence parseTime clock prereq.key =
      some (computeFreshness parseTime clock state .unspecified (device.getMaxAgeMs prereq.key)) := by
  obtain ⟨entry, hentry, rfl⟩ := Option.map_eq_some_iff.mp hhas
  rw [DeviceInstance.getEvidence, hentry]
  rfl

theorem checkPrerequisite_of_unobserved (hhas : device.Has prereq.key state) (hstamp : state.observed.stamp = none) :
    checkPrerequisite parseTime clock same numText device capability prereq =
      .error (missingError device capability prereq
        (some (computeFreshness parseTime clock state .unspecified (device.getMaxAgeMs prereq.key)))) := by
  rw [checkPrerequisite, hhas.getEvidence]
  simp [hstamp]

theorem checkPrerequisite_of_observed (hhas : device.Has prereq.key state) {stamp : JsString}
    (hstamp : state.observed.stamp = some stamp) (hobserved : hasObservedValue state = true)
    (hexpected : prereq.expectedValue = none) :
    checkPrerequisite parseTime clock same numText device capability prereq =
      checkStaleness parseTime clock numText device capability prereq state.observed stamp := by
  simp only [hasObservedValue, Bool.and_eq_true, Bool.not_eq_true', decide_eq_true_eq] at hobserved
  rw [checkPrerequisite, hhas.getEvidence]
  simp [hstamp, hobserved, hexpected]

theorem checkPrerequisite_of_not_observed (hhas : device.Has prereq.key state)
    (hobserved : hasObservedValue state = false) :
    checkPrerequisite parseTime clock same numText device capability prereq =
      .error (missingError device capability prereq
        (some (computeFreshness parseTime clock state .unspecified (device.getMaxAgeMs prereq.key)))) := by
  cases hstamp : state.observed.stamp with
  | none => exact checkPrerequisite_of_unobserved parseTime clock same numText hhas hstamp
  | some stamp =>
    have hmissing : ((state.observed.value matches .null) || decide (state.observed.source = .none)) = true := by
      simp only [hasObservedValue, hstamp, Option.isSome_some, Bool.and_true] at hobserved
      cases hvalue : (state.observed.value matches .null) <;> simp_all
    rw [checkPrerequisite, hhas.getEvidence]
    simp only [observed_computeFreshness, hstamp]
    rw [if_pos (by simpa using hmissing)]

theorem checkStaleness_eq_ok_iff {stamp : JsString} {maxAgeMs : Bound} (hstamp : state.observed.stamp = some stamp)
    (hlimit : device.limit prereq = some maxAgeMs) :
    checkStaleness parseTime clock numText device capability prereq state.observed stamp = .ok () ↔
      isStale parseTime clock state maxAgeMs .unspecified = false := by
  rw [checkStaleness, hlimit]
  simp only [isStale, hstamp, getTimestampMs]
  cases parseTime stamp with
  | none => simp
  | some obsMs =>
    by_cases hold : (maxAgeMs.lt (minus (.num clock) obsMs) || (minus (.num clock) obsMs).lt (.num 0)) = true <;>
      simp [hold]

/-- On what was observed, also in the future, `isStale` and the check agree. -/
theorem isStale_iff_refused {maxAgeMs : Bound} (hhas : device.Has prereq.key state)
    (hobserved : hasObservedValue state = true) (hexpected : prereq.expectedValue = none)
    (hlimit : device.limit prereq = some maxAgeMs) :
    isStale parseTime clock state maxAgeMs .unspecified = true ↔
      checkPrerequisite parseTime clock same numText device capability prereq ≠ .ok () := by
  obtain ⟨stamp, hstamp⟩ : ∃ stamp, state.observed.stamp = some stamp := by
    simp only [hasObservedValue, Bool.and_eq_true] at hobserved
    exact Option.isSome_iff_exists.mp hobserved.1.2
  rw [checkPrerequisite_of_observed parseTime clock same numText hhas hstamp hobserved hexpected, Ne,
    checkStaleness_eq_ok_iff parseTime clock numText hstamp hlimit, Bool.not_eq_false]

end

/-- A reading of the future is stale to `isStale`, and to `computeFreshness` only by a negative limit. -/
theorem stale_computeFreshness_iff {state : EvidenceState} {stamp : JsString} (maxAgeMs : Bound)
    (hstamp : state.observed.stamp = some stamp) :
    ((computeFreshness parseTime clock state .unspecified (some maxAgeMs)).stale = true ↔
        isStale parseTime clock state maxAgeMs .unspecified = true) ↔
      ∀ obsMs, parseTime stamp = some obsMs → clock < obsMs → maxAgeMs.lt (.num 0) = true := by
  simp only [computeFreshness, isStale, hstamp, getTimestampMs]
  cases parseTime stamp with
  | none => simp
  | some obsMs =>
    simp only [Option.elim_some, minus, clamp, Option.some.injEq, forall_eq']
    by_cases hfuture : clock < obsMs
    · have hneg : clock - obsMs < 0 := by linarith
      simp [max_eq_left hneg.le, Bound.lt, hneg, hfuture]
    · have hpos : 0 ≤ clock - obsMs := by linarith
      simp [max_eq_right hpos, Bound.lt, hfuture]

/-- **Staleness.** The three notions agree exactly on what was observed and is not of the future (unless the limit is
negative), and which is old where it has no value. Of what was observed with a value `isStale` and the prerequisite
check always say the same; what was never observed is stale to the one and refused by the other, but has no age and is
not stale to `computeFreshness`. -/
theorem staleness_agreement {device : DeviceInstance} {capability : JsString} {prereq : StatePrerequisite}
    {state : EvidenceState} {maxAgeMs : Bound} (hhas : device.Has prereq.key state)
    (hexpected : prereq.expectedValue = none) (hlimit : device.limit prereq = some maxAgeMs) :
    (Agree parseTime clock same numText device capability prereq state maxAgeMs ↔
      (∃ stamp, state.observed.stamp = some stamp ∧
        ∀ obsMs, parseTime stamp = some obsMs → clock < obsMs → maxAgeMs.lt (.num 0) = true) ∧
      (hasObservedValue state = false → isStale parseTime clock state maxAgeMs .unspecified = true)) ∧
    (hasObservedValue state = true →
      (isStale parseTime clock state maxAgeMs .unspecified = true ↔
        checkPrerequisite parseTime clock same numText device capability prereq ≠ .ok ())) ∧
    (state.observed.stamp = none →
      (computeFreshness parseTime clock state .unspecified (some maxAgeMs)).stale = false ∧
      (computeFreshness parseTime clock state .unspecified (some maxAgeMs)).freshnessMs = none ∧
      isStale parseTime clock state maxAgeMs .unspecified = true ∧
      checkPrerequisite parseTime clock same numText device capability prereq ≠ .ok ()) := by
  have hrefused : hasObservedValue state = false →
      checkPrerequisite parseTime clock same numText device capability prereq ≠ .ok () := by
    intro hobserved
    rw [checkPrerequisite_of_not_observed parseTime clock same numText hhas hobserved]
    nofun
  have hsame : hasObservedValue state = true →
      (isStale parseTime clock state maxAgeMs .unspecified = true ↔
        checkPrerequisite parseTime clock same numText device capability prereq ≠ .ok ()) := fun hobserved =>
    isStale_iff_refused parseTime clock same numText hhas hobserved hexpected hlimit
  refine ⟨?_, hsame, fun hstamp => ?_⟩
  · cases hstamp : state.observed.stamp with
    | none => simp [Agree, computeFreshness, isStale, hstamp]
    | some stamp =>
      rw [Agree, stale_computeFreshness_iff parseTime clock maxAgeMs hstamp]
      simp only [Option.some.injEq, exists_eq_left']
      refine and_congr_right fun _ => ?_
      cases hobserved : hasObservedValue state with
      | true => simpa using hsame hobserved
      | false => simp [hrefused hobserved]
  · have hobserved : hasObservedValue state = false := by simp [hasObservedValue, hstamp]
    exact ⟨by simp [computeFreshness, hstamp], by simp [computeFreshness, hstamp], by simp [isStale, hstamp],
      hrefused hobserved⟩

end Prerequisites

/-- A door that is asked for, seen closed a while ago. -/
def doorSeen : EvidenceState :=
  { observed := ⟨.str (js "closed"), some (js "0"), .sensor⟩ }

def cutter (door : EvidenceState) : DeviceInstance :=
  { id := js "cutter", defaultMaxStateAgeMs := some (.num 1000), evidence := [(js "door", door)] }

/-- Two seconds later the door is stale to all three. -/
theorem staleness_agreement_door :
    Agree (fun _ => some 0) 2000 (fun _ _ => false) (fun _ => []) (cutter doorSeen) (js "laser.fire")
      { key := js "door" } doorSeen (.num 1000) :=
  (@staleness_agreement (fun _ => some 0) 2000 (fun _ _ => false) (fun _ => []) (cutter doorSeen) (js "laser.fire")
    { key := js "door" } doorSeen (.num 1000) rfl rfl rfl).1.mpr
      ⟨⟨js "0", rfl, fun obsMs h hfuture => by
        obtain rfl := Option.some.inj h
        exact absurd hfuture (by norm_num)⟩, fun h => absurd h (by decide)⟩

/-- A door that was never seen is not stale to `computeFreshness`. -/
theorem not_staleness_agreement : ¬ ∀ (parseTime : JsString → Option ℚ) (clock : ℚ) (same : Json → Json → Bool)
    (numText : ℚ → JsString) (device : DeviceInstance) (capability : JsString) (prereq : StatePrerequisite)
    (state : EvidenceState) (maxAgeMs : Bound), device.Has prereq.key state → prereq.expectedValue = none →
    device.limit prereq = some maxAgeMs →
    Agree parseTime clock same numText device capability prereq state maxAgeMs := by
  intro h
  have hagree := h (fun _ => some 0) 2000 (fun _ _ => false) (fun _ => []) (cutter (unknownEvidence .hardware))
    (js "laser.fire") { key := js "door" } (unknownEvidence .hardware) (.num 1000) rfl rfl rfl
  exact absurd (hagree.1.mpr rfl) (by decide)

end Pinout.Evidence
