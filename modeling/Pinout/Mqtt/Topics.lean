import Pinout.Foundation.Splitting
import Pinout.Mqtt.Client

/-! # Topics and topic filters

What it means that a topic matches a filter, by recursion on their levels, and that the loop of
`topicMatches` (`packages/protocols-mqtt/src/mapping.ts`) decides it; all but topics that begin with a
dollar sign, which a filter that begins with a wildcard leaves to the server. -/

namespace Pinout.Mqtt

open Foundation

def validateTopicFilter (filter : JsString) : Except Thrown Unit :=
  let parts := filter.splitOn 47
  if filter = [] ∨ 0 ∈ filter ∨ parts.zipIdx.any (fun part =>
      (35 ∈ part.1 && (part.1 ≠ js "#" || part.2 ≠ parts.length - 1)) ||
        (43 ∈ part.1 && part.1 ≠ js "+")) then
    .error (mqttError (js "MQTT_INVALID_TOPIC") (js "Invalid MQTT topic filter."))
  else .ok ()

/-- A topic that can be published: it has a level, and neither wildcards nor nulls. -/
def ValidTopicName (topic : JsString) : Prop := topic ≠ [] ∧ hasWildcard topic = false

/-- **The levels of a topic match those of a filter.** A plus sign stands for one level, a hash sign at the
end for the level before it and any number of further ones, and everything else for itself. -/
inductive LevelsMatch : List JsString → List JsString → Prop
  | done : LevelsMatch [] []
  | remaining (levels : List JsString) : LevelsMatch [js "#"] levels
  | any {filterLevels levels : List JsString} (level : JsString) :
      LevelsMatch filterLevels levels → LevelsMatch (js "+" :: filterLevels) (level :: levels)
  | same {filterLevels levels : List JsString} {level : JsString} : level ≠ js "#" →
      LevelsMatch filterLevels levels → LevelsMatch (level :: filterLevels) (level :: levels)

def beginsWithWildcard (filter : JsString) : Bool := filter.head? = some 43 || filter.head? = some 35

/-! ## The loop -/

/-- **The loop decides** whether levels match. -/
theorem partsMatch_iff (filterParts topicParts : List JsString) :
    partsMatch filterParts topicParts = true ↔ LevelsMatch filterParts topicParts := by
  induction filterParts generalizing topicParts with
  | nil =>
    cases topicParts with
    | nil => exact ⟨fun _ => .done, fun _ => rfl⟩
    | cons level levels => exact ⟨nofun, nofun⟩
  | cons part filterParts ih =>
    have hplus : js "+" ≠ js "#" := by decide
    rw [partsMatch.eq_def]
    simp only
    by_cases hhash : part = js "#"
    · rw [if_pos hhash, decide_eq_true_eq, hhash]
      constructor
      · rintro rfl
        exact .remaining topicParts
      · intro h
        cases h with
        | remaining => rfl
        | same hne _ => exact absurd rfl hne
    · rw [if_neg hhash]
      cases topicParts with
      | nil =>
        refine ⟨nofun, fun h => ?_⟩
        cases h
        exact absurd rfl hhash
      | cons level levels =>
        simp only
        by_cases hpart : part = js "+" ∨ part = level
        · rw [if_pos hpart, ih]
          constructor
          · intro h
            rcases hpart with rfl | rfl
            · exact .any level h
            · exact .same hhash h
          · intro h
            cases h with
            | remaining => exact absurd rfl hhash
            | any _ h => exact h
            | same _ h => exact h
        · rw [if_neg hpart]
          refine ⟨nofun, fun h => ?_⟩
          cases h with
          | remaining => exact absurd rfl hhash
          | any _ _ => exact absurd (.inl rfl) hpart
          | same _ _ => exact absurd (.inr rfl) hpart

theorem LevelsMatch.refl {levels : List JsString} (h : js "#" ∉ levels) : LevelsMatch levels levels := by
  induction levels with
  | nil => exact .done
  | cons level levels ih =>
    rw [List.mem_cons, not_or] at h
    exact .same (Ne.symm h.1) (ih h.2)

/-- A topic that can be published has no level that is a hash sign. -/
theorem ValidTopicName.hash_not_mem {topic : JsString} (h : ValidTopicName topic) :
    js "#" ∉ topic.splitOn 47 := by
  intro hmem
  have hhash : (35 : UInt16) ∈ topic := mem_of_mem_splitOn hmem (List.mem_singleton.mpr rfl)
  have hwild : hasWildcard topic = true := List.any_eq_true.mpr ⟨35, hhash, rfl⟩
  rw [h.2] at hwild
  cases hwild

/-- A filter that matches a topic begins with a wildcard, or as the topic does. -/
theorem LevelsMatch.head? {filter topic : JsString}
    (h : LevelsMatch (filter.splitOn 47) (topic.splitOn 47)) {u : UInt16} (hu : u ≠ 47)
    (htopic : topic.head? = some u) : beginsWithWildcard filter = true ∨ filter.head? = some u := by
  rw [beginsWithWildcard, Bool.or_eq_true, decide_eq_true_eq, decide_eq_true_eq]
  generalize hfilter : filter.splitOn 47 = filterParts at h
  generalize hsplit : topic.splitOn 47 = topicParts at h
  cases h with
  | done => exact absurd hfilter (List.splitOnP_ne_nil _ _)
  | remaining => exact .inl (.inr ((head?_of_splitOn hfilter (by decide)).mpr rfl))
  | any _ _ => exact .inl (.inl ((head?_of_splitOn hfilter (by decide)).mpr rfl))
  | same _ _ =>
    have hlevel := (head?_of_splitOn hsplit hu).mp htopic
    exact .inr ((head?_of_splitOn hfilter hu).mpr hlevel)

/-- **Matching.** A topic that can be published matches a filter exactly when its levels do, unless it begins
with a dollar sign and the filter with a wildcard. -/
theorem topicMatches_iff (filter : JsString) {topic : JsString} (htopic : ValidTopicName topic) :
    topicMatches filter topic = true ↔ LevelsMatch (filter.splitOn 47) (topic.splitOn 47) ∧
      ¬ (topic.head? = some 36 ∧ beginsWithWildcard filter = true) := by
  rw [topicMatches]
  by_cases hdollar : topic.head? = some 36 ∧ filter.head? ≠ some 36
  · rw [if_pos hdollar]
    refine ⟨nofun, fun ⟨hlevels, hwild⟩ => ?_⟩
    rcases hlevels.head? (by decide) hdollar.1 with hbegins | hsame
    · exact absurd ⟨hdollar.1, hbegins⟩ hwild
    · exact absurd hsame hdollar.2
  · have hwild : ¬ (topic.head? = some 36 ∧ beginsWithWildcard filter = true) := by
      rintro ⟨hsome, hbegins⟩
      have hfilter : filter.head? = some 36 := by
        by_contra hne
        exact hdollar ⟨hsome, hne⟩
      rw [beginsWithWildcard, hfilter] at hbegins
      exact absurd hbegins (by decide)
    rw [if_neg hdollar]
    by_cases hsame : filter = topic
    · rw [if_pos hsame, hsame]
      exact ⟨fun _ => ⟨.refl htopic.hash_not_mem, hsame ▸ hwild⟩, fun _ => rfl⟩
    · rw [if_neg hsame, partsMatch_iff]
      exact ⟨fun h => ⟨h, hwild⟩, And.left⟩

/-- The parent of a level, by a filter for all that is below it. -/
theorem topicMatches_parent :
    LevelsMatch ((js "lab/#").splitOn 47) ((js "lab").splitOn 47) :=
  ((@topicMatches_iff (js "lab/#") (js "lab") ⟨by decide, by decide⟩).mp (by decide)).1

/-- Topics of the server itself are not matched by a filter for everything. -/
theorem not_topicMatches_system : validateTopicFilter (js "#") = .ok () ∧
    ValidTopicName (js "$SYS/uptime") ∧
    LevelsMatch ((js "#").splitOn 47) ((js "$SYS/uptime").splitOn 47) ∧
    topicMatches (js "#") (js "$SYS/uptime") = false :=
  ⟨rfl, ⟨by decide, by decide⟩, .remaining _, by decide⟩

end Pinout.Mqtt
