import Pinout.Foundation.Separator
import Pinout.Foundation.Utf16

/-! # The tools of a runtime

`packages/core/src/runtime/agentTools.ts`: every capability of every device is a tool, whose name is made from the id of
the device and the name of the capability. The name is taken apart again at its first `__` (`parseMcpToolName`), which
gives back the pair it was made from exactly for a plain pair (`parse_build_eq_some_iff`), and nothing at all exactly
where the name begins with the separator (`parse_build_eq_none_iff`). -/

namespace Pinout.Mcp

open Foundation

/-! ## Names -/

def buildMcpToolName (deviceId capability : JsString) : JsString :=
  let normalizedId := replaceAll 45 95 deviceId
  let normalizedCapability := replaceAll 46 95 capability
  normalizedId ++ 95 :: 95 :: normalizedCapability

structure Target where
  deviceId : JsString
  capability : JsString
  deriving DecidableEq

def parseMcpToolName (mcpName : JsString) : Option Target :=
  match indexOfPair 95 mcpName with
  | none | some 0 => none
  | some (separator + 1) =>
    some ⟨replaceAll 95 45 (mcpName.take (separator + 1)), replaceAll 95 46 (mcpName.drop (separator + 3))⟩

/-- A pair whose name is taken apart as it was put together: neither part has a `_`, and the id neither has two `-` in a
row nor ends in one. -/
structure Plain (deviceId capability : JsString) : Prop where
  id : 95 ∉ deviceId
  capability : 95 ∉ capability
  inner : ¬ [45, 45] <:+: deviceId
  last : ¬ [45] <:+ deviceId

/-- An id for which the name begins with the separator. -/
def SeparatorFirst (deviceId : JsString) : Prop := [95, 95] <+: replaceAll 45 95 deviceId ++ [95]

instance (deviceId : JsString) : Decidable (SeparatorFirst deviceId) := by
  unfold SeparatorFirst
  infer_instance

variable {deviceId capability : JsString}

theorem indexOfPair_build (deviceId capability : JsString) :
    indexOfPair 95 (buildMcpToolName deviceId capability) =
      some ((indexOfPair 95 (replaceAll 45 95 deviceId ++ [95])).getD deviceId.length) := by
  rw [buildMcpToolName, indexOfPair_append, length_replaceAll]

/-- An id without `_` has the separator where it has two `-`. -/
theorem indexOfPair_normalized (h : 95 ∉ deviceId) :
    indexOfPair 95 (replaceAll 45 95 deviceId ++ [95]) = indexOfPair 45 (deviceId ++ [45]) := by
  have hmap : replaceAll 45 95 deviceId ++ [95] =
      (deviceId ++ [45]).map fun u : UInt16 => if u = 45 then 95 else u := by
    rw [List.map_append]
    rfl
  rw [hmap]
  refine indexOfPair_map (c := 45) (fun u : UInt16 => if u = 45 then 95 else u) fun u hu => ?_
  have hne : u ≠ 95 := by
    rintro rfl
    rcases List.mem_append.mp hu with hu | hu
    · exact h hu
    · exact absurd (List.mem_singleton.mp hu) (by decide)
  by_cases hdash : u = 45
  · simp [hdash]
  · simp [hdash, hne]

/-- A name is not taken apart at all exactly where it begins with the separator. -/
theorem parse_build_eq_none_iff (hid : deviceId ≠ []) :
    parseMcpToolName (buildMcpToolName deviceId capability) = none ↔ SeparatorFirst deviceId := by
  rw [SeparatorFirst, ← indexOfPair_eq_zero_iff, parseMcpToolName, indexOfPair_build]
  cases hfound : indexOfPair 95 (replaceAll 45 95 deviceId ++ [95]) with
  | none =>
    rw [Option.getD_none]
    obtain ⟨n, hn⟩ := Nat.exists_eq_succ_of_ne_zero (mt List.length_eq_zero_iff.mp hid)
    rw [hn]
    simp
  | some n =>
    rw [Option.getD_some]
    cases n <;> simp

/-- It is taken for the pair it was made from exactly when the pair is plain. -/
theorem parse_build_eq_some_iff (hid : deviceId ≠ []) :
    parseMcpToolName (buildMcpToolName deviceId capability) = some ⟨deviceId, capability⟩ ↔
      Plain deviceId capability := by
  have hplain : Plain deviceId capability ↔
      (95 ∉ deviceId ∧ 95 ∉ capability) ∧ indexOfPair 45 (deviceId ++ [45]) = none := by
    rw [indexOfPair_concat_eq_none_iff]
    exact ⟨fun h => ⟨⟨h.id, h.capability⟩, h.inner, h.last⟩, fun h => ⟨h.1.1, h.1.2, h.2.1, h.2.2⟩⟩
  rw [hplain, parseMcpToolName, indexOfPair_build]
  cases hfound : indexOfPair 95 (replaceAll 45 95 deviceId ++ [95]) with
  | none =>
    rw [Option.getD_none]
    obtain ⟨n, hn⟩ := Nat.exists_eq_succ_of_ne_zero (mt List.length_eq_zero_iff.mp hid)
    have htake : (buildMcpToolName deviceId capability).take (n + 1) = replaceAll 45 95 deviceId := by
      rw [buildMcpToolName, ← Nat.succ_eq_add_one, ← hn]
      exact List.take_left' (length_replaceAll ..)
    have hdrop : (buildMcpToolName deviceId capability).drop (n + 3) = replaceAll 46 95 capability := by
      have hlen : (replaceAll 45 95 deviceId ++ [95, 95]).length = n + 3 := by
        rw [List.length_append, length_replaceAll, hn]
        rfl
      have hsplit : buildMcpToolName deviceId capability =
          (replaceAll 45 95 deviceId ++ [95, 95]) ++ replaceAll 46 95 capability := by
        rw [List.append_assoc]
        rfl
      rw [hsplit]
      exact List.drop_left' hlen
    rw [hn]
    dsimp only
    rw [htake, hdrop, replaceAll_replaceAll, replaceAll_replaceAll, Option.some.injEq, Target.mk.injEq,
      replaceAll_eq_self_iff (by decide), replaceAll_eq_self_iff (by decide)]
    refine ⟨fun h => ⟨h, ?_⟩, And.left⟩
    rw [← indexOfPair_normalized h.1]
    exact hfound
  | some n =>
    -- What stands before the separator is shorter than the id.
    rw [Option.getD_some]
    have hlt := lt_length_of_indexOfPair hfound
    rw [length_replaceAll] at hlt
    refine iff_of_false ?_ ?_
    · cases n with
      | zero => nofun
      | succ n =>
        intro heq
        have hid' := congrArg List.length (Target.mk.inj (Option.some.inj heq)).1
        rw [length_replaceAll, List.length_take] at hid'
        omega
    · rintro ⟨⟨hid', -⟩, hnone⟩
      rw [indexOfPair_normalized hid', hnone] at hfound
      cases hfound

/-! ## Tools -/

structure CapabilityDescriptor where
  name : JsString
  physicalOutput : Bool := false

structure DeviceInstance where
  id : JsString
  capabilities : List CapabilityDescriptor

structure RuntimeAgentTool where
  deviceId : JsString
  capability : JsString
  mcpName : JsString
  physicalOutput : Bool

structure AgentToolNameCollisionError where
  name : JsString
  first : RuntimeAgentTool
  second : RuntimeAgentTool

def toRuntimeAgentTool (deviceId : JsString) (capability : CapabilityDescriptor) : RuntimeAgentTool :=
  { deviceId, capability := capability.name, mcpName := buildMcpToolName deviceId capability.name
    physicalOutput := capability.physicalOutput }

/-- The loop of `assertUniqueToolNames`. -/
def assertUniqueFrom (seen : List RuntimeAgentTool) : List RuntimeAgentTool → Except AgentToolNameCollisionError Unit
  | [] => .ok ()
  | tool :: rest =>
    match seen.find? fun first => first.mcpName = tool.mcpName with
    | some first => .error ⟨tool.mcpName, first, tool⟩
    | none => assertUniqueFrom (seen ++ [tool]) rest

def assertUniqueToolNames (tools : List RuntimeAgentTool) : Except AgentToolNameCollisionError (List RuntimeAgentTool) :=
  (assertUniqueFrom [] tools).map fun _ => tools

def deviceToRuntimeAgentTools (device : DeviceInstance) : Except AgentToolNameCollisionError (List RuntimeAgentTool) :=
  assertUniqueToolNames (device.capabilities.map (toRuntimeAgentTool device.id))

/-- `runtimeToAgentTools`, of the devices of a runtime. -/
def runtimeToAgentTools (devices : List DeviceInstance) : Except AgentToolNameCollisionError (List RuntimeAgentTool) := do
  let tools ← devices.mapM deviceToRuntimeAgentTools
  assertUniqueToolNames tools.flatten

/-- The names that pass are different from those seen before and from each other. -/
theorem nodup_of_assertUniqueFrom {seen tools : List RuntimeAgentTool} (h : assertUniqueFrom seen tools = .ok ())
    (hseen : (seen.map RuntimeAgentTool.mcpName).Nodup) : ((seen ++ tools).map RuntimeAgentTool.mcpName).Nodup := by
  induction tools generalizing seen with
  | nil => simpa using hseen
  | cons tool rest ih =>
    unfold assertUniqueFrom at h
    split at h
    · cases h
    · next hnone =>
      have hnot : tool.mcpName ∉ seen.map RuntimeAgentTool.mcpName := by
        intro hmem
        obtain ⟨first, hfirst, heq⟩ := List.mem_map.mp hmem
        exact List.find?_eq_none.mp hnone first hfirst (decide_eq_true heq)
      have hnodup : ((seen ++ [tool]).map RuntimeAgentTool.mcpName).Nodup := by
        rw [List.map_append]
        refine List.nodup_append.mpr ⟨hseen, by simp, fun a ha b hb => ?_⟩
        rw [List.mem_singleton.mp hb]
        rintro rfl
        exact hnot ha
      have happend := ih h hnodup
      rwa [List.append_assoc] at happend

/-- What `assertUniqueToolNames` lets pass is its argument, with different names. -/
theorem of_assertUniqueToolNames {tools tools' : List RuntimeAgentTool} (h : assertUniqueToolNames tools = .ok tools') :
    tools' = tools ∧ (tools.map RuntimeAgentTool.mcpName).Nodup := by
  unfold assertUniqueToolNames at h
  cases hunique : assertUniqueFrom [] tools with
  | error e =>
    rw [hunique] at h
    cases h
  | ok u =>
    rw [hunique] at h
    exact ⟨(Except.ok.inj h).symm, nodup_of_assertUniqueFrom hunique List.nodup_nil⟩

def toolsOf (devices : List DeviceInstance) : List RuntimeAgentTool :=
  devices.flatMap fun device => device.capabilities.map (toRuntimeAgentTool device.id)

/-- The list that is built has the tools of the devices, each name once. -/
theorem of_runtimeToAgentTools {devices : List DeviceInstance} {tools : List RuntimeAgentTool}
    (h : runtimeToAgentTools devices = .ok tools) :
    tools = toolsOf devices ∧ (tools.map RuntimeAgentTool.mcpName).Nodup := by
  have hparts : ∀ (devices : List DeviceInstance) (parts : List (List RuntimeAgentTool)),
      devices.mapM deviceToRuntimeAgentTools = .ok parts → parts.flatten = toolsOf devices := by
    intro devices
    induction devices with
    | nil =>
      intro parts hmap
      rw [List.mapM_nil] at hmap
      rw [← Except.ok.inj hmap]
      rfl
    | cons device rest ih =>
      intro parts hmap
      rw [List.mapM_cons] at hmap
      cases hdevice : deviceToRuntimeAgentTools device with
      | error e =>
        rw [hdevice] at hmap
        cases hmap
      | ok part =>
        cases hrest : rest.mapM deviceToRuntimeAgentTools with
        | error e =>
          rw [hdevice, hrest] at hmap
          cases hmap
        | ok more =>
          rw [hdevice, hrest] at hmap
          obtain rfl : part :: more = parts := Except.ok.inj hmap
          obtain ⟨rfl, -⟩ := of_assertUniqueToolNames hdevice
          rw [List.flatten_cons, ih more hrest]
          rfl
  unfold runtimeToAgentTools at h
  cases hmap : devices.mapM deviceToRuntimeAgentTools with
  | error e =>
    rw [hmap] at h
    cases h
  | ok parts =>
    rw [hmap] at h
    obtain ⟨rfl, hnodup⟩ := of_assertUniqueToolNames (show assertUniqueToolNames parts.flatten = .ok tools from h)
    exact ⟨hparts devices parts hmap, hnodup⟩

theorem find?_mcpName {tools : List RuntimeAgentTool} (h : (tools.map RuntimeAgentTool.mcpName).Nodup)
    {tool : RuntimeAgentTool} (htool : tool ∈ tools) :
    tools.find? (fun candidate => candidate.mcpName = tool.mcpName) = some tool := by
  induction tools with
  | nil => cases htool
  | cons first rest ih =>
    rw [List.map_cons, List.nodup_cons] at h
    rcases List.mem_cons.mp htool with rfl | htool
    · rw [List.find?_cons_of_pos (by simp)]
    · have hne : first.mcpName ≠ tool.mcpName := fun heq => h.1 (heq ▸ List.mem_map_of_mem htool)
      rw [List.find?_cons_of_neg (by simpa using hne)]
      exact ih h.2 htool

end Pinout.Mcp
