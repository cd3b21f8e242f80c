import Mathlib.Data.Rat.Defs
import Pinout.Foundation.Json
import Pinout.Mcp.AgentTools

/-! # Where the call of a tool goes

The two MCP servers, as far as they answer the call of a tool: `createRuntimeMcpServer` for a runtime of its own, and
`createDaemonMcpServer` for the runtime of a daemon (`packages/mcp/src`). Both take the name of a tool apart first, and
look it up in the list of tools only when that gives nothing. So a call of a listed tool invokes its capability exactly
when its name is taken apart as it was put together or not at all, and in the daemon-backed server no tool of its own has
the name (`routesListed_iff`). What goes along with an invocation (owner, idempotency key, waiting) is left out. -/

namespace Pinout.Mcp

open Foundation

/-! ## Answers -/

inductive RuntimeToolsError
  | collision (error : AgentToolNameCollisionError)
  | reserved (mcpName : JsString)

inductive Answer
  | controlPlane (mcpName : JsString)
  | unknownTool (mcpName : JsString)
  | failed (error : RuntimeToolsError)
  /-- A capability is invoked; the server may know whether it is a physical output. -/
  | invoked (target : Target) (args : JsonObject) (physicalOutput : Option Bool)

/-- The arguments of a capability: what a call gives, without the controls of the operation. -/
def capabilityArgs (arguments : JsonObject) : JsonObject := arguments.filter fun field => field.1 ≠ js "_pinout"

/-- The call of a tool invokes its capability on its device. -/
def Invokes (answer : Answer) (tool : RuntimeAgentTool) (arguments : JsonObject) : Prop :=
  ∃ physicalOutput, answer = .invoked ⟨tool.deviceId, tool.capability⟩ (capabilityArgs arguments) physicalOutput

/-! ## The embedded server -/

/-- `reservedControlPlaneNames`, each of which the server answers itself. -/
def reservedControlPlaneNames : List JsString :=
  [js "pinout__list_devices", js "pinout__describe_device", js "pinout__read_state", js "pinout__safety_status",
    js "pinout__snapshot", js "pinout__acquire_lease", js "pinout__renew_lease", js "pinout__release_lease",
    js "pinout__heartbeat", js "pinout__dry_run", js "pinout__operation_status", js "pinout__cancel_operation"]

def runtimeTools (devices : List DeviceInstance) : Except RuntimeToolsError (List RuntimeAgentTool) :=
  match runtimeToAgentTools devices with
  | .error error => .error (.collision error)
  | .ok tools =>
    match tools.find? fun tool => tool.mcpName ∈ reservedControlPlaneNames with
    | some conflict => .error (.reserved conflict.mcpName)
    | none => .ok tools

def runtimeToolsCacheKey (devices : List DeviceInstance) : JsString :=
  List.intercalate [0] (devices.map fun device => device.id ++ 58 :: decimal device.capabilities.length)

/-- The state of the server of `createRuntimeMcpServer`. -/
structure RuntimeServer where
  cachedToolsKey : JsString := []
  cachedRuntimeTools : List RuntimeAgentTool := []

namespace RuntimeServer

def getRuntimeTools (s : RuntimeServer) (devices : List DeviceInstance) :
    Except RuntimeToolsError (RuntimeServer × List RuntimeAgentTool) :=
  let key := runtimeToolsCacheKey devices
  if key = s.cachedToolsKey then .ok (s, s.cachedRuntimeTools)
  else (runtimeTools devices).map fun tools => (⟨key, tools⟩, tools)

/-- The end of `CallTool`, from where the target is known. -/
def invoke (mcpName : JsString) (target : Option Target) (arguments : JsonObject) : Answer :=
  match target with
  | none => .unknownTool mcpName
  | some target =>
    if target.deviceId = [] ∨ target.capability = [] then .unknownTool mcpName
    else .invoked target (capabilityArgs arguments) none

def callTool (s : RuntimeServer) (devices : List DeviceInstance) (mcpName : JsString) (arguments : JsonObject) :
    RuntimeServer × Answer :=
  if mcpName ∈ reservedControlPlaneNames then (s, .controlPlane mcpName)
  else
    match parseMcpToolName mcpName with
    | some parsed => (s, invoke mcpName (some parsed) arguments)
    | none =>
      match s.getRuntimeTools devices with
      | .error error => (s, .failed error)
      | .ok (s, tools) =>
        let tool := tools.find? fun candidate => candidate.mcpName = mcpName
        (s, invoke mcpName (tool.map fun tool => ⟨tool.deviceId, tool.capability⟩) arguments)

/-- What is cached for a runtime is its list of tools. -/
def Fresh (s : RuntimeServer) (devices : List DeviceInstance) : Prop :=
  runtimeToolsCacheKey devices = s.cachedToolsKey → runtimeTools devices = .ok s.cachedRuntimeTools

variable {s : RuntimeServer} {devices : List DeviceInstance} {tools : List RuntimeAgentTool}

theorem fresh_new (devices : List DeviceInstance) : Fresh {} devices := by
  intro hkey
  cases devices with
  | nil => rfl
  | cons device rest =>
    -- The key of a device is not empty.
    refine absurd (congrArg List.length hkey) ?_
    cases rest with
    | nil => simp [runtimeToolsCacheKey, List.intercalate]
    | cons next rest => simp [runtimeToolsCacheKey, List.intercalate]

/-- The list of a fresh server is that of the runtime, and the server stays fresh. -/
theorem getRuntimeTools_of_fresh (hfresh : s.Fresh devices) (htools : runtimeTools devices = .ok tools) :
    ∃ s', s.getRuntimeTools devices = .ok (s', tools) ∧ s'.Fresh devices := by
  unfold getRuntimeTools
  dsimp only
  split
  · next hkey =>
    have hcached := (hfresh hkey).symm.trans htools
    exact ⟨s, by rw [Except.ok.inj hcached], hfresh⟩
  · exact ⟨⟨runtimeToolsCacheKey devices, tools⟩, by rw [htools]; rfl, fun _ => htools⟩

end RuntimeServer

/-! ## The daemon-backed server -/

def awarenessToolNames : List JsString :=
  [js "pinout__nearby_devices", js "pinout__awareness_events", js "pinout__describe_nearby",
    js "pinout__request_enroll", js "pinout__generate_connector", js "pinout__connector_status",
    js "pinout__list_connectors"]

/-- The cases of the `switch` of `CallTool`. -/
def daemonToolNames : List JsString :=
  [js "pinout__invoke", js "pinout__list_devices", js "pinout__snapshot", js "pinout__describe_device",
    js "pinout__read_state", js "pinout__safety_status", js "pinout__acquire_lease", js "pinout__renew_lease",
    js "pinout__release_lease", js "pinout__heartbeat", js "pinout__dry_run", js "pinout__operation_status",
    js "pinout__cancel_operation"]

/-- `loadRuntimeTools`: what the daemon answers `/v1/tools` with, or, where it has no such route, the tools of the devices
it describes. -/
def loadRuntimeTools (hasToolsRoute : Bool) (devices : List DeviceInstance) :
    Except RuntimeToolsError (List RuntimeAgentTool) :=
  if hasToolsRoute then (runtimeToAgentTools devices).mapError .collision else .ok (toolsOf devices)

def toolsCacheTtlMs : ℚ := 2000

/-- The state of a `DaemonClient`. -/
structure DaemonClient where
  toolsCache : Option (List RuntimeAgentTool × ℚ) := none

namespace DaemonClient

/-- `runtimeTools`, where loading the tools gives what it gives. -/
def runtimeTools (client : DaemonClient) (now : ℚ) (loaded : Except RuntimeToolsError (List RuntimeAgentTool)) :
    Except RuntimeToolsError (DaemonClient × List RuntimeAgentTool) :=
  let load := loaded.map fun tools => (⟨some (tools, now + toolsCacheTtlMs)⟩, tools)
  match client.toolsCache with
  | none => load
  | some (tools, expiresAt) => if now < expiresAt then .ok (client, tools) else load

/-- `resolveCapabilityTarget`, with what is known of the capability. -/
def resolveCapabilityTarget (client : DaemonClient) (now : ℚ)
    (loaded : Except RuntimeToolsError (List RuntimeAgentTool)) (mcpName : JsString) :
    Except RuntimeToolsError (Option (Target × Option Bool)) :=
  match parseMcpToolName mcpName with
  | some parsed => .ok (some (parsed, none))
  | none => (client.runtimeTools now loaded).map fun r =>
      (r.2.find? fun candidate => candidate.mcpName = mcpName).map fun tool =>
        (⟨tool.deviceId, tool.capability⟩, some tool.physicalOutput)

def callTool (client : DaemonClient) (now : ℚ) (loaded : Except RuntimeToolsError (List RuntimeAgentTool))
    (mcpName : JsString) (arguments : JsonObject) : Answer :=
  if mcpName ∈ awarenessToolNames ∨ mcpName ∈ daemonToolNames then .controlPlane mcpName
  else
    match client.resolveCapabilityTarget now loaded mcpName with
    | .error error => .failed error
    | .ok none => .unknownTool mcpName
    | .ok (some (target, physicalOutput)) => .invoked target (capabilityArgs arguments) physicalOutput

def Fresh (client : DaemonClient) (now : ℚ) (loaded : Except RuntimeToolsError (List RuntimeAgentTool)) : Prop :=
  ∀ tools expiresAt, client.toolsCache = some (tools, expiresAt) → now < expiresAt → loaded = .ok tools

variable {client : DaemonClient} {now : ℚ} {loaded : Except RuntimeToolsError (List RuntimeAgentTool)}
  {tools : List RuntimeAgentTool}

theorem runtimeTools_of_fresh (hfresh : client.Fresh now loaded) (hloaded : loaded = .ok tools) :
    ∃ client', client.runtimeTools now loaded = .ok (client', tools) := by
  unfold runtimeTools
  split
  · exact ⟨_, by rw [hloaded]; rfl⟩
  · next cached expiresAt hcache =>
    split
    · next hnow =>
      have hcached := (hfresh cached expiresAt hcache hnow).symm.trans hloaded
      exact ⟨client, by rw [Except.ok.inj hcached]⟩
    · exact ⟨_, by rw [hloaded]; rfl⟩

end DaemonClient

/-! ## Listed tools -/

/-- The name of a tool is taken apart as it was put together, or not at all. -/
def Routable (tool : RuntimeAgentTool) : Prop :=
  SeparatorFirst tool.deviceId ∨ Plain tool.deviceId tool.capability

/-- What is promised of a runtime whose list of tools can be built: the call of a listed tool invokes its capability on
its device, in both servers. -/
structure RoutesListed (devices : List DeviceInstance) : Prop where
  embedded : ∀ tools, runtimeTools devices = .ok tools → ∀ tool ∈ tools, ∀ (s : RuntimeServer) arguments,
    s.Fresh devices → Invokes (s.callTool devices tool.mcpName arguments).2 tool arguments
  daemon : ∀ tools, runtimeToAgentTools devices = .ok tools → ∀ tool ∈ tools,
    ∀ (client : DaemonClient) now hasToolsRoute arguments, client.Fresh now (loadRuntimeTools hasToolsRoute devices) →
      Invokes (client.callTool now (loadRuntimeTools hasToolsRoute devices) tool.mcpName arguments) tool arguments

variable {devices : List DeviceInstance} {tools : List RuntimeAgentTool} {tool : RuntimeAgentTool}

def Named (devices : List DeviceInstance) : Prop :=
  ∀ device ∈ devices, device.id ≠ [] ∧ ∀ capability ∈ device.capabilities, capability.name ≠ []

/-- A listed tool has the name that is made of its device and its capability, which are not empty. -/
theorem named_of_mem (hnamed : Named devices) (htools : runtimeToAgentTools devices = .ok tools) (htool : tool ∈ tools) :
    tool.deviceId ≠ [] ∧ tool.capability ≠ [] ∧ tool.mcpName = buildMcpToolName tool.deviceId tool.capability := by
  obtain ⟨rfl, -⟩ := of_runtimeToAgentTools htools
  obtain ⟨device, hdevice, hmem⟩ := List.mem_flatMap.mp htool
  obtain ⟨capability, hcapability, rfl⟩ := List.mem_map.mp hmem
  obtain ⟨hid, hnames⟩ := hnamed device hdevice
  exact ⟨hid, hnames capability hcapability, rfl⟩

/-- The embedded list is the list of the runtime, without the names of control-plane tools. -/
theorem of_runtimeTools (h : runtimeTools devices = .ok tools) :
    runtimeToAgentTools devices = .ok tools ∧ ∀ tool ∈ tools, tool.mcpName ∉ reservedControlPlaneNames := by
  unfold runtimeTools at h
  split at h
  · cases h
  · next listed hlisted =>
    split at h
    · cases h
    · next hnone =>
      obtain rfl := Except.ok.inj h
      exact ⟨hlisted, fun tool htool => by simpa using List.find?_eq_none.mp hnone tool htool⟩

theorem invokes_embedded (hnamed : Named devices) (htools : runtimeTools devices = .ok tools) (htool : tool ∈ tools)
    (hroutable : Routable tool) {s : RuntimeServer} (hfresh : s.Fresh devices) (arguments : JsonObject) :
    Invokes (s.callTool devices tool.mcpName arguments).2 tool arguments := by
  obtain ⟨hlisted, hreserved⟩ := of_runtimeTools htools
  obtain ⟨hid, hcapability, hname⟩ := named_of_mem hnamed hlisted htool
  have hinvoke : RuntimeServer.invoke tool.mcpName (some ⟨tool.deviceId, tool.capability⟩) arguments =
      .invoked ⟨tool.deviceId, tool.capability⟩ (capabilityArgs arguments) none := by
    unfold RuntimeServer.invoke
    exact if_neg (not_or.mpr ⟨hid, hcapability⟩)
  unfold RuntimeServer.callTool
  rw [if_neg (hreserved tool htool)]
  rcases hroutable with hfirst | hplain
  · have hparse : parseMcpToolName tool.mcpName = none := by
      rw [hname]
      exact (parse_build_eq_none_iff hid).mpr hfirst
    obtain ⟨s', hget, -⟩ := RuntimeServer.getRuntimeTools_of_fresh hfresh htools
    rw [hparse, hget]
    dsimp only
    rw [find?_mcpName (of_runtimeToAgentTools hlisted).2 htool]
    exact ⟨none, hinvoke⟩
  · have hparse : parseMcpToolName tool.mcpName = some ⟨tool.deviceId, tool.capability⟩ := by
      rw [hname]
      exact (parse_build_eq_some_iff hid).mpr hplain
    rw [hparse]
    exact ⟨none, hinvoke⟩

/-- What the daemon-backed server loads is the list of the runtime. -/
theorem loadRuntimeTools_eq (htools : runtimeToAgentTools devices = .ok tools) (hasToolsRoute : Bool) :
    loadRuntimeTools hasToolsRoute devices = .ok tools := by
  unfold loadRuntimeTools
  cases hasToolsRoute with
  | true => rw [if_pos rfl, htools]; rfl
  | false => rw [if_neg Bool.false_ne_true, (of_runtimeToAgentTools htools).1]

/-- The call of a tool in the daemon-backed server invokes its capability exactly when the tool is routable and the
server has no tool of that name itself. -/
theorem invokes_daemon_iff (hnamed : Named devices) (htools : runtimeToAgentTools devices = .ok tools)
    (htool : tool ∈ tools) {client : DaemonClient} {now : ℚ} {hasToolsRoute : Bool}
    (hfresh : client.Fresh now (loadRuntimeTools hasToolsRoute devices)) (arguments : JsonObject) :
    Invokes (client.callTool now (loadRuntimeTools hasToolsRoute devices) tool.mcpName arguments) tool arguments ↔
      Routable tool ∧ ¬ (tool.mcpName ∈ awarenessToolNames ∨ tool.mcpName ∈ daemonToolNames) := by
  obtain ⟨hid, -, hname⟩ := named_of_mem hnamed htools htool
  unfold DaemonClient.callTool
  by_cases hown : tool.mcpName ∈ awarenessToolNames ∨ tool.mcpName ∈ daemonToolNames
  · rw [if_pos hown]
    refine iff_of_false ?_ fun h => h.2 hown
    rintro ⟨physicalOutput, heq⟩
    cases heq
  · rw [if_neg hown, and_iff_left hown]
    unfold DaemonClient.resolveCapabilityTarget
    cases hparse : parseMcpToolName tool.mcpName with
    | none =>
      obtain ⟨client', hget⟩ := DaemonClient.runtimeTools_of_fresh hfresh (loadRuntimeTools_eq htools hasToolsRoute)
      dsimp only
      rw [hget]
      dsimp only [Except.map]
      rw [find?_mcpName (of_runtimeToAgentTools htools).2 htool]
      refine iff_of_true ⟨_, rfl⟩ (.inl ?_)
      rw [hname] at hparse
      exact (parse_build_eq_none_iff hid).mp hparse
    | some target =>
      rw [hname] at hparse
      constructor
      · rintro ⟨physicalOutput, heq⟩
        obtain ⟨rfl, -⟩ := Answer.invoked.inj heq
        exact .inr ((parse_build_eq_some_iff hid).mp hparse)
      · rintro (hfirst | hplain)
        · rw [(parse_build_eq_none_iff hid).mpr hfirst] at hparse
          cases hparse
        · rw [(parse_build_eq_some_iff hid).mpr hplain] at hparse
          rw [← Option.some.inj hparse]
          exact ⟨none, rfl⟩

/-- **Routing.** The calls of the listed tools of a runtime invoke their capabilities on their devices exactly when every
listed tool has a name that is taken apart as it was put together, or not at all, and that no tool of the daemon-backed
server has. -/
theorem routesListed_iff (hnamed : Named devices) :
    RoutesListed devices ↔ ∀ tools, runtimeToAgentTools devices = .ok tools → ∀ tool ∈ tools,
      Routable tool ∧ ¬ (tool.mcpName ∈ awarenessToolNames ∨ tool.mcpName ∈ daemonToolNames) := by
  constructor
  · intro h tools htools tool htool
    have hempty : DaemonClient.Fresh {} 0 (loadRuntimeTools true devices) := fun _ _ hcache => by cases hcache
    exact (invokes_daemon_iff hnamed htools htool hempty []).mp (h.daemon tools htools tool htool {} 0 true [] hempty)
  · intro h
    refine ⟨fun tools htools tool htool s arguments hfresh => ?_,
      fun tools htools tool htool client now hasToolsRoute arguments hfresh => ?_⟩
    · exact invokes_embedded hnamed htools htool (h tools (of_runtimeTools htools).1 tool htool).1 hfresh arguments
    · exact (invokes_daemon_iff hnamed htools htool hfresh arguments).mpr (h tools htools tool htool)

/-- A runtime with one device that has one capability. -/
def relay (deviceId : JsString) : List DeviceInstance := [⟨deviceId, [{ name := js "relay.set" }]⟩]

/-- A device whose tool is routed. -/
theorem routesListed_relay :
    RoutesListed (relay (js "relay-01")) ↔ ∀ tools, runtimeToAgentTools (relay (js "relay-01")) = .ok tools →
      ∀ tool ∈ tools, Routable tool ∧ ¬ (tool.mcpName ∈ awarenessToolNames ∨ tool.mcpName ∈ daemonToolNames) := by
  refine routesListed_iff ?_
  unfold Named relay
  decide

/-- **Not every listed tool is routed.** The tool of a device with a `_` in its id is listed, and its call is taken for one
of a device with a `-` there. -/
theorem not_routesListed :
    (∃ tools, runtimeTools (relay (js "relay_01")) = .ok tools) ∧ ¬ RoutesListed (relay (js "relay_01")) := by
  have htools : runtimeTools (relay (js "relay_01")) = .ok (toolsOf (relay (js "relay_01"))) := by rfl
  refine ⟨⟨_, htools⟩, fun h => ?_⟩
  obtain ⟨physicalOutput, heq⟩ := h.embedded _ htools (toRuntimeAgentTool (js "relay_01") { name := js "relay.set" })
    (List.mem_singleton_self _) {} [] (RuntimeServer.fresh_new _)
  have hanswer : (RuntimeServer.callTool {} (relay (js "relay_01"))
      (toRuntimeAgentTool (js "relay_01") { name := js "relay.set" }).mcpName []).2 =
        .invoked ⟨js "relay-01", js "relay.set"⟩ (capabilityArgs []) none := by rfl
  rw [hanswer] at heq
  exact absurd (Answer.invoked.inj heq).1 (by decide)

end Pinout.Mcp
