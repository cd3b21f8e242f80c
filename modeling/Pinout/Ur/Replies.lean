import Pinout.Errors
import Pinout.Protocol.LineReader

/-! # Dashboard replies

What the dashboard client of a UR robot (`packages/protocols-ur/src/dashboardClient.ts`) sends for each of
its calls, and what it makes of the reply. -/

namespace Pinout.Ur

open Foundation Protocol

/-! ## Modes -/

inductive UrRobotMode
  | noController | disconnected | confirmSafety | booting | powerOff | powerOn | idle | backdrive
  | running | updatingFirmware | unknown
  deriving DecidableEq

def UrRobotMode.text : UrRobotMode → JsString
  | noController => js "NO_CONTROLLER"
  | disconnected => js "DISCONNECTED"
  | confirmSafety => js "CONFIRM_SAFETY"
  | booting => js "BOOTING"
  | powerOff => js "POWER_OFF"
  | powerOn => js "POWER_ON"
  | idle => js "IDLE"
  | backdrive => js "BACKDRIVE"
  | running => js "RUNNING"
  | updatingFirmware => js "UPDATING_FIRMWARE"
  | unknown => js "UNKNOWN"

inductive UrSafetyMode
  | normal | reduced | protectiveStop | recovery | safeguardStop | systemEmergencyStop
  | robotEmergencyStop | violation | fault | validateJointId | undefinedSafetyMode | unknown
  deriving DecidableEq

def UrSafetyMode.text : UrSafetyMode → JsString
  | normal => js "NORMAL"
  | reduced => js "REDUCED"
  | protectiveStop => js "PROTECTIVE_STOP"
  | recovery => js "RECOVERY"
  | safeguardStop => js "SAFEGUARD_STOP"
  | systemEmergencyStop => js "SYSTEM_EMERGENCY_STOP"
  | robotEmergencyStop => js "ROBOT_EMERGENCY_STOP"
  | violation => js "VIOLATION"
  | fault => js "FAULT"
  | validateJointId => js "VALIDATE_JOINT_ID"
  | undefinedSafetyMode => js "UNDEFINED_SAFETY_MODE"
  | unknown => js "UNKNOWN"

inductive UrProgramState
  | stopped | playing | paused | unknown
  deriving DecidableEq

/-- `UR_ROBOT_MODE_BY_NUMBER`. -/
def robotModeByNumber : List (Int × UrRobotMode) :=
  [(-1, .noController), (0, .disconnected), (1, .confirmSafety), (2, .booting), (3, .powerOff),
    (4, .powerOn), (5, .idle), (6, .backdrive), (7, .running), (8, .updatingFirmware)]

/-- `UR_SAFETY_MODE_BY_NUMBER`. -/
def safetyModeByNumber : List (Int × UrSafetyMode) :=
  [(1, .normal), (2, .reduced), (3, .protectiveStop), (4, .recovery), (5, .safeguardStop),
    (6, .systemEmergencyStop), (7, .robotEmergencyStop), (8, .violation), (9, .fault),
    (10, .validateJointId), (11, .undefinedSafetyMode)]

/-! ## Errors -/

/-- What a call is rejected with: a `UrDashboardError`, or what the transport threw. -/
inductive DashboardFailure
  | dashboard (code message : JsString) (response : Option JsString)
  | thrown (e : Thrown)

def unexpectedReply (message reply : JsString) : DashboardFailure :=
  .dashboard (js "UR_DASHBOARD_UNEXPECTED_REPLY") message (some reply)

/-! ## Parsing -/

/-- `\w`. -/
def isWord (u : UInt16) : Bool := isLetter u || isDigit u || u = 95

/-- Whether a literal stands in a text as a word of its own, up to case; `inWord` says whether a word
character comes before the text. -/
def mentionsWord (literal : JsString) (inWord : Bool) : JsString → Bool
  | [] => false
  | u :: rest =>
    (!inWord && startsWith (u :: rest) literal && !((u :: rest).drop literal.length).head?.any isWord) ||
      mentionsWord literal (isWord u) rest

/-- `isDashboardFailure`, with its `FAILURE_PATTERNS`. -/
def isDashboardFailure (reply : JsString) : Bool :=
  let trimmed := trim reply
  (startsWith trimmed (js "error") && !(trimmed.drop 5).head?.any isWord) ||
    mentions [js "unknown command"] trimmed || mentionsWord (js "failed") false trimmed ||
    mentionsWord (js "could not") false trimmed || mentions [js "not allowed"] trimmed

structure ParsedModeReply where
  raw : JsString
  numeric : Option Int
  name : Option JsString

/-- `/^-?\d+$/`, and `Number.parseInt` of what it matches. -/
def parseNumber (value : JsString) : Option Int :=
  let digits := if value.head? = some 45 then value.tail else value
  if digits ≠ [] ∧ digits.all isDigit then
    some (if value.head? = some 45 then -(parseDecimal digits : Int) else parseDecimal digits)
  else none

/-- `value.replace(/\s+/g, '_')`. -/
def joinWords : JsString → JsString
  | [] => []
  | u :: rest =>
    if isWhiteSpace u then
      if rest.head?.any isWhiteSpace then joinWords rest else 95 :: joinWords rest
    else u :: joinWords rest

def parseModeReply (reply : JsString) : ParsedModeReply :=
  let raw := trim reply
  let value := trim (if 58 ∈ raw then (raw.dropWhile (· ≠ 58)).tail else raw)
  match parseNumber value with
  | some n => ⟨raw, some n, none⟩
  | none => ⟨raw, none, if value = [] then none else some (upperCase (joinWords value))⟩

def knownName {T : Type} (name : Option JsString) (table : List (Int × T)) (text : T → JsString)
    (fallback : T) : T :=
  match name with
  | some name =>
    if name = [] then fallback else ((table.map Prod.snd).find? (text · = name)).getD fallback
  | none => fallback

/-- A mode in a reply, by its number or by its name. -/
def modeOf {T : Type} (parsed : ParsedModeReply) (table : List (Int × T)) (text : T → JsString)
    (fallback : T) : T :=
  match parsed.numeric with
  | some n => ((table.find? (·.1 = n)).map Prod.snd).getD fallback
  | none => knownName parsed.name table text fallback

/-- `ParsedRobotMode` and `ParsedSafetyMode`. -/
structure ParsedMode (T : Type) where
  raw : JsString
  mode : T
  numeric : Option Int

def parseRobotModeReply (reply : JsString) : ParsedMode UrRobotMode :=
  let parsed := parseModeReply reply
  ⟨parsed.raw, modeOf parsed robotModeByNumber UrRobotMode.text .unknown, parsed.numeric⟩

def parseSafetyModeReply (reply : JsString) : ParsedMode UrSafetyMode :=
  let parsed := parseModeReply reply
  ⟨parsed.raw, modeOf parsed safetyModeByNumber UrSafetyMode.text .unknown, parsed.numeric⟩

structure ParsedProgramState where
  raw : JsString
  state : UrProgramState
  programName : Option JsString

def parseProgramStateReply (reply : JsString) : ParsedProgramState :=
  let raw := trim reply
  let token := upperCase (raw.takeWhile (· ≠ 32))
  let name := trim (raw.dropWhile (· ≠ 32)).tail
  { raw
    state :=
      if token = js "STOPPED" then .stopped
      else if token = js "PLAYING" then .playing
      else if token = js "PAUSED" then .paused
      else .unknown
    programName := if name = [] then none else some name }

def parseRunningReply (reply : JsString) : Except DashboardFailure Bool :=
  let token := ((parseModeReply reply).name.getD []).map foldUnit
  if token = js "true" then .ok true
  else if token = js "false" then .ok false
  else .error (unexpectedReply (js "Could not parse 'running' reply '" ++ trim reply ++
    js "'; expected 'Program running: true|false'.") (trim reply))

structure ParsedPolyscopeVersion where
  raw : JsString
  version : JsString
  build : Option JsString

/-- The build in `(?:\s+\(([^)]*)\))?`. -/
def parseBuild (text : JsString) : Option JsString :=
  let opened := text.dropWhile isWhiteSpace
  if text.head?.any isWhiteSpace ∧ opened.head? = some 40 ∧ 41 ∈ opened then
    some (opened.tail.takeWhile (· ≠ 41))
  else none

def parsePolyscopeVersionReply (reply : JsString) : Except DashboardFailure ParsedPolyscopeVersion :=
  let raw := trim reply
  let after := raw.drop (js "URSoftware").length
  let version := (after.dropWhile isWhiteSpace).takeWhile fun u => !isWhiteSpace u
  if (js "URSoftware").isPrefixOf raw ∧ after.head?.any isWhiteSpace ∧ version ≠ [] then
    .ok ⟨raw, version, parseBuild ((after.dropWhile isWhiteSpace).dropWhile fun u => !isWhiteSpace u)⟩
  else .error (unexpectedReply (js "Could not parse PolyscopeVersion reply '" ++ raw ++
    js "'; expected 'URSoftware <version> (<build>)'.") raw)

/-! ## Calls -/

inductive DashboardCall
  | command (text : JsString)
  | powerOn | powerOff | brakeRelease | play | stop | pause
  | robotMode | safetyMode | safetyStatus | programState | running
  | loadProgram (path : JsString)
  | robotModel | serialNumber | polyscopeVersion
  deriving DecidableEq

inductive DashboardResult
  | text (reply : JsString)
  | robotMode (parsed : ParsedMode UrRobotMode)
  | safetyMode (parsed : ParsedMode UrSafetyMode)
  | safetyStatus (raw status : JsString)
  | programState (parsed : ParsedProgramState)
  | running (value : Bool)
  | polyscopeVersion (parsed : ParsedPolyscopeVersion)

structure DashboardOptions where
  timeoutMs : Nat := 5000
  expectWelcome : Bool := true
  lenientReplies : Bool := false
  acceptedReplies : List (JsString × List JsString) := []

def actionAcceptedReplies : List (JsString × List JsString) :=
  [(js "power on", [js "Powering on", js "Robot is already powered on"]),
    (js "power off", [js "Powering off", js "Robot is already powered off"]),
    (js "brake release", [js "Brake releasing"]), (js "play", [js "Starting program"]),
    (js "stop", [js "Stopped"]), (js "pause", [js "Pausing program"])]

/-- `this.acceptedReplies[command] ?? []`. -/
def DashboardOptions.acceptedFor (options : DashboardOptions) (command : JsString) : List JsString :=
  ((options.acceptedReplies.lookup command).or (actionAcceptedReplies.lookup command)).getD []

/-- `accepted.join(' | ') || 'none configured'`. -/
def acceptedText : List JsString → JsString
  | [] => js "none configured"
  | accepted =>
    let joined := (accepted.intersperse (js " | ")).flatten
    if joined = [] then js "none configured" else joined

/-- What `action` makes of a reply. -/
def acceptAction (options : DashboardOptions) (command reply : JsString) :
    Except DashboardFailure DashboardResult :=
  if isDashboardFailure reply then
    .error (.dashboard (js "UR_DASHBOARD_COMMAND_FAILED")
      (js "Dashboard command '" ++ command ++ js "' failed: " ++ reply) (some reply))
  else if ¬ options.lenientReplies ∧ reply ∉ options.acceptedFor command then
    .error (unexpectedReply (js "Dashboard command '" ++ command ++ js "' returned '" ++ reply ++
      js "', which is not an accepted success reply (" ++ acceptedText (options.acceptedFor command) ++
      js ").") reply)
  else .ok (.text reply)

namespace DashboardCall

def text : DashboardCall → JsString
  | command text => text
  | powerOn => js "power on"
  | powerOff => js "power off"
  | brakeRelease => js "brake release"
  | play => js "play"
  | stop => js "stop"
  | pause => js "pause"
  | robotMode => js "robotmode"
  | safetyMode => js "safetymode"
  | safetyStatus => js "safetystatus"
  | programState => js "programState"
  | running => js "running"
  | loadProgram path => js "load " ++ trim path
  | robotModel => js "get robot model"
  | serialNumber => js "get serial number"
  | polyscopeVersion => js "PolyscopeVersion"

/-- What a call is refused with before it is queued. -/
def refusal : DashboardCall → Option DashboardFailure
  | loadProgram path =>
    if trim path = [] then
      some (.dashboard (js "UR_DASHBOARD_INVALID_PROGRAM")
        (js "Program path must be a non-empty string.") none)
    else none
  | _ => none

def settle (options : DashboardOptions) (reply : JsString) :
    DashboardCall → Except DashboardFailure DashboardResult
  | command _ => .ok (.text reply)
  | powerOn => acceptAction options (js "power on") reply
  | powerOff => acceptAction options (js "power off") reply
  | brakeRelease => acceptAction options (js "brake release") reply
  | play => acceptAction options (js "play") reply
  | stop => acceptAction options (js "stop") reply
  | pause => acceptAction options (js "pause") reply
  | robotMode => .ok (.robotMode (parseRobotModeReply reply))
  | safetyMode => .ok (.safetyMode (parseSafetyModeReply reply))
  | safetyStatus =>
    let parsed := parseModeReply reply
    .ok (.safetyStatus reply (parsed.name.getD
      (match parsed.numeric with
        | some n => if n < 0 then js "-" ++ decimal n.natAbs else decimal n.natAbs
        | none => js "UNKNOWN")))
  | programState => .ok (.programState (parseProgramStateReply reply))
  | running => (parseRunningReply reply).map .running
  | loadProgram _ =>
    if startsWith reply (js "loading program") then .ok (.text reply)
    else .error (unexpectedReply (js "Unexpected 'load' reply '" ++ reply ++
      js "'; expected it to start with 'Loading program'.") reply)
  | robotModel =>
    if startsWith reply (js "ur") then .ok (.text reply)
    else .error (unexpectedReply (js "Unexpected 'get robot model' reply '" ++ reply ++
      js "'; expected it to start with 'UR'.") reply)
  | serialNumber =>
    if (js "20").isPrefixOf reply then .ok (.text reply)
    else .error (unexpectedReply (js "Unexpected 'get serial number' reply '" ++ reply ++
      js "'; expected it to start with '20'.") reply)
  | polyscopeVersion => (parsePolyscopeVersionReply reply).map .polyscopeVersion

/-- The text that comes from the caller has no line feed in it. -/
def OneLine : DashboardCall → Prop
  | command text => lineFeed ∉ text
  | loadProgram path => lineFeed ∉ trim path
  | _ => True

/-- Whether the caller's text is one line can be evaluated. -/
instance : DecidablePred OneLine := fun call => by
  cases call <;> unfold OneLine <;> infer_instance

theorem OneLine.lineFeed_notMem_text {call : DashboardCall} (h : call.OneLine) :
    lineFeed ∉ call.text := by
  cases call with
  | command text => exact h
  | loadProgram path =>
    rw [text, List.mem_append, not_or]
    exact ⟨by decide, h⟩
  | _ => decide

theorem eq_of_settle {options : DashboardOptions} {reply text : JsString} {call : DashboardCall}
    (h : call.settle options reply = .ok (.text text)) : text = reply := by
  have haction : ∀ command, acceptAction options command reply = .ok (.text text) → text = reply := by
    intro command haccept
    rw [acceptAction] at haccept
    split at haccept
    · cases haccept
    · split at haccept
      · cases haccept
      · cases haccept
        rfl
  cases call with
  | command => cases h; rfl
  | powerOn => exact haction _ h
  | powerOff => exact haction _ h
  | brakeRelease => exact haction _ h
  | play => exact haction _ h
  | stop => exact haction _ h
  | pause => exact haction _ h
  | robotMode => cases h
  | safetyMode => cases h
  | safetyStatus => cases h
  | programState => cases h
  | running =>
    rw [settle] at h
    cases hparsed : parseRunningReply reply with
    | ok value => rw [hparsed] at h; cases h
    | error e => rw [hparsed] at h; cases h
  | loadProgram path =>
    rw [settle] at h
    split at h
    · cases h; rfl
    · cases h
  | robotModel =>
    rw [settle] at h
    split at h
    · cases h; rfl
    · cases h
  | serialNumber =>
    rw [settle] at h
    split at h
    · cases h; rfl
    · cases h
  | polyscopeVersion =>
    rw [settle] at h
    cases hparsed : parsePolyscopeVersionReply reply with
    | ok value => rw [hparsed] at h; cases h
    | error e => rw [hparsed] at h; cases h

end DashboardCall

end Pinout.Ur
