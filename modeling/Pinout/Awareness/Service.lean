import Pinout.Awareness.Registry
import Pinout.Foundation.Machine

/-! # The awareness service

The service of the daemon over the registry (`packages/daemon/src/awareness/service.ts`), and `devices.json`,
where it writes what is enrolled (`packages/core/src/home/deviceStore.ts`). What reading `devices.json` gives is
part of the state: others write it too. -/

namespace Pinout.Awareness

open Foundation

/-! ## Devices -/

/-- The `type` of a `DeviceTransportConfig`. -/
inductive DeviceTransportType
  | serial | tcp | simulatedEsp32 | loopback | simulatedBleGatt
  deriving DecidableEq, Repr

structure DeviceTransportConfig where
  type : DeviceTransportType
  path : Option JsString := none
  baud : Option Nat := none
  deriving DecidableEq

structure DeviceBackendConfig where
  simulated : Bool := false
  transport : Option DeviceTransportConfig := none
  deriving DecidableEq

structure DeviceIdentity where
  firmware : JsString
  version : JsString
  protocol : ℚ
  capabilities : List JsString
  usbSerial : Option JsString := none
  vid : Option JsString := none
  pid : Option JsString := none
  deriving DecidableEq

structure DeviceDefinition where
  id : JsString
  module : JsString
  label : Option JsString := none
  backend : Option DeviceBackendConfig := none
  identity : Option DeviceIdentity := none
  enrolledAt : Option JsString := none
  deriving DecidableEq

/-- `definition.backend?.transport?.path`. -/
def DeviceDefinition.path? (definition : DeviceDefinition) : Option JsString :=
  (definition.backend.bind (·.transport)).bind (·.path)

def deviceConfigInvalidError (message : JsString) : Thrown :=
  .pinoutError (js "DeviceConfigInvalidError") (js "DEVICE_CONFIG_INVALID") message

def deviceAlreadyExistsError (deviceId : JsString) : Thrown :=
  .pinoutError (js "DeviceAlreadyExistsError") (js "DEVICE_ALREADY_EXISTS")
    (js "Device '" ++ deviceId ++ js "' is already configured.")

/-- The device that has the USB serial of a definition. -/
def sameUsbSerial (devices : List DeviceDefinition) (definition : DeviceDefinition) :
    Option (JsString × DeviceDefinition) :=
  match (definition.identity.bind (·.usbSerial)).filter (· ≠ []) with
  | none => none
  | some serial =>
    (devices.find? fun entry => entry.identity.bind (·.usbSerial) = some serial).map fun entry => (serial, entry)

/-- The device of another identity that has the transport path of a definition. -/
def conflictingPath (devices : List DeviceDefinition) (definition : DeviceDefinition) :
    Option (JsString × DeviceDefinition) :=
  match definition.path?.filter (· ≠ []) with
  | none => none
  | some path =>
    ((devices.find? fun entry => entry.path? = some path).filter fun entry =>
      entry.identity ≠ definition.identity).map fun entry => (path, entry)

/-- `addDeviceDefinition`, on what reading the file gives, and with what writing it throws. -/
def addDeviceDefinition (file : Except Thrown (List DeviceDefinition)) (definition : DeviceDefinition)
    (failure : Option Thrown) : Except Thrown (List DeviceDefinition) :=
  if definition.id = [] ∨ definition.module = [] then
    .error (deviceConfigInvalidError (js "Device id and module are required."))
  else match file with
    | .error e => .error e
    | .ok devices =>
      if devices.any (·.id = definition.id) then .error (deviceAlreadyExistsError definition.id)
      else match sameUsbSerial devices definition with
        | some (serial, duplicate) => .error (deviceAlreadyExistsError (js "USB serial '" ++ serial ++
            js "' is already enrolled as '" ++ duplicate.id ++ js "'."))
        | none => match conflictingPath devices definition with
          | some (path, samePath) => .error (deviceConfigInvalidError (js "Transport path '" ++ path ++
              js "' is already enrolled with a different identity ('" ++ samePath.id ++
              js "'). Re-enroll explicitly before changing identity."))
          | none => match failure with
            | some e => .error e
            | none => .ok (devices ++ [definition])

/-! ## Enrolling -/

/-- `replace(/^…/, '')`, of a literal. -/
def stripStart (start text : JsString) : JsString :=
  if start.isPrefixOf text then text.drop start.length else text

def stableEnrollId (record : AwarenessRecord) : JsString :=
  let base := ((record.moduleId <|> record.identity.guessedModuleId).map (stripStart (js "pinout/"))).getD
    (js "device")
  base ++ js "-" ++ (stripStart (js "cand_") record.id).take 10

/-- `buildDeviceDefinition`, with the time of the enrolment. -/
def buildDeviceDefinition (record : AwarenessRecord) (deviceId moduleId enrolledAt : JsString) :
    DeviceDefinition where
  id := deviceId
  module := moduleId
  label := record.identity.advertisedName.filter (· ≠ [])
  backend := some
    { transport := some (match record.transport, record.identity.endpoint.filter (· ≠ []) with
        | .serial, some endpoint => { type := .serial, path := some endpoint, baud := some 115200 }
        | .ble, _ => { type := .simulatedBleGatt }
        | _, _ => { type := .simulatedEsp32 }) }
  identity := some
    { firmware := record.identity.firmware.getD (js "unknown")
      version := record.identity.version.getD (js "0.0.0-awareness")
      protocol := 1
      capabilities := record.capabilities.getD []
      vid := record.identity.vid.filter (· ≠ [])
      pid := record.identity.pid.filter (· ≠ []) }
  enrolledAt := some enrolledAt

structure EnrollOptions where
  moduleId : Option JsString := none
  deviceId : Option JsString := none

/-- An observation: whether the record was enrolled, under a definition that is still there, and what
`observeCandidate` returned. -/
structure Observation where
  enrolled : Bool
  result : Except Thrown AwarenessRecord

structure AwarenessService where
  registry : AwarenessRegistry := {}
  devices : Except Thrown (List DeviceDefinition) := .ok []
  /-- The records that were enrolled, with the ids of their definitions, while these stay in the file. -/
  enrolments : List (JsString × JsString) := []
  observations : List Observation := []

namespace AwarenessService

variable (host : AwarenessHost) (s : AwarenessService)

def readEnrolledIds : List JsString :=
  match s.devices with
  | .ok devices => devices.map (·.id)
  | .error _ => []

/-- `enroll`, with the time, its text, and what writing the two files throws. -/
def enroll (id : JsString) (options : EnrollOptions) (now : Int) (enrolledAt : JsString)
    (devicesFailure failure : Option Thrown) : AwarenessService × Except Thrown (AwarenessRecord × DeviceDefinition) :=
  match s.registry.records.get? id with
  | none => (s, .error (.pinoutError (js "PinoutError") (js "DEVICE_NOT_FOUND")
      (js "Awareness device '" ++ id ++ js "' not found.")))
  | some current =>
    if current.state ≠ .pendingEnroll ∧ current.state ≠ .identified then
      (s, .error (.pinoutError (js "ValidationError") (js "VALIDATION_ERROR") (js "Device '" ++ id ++
        js "' is in state " ++ current.state.text ++ js "; enroll requires PENDING_ENROLL.")))
    else
      let moduleId := (options.moduleId <|> current.moduleId <|> current.identity.guessedModuleId).getD
        (js "pinout/esp32")
      if (js "unknown/").isPrefixOf moduleId then
        (s, .error (.pinoutError (js "ValidationError") (js "VALIDATION_ERROR") (js "Device '" ++ id ++
          js "' has no matching module ('" ++ moduleId ++ js "'). Cannot enroll UNKNOWN devices.")))
      else
        let deviceId := options.deviceId.getD (stableEnrollId current)
        let definition := buildDeviceDefinition current deviceId moduleId enrolledAt
        match addDeviceDefinition s.devices definition devicesFailure with
        | .error e => (s, .error e)
        | .ok devices => match s.registry.markEnrolled id (some moduleId) now failure with
          | (registry, .error e) => ({ s with registry, devices := .ok devices }, .error e)
          | (registry, .ok record) =>
            ({ s with registry, devices := .ok devices, enrolments := s.enrolments ++ [(id, deviceId)] },
              .ok (record, definition))

/-- `observeCandidate`, as an observation. -/
def observe (candidate : DiscoveredCandidate) (extras : AwarenessRegistry.Extras) (now : Int)
    (failure : Option Thrown) : AwarenessService :=
  let out := s.registry.observeCandidate host s.readEnrolledIds candidate extras now failure
  { s with
    registry := out.1
    observations := s.observations ++
      [{ enrolled := s.enrolments.any (·.1 = candidate.id), result := out.2 }] }

/-- Another content of `devices.json`: what was enrolled under an id it does not list no longer is. -/
def setDevices (devices : Except Thrown (List DeviceDefinition)) : AwarenessService :=
  let s := { s with devices }
  { s with enrolments := s.enrolments.filter fun enrolment => s.readEnrolledIds.contains enrolment.2 }

/-- The service after a restart of the daemon: the registry is loaded from its file. -/
def restart : AwarenessService :=
  { s with registry := { s.registry with records := AwarenessRegistry.load s.registry.stored } }

/-- A service over the files as they are found. -/
def start (stored : List AwarenessRecord) (devices : Except Thrown (List DeviceDefinition)) : AwarenessService where
  registry := { records := AwarenessRegistry.load stored, stored }
  devices := devices

inductive AwarenessStep
  | observe (candidate : DiscoveredCandidate) (extras : AwarenessRegistry.Extras) (now : Int)
    (failure : Option Thrown)
  | tick (now : Int) (failure : Option Thrown)
  | enroll (id : JsString) (options : EnrollOptions) (now : Int) (enrolledAt : JsString)
    (devicesFailure failure : Option Thrown)
  | markEnrolled (id : JsString) (moduleId : Option JsString) (now : Int) (failure : Option Thrown)
  | devicesWritten (devices : Except Thrown (List DeviceDefinition))
  | restart

def step : AwarenessStep → AwarenessService
  | .observe candidate extras now failure => s.observe host candidate extras now failure
  | .tick now failure => { s with registry := (s.registry.tick host now failure).1 }
  | .enroll id options now enrolledAt devicesFailure failure =>
    (s.enroll id options now enrolledAt devicesFailure failure).1
  | .markEnrolled id moduleId now failure =>
    { s with registry := (s.registry.markEnrolled id moduleId now failure).1 }
  | .devicesWritten devices => s.setDevices devices
  | .restart => s.restart

def machine : Machine AwarenessService AwarenessStep := ⟨fun s event => some (s.step host event)⟩

end AwarenessService

end Pinout.Awareness
