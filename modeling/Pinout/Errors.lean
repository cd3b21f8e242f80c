import Pinout.Foundation.Json

/-! # The error taxonomy

Structured errors as they cross a boundary, and the normalisation `toStructuredError` of whatever a
backend may throw. -/

namespace Pinout

open Foundation

inductive ErrorCategory
  | config | validation | transport | protocol | device | capability | policy | safety | lease
  | operation | timeout | auth | module | generator | unsupported
  deriving DecidableEq, Repr

def ErrorCategory.text : ErrorCategory → JsString
  | .config => js "CONFIG"
  | .validation => js "VALIDATION"
  | .transport => js "TRANSPORT"
  | .protocol => js "PROTOCOL"
  | .device => js "DEVICE"
  | .capability => js "CAPABILITY"
  | .policy => js "POLICY"
  | .safety => js "SAFETY"
  | .lease => js "LEASE"
  | .operation => js "OPERATION"
  | .timeout => js "TIMEOUT"
  | .auth => js "AUTH"
  | .module => js "MODULE"
  | .generator => js "GENERATOR"
  | .unsupported => js "UNSUPPORTED"

def retryableCodes : List JsString :=
  [js "TRANSPORT_DISCONNECTED", js "TRANSPORT_TIMEOUT", js "DEVICE_BUSY", js "LEASE_EXPIRED",
    js "OPERATION_TIMEOUT", js "TRANSPORT_RECONNECTING"]

structure StructuredError where
  code : JsString
  category : ErrorCategory
  message : JsString
  retryable : Bool
  device : Option JsString := none
  capability : Option JsString := none
  operation : Option JsString := none
  details : JsonObject := []

/-- The constructor of `PinoutStructuredError` without an explicit `retryable`. -/
def pinoutStructuredError (code : JsString) (category : ErrorCategory) (message : JsString) :
    StructuredError where
  code := code
  category := category
  message := message
  retryable := retryableCodes.contains code

/-- A field of an envelope that is present only for a non-empty string. -/
def textField (name : JsString) : Option JsString → JsonObject
  | some s => if s = [] then [] else [(name, .str s)]
  | none => []

/-- `PinoutStructuredError.toJSON`, as the JSON object it produces. -/
def StructuredError.toJson (e : StructuredError) : Json :=
  .obj ([(js "code", .str e.code), (js "category", .str e.category.text),
    (js "message", .str e.message), (js "retryable", .bool e.retryable)] ++
    textField (js "device") e.device ++ textField (js "capability") e.capability ++
    textField (js "operation") e.operation ++
    if e.details = [] then [] else [(js "details", .obj e.details)])

def classifyCode (code : JsString) : ErrorCategory :=
  if (js "POLICY_").isPrefixOf code then .policy
  else if (js "SAFETY_").isPrefixOf code then .safety
  else if (js "LEASE_").isPrefixOf code then .lease
  else if (js "MODULE_").isPrefixOf code then .module
  else if (js "GENERATOR_").isPrefixOf code then .generator
  else if (js "TRANSPORT_").isPrefixOf code then .transport
  else if (js "CONFIG_").isPrefixOf code then .config
  else if (js "AUTH_").isPrefixOf code then .auth
  else if code = js "VALIDATION_ERROR" then .validation
  else if code = js "UNSUPPORTED_CAPABILITY" then .unsupported
  else if code = js "PROTOCOL_ERROR" then .protocol
  else if code = js "TIMEOUT" ∨ code = js "OPERATION_TIMEOUT" then .timeout
  else if code = js "DISCONNECTED" ∨ code = js "TRANSPORT_ERROR" then .transport
  else if code = js "ABORTED" then .operation
  else .device

/-- What a `catch` clause can receive. -/
inductive Thrown
  | structuredError (error : StructuredError)
  /-- Any other `PinoutError`, with its class name, its code and, for a policy error, its
  metadata. -/
  | pinoutError (name code message : JsString) (metadata : JsonObject := [])
  /-- Any other `Error`, with its name and, when it has one, its `code`. -/
  | error (name : JsString) (code : Option JsString) (message : JsString)
  /-- A value that is not an `Error`: its `String(value)` and, for an object with one, its `code`. -/
  | value (text : JsString) (code : Option JsString)

namespace Thrown

/-- `error.message` when `error instanceof Error`. -/
def message? : Thrown → Option JsString
  | structuredError e => some e.message
  | pinoutError _ _ message _ => some message
  | error _ _ message => some message
  | value _ _ => none

/-- `error instanceof Error ? error.message : String(error)`. -/
def text : Thrown → JsString
  | structuredError e => e.message
  | pinoutError _ _ message _ => message
  | error _ _ message => message
  | value text _ => text

/-- `error.name` when `error instanceof Error`. -/
def name? : Thrown → Option JsString
  | structuredError _ => some (js "PinoutStructuredError")
  | pinoutError name _ _ _ => some name
  | error name _ _ => some name
  | value _ _ => none

/-- `error.code`, where there is one. -/
def code? : Thrown → Option JsString
  | structuredError e => some e.code
  | pinoutError _ code _ _ => some code
  | error _ code _ => code
  | value _ code => code

/-- An `AbortedError` carrying `message`. -/
def abortedError (message : JsString) : Thrown :=
  pinoutError (js "AbortedError") (js "ABORTED") message

/-- `error instanceof AbortedError`. -/
def isAbortedError : Thrown → Bool
  | pinoutError name code _ _ => name = js "AbortedError" ∧ code = js "ABORTED"
  | _ => false

end Thrown

/-- `toStructuredError`: normalise any thrown value. -/
def toStructuredError (thrown : Thrown) (device capability operation : JsString) :
    StructuredError :=
  match thrown with
  | .structuredError e => e
  | .pinoutError _ code message _ =>
    { pinoutStructuredError code (classifyCode code) message with
      device := some device, capability := some capability, operation := some operation }
  | .error _ _ message =>
    { code := js "INTERNAL_ERROR", category := .device, message := message, retryable := false,
      device := some device }
  | .value text _ =>
    { code := js "INTERNAL_ERROR", category := .device, message := text, retryable := false }

end Pinout
