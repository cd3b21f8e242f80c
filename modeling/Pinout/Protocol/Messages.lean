import Pinout.Errors
import Pinout.Protocol.LineReader

/-! # Protocol messages

Protocol v1 (`packages/core/src/protocol.ts`): one JSON object on a line. Every message carries
`v: protocolVersion`, which the encoders write and `decodeLine` checks, and which is left out here.
`JSON.parse` is a parameter (`parse`; `none` when it throws). -/

namespace Pinout.Protocol

open Foundation

/-! ## Messages -/

def protocolVersion : ℚ := 1

inductive ProtocolMessage
  | request (id action : JsString) (payload : JsonObject)
  | success (id : JsString) (result : JsonObject)
  | failure (id code message : JsString)
  | event (name : JsString) (payload : JsonObject)

namespace ProtocolMessage

def id? : ProtocolMessage → Option JsString
  | request id _ _ => some id
  | success id _ => some id
  | failure id _ _ => some id
  | event _ _ => none

def record : ProtocolMessage → JsonObject
  | request id action payload =>
    [(js "v", .num protocolVersion), (js "id", .str id), (js "action", .str action),
      (js "payload", .obj payload)]
  | success id result =>
    [(js "v", .num protocolVersion), (js "id", .str id), (js "ok", .bool true),
      (js "result", .obj result)]
  | failure id code message =>
    [(js "v", .num protocolVersion), (js "id", .str id), (js "ok", .bool false),
      (js "error", .obj [(js "code", .str code), (js "message", .str message)])]
  | event name payload =>
    [(js "v", .num protocolVersion), (js "event", .str name), (js "payload", .obj payload)]

end ProtocolMessage

/-! ## Encoding -/

section Encoding

variable (numText : ℚ → JsString)

/-- What the encoders share: the record as a line. -/
def encodeMessage (m : ProtocolMessage) : JsString :=
  Json.stringify numText (.obj m.record) ++ [lineFeed]

def encodeRequest (id action : JsString) (payload : JsonObject := []) : JsString :=
  encodeMessage numText (.request id action payload)

def encodeResponse (id : JsString) (result : JsonObject := []) : JsString :=
  encodeMessage numText (.success id result)

def encodeFailure (id code message : JsString) : JsString :=
  encodeMessage numText (.failure id code message)

def encodeEvent (event : JsString) (payload : JsonObject := []) : JsString :=
  encodeMessage numText (.event event payload)

def encode : ProtocolMessage → JsString
  | .request id action payload => encodeRequest numText id action payload
  | .success id result => encodeResponse numText id result
  | .failure id code message => encodeFailure numText id code message
  | .event event payload => encodeEvent numText event payload

end Encoding

/-! ## Decoding -/

inductive DecodeLineResult
  | ignore
  | invalidJson (message : JsString)
  | invalidMessage (message : JsString)
  | message (value : ProtocolMessage)

/-- `new ProtocolError(message)`. -/
def protocolError (message : JsString) : Thrown :=
  .pinoutError (js "ProtocolError") (js "PROTOCOL_ERROR") message

/-- What `String(value)` throws for a value without text. -/
def noPrimitive : Thrown :=
  .error (js "TypeError") none (js "Cannot convert object to primitive value")

/-- `String(value)` of a field, which may be missing. -/
def stringOf (numText : ℚ → JsString) : Option Json → Except Thrown JsString
  | none => .ok (js "undefined")
  | some value => if value.hasText then .ok (value.text numText) else .error noPrimitive

/-- `isPlainObject(value) ? value : {}`. -/
def plainObject (value : Option Json) : JsonObject := (Json.fields? value).getD []

section Decoding

variable (numText : ℚ → JsString) (parse : JsString → Option Json)

/-- What a record of the right version says: the tests are made in the order of the source. -/
def decodeRecord (trimmed : JsString) (record : JsonObject) : DecodeLineResult :=
  match Json.string? (record.get? (js "event")) with
  | some event => .message (.event event (plainObject (record.get? (js "payload"))))
  | none =>
    match Json.string? (record.get? (js "id")) with
    | none => .invalidMessage (js "Protocol message is missing a string id.")
    | some id =>
      if id = [] then .invalidMessage (js "Protocol message is missing a string id.")
      else match Json.string? (record.get? (js "action")) with
        | some action => .message (.request id action (plainObject (record.get? (js "payload"))))
        | none =>
          match Json.boolean? (record.get? (js "ok")) with
          | some true => .message (.success id (plainObject (record.get? (js "result"))))
          | some false =>
            match Json.fields? (record.get? (js "error")) with
            | none => .invalidMessage (js "Error response is missing error.code and error.message.")
            | some error =>
              match Json.string? (error.get? (js "code")), Json.string? (error.get? (js "message")) with
              | some code, some message => .message (.failure id code message)
              | _, _ => .invalidMessage (js "Error response is missing error.code and error.message.")
          | none => .invalidMessage (js "Unrecognized protocol message: " ++ trimmed)

/-- `decodeLine`. It throws where the text of an unsupported version cannot be made. -/
def decodeLine (line : JsString) : Except Thrown DecodeLineResult :=
  let trimmed := trim (stripCarriageReturn line)
  if trimmed.head? ≠ some 123 then .ok .ignore
  else match parse trimmed with
    | none => .ok (.invalidJson (js "Device sent invalid JSON: " ++ trimmed))
    | some (.obj record) =>
      if Json.number? (JsonObject.get? record (js "v")) = some protocolVersion then
        .ok (decodeRecord trimmed record)
      else do
        let version ← stringOf numText (JsonObject.get? record (js "v"))
        .ok (.invalidMessage (js "Unsupported protocol version '" ++ version ++
          js "'. This SDK speaks v" ++ numText protocolVersion ++ js "."))
    | some _ => .ok (.invalidMessage (js "Device sent a JSON value that is not an object."))

/-- `parseLine`: `none` for a line to be ignored. -/
def parseLine (line : JsString) : Except Thrown (Option ProtocolMessage) := do
  match ← decodeLine numText parse line with
  | .ignore => .ok none
  | .invalidJson message => .error (protocolError message)
  | .invalidMessage message => .error (protocolError message)
  | .message value => .ok (some value)

end Decoding

/-! ## Device identity -/

structure DeviceInfo where
  boardId : Option JsString := none
  firmware : JsString
  version : JsString
  protocol : ℚ
  capabilities : List JsString
  features : List JsString

def stringArray? : Option Json → Option (List JsString)
  | some (.arr items) => items.mapM fun item => Json.string? (some item)
  | _ => none

def parseDeviceInfo (numText : ℚ → JsString) (payload : JsonObject) : Except Thrown DeviceInfo :=
  match Json.string? (payload.get? (js "firmware")) with
  | none => .error (protocolError (js "Device identity is missing firmware."))
  | some firmware =>
    if firmware = [] then .error (protocolError (js "Device identity is missing firmware."))
    else match Json.string? (payload.get? (js "version")) with
      | none => .error (protocolError (js "Device identity is missing version."))
      | some version =>
        if Json.number? (payload.get? (js "protocol")) = some protocolVersion then
          match stringArray? (payload.get? (js "capabilities")) with
          | none => .error (protocolError
              (js "Device identity is missing a capabilities string array."))
          | some capabilities => .ok {
              firmware := firmware
              version := version
              protocol := protocolVersion
              capabilities := capabilities
              features := (stringArray? (payload.get? (js "features"))).getD []
              boardId := Json.string? (payload.get? (js "boardId")) }
        else do
          let protocol ← stringOf numText (payload.get? (js "protocol"))
          .error (protocolError (js "Device protocol '" ++ protocol ++
            js "' is not supported. Expected " ++ numText protocolVersion ++ js "."))

end Pinout.Protocol
