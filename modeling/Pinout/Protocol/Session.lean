import Pinout.Foundation.InsertionMap
import Pinout.Foundation.Machine
import Pinout.Protocol.Messages

/-! # The session

`Session` (`packages/core/src/session.ts`) correlates the responses of a device with the requests in
flight. What happens to a session between two points where it waits is one *action*: a call of
`request`, a line handled by the read loop, a timer, an abort signal, the outcome of a write, `close`,
the end of the stream. Actions come in any order.

A request that is registered has a number, and a promise under that number that is settled at most
once. A request that is rejected before that has none. Two things are left open and come with the
action: what `JSON.stringify` and `transport.write` throw, and what a listener throws at an event. -/

namespace Pinout.Protocol

open Foundation

/-! ## Requests -/

inductive Settlement
  | resolved (result : JsonObject)
  | rejected (error : Thrown)

/-- `PendingRequest`: the number of the request stands for its `resolve` and `reject`. -/
structure PendingRequest where
  number : Nat
  /-- Action, for the texts of its errors. -/
  action : JsString
  timeoutMs : ℚ
  signal : Option Nat

/-- A payload: a JSON object, or one at which `JSON.stringify` throws. -/
inductive Payload
  | record (fields : JsonObject)
  | unprintable (error : Thrown)

structure RequestOptions where
  timeoutMs : Option ℚ := none
  signal : Option Nat := none

/-- `new DisconnectedError(message)`. -/
def disconnectedError (message : JsString) : Thrown :=
  .pinoutError (js "DisconnectedError") (js "DISCONNECTED") message

/-- `new TransportError(message)`. -/
def transportError (message : JsString) : Thrown :=
  .pinoutError (js "TransportError") (js "TRANSPORT_ERROR") message

/-- `new TimeoutError(message)`. -/
def timeoutError (message : JsString) : Thrown :=
  .pinoutError (js "TimeoutError") (js "TIMEOUT") message

/-- `new DeviceError(code, message)`. -/
def deviceError (code message : JsString) : Thrown :=
  .pinoutError (js "DeviceError") code message

/-- Whether a thrown value is an `Error`. -/
def isError (thrown : Thrown) : Bool := thrown.message?.isSome

def requestId (sessionId : JsString) (number : Nat) : JsString :=
  sessionId ++ js ":" ++ decimal number

/-! ## The session -/

structure Session where
  sessionId : JsString
  timeoutMs : ℚ
  connectSignal : Option Nat := none
  isOpen : Bool := false
  closed : Bool := false
  readers : Nat := 0
  nextRequestId : Nat := 0
  pending : InsertionMap JsString PendingRequest := .empty
  deviceInfo : Option DeviceInfo := none
  promises : List (Option Settlement) := []
  /-- The errors of the requests rejected before they were registered. -/
  refused : List Thrown := []
  outbox : List (List UInt8) := []
  writing : List Nat := []
  aborted : List Nat := []

namespace Session

/-- Settle the promise of a request, unless it is settled. -/
def settle (s : Session) (number : Nat) (outcome : Settlement) : Session :=
  match s.promises[number]? with
  | some none => { s with promises := s.promises.set number (some outcome) }
  | _ => s

/-- `finishPending`. The timer and the abort handler of a request are live while it is pending. -/
def finishPending (s : Session) (id : JsString) : Session :=
  { s with pending := s.pending.erase id }

/-- Finish pending requests, one after the other, and reject their promises. -/
def rejectEach (s : Session) (error : PendingRequest → Thrown)
    (entries : List (JsString × PendingRequest)) : Session :=
  entries.foldl (fun s e => (s.finishPending e.1).settle e.2.number (.rejected (error e.2))) s

def rejectAll (s : Session) (error : Thrown) : Session :=
  s.rejectEach (fun _ => error) s.pending.entries

/-- `new Promise(…)` with its request registered. -/
def register (s : Session) (pending : PendingRequest) : Session :=
  { s with
    nextRequestId := s.nextRequestId + 1
    promises := s.promises ++ [none]
    pending := s.pending.insert (requestId s.sessionId s.nextRequestId) pending }

section

variable (numText : ℚ → JsString) (parse : JsString → Option Json)

/-- The frame of a request, unless `JSON.stringify` throws. -/
def frame (id action : JsString) : Payload → Except Thrown (List UInt8)
  | .record fields => .ok (encodeUtf8 (encodeRequest numText id action fields))
  | .unprintable error => .error error

/-- The rest of the executor: encode and write. What is thrown rejects the promise, and nothing more. -/
def send (s : Session) (number : Nat) (action : JsString) (payload : Payload)
    (write : Except Thrown Unit) : Session :=
  match frame numText (requestId s.sessionId number) action payload with
  | .error error => s.settle number (.rejected error)
  | .ok bytes =>
    match write with
    | .error error => { s with outbox := s.outbox ++ [bytes] }.settle number (.rejected error)
    | .ok () => { s with outbox := s.outbox ++ [bytes], writing := s.writing ++ [number] }

/-- Whether `request` registers the request, and with which signal. -/
def signalOf (s : Session) (options : RequestOptions) : Option Nat :=
  options.signal.or s.connectSignal

/-- `request`; `write` is what the call of `transport.write` throws, if it throws. -/
def request (s : Session) (action : JsString) (payload : Payload) (options : RequestOptions)
    (write : Except Thrown Unit) : Session :=
  if s.isOpen = false ∨ s.closed = true then
    { s with refused := s.refused ++ [disconnectedError (js "The device is not connected.")] }
  else if ∃ signal ∈ s.signalOf options, signal ∈ s.aborted then
    { s with refused := s.refused ++ [Thrown.abortedError
        (js "Request '" ++ action ++ js "' was aborted before it was sent.")] }
  else
    (s.register {
      number := s.nextRequestId
      action := action
      timeoutMs := options.timeoutMs.getD s.timeoutMs
      signal := s.signalOf options }).send numText s.nextRequestId action payload write

/-- The timer of a request, which is live while the request is pending. -/
def timeout (s : Session) (number : Nat) : Option Session :=
  match s.pending.get? (requestId s.sessionId number) with
  | none => none
  | some p => some ((s.finishPending (requestId s.sessionId number)).settle number
      (.rejected (timeoutError (js "Timed out waiting for '" ++ p.action ++ js "' (" ++
        numText p.timeoutMs ++ js "ms)."))))

/-- An abort signal, which fires once: the handlers of the pending requests that listen to it. -/
def abort (s : Session) (signal : Nat) : Session :=
  if signal ∈ s.aborted then s
  else { s with aborted := signal :: s.aborted }.rejectEach
    (fun p => Thrown.abortedError (js "Request '" ++ p.action ++ js "' was aborted."))
    (s.pending.entries.filter fun e => e.2.signal = some signal)

/-- The `catch` of a write. -/
def writeFailed (s : Session) (number : Nat) (error : Thrown) : Session :=
  ({ s with writing := s.writing.erase number }.finishPending (requestId s.sessionId number)).settle
    number (.rejected (transportError (error.message?.getD (js "Failed to write to transport."))))

/-- `close`, up to where it waits. -/
def close (s : Session) : Session :=
  if s.closed then s
  else { s with closed := true, isOpen := false }.rejectAll
    (disconnectedError (js "Connection closed before the device responded."))

/-- The end of a read loop: what ended it, when it did not end by itself, and then the `finally`. -/
def endLoop (s : Session) (error : Option Thrown) : Session :=
  let failed := match error with
    | none => s
    | some error => s.rejectAll
        (if isError error then error else transportError (js "Transport readable stream failed."))
  { failed with readers := failed.readers - 1 }.rejectAll (disconnectedError (js "Transport closed."))

def handleResponse (s : Session) (id : JsString) (outcome : Settlement) : Session :=
  match s.pending.get? id with
  | none => s
  | some p => (s.finishPending id).settle p.number outcome

/-- What an event leads to: it may throw, in the check of a `ready` event or in a listener. -/
def handleEvent (s : Session) (name : JsString) (payload : JsonObject) (reaction : Option Thrown) :
    Session × Option Thrown :=
  if name = js "ready" then
    match parseDeviceInfo numText payload with
    | .error error => (s, some error)
    | .ok info => ({ s with deviceInfo := some info }, reaction)
  else (s, reaction)

/-- One iteration of the read loop; `reaction` is what a listener throws if the line is an event. -/
def handleLine (s : Session) (line : JsString) (reaction : Option Thrown) : Session :=
  match parseLine numText parse line with
  | .error _ => s
  | .ok none => s
  | .ok (some (.event name payload)) =>
    match s.handleEvent numText name payload reaction with
    | (s, none) => s
    | (s, some error) => s.endLoop (some error)
  | .ok (some (.success id result)) => s.handleResponse id (.resolved result)
  | .ok (some (.failure id code message)) => s.handleResponse id (.rejected (deviceError code message))
  | .ok (some (.request _ _ _)) => s

/-! ## Actions -/

inductive Action
  /-- `connect`: the transport has opened, and a read loop begins. -/
  | opened
  | request (action : JsString) (payload : Payload) (options : RequestOptions)
      (write : Except Thrown Unit)
  | line (line : JsString) (reaction : Option Thrown)
  | timeout (number : Nat)
  | abort (signal : Nat)
  | written (number : Nat)
  | writeFailed (number : Nat) (error : Thrown)
  | close
  | streamEnds (error : Option Thrown)

/-- The session after an action. A line needs a read loop, a timer a pending request, and the outcome
of a write a write under way. -/
def step (s : Session) : Action → Option Session
  | .opened => some { s with isOpen := true, readers := s.readers + 1 }
  | .request action payload options write => some (s.request numText action payload options write)
  | .line line reaction =>
    if 0 < s.readers then some (s.handleLine numText parse line reaction) else none
  | .timeout number => s.timeout numText number
  | .abort signal => some (s.abort signal)
  | .written number =>
    if number ∈ s.writing then some { s with writing := s.writing.erase number } else none
  | .writeFailed number error =>
    if number ∈ s.writing then some (s.writeFailed number error) else none
  | .close => some s.close
  | .streamEnds error => if 0 < s.readers then some (s.endLoop error) else none

def machine : Machine Session Action := ⟨step numText parse⟩

end

end Session

end Pinout.Protocol
