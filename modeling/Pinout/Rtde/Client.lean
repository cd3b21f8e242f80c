import Pinout.Foundation.InsertionMap
import Pinout.Foundation.Machine
import Pinout.Foundation.Mailbox
import Pinout.Rtde.Wire

/-! # The RTDE client

`UrRtdeClient` (`packages/protocols-ur/src/rtdeClient.ts`) cuts what the transport yields into frames,
hands replies to whoever awaits them, and data packages to readers or to a bounded backlog. What
happens to a client between two points where it waits is one *action*; actions come in any order. The
requests of `start` are not written here: what counts is that it goes on with the reply it awaited. -/

namespace Pinout.Rtde

open Foundation

structure UrRtdeSample where
  time : Int
  /-- The value of the output `timestamp`, when it is a number. -/
  controllerTimestamp : Option RtdeNumber
  recipeId : UInt8
  values : InsertionMap JsString RtdeValue
  types : InsertionMap JsString RtdeValueType

/-- An object whose properties are assigned one by one. -/
def record {ν : Type} (names : List JsString) (values : List ν) : InsertionMap JsString ν :=
  (names.zip values).foldl (fun m e => m.insert e.1 e.2) .empty

/-- `new UrRtdeSample` of `handleDataPackage`. -/
def makeSample (now : Int) (recipeId : UInt8) (outputs : List JsString) (types : List RtdeValueType)
    (values : List RtdeValue) : UrRtdeSample where
  time := now
  controllerTimestamp := match (record outputs values).get? (js "timestamp") with
    | some (.number n) => some n
    | _ => none
  recipeId := recipeId
  values := record outputs values
  types := record outputs types

structure UrRtdeDiagnostic where
  code : JsString
  message : JsString
  time : Int

/-- `UrRtdeClient`, with what its promises were settled with. -/
structure UrRtdeClient where
  outputs : List JsString
  sampleBacklog : Nat
  transportClosed : Bool := false
  closed : Bool := false
  consuming : Bool := true
  handshakeComplete : Bool := false
  failure : Option Thrown := none
  pending : List UInt8 := []
  frameQueue : List RtdeFrame := []
  frameWaiters : List (Nat × UInt8) := []
  sampleWaiters : List Nat := []
  samples : List UrRtdeSample := []
  recipeId : UInt8 := 0
  types : List RtdeValueType := []
  awaited : Nat := 0
  frames : List (Nat × Except Thrown RtdeFrame) := []
  calls : Nat := 0
  rejected : List (Nat × Thrown) := []
  /-- What became of the samples that are not buffered any more. -/
  fates : List (Fate Nat × UrRtdeSample) := []
  diagnostics : List UrRtdeDiagnostic := []

namespace UrRtdeClient

/-- The constructor, for a transport that is open. -/
def create (outputs : List JsString) (sampleBacklog : Option Nat) : UrRtdeClient where
  outputs := outputs
  sampleBacklog := max 1 (sampleBacklog.getD 16)

def diagnostic (c : UrRtdeClient) (now : Int) (code message : JsString) : UrRtdeClient :=
  { c with diagnostics := c.diagnostics ++ [⟨code, message, now⟩] }

def isConnectionClosed (c : UrRtdeClient) : Bool := c.closed || c.transportClosed

def rejectWaiters (c : UrRtdeClient) (error : Thrown) : UrRtdeClient :=
  { c with
    frames := c.frames ++ c.frameWaiters.map fun w => (w.1, .error error)
    frameWaiters := []
    rejected := c.rejected ++ c.sampleWaiters.map fun w => (w, error)
    sampleWaiters := [] }

def close (c : UrRtdeClient) : UrRtdeClient :=
  if c.closed then c
  else
    { c with closed := true }.rejectWaiters
      (urRtdeError (js "UR_RTDE_CONNECTION_LOST") (js "RTDE client was closed."))

/-- The end of `consume`. -/
def endOfStream (c : UrRtdeClient) : UrRtdeClient :=
  if c.closed then { c with consuming := false }
  else
    { c with closed := true, consuming := false }.rejectWaiters
      (urRtdeError (js "UR_RTDE_CONNECTION_LOST")
        (js "RTDE transport ended; the connection is lost."))

/-! ## Frames -/

/-- Drop the oldest samples while there are more than the backlog allows. -/
def trimBacklog (c : UrRtdeClient) (now : Int) : List UrRtdeSample → UrRtdeClient
  | [] => { c with samples := [] }
  | sample :: samples =>
    if (sample :: samples).length > c.sampleBacklog then
      trimBacklog ({ c with fates := c.fates ++ [(Fate.dropped, sample)] }.diagnostic now
        (js "UR_RTDE_SAMPLE_BACKLOG_OVERFLOW")
        (js "Unread RTDE sample backlog exceeded its bound; the oldest sample was dropped."))
        now samples
    else { c with samples := sample :: samples }

/-- Hand a sample to the reader that waits longest, or keep it. -/
def deliver (c : UrRtdeClient) (now : Int) (sample : UrRtdeSample) : UrRtdeClient :=
  match c.sampleWaiters with
  | waiter :: waiters =>
    { c with sampleWaiters := waiters, fates := c.fates ++ [(.read waiter, sample)] }
  | [] => c.trimBacklog now (c.samples ++ [sample])

def handleDataPackage (c : UrRtdeClient) (now : Int) (payload : List UInt8) : UrRtdeClient :=
  match decodeDataPackage payload c.types with
  | .error e =>
    c.diagnostic now (js "UR_RTDE_PROTOCOL_ERROR") (js "Undecodable data package: " ++ e.text)
  | .ok decoded =>
    if decoded.recipeId ≠ c.recipeId then
      c.diagnostic now (js "UR_RTDE_UNEXPECTED_RECIPE")
        (js "Data package for recipe " ++ decimal decoded.recipeId.toNat ++ js ", expected " ++
          decimal c.recipeId.toNat ++ js "; dropped.")
    else if decoded.values.length ≠ c.outputs.length then
      c.diagnostic now (js "UR_RTDE_VALUE_COUNT_MISMATCH")
        (js "Data package carries " ++ decimal decoded.values.length ++ js " values, expected " ++
          decimal c.outputs.length ++ js "; dropped.")
    else c.deliver now (makeSample now decoded.recipeId c.outputs c.types decoded.values)

/-- Keep a reply that nobody awaits, unless there are too many. -/
def queueFrame (c : UrRtdeClient) (now : Int) (frame : RtdeFrame) : UrRtdeClient :=
  if (c.frameQueue ++ [frame]).length > 32 then
    { c with frameQueue := (c.frameQueue ++ [frame]).drop 1 }.diagnostic now
      (js "UR_RTDE_UNEXPECTED_FRAME")
      (js "More than 32 unclaimed RTDE reply frames; the oldest was dropped.")
  else { c with frameQueue := c.frameQueue ++ [frame] }

def handleFrame (now : Int) (c : UrRtdeClient) (frame : RtdeFrame) : UrRtdeClient :=
  if frame.command = RtdeCommand.dataPackage then c.handleDataPackage now frame.payload
  else match c.frameWaiters.find? fun w => w.2 = frame.command with
    | some waiter =>
      { c with
        frameWaiters := c.frameWaiters.erase waiter
        frames := c.frames ++ [(waiter.1, .ok frame)] }
    | none => c.queueFrame now frame

/-- One iteration of the loop of `consume`. -/
def receive (c : UrRtdeClient) (now : Int) (chunk : List UInt8) : UrRtdeClient :=
  let drained := rtdeDecoder.drain (c.pending ++ chunk)
  let handled := drained.packets.foldl (handleFrame now) { c with pending := drained.rest }
  match drained.failure with
  | none => handled
  | some e =>
    { (handled.diagnostic now (js "UR_RTDE_PROTOCOL_ERROR")
        (js "Dropping RTDE connection after a framing error: " ++ e.text)).close with
      consuming := false }

/-! ## Calls -/

def awaitFrame (c : UrRtdeClient) (command : UInt8) : UrRtdeClient :=
  match c.frameQueue.find? fun frame => frame.command = command with
  | some frame =>
    { c with
      awaited := c.awaited + 1
      frameQueue := c.frameQueue.erase frame
      frames := c.frames ++ [(c.awaited, .ok frame)] }
  | none =>
    if c.isConnectionClosed then
      { c with
        awaited := c.awaited + 1
        frames := c.frames ++ [(c.awaited, .error (urRtdeError (js "UR_RTDE_CONNECTION_LOST")
          (js "RTDE connection closed while awaiting a reply.")))] }
    else
      { c with awaited := c.awaited + 1, frameWaiters := c.frameWaiters ++ [(c.awaited, command)] }

/-- The names of the outputs a reply does not know. -/
def unknownOutputs (outputs : List JsString) (types : List (Option RtdeValueType)) : List JsString :=
  types.zipIdx.filterMap fun entry => match entry.1 with
    | none => some (outputs[entry.2]?.getD (js "#" ++ decimal entry.2))
    | some _ => none

/-- `setupOutputs`, from the reply on. When it throws, `start` closes the client. -/
def setupOutputs (c : UrRtdeClient) (payload : List UInt8) : UrRtdeClient :=
  match decodeSetupOutputsReply payload with
  | .error e => { c.close with failure := some e }
  | .ok reply =>
    let unknown := unknownOutputs c.outputs reply.types
    if unknown ≠ [] then
      { c.close with
        failure := some (urRtdeError (js "UR_RTDE_UNKNOWN_OUTPUTS")
          (js "Controller rejected " ++ decimal unknown.length ++ js " RTDE output(s): " ++
            (js ", ").intercalate unknown ++ js ".")) }
    else
      { c with
        recipeId := reply.recipeId
        types := reply.types.reduceOption
        handshakeComplete := true }

/-- A time limit in milliseconds that `readSample` accepts; `none` is one that is not finite. -/
def validTimeout (timeoutMs : Option ℚ) : Bool := timeoutMs.any fun ms => 0 < ms

/-- The text of a time limit, for the error of `readSample`. -/
def invalidTimeout (timeoutText : JsString) : Thrown :=
  urRtdeError (js "UR_RTDE_INVALID_TIMEOUT")
    (js "Sample timeout must be a positive number of milliseconds; received " ++ timeoutText ++
      js ".")

def readSample (c : UrRtdeClient) (timeoutMs : Option ℚ) (timeoutText : JsString) : UrRtdeClient :=
  if c.isConnectionClosed then
    { c with
      calls := c.calls + 1
      rejected := c.rejected ++ [(c.calls, urRtdeError (js "UR_RTDE_CONNECTION_LOST")
        (js "RTDE connection is closed."))] }
  else match c.samples with
    | buffered :: samples =>
      { c with
        calls := c.calls + 1
        samples := samples
        fates := c.fates ++ [(.read c.calls, buffered)] }
    | [] =>
      if validTimeout timeoutMs then
        { c with calls := c.calls + 1, sampleWaiters := c.sampleWaiters ++ [c.calls] }
      else
        { c with
          calls := c.calls + 1
          rejected := c.rejected ++ [(c.calls, invalidTimeout timeoutText)] }

def sampleTimeout (c : UrRtdeClient) (reader : Nat) (timeoutText : JsString) : UrRtdeClient :=
  { c with
    sampleWaiters := c.sampleWaiters.erase reader
    rejected := c.rejected ++ [(reader, urRtdeError (js "UR_RTDE_TIMEOUT")
      (js "No RTDE data package within " ++ timeoutText ++
        js "ms. Streaming may have stopped; the connection is left open."))] }

/-- The timer of `awaitFrame`. -/
def frameTimeout (c : UrRtdeClient) (waiter : Nat × UInt8) (error : Thrown) : UrRtdeClient :=
  { c with
    frameWaiters := c.frameWaiters.erase waiter
    frames := c.frames ++ [(waiter.1, .error error)] }

def discardBufferedSamples (c : UrRtdeClient) : UrRtdeClient :=
  { c with samples := [], fates := c.fates ++ c.samples.map (Fate.cleared, ·) }

def latest (c : UrRtdeClient) : Option UrRtdeSample := c.samples.getLast?

/-! ## Actions -/

inductive Action
  | chunk (now : Int) (bytes : List UInt8)
  | awaitFrame (command : UInt8)
  | frameTimeout (waiter : Nat × UInt8) (error : Thrown)
  /-- `setupOutputs`, which `start` calls once, goes on with the reply it awaited. -/
  | setupOutputs (awaited : Nat)
  | readSample (timeoutMs : Option ℚ) (timeoutText : JsString)
  | sampleTimeout (reader : Nat) (timeoutText : JsString)
  | discardBufferedSamples
  | close
  | transportClosed
  | endOfStream

/-- The frame that a call of `awaitFrame` was resolved with. -/
def frameOf (c : UrRtdeClient) (awaited : Nat) : Option RtdeFrame :=
  c.frames.findSome? fun e => match e.2 with
    | .ok frame => if e.1 = awaited then some frame else none
    | .error _ => none

def machine : Machine UrRtdeClient Action where
  step c
    | .chunk now bytes => if c.consuming then some (c.receive now bytes) else none
    | .awaitFrame command => some (c.awaitFrame command)
    | .frameTimeout waiter error =>
      if waiter ∈ c.frameWaiters then some (c.frameTimeout waiter error) else none
    | .setupOutputs awaited =>
      if c.handshakeComplete = false ∧ c.failure = none then
        match c.frameOf awaited with
        | some frame =>
          if frame.command = RtdeCommand.setupOutputs then some (c.setupOutputs frame.payload)
          else none
        | none => none
      else none
    | .readSample timeoutMs timeoutText => some (c.readSample timeoutMs timeoutText)
    | .sampleTimeout reader timeoutText =>
      if reader ∈ c.sampleWaiters then some (c.sampleTimeout reader timeoutText) else none
    | .discardBufferedSamples => some c.discardBufferedSamples
    | .close => some c.close
    | .transportClosed => some { c with transportClosed := true }
    | .endOfStream => if c.consuming then some c.endOfStream else none

end UrRtdeClient

end Pinout.Rtde
