import Pinout.Foundation.Machine
import Pinout.Modbus.Exchange

/-! # The Modbus RTU client

`ModbusRtuClient` (`packages/protocols-modbus/src/rtuClient.ts`): one request in flight at a time, which
takes whatever chunk the transport yields next as its response. What happens to a client between two
points where it waits is one *event*; events come in any order. The number of a call is its place in the
order in which calls were made. -/

namespace Pinout.Modbus

open Foundation

/-- `ModbusRtuClient`, with the calls made on it and the frames it gave the transport. -/
structure ModbusRtuClient where
  slaveAddress : UInt8
  timeoutMs : JsString
  /-- `inflight`: the number of the call whose response is awaited. -/
  inflight : Option Nat := none
  closed : Bool := false
  consuming : Bool := true
  calls : List Exchange := []
  sent : List (List UInt8) := []

/-- What happens to a client. A chunk comes with the number of the call whose request the slave answers
with it, if it is an answer; the client does not see that number. -/
inductive RtuEvent
  | request (call : ModbusCall)
  | written (number : Nat)
  | writeFailed (number : Nat) (error : Thrown)
  | chunk (bytes : List UInt8) (answers : Option Nat)
  | timeout
  | streamFailed (error : Thrown)
  | streamEnded
  | close

namespace ModbusRtuClient

/-- `new ModbusRtuClient(options)`, started. -/
def new (slaveAddress : Int) (timeoutMs : JsString) : Except Thrown ModbusRtuClient :=
  if slaveAddress < 1 ∨ slaveAddress > 247 then
    .error (modbusError (js "MODBUS_INVALID_SLAVE") (js "Slave address must be an integer in [1, 247]."))
  else .ok { slaveAddress := slaveAddress.toNat.toUInt8, timeoutMs }

/-- What a call makes of the bytes of its response. -/
def decode (c : ModbusRtuClient) (call : ModbusCall) (bytes : List UInt8) : Except Thrown CallResult :=
  match decodeRtu bytes call.functionCode c.slaveAddress with
  | .ok decoded => .ok (call.result decoded)
  | .error e => .error e

/-- A call that ends before its request is sent. -/
def refuse (c : ModbusRtuClient) (call : ModbusCall) (error : Thrown) : ModbusRtuClient :=
  { c with calls := c.calls ++ [⟨call, false, none, some (.error error)⟩] }

/-- A method of the client up to where it waits for the transport to take the request. -/
def request (c : ModbusRtuClient) (call : ModbusCall) : ModbusRtuClient :=
  match call.request with
  | .error error => c.refuse call error
  | .ok pdu =>
    if c.closed then
      c.refuse call (modbusError (js "MODBUS_NOT_CONNECTED") (js "RTU client is closed."))
    else if c.inflight.isSome then
      c.refuse call (modbusError (js "MODBUS_INFLIGHT")
        (js "An RTU request is already in flight; the bus is single-master half-duplex."))
    else
      { c with
        inflight := some c.calls.length
        calls := c.calls ++ [⟨call, false, none, none⟩]
        sent := c.sent ++ [encodeRtu c.slaveAddress pdu] }

/-- The request in flight gets its response; without one, the response is dropped. -/
def settle (c : ModbusRtuClient) (response : Except Thrown (List UInt8)) : ModbusRtuClient :=
  match c.inflight with
  | none => c
  | some number =>
    { c with inflight := none, calls := c.calls.modify number (Exchange.respond c.decode response) }

def step (c : ModbusRtuClient) : RtuEvent → Option ModbusRtuClient
  | .request call => some (c.request call)
  | .written number => match c.calls[number]? with
    | some ⟨_, false, _, none⟩ =>
      some { c with calls := c.calls.modify number (Exchange.write c.decode) }
    | _ => none
  | .writeFailed number error => match c.calls[number]? with
    | some ⟨_, false, _, none⟩ => some { c with calls := c.calls.modify number (Exchange.fail error) }
    | _ => none
  | .chunk bytes _ => if c.consuming then some (c.settle (.ok bytes)) else none
  | .timeout =>
    if c.inflight.isSome then
      some (c.settle (.error (modbusError (js "MODBUS_TIMEOUT")
        (js "No RTU response within " ++ c.timeoutMs ++ js "ms."))))
    else none
  | .streamFailed error =>
    if c.consuming then some { c.settle (.error error) with consuming := false } else none
  | .streamEnded => if c.consuming then some { c with consuming := false } else none
  | .close =>
    some { c.settle (.error (modbusError (js "MODBUS_CONNECTION_CLOSED") (js "RTU transport closed.")))
      with closed := true }

def machine : Machine ModbusRtuClient RtuEvent := ⟨step⟩

/-! ## What a step does to the calls -/

@[simp] theorem slaveAddress_settle (c : ModbusRtuClient) (response : Except Thrown (List UInt8)) :
    (c.settle response).slaveAddress = c.slaveAddress := by
  rw [settle]
  split <;> rfl

@[simp] theorem slaveAddress_request (c : ModbusRtuClient) (call : ModbusCall) :
    (c.request call).slaveAddress = c.slaveAddress := by
  rw [request]
  split
  · rfl
  · split
    · rfl
    · split <;> rfl

theorem slaveAddress_step {c c' : ModbusRtuClient} {event : RtuEvent} (h : c.step event = some c') :
    c'.slaveAddress = c.slaveAddress := by
  cases event <;> simp only [step] at h
  case request call =>
    obtain rfl := Option.some.inj h
    exact slaveAddress_request c call
  case close =>
    obtain rfl := Option.some.inj h
    exact slaveAddress_settle c _
  all_goals
    split at h
    · obtain rfl := Option.some.inj h
      first | rfl | exact slaveAddress_settle c _
    · cases h

/-- A response is given to the call whose request is in flight. -/
theorem calls_settle (c : ModbusRtuClient) (response : Except Thrown (List UInt8)) :
    (c.settle response).calls = c.calls ∨ ∃ number, c.inflight = some number ∧
      (c.settle response).calls = c.calls.modify number (Exchange.respond c.decode response) := by
  rw [settle]
  split
  · exact .inl rfl
  · next number hinflight => exact .inr ⟨number, hinflight, rfl⟩

/-- A method begins one call, which is not resolved and has no response. -/
theorem calls_request (c : ModbusRtuClient) (call : ModbusCall) :
    (c.request call).calls = c.calls ++ [⟨call, false, none, none⟩] ∨
      ∃ error, (c.request call).calls = c.calls ++ [⟨call, false, none, some (.error error)⟩] := by
  rw [request]
  split
  · exact .inr ⟨_, rfl⟩
  · split
    · exact .inr ⟨_, rfl⟩
    · split
      · exact .inr ⟨_, rfl⟩
      · exact .inl rfl

/-- **What a step does to the calls**: it begins one, goes on with one whose request was written or not,
or gives one that is in flight a response, which has bytes only when a chunk arrived. -/
theorem calls_step {c c' : ModbusRtuClient} {event : RtuEvent} (h : c.step event = some c') :
    c'.calls = c.calls ∨
      (∃ call, c'.calls = c.calls ++ [⟨call, false, none, none⟩] ∨
        ∃ error, c'.calls = c.calls ++ [⟨call, false, none, some (.error error)⟩]) ∨
      (∃ number, c'.calls = c.calls.modify number (Exchange.write c.decode) ∨
        ∃ error, c'.calls = c.calls.modify number (Exchange.fail error)) ∨
      ∃ number response, c.inflight = some number ∧
        c'.calls = c.calls.modify number (Exchange.respond c.decode response) ∧
        ∀ bytes, response = .ok bytes → ∃ answers, event = .chunk bytes answers := by
  have hsettle : ∀ response, (∀ bytes, response = .ok bytes → ∃ answers, event = .chunk bytes answers) →
      (c.settle response).calls = c.calls ∨ ∃ number given, c.inflight = some number ∧
        (c.settle response).calls = c.calls.modify number (Exchange.respond c.decode given) ∧
        ∀ bytes, given = .ok bytes → ∃ answers, event = .chunk bytes answers := by
    intro response hbytes
    rcases calls_settle c response with hsame | ⟨number, hinflight, hcalls⟩
    · exact .inl hsame
    · exact .inr ⟨number, response, hinflight, hcalls, hbytes⟩
  cases event <;> simp only [step] at h
  case request call =>
    obtain rfl := Option.some.inj h
    exact .inr (.inl ⟨call, calls_request c call⟩)
  case written number =>
    split at h
    · obtain rfl := Option.some.inj h
      exact .inr (.inr (.inl ⟨number, .inl rfl⟩))
    · cases h
  case writeFailed number error =>
    split at h
    · obtain rfl := Option.some.inj h
      exact .inr (.inr (.inl ⟨number, .inr ⟨error, rfl⟩⟩))
    · cases h
  case chunk bytes answers =>
    split at h
    · obtain rfl := Option.some.inj h
      have hbytes : ∀ bytes', (.ok bytes : Except Thrown (List UInt8)) = .ok bytes' →
          ∃ answers', RtuEvent.chunk bytes answers = .chunk bytes' answers' := by
        intro bytes' h
        obtain rfl := Except.ok.inj h
        exact ⟨answers, rfl⟩
      exact (hsettle (.ok bytes) hbytes).imp_right fun h => .inr (.inr h)
    · cases h
  case timeout =>
    split at h
    · obtain rfl := Option.some.inj h
      exact (hsettle (.error _) fun _ => nofun).imp_right fun h => .inr (.inr h)
    · cases h
  case streamFailed error =>
    split at h
    · obtain rfl := Option.some.inj h
      exact (hsettle (.error error) fun _ => nofun).imp_right fun h => .inr (.inr h)
    · cases h
  case streamEnded =>
    split at h
    · obtain rfl := Option.some.inj h
      exact .inl rfl
    · cases h
  case close =>
    obtain rfl := Option.some.inj h
    exact (hsettle (.error _) fun _ => nofun).imp_right fun h => .inr (.inr h)

theorem allSound_step {c c' : ModbusRtuClient} {event : RtuEvent} (h : c.step event = some c')
    (hsound : Exchange.AllSound c.decode c.calls) : Exchange.AllSound c'.decode c'.calls := by
  have hdecode : c'.decode = c.decode := by
    funext call bytes
    rw [decode, decode, slaveAddress_step h]
  rw [hdecode]
  rcases calls_step h with hcalls | ⟨call, hcalls | ⟨error, hcalls⟩⟩ |
    ⟨number, hcalls | ⟨error, hcalls⟩⟩ | ⟨number, response, -, hcalls, -⟩ <;> rw [hcalls]
  · exact hsound
  · exact hsound.append (.begun call)
  · exact hsound.append (.refused call error)
  · exact hsound.modify fun e he => he.write
  · exact hsound.modify fun e _ => .fail error
  · exact hsound.modify fun e he => he.respond response

/-- **A response that a step brings** is a chunk for the request in flight. -/
theorem taken_step {c c' : ModbusRtuClient} {event : RtuEvent} {number : Nat} {call : ModbusCall}
    {bytes : List UInt8} (h : c.step event = some c')
    (hbefore : ¬ Exchange.Taken c.calls number call bytes)
    (hafter : Exchange.Taken c'.calls number call bytes) :
    ∃ answers e, event = .chunk bytes answers ∧ c.inflight = some number ∧
      c.calls[number]? = some e ∧ e.call = call := by
  rcases calls_step h with hcalls | ⟨call, hcalls | ⟨error, hcalls⟩⟩ |
    ⟨k, hcalls | ⟨error, hcalls⟩⟩ | ⟨k, response, hinflight, hcalls, hchunk⟩ <;> rw [hcalls] at hafter
  · exact absurd hafter hbefore
  · exact absurd (hafter.of_append rfl) hbefore
  · exact absurd (hafter.of_append rfl) hbefore
  · exact absurd (hafter.of_modify (fun _ => Exchange.call_write) fun _ => Exchange.response_write) hbefore
  · exact absurd (hafter.of_modify (fun _ => rfl) fun _ => rfl) hbefore
  · rcases hafter.of_respond with hold | ⟨rfl, rfl, e, he, hcall⟩
    · exact absurd hold hbefore
    · obtain ⟨answers, rfl⟩ := hchunk bytes rfl
      exact ⟨answers, e, rfl, hinflight, he, hcall⟩

end ModbusRtuClient

end Pinout.Modbus
