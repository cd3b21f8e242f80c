import Pinout.Foundation.InsertionMap
import Pinout.Foundation.Machine
import Pinout.Modbus.Exchange

/-! # The Modbus TCP client

`ModbusTcpClient` (`packages/protocols-modbus/src/tcpClient.ts`): any number of requests at a time, each
of which takes the first frame with its transaction id as its response. What happens to a connected
client between two points where it waits is one *event*; events come in any order. The number of a call
is its place in the order in which calls were made. -/

namespace Pinout.Modbus

open Foundation

structure SentRequest where
  number : Nat
  transactionId : Nat
  frame : List UInt8

/-- `ModbusTcpClient`, with the calls made on it and the requests it gave the socket. -/
structure ModbusTcpClient where
  unitId : UInt8
  timeoutMs : JsString
  connected : Bool := true
  closed : Bool := false
  buffer : List UInt8 := []
  nextTransactionId : Nat := 0
  /-- `pending`: the number of the call that waits for a transaction id. -/
  pending : InsertionMap Nat Nat := .empty
  /-- The timers that run, by the number of the call and its transaction id. -/
  timers : List (Nat × Nat) := []
  calls : List Exchange := []
  sent : List SentRequest := []

inductive TcpEvent
  | request (call : ModbusCall)
  | written (number : Nat)
  | writeFailed (number : Nat) (error : Thrown)
  | chunk (bytes : List UInt8)
  | timeout (number transactionId : Nat)
  | socketFailed (error : Thrown)
  | socketClosed
  | close

namespace ModbusTcpClient

/-- What a call makes of the bytes of its response. -/
def decode (call : ModbusCall) (pdu : List UInt8) : Except Thrown CallResult :=
  SimulatedModbusServer.settle call pdu

/-- A call that ends before its request is sent. -/
def refuse (c : ModbusTcpClient) (call : ModbusCall) (error : Thrown) : ModbusTcpClient :=
  { c with calls := c.calls ++ [⟨call, false, none, some (.error error)⟩] }

/-- A method of the client up to where it waits for the socket to take the request. -/
def request (c : ModbusTcpClient) (call : ModbusCall) : ModbusTcpClient :=
  match call.request with
  | .error error => c.refuse call error
  | .ok pdu =>
    if c.closed ∨ ¬ c.connected then
      c.refuse call (modbusError (js "MODBUS_NOT_CONNECTED") (js "TCP client is not connected."))
    else
      { c with
        nextTransactionId := (c.nextTransactionId + 1) % 65536
        pending := c.pending.insert c.nextTransactionId c.calls.length
        timers := c.timers ++ [(c.calls.length, c.nextTransactionId)]
        calls := c.calls ++ [⟨call, false, none, none⟩]
        sent := c.sent ++
          [⟨c.calls.length, c.nextTransactionId, encodeMbap c.nextTransactionId c.unitId pdu⟩] }

/-- A call gets its response, and its timer is cleared. -/
def settle (c : ModbusTcpClient) (number : Nat) (response : Except Thrown (List UInt8)) :
    ModbusTcpClient :=
  { c with
    timers := c.timers.filter fun timer => timer.1 ≠ number
    calls := c.calls.modify number (Exchange.respond decode response) }

/-- A round of the loop of `onData`. -/
def handleFrame (c : ModbusTcpClient) (frame : MbapFrame) : ModbusTcpClient :=
  match c.pending.get? frame.transactionId with
  | none => c
  | some number =>
    { c with pending := c.pending.erase frame.transactionId }.settle number (.ok frame.pdu)

def framesOf (c : ModbusTcpClient) (bytes : List UInt8) : List MbapFrame :=
  (mbapDecoder.drain (c.buffer ++ bytes)).packets

/-- The client with what a chunk leaves in its buffer. -/
def rebuffer (c : ModbusTcpClient) (bytes : List UInt8) : ModbusTcpClient :=
  { c with buffer := (mbapDecoder.drain (c.buffer ++ bytes)).rest }

def onData (c : ModbusTcpClient) (bytes : List UInt8) : ModbusTcpClient :=
  (c.framesOf bytes).foldl handleFrame (c.rebuffer bytes)

def failAll (c : ModbusTcpClient) (error : Thrown) : ModbusTcpClient :=
  { (c.pending.entries.map Prod.snd).foldl (fun c number => c.settle number (.error error)) c with
    pending := .empty }

def step (c : ModbusTcpClient) : TcpEvent → Option ModbusTcpClient
  | .request call => some (c.request call)
  | .written number => match c.calls[number]? with
    | some ⟨_, false, _, none⟩ => some { c with calls := c.calls.modify number (Exchange.write decode) }
    | _ => none
  | .writeFailed number error => match c.calls[number]? with
    | some ⟨_, false, _, none⟩ => some { c with calls := c.calls.modify number (Exchange.fail error) }
    | _ => none
  | .chunk bytes => some (c.onData bytes)
  | .timeout number transactionId =>
    if (number, transactionId) ∈ c.timers then
      some ({ c with pending := c.pending.erase transactionId }.settle number
        (.error (SimulatedModbusServer.timeoutError c.timeoutMs)))
    else none
  | .socketFailed error => some (c.failAll error)
  | .socketClosed =>
    some (c.failAll (modbusError (js "MODBUS_CONNECTION_CLOSED") (js "TCP connection closed.")))
  | .close =>
    some { c.failAll (modbusError (js "MODBUS_CONNECTION_CLOSED") (js "Client closed.")) with
      closed := true, connected := false }

def machine : Machine ModbusTcpClient TcpEvent := ⟨step⟩

/-- The loop of `onData` as a machine. -/
def dataMachine : Machine ModbusTcpClient MbapFrame := ⟨fun c frame => some (c.handleFrame frame)⟩

theorem run_dataMachine (c : ModbusTcpClient) (frames : List MbapFrame) :
    dataMachine.run c frames = some (frames.foldl handleFrame c) := by
  induction frames generalizing c with
  | nil => rfl
  | cons frame frames ih =>
    rw [List.foldl_cons, ← ih]
    rfl

/-- `onData` is a run over the frames that the chunk completes. -/
theorem run_onData (c : ModbusTcpClient) (bytes : List UInt8) :
    dataMachine.run (c.rebuffer bytes) (c.framesOf bytes) = some (c.onData bytes) :=
  run_dataMachine _ _

/-! ## What a step does to the calls -/

/-- The call that waits for a transaction id was sent with it. -/
def Linked (c : ModbusTcpClient) : Prop :=
  ∀ transactionId number, c.pending.get? transactionId = some number →
    ∃ r ∈ c.sent, r.number = number ∧ r.transactionId = transactionId

/-- Calls that wait for less are linked when those that wait for more are. -/
theorem Linked.of_le {c c' : ModbusTcpClient} (h : c.Linked) (hsent : c'.sent = c.sent)
    (hpending : ∀ transactionId number, c'.pending.get? transactionId = some number →
      c.pending.get? transactionId = some number) : c'.Linked := by
  intro transactionId number hget
  rw [hsent]
  exact h transactionId number (hpending transactionId number hget)

theorem get?_of_erase {m : InsertionMap Nat Nat} {k j v : Nat} (h : (m.erase k).get? j = some v) :
    m.get? j = some v := by
  rw [InsertionMap.get?_erase] at h
  split at h
  · cases h
  · exact h

/-- A response that is given was there before, or is the one given. -/
theorem taken_settle {c : ModbusTcpClient} {k number : Nat} {response : Except Thrown (List UInt8)}
    {call : ModbusCall} {pdu : List UInt8}
    (h : Exchange.Taken (c.settle k response).calls number call pdu) :
    Exchange.Taken c.calls number call pdu ∨
      k = number ∧ response = .ok pdu ∧ ∃ e, c.calls[number]? = some e ∧ e.call = call :=
  Exchange.Taken.of_respond h

/-- **A response that a frame brings** was waited for by its transaction id. -/
theorem taken_handleFrame {c : ModbusTcpClient} {frame : MbapFrame} {number : Nat} {call : ModbusCall}
    {pdu : List UInt8} (hbefore : ¬ Exchange.Taken c.calls number call pdu)
    (hafter : Exchange.Taken (c.handleFrame frame).calls number call pdu) :
    c.pending.get? frame.transactionId = some number ∧ frame.pdu = pdu ∧
      ∃ e, c.calls[number]? = some e ∧ e.call = call := by
  rw [handleFrame] at hafter
  split at hafter
  · exact absurd hafter hbefore
  · next k hpending =>
    rcases taken_settle hafter with hold | ⟨rfl, hpdu, he⟩
    · exact absurd hold hbefore
    · exact ⟨hpending, Except.ok.inj hpdu, he⟩

theorem fields_handleFrame (c : ModbusTcpClient) (frame : MbapFrame) :
    (c.handleFrame frame).unitId = c.unitId ∧ (c.handleFrame frame).sent = c.sent ∧
      ∀ transactionId number, (c.handleFrame frame).pending.get? transactionId = some number →
        c.pending.get? transactionId = some number := by
  rw [handleFrame]
  split
  · exact ⟨rfl, rfl, fun _ _ h => h⟩
  · exact ⟨rfl, rfl, fun _ _ h => get?_of_erase h⟩

theorem fields_onData (c : ModbusTcpClient) (bytes : List UInt8) :
    (c.onData bytes).unitId = c.unitId ∧ (c.onData bytes).sent = c.sent ∧
      ∀ transactionId number, (c.onData bytes).pending.get? transactionId = some number →
        c.pending.get? transactionId = some number := by
  refine Machine.run_invariant
    (I := fun m => m.unitId = c.unitId ∧ m.sent = c.sent ∧ ∀ transactionId number,
      m.pending.get? transactionId = some number → c.pending.get? transactionId = some number)
    ?_ ?_ (run_onData c bytes)
  case refine_2 => exact ⟨rfl, rfl, fun _ _ h => h⟩
  rintro m frame m' ⟨hunit, hsent, hpending⟩ hstep
  obtain rfl := Option.some.inj hstep
  obtain ⟨hunit', hsent', hpending'⟩ := fields_handleFrame m frame
  exact ⟨hunit'.trans hunit, hsent'.trans hsent,
    fun transactionId number h => hpending transactionId number (hpending' transactionId number h)⟩

theorem failAll_induction {P : ModbusTcpClient → Prop} {c : ModbusTcpClient} (error : Thrown) (h : P c)
    (hsettle : ∀ c number, P c → P (c.settle number (.error error)))
    (hpending : ∀ c : ModbusTcpClient, P c → P { c with pending := .empty }) : P (c.failAll error) := by
  have hfold : ∀ (numbers : List Nat) (c : ModbusTcpClient), P c →
      P (numbers.foldl (fun c number => c.settle number (.error error)) c) := by
    intro numbers
    induction numbers with
    | nil => exact fun c h => h
    | cons number numbers ih => exact fun c h => ih _ (hsettle c number h)
  exact hpending _ (hfold _ c h)

theorem fields_failAll (c : ModbusTcpClient) (error : Thrown) :
    (c.failAll error).unitId = c.unitId ∧ (c.failAll error).sent = c.sent ∧
      (c.failAll error).pending = .empty :=
  failAll_induction (P := fun m => m.unitId = c.unitId ∧ m.sent = c.sent) error ⟨rfl, rfl⟩
    (fun _ _ h => h) (fun _ h => h) |>.elim fun hunit hsent => ⟨hunit, hsent, rfl⟩

theorem taken_failAll {c : ModbusTcpClient} {error : Thrown} {number : Nat} {call : ModbusCall}
    {pdu : List UInt8} (h : Exchange.Taken (c.failAll error).calls number call pdu) :
    Exchange.Taken c.calls number call pdu := by
  refine failAll_induction (P := fun m => Exchange.Taken m.calls number call pdu →
    Exchange.Taken c.calls number call pdu) error id (fun m k ih h => ?_) (fun m ih => ih) h
  rcases taken_settle h with hold | ⟨-, hok, -⟩
  · exact ih hold
  · cases hok

theorem unitId_step {c c' : ModbusTcpClient} {event : TcpEvent} (h : c.step event = some c') :
    c'.unitId = c.unitId := by
  cases event <;> simp only [step] at h
  case request call =>
    obtain rfl := Option.some.inj h
    rw [request]
    split
    · rfl
    · split <;> rfl
  case chunk bytes =>
    obtain rfl := Option.some.inj h
    exact (fields_onData c bytes).1
  case socketFailed | socketClosed | close =>
    obtain rfl := Option.some.inj h
    exact (fields_failAll c _).1
  all_goals
    split at h
    · obtain rfl := Option.some.inj h
      rfl
    · cases h

theorem linked_step {c c' : ModbusTcpClient} {event : TcpEvent} (h : c.step event = some c')
    (hlinked : c.Linked) : c'.Linked := by
  cases event <;> simp only [step] at h
  case request call =>
    obtain rfl := Option.some.inj h
    rw [request]
    split
    · exact hlinked
    · split
      · exact hlinked
      · intro transactionId number hget
        simp only at hget ⊢
        rw [InsertionMap.get?_insert] at hget
        split at hget
        · next heq =>
          exact ⟨_, List.mem_append_right _ (List.mem_singleton.mpr rfl), Option.some.inj hget, heq.symm⟩
        · obtain ⟨r, hr, hfields⟩ := hlinked transactionId number hget
          exact ⟨r, List.mem_append_left _ hr, hfields⟩
  case written | writeFailed =>
    split at h
    · obtain rfl := Option.some.inj h
      exact hlinked
    · cases h
  case chunk bytes =>
    obtain rfl := Option.some.inj h
    obtain ⟨-, hsent, hpending⟩ := fields_onData c bytes
    exact hlinked.of_le hsent hpending
  case timeout number transactionId =>
    split at h
    · obtain rfl := Option.some.inj h
      exact hlinked.of_le rfl fun _ _ hget => get?_of_erase hget
    · cases h
  case socketFailed | socketClosed | close =>
    obtain rfl := Option.some.inj h
    obtain ⟨-, hsent, hpending⟩ := fields_failAll c _
    refine hlinked.of_le hsent fun transactionId number hget => ?_
    simp only [hpending, InsertionMap.get?_empty] at hget
    cases hget

/-- **A response that a step brings** comes with a chunk. -/
theorem taken_step {c c' : ModbusTcpClient} {event : TcpEvent} {number : Nat} {call : ModbusCall}
    {pdu : List UInt8} (h : c.step event = some c')
    (hbefore : ¬ Exchange.Taken c.calls number call pdu)
    (hafter : Exchange.Taken c'.calls number call pdu) : ∃ bytes, event = .chunk bytes := by
  cases event <;> simp only [step] at h
  case request call =>
    obtain rfl := Option.some.inj h
    rw [request] at hafter
    split at hafter
    · exact absurd (hafter.of_append rfl) hbefore
    · split at hafter <;> exact absurd (hafter.of_append rfl) hbefore
  case written k =>
    split at h
    · obtain rfl := Option.some.inj h
      exact absurd (hafter.of_modify (fun _ => Exchange.call_write) fun _ => Exchange.response_write)
        hbefore
    · cases h
  case writeFailed k error =>
    split at h
    · obtain rfl := Option.some.inj h
      exact absurd (hafter.of_modify (fun _ => rfl) fun _ => rfl) hbefore
    · cases h
  case chunk bytes => exact ⟨bytes, rfl⟩
  case timeout k transactionId =>
    split at h
    · obtain rfl := Option.some.inj h
      rcases taken_settle hafter with hold | ⟨-, hok, -⟩
      · exact absurd hold hbefore
      · cases hok
    · cases h
  case socketFailed | socketClosed | close =>
    obtain rfl := Option.some.inj h
    exact absurd (taken_failAll hafter) hbefore

theorem allSound_step {c c' : ModbusTcpClient} {event : TcpEvent} (h : c.step event = some c')
    (hsound : Exchange.AllSound decode c.calls) : Exchange.AllSound decode c'.calls := by
  have hsettle : ∀ (m : ModbusTcpClient) number response, Exchange.AllSound decode m.calls →
      Exchange.AllSound decode (m.settle number response).calls := by
    intro m number response hm
    exact hm.modify fun e he => he.respond response
  cases event <;> simp only [step] at h
  case request call =>
    obtain rfl := Option.some.inj h
    rw [request]
    split
    · exact hsound.append (.refused call _)
    · split
      · exact hsound.append (.refused call _)
      · exact hsound.append (.begun call)
  case written k =>
    split at h
    · obtain rfl := Option.some.inj h
      exact hsound.modify fun e he => he.write
    · cases h
  case writeFailed k error =>
    split at h
    · obtain rfl := Option.some.inj h
      exact hsound.modify fun e _ => .fail error
    · cases h
  case chunk bytes =>
    obtain rfl := Option.some.inj h
    refine Machine.run_invariant (I := fun m => Exchange.AllSound decode m.calls) ?_ ?_
      (run_onData c bytes)
    case refine_2 => exact hsound
    intro m frame m' hm hstep
    obtain rfl := Option.some.inj hstep
    rw [handleFrame]
    split
    · exact hm
    · exact hsettle _ _ _ hm
  case timeout k transactionId =>
    split at h
    · obtain rfl := Option.some.inj h
      exact hsettle _ _ _ hsound
    · cases h
  case socketFailed | socketClosed | close =>
    obtain rfl := Option.some.inj h
    exact failAll_induction (P := fun m => Exchange.AllSound decode m.calls) _ hsound
      (fun m number hm => hsettle m number _ hm) fun m hm => hm

end ModbusTcpClient

end Pinout.Modbus
