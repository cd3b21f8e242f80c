import Pinout.Modbus.Transactions

/-! # Chunks of the TCP client

The TCP client takes its frames off a buffer, so a run does not depend on how the stream is cut: chunks that come one
right behind the other are as good as one (`run_joined`). -/

namespace Pinout.Modbus

open Foundation

namespace ModbusTcpClient

/-- The events with chunks that follow each other joined to one. -/
def joined : List TcpEvent → List TcpEvent
  | [] => []
  | .chunk bytes :: events => match joined events with
    | .chunk more :: rest => .chunk (bytes ++ more) :: rest
    | rest => .chunk bytes :: rest
  | event :: events => event :: joined events

variable (c : ModbusTcpClient)

/-- A frame is handled without a look at the buffer. -/
theorem handleFrame_buffer (frame : MbapFrame) (buffer : List UInt8) :
    { c with buffer := buffer }.handleFrame frame = { c.handleFrame frame with buffer := buffer } := by
  unfold handleFrame
  dsimp only
  split <;> rfl

theorem foldl_handleFrame_buffer (frames : List MbapFrame) (buffer : List UInt8) :
    frames.foldl handleFrame { c with buffer := buffer } = { frames.foldl handleFrame c with buffer := buffer } := by
  induction frames generalizing c with
  | nil => rfl
  | cons frame frames ih => rw [List.foldl_cons, List.foldl_cons, handleFrame_buffer, ih]

theorem failure_drain (bytes : List UInt8) : (mbapDecoder.drain bytes).failure = none := by
  have hdecode := mbapDecoder.decode_rest bytes
  cases hfailure : (mbapDecoder.drain bytes).failure with
  | none => rfl
  | some e =>
    rw [hfailure] at hdecode
    exact absurd hdecode (tryDecodeMbap_ne_failed _ e)

theorem onData_eq (bytes : List UInt8) :
    c.onData bytes =
      { (c.framesOf bytes).foldl handleFrame c with buffer := (mbapDecoder.drain (c.buffer ++ bytes)).rest } :=
  foldl_handleFrame_buffer c _ _

/-- Two chunks are as good as one. -/
theorem onData_append (bytes more : List UInt8) : c.onData (bytes ++ more) = (c.onData bytes).onData more := by
  have hdrain : mbapDecoder.drain (c.buffer ++ (bytes ++ more)) =
      { mbapDecoder.drain ((c.onData bytes).buffer ++ more) with
        packets := c.framesOf bytes ++ (c.onData bytes).framesOf more } := by
    rw [← List.append_assoc, mbapDecoder.drain_append, PacketDecoder.extend, failure_drain, framesOf, framesOf,
      buffer_onData]
  have hframes : ((c.onData bytes).framesOf more).foldl handleFrame (c.onData bytes) =
      { ((c.onData bytes).framesOf more).foldl handleFrame ((c.framesOf bytes).foldl handleFrame c) with
        buffer := (mbapDecoder.drain (c.buffer ++ bytes)).rest } := by
    rw [← foldl_handleFrame_buffer, ← onData_eq]
  rw [onData_eq, onData_eq (c.onData bytes), framesOf, hdrain, List.foldl_append, hframes]

/-- **Chunks do not matter.** Every run is the run with its chunks joined: how the stream is cut changes neither the
calls nor the requests nor the buffer. -/
theorem run_joined (events : List TcpEvent) : machine.run c (joined events) = machine.run c events := by
  induction events generalizing c with
  | nil => rfl
  | cons event events ih =>
    have hrest : machine.run c (event :: joined events) = machine.run c (event :: events) := by
      rw [Machine.run, Machine.run]
      cases machine.step c event with
      | none => rfl
      | some m => exact ih m
    cases event with
    | chunk bytes =>
      rw [← hrest, joined]
      split
      · next more rest heq =>
        rw [heq]
        show machine.run (c.onData (bytes ++ more)) rest = machine.run ((c.onData bytes).onData more) rest
        rw [onData_append]
      · rfl
    | _ => exact hrest

end ModbusTcpClient

end Pinout.Modbus
