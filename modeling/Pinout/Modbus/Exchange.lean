import Pinout.Foundation.Entries
import Pinout.Modbus.Simulator

/-! # Modbus calls and their answers

What both clients share: a call under way, which is settled once its request is written and its response
is there, and which bytes are a well-formed answer to a call, an exception, or neither. -/

namespace Pinout.Modbus

open Foundation

/-! ## Answers -/

/-- A well-formed answer to a call that reports no exception: the same function, and either as many
bytes as the call asked for, or the address of the write. -/
def ModbusCall.answeredBy (call : ModbusCall) (pdu : List UInt8) : Bool :=
  pdu.head? = some call.functionCode && match call with
    | readCoils _ quantity | readDiscreteInputs _ quantity =>
      byteAt pdu 1 = bytesFor quantity.toNat && pdu.length = 2 + bytesFor quantity.toNat
    | readHoldingRegisters _ quantity | readInputRegisters _ quantity =>
      byteAt pdu 1 = 2 * quantity.toNat && pdu.length = 2 + 2 * quantity.toNat
    | writeSingleCoil address _ | writeSingleRegister address _ | writeMultipleCoils address _
    | writeMultipleRegisters address _ =>
      5 ≤ pdu.length && wordAt pdu 1 = (address % 65536).toNat

def exceptionFor (functionCode : UInt8) (pdu : List UInt8) : Bool :=
  2 ≤ pdu.length && byteAt pdu 0 = functionCode.toNat + 0x80

/-- What is no answer to a function at all: nothing, half an exception, another function, or registers
without a byte count that is even. -/
def damagedFor (functionCode : UInt8) (pdu : List UInt8) : Bool :=
  pdu.isEmpty ||
    (byteAt pdu 0 = functionCode.toNat + 0x80 && pdu.length = 1) ||
    (byteAt pdu 0 ≠ functionCode.toNat + 0x80 && byteAt pdu 0 ≠ functionCode.toNat) ||
    ((functionCode = 0x03 || functionCode = 0x04) && byteAt pdu 0 = functionCode.toNat &&
      (pdu.length = 1 || byteAt pdu 1 % 2 = 1))

theorem ModbusCall.functionCode_cases (call : ModbusCall) :
    call.functionCode = 0x01 ∨ call.functionCode = 0x02 ∨ call.functionCode = 0x03 ∨
      call.functionCode = 0x04 ∨ call.functionCode = 0x05 ∨ call.functionCode = 0x06 ∨
      call.functionCode = 0x0F ∨ call.functionCode = 0x10 := by
  cases call <;> simp [ModbusCall.functionCode]

/-- **What a response decodes to**: an exception, when it is one; an error, when it is damaged; and
else something. -/
theorem decodePdu_spec (call : ModbusCall) (pdu : List UInt8) :
    match decodePdu pdu call.functionCode with
    | .error _ => damagedFor call.functionCode pdu = true ∧ exceptionFor call.functionCode pdu = false
    | .ok (.exception _ _) =>
      damagedFor call.functionCode pdu = false ∧ exceptionFor call.functionCode pdu = true
    | .ok _ => damagedFor call.functionCode pdu = false ∧ exceptionFor call.functionCode pdu = false := by
  have hcases := call.functionCode_cases
  generalize call.functionCode = functionCode at hcases ⊢
  match pdu with
  | [] => simp [decodePdu, damagedFor, exceptionFor]
  | head :: rest =>
    have hzero : byteAt (head :: rest) 0 = head.toNat := rfl
    by_cases hexception : head.toNat = functionCode.toNat + 0x80
    · cases rest <;> simp [decodePdu, damagedFor, exceptionFor, hzero, hexception]
    · by_cases hfunction : head = functionCode
      · subst hfunction
        rcases hcases with rfl | rfl | rfl | rfl | rfl | rfl | rfl | rfl <;>
          cases rest <;> simp [decodePdu, damagedFor, exceptionFor, byteAt]
        -- registers: the byte count has to be even
        all_goals
          rename_i byteCount data
          by_cases hodd : byteCount.toNat % 2 = 1
          · simp only [if_pos hodd]
            exact hodd
          · simp only [if_neg hodd]
            omega
      · have hne : ¬ head.toNat = functionCode.toNat := fun h => hfunction (UInt8.toNat_inj.mp h)
        simp [decodePdu, damagedFor, exceptionFor, hzero, hexception, hfunction, hne]

/-! ## Calls under way -/

structure Exchange where
  call : ModbusCall
  written : Bool := false
  response : Option (Except Thrown (List UInt8)) := none
  outcome : Option (Except Thrown CallResult) := none

namespace Exchange

/-- A call goes on when its request is written and its response is there. -/
def finish (decode : ModbusCall → List UInt8 → Except Thrown CallResult) (e : Exchange) : Exchange :=
  match e.outcome, e.written, e.response with
  | none, true, some (.ok bytes) => { e with outcome := some (decode e.call bytes) }
  | none, true, some (.error error) => { e with outcome := some (.error error) }
  | _, _, _ => e

def write (decode : ModbusCall → List UInt8 → Except Thrown CallResult) (e : Exchange) : Exchange :=
  finish decode { e with written := true }

/-- The promise of a response is settled; what comes later does not count. -/
def respond (decode : ModbusCall → List UInt8 → Except Thrown CallResult)
    (response : Except Thrown (List UInt8)) (e : Exchange) : Exchange :=
  match e.response with
  | some _ => e
  | none => finish decode { e with response := some response }

def fail (error : Thrown) (e : Exchange) : Exchange := { e with outcome := some (.error error) }

/-- A call that resolved did so with what its response decodes to. -/
def Sound (decode : ModbusCall → List UInt8 → Except Thrown CallResult) (e : Exchange) : Prop :=
  ∀ result, e.outcome = some (.ok result) →
    ∃ bytes, e.response = some (.ok bytes) ∧ decode e.call bytes = .ok result

section Steps

variable {decode : ModbusCall → List UInt8 → Except Thrown CallResult} {e : Exchange}

@[simp] theorem call_finish : (finish decode e).call = e.call := by
  rw [finish]
  split <;> rfl

@[simp] theorem response_finish : (finish decode e).response = e.response := by
  rw [finish]
  split <;> rfl

@[simp] theorem call_write : (write decode e).call = e.call := call_finish

@[simp] theorem response_write : (write decode e).response = e.response := response_finish

@[simp] theorem call_respond {response : Except Thrown (List UInt8)} :
    (respond decode response e).call = e.call := by
  rw [respond]
  split
  · rfl
  · exact call_finish

/-- A call that goes on resolves with what its response decodes to. -/
theorem Sound.finish (h : e.Sound decode) : (finish decode e).Sound decode := by
  intro result hresult
  rw [Exchange.finish] at hresult ⊢
  split at hresult
  · next bytes _ _ hresponse => exact ⟨bytes, hresponse, Option.some.inj hresult⟩
  · cases hresult
  · exact h result hresult

theorem Sound.write (h : e.Sound decode) : (write decode e).Sound decode := Sound.finish h

theorem Sound.respond (h : e.Sound decode) (response : Except Thrown (List UInt8)) :
    (respond decode response e).Sound decode := by
  rw [Exchange.respond]
  split
  · exact h
  · next hnone =>
    refine Sound.finish fun result hresult => ?_
    obtain ⟨bytes, hresponse, -⟩ := h result hresult
    rw [hnone] at hresponse
    cases hresponse

theorem Sound.fail (error : Thrown) : (fail error e).Sound decode := nofun

theorem Sound.begun (call : ModbusCall) : (⟨call, false, none, none⟩ : Exchange).Sound decode := nofun

theorem Sound.refused (call : ModbusCall) (error : Thrown) :
    (⟨call, false, none, some (.error error)⟩ : Exchange).Sound decode := nofun

end Steps

/-! ### Lists of calls -/

def Taken (calls : List Exchange) (number : Nat) (call : ModbusCall) (bytes : List UInt8) : Prop :=
  ∃ e, calls[number]? = some e ∧ e.call = call ∧ e.response = some (.ok bytes)

def AllSound (decode : ModbusCall → List UInt8 → Except Thrown CallResult) :
    List Exchange → Prop :=
  Entries fun _ e => e.Sound decode

section Lists

variable {decode : ModbusCall → List UInt8 → Except Thrown CallResult} {calls : List Exchange}
  {number k : Nat} {call : ModbusCall} {bytes : List UInt8}

theorem Taken.of_append {e : Exchange} (h : Taken (calls ++ [e]) number call bytes)
    (he : e.response = none) : Taken calls number call bytes := by
  obtain ⟨e', he', hcall, hresponse⟩ := h
  rcases getElem?_append_singleton_eq_some he' with hold | ⟨-, rfl⟩
  · exact ⟨e', hold, hcall, hresponse⟩
  · rw [he] at hresponse
    cases hresponse

/-- A response does not come from a change that leaves responses as they are. -/
theorem Taken.of_modify {f : Exchange → Exchange} (h : Taken (calls.modify k f) number call bytes)
    (hcall : ∀ e, (f e).call = e.call) (hresponse : ∀ e, (f e).response = e.response) :
    Taken calls number call bytes := by
  obtain ⟨e, he, hc, hr⟩ := h
  rcases getElem?_modify_eq_some he with ⟨-, hold⟩ | ⟨-, e', hold, rfl⟩
  · exact ⟨e, hold, hc, hr⟩
  · exact ⟨e', hold, (hcall e').symm.trans hc, (hresponse e').symm.trans hr⟩

theorem Taken.of_respond {response : Except Thrown (List UInt8)}
    (h : Taken (calls.modify k (respond decode response)) number call bytes) :
    Taken calls number call bytes ∨
      k = number ∧ response = .ok bytes ∧ ∃ e, calls[number]? = some e ∧ e.call = call := by
  obtain ⟨e, he, hcall, hresponse⟩ := h
  rcases getElem?_modify_eq_some he with ⟨-, hold⟩ | ⟨hk, e', hold, rfl⟩
  · exact .inl ⟨e, hold, hcall, hresponse⟩
  · rw [call_respond] at hcall
    rw [respond] at hresponse
    split at hresponse
    · exact .inl ⟨e', hold, hcall, hresponse⟩
    · rw [response_finish] at hresponse
      exact .inr ⟨hk, Option.some.inj hresponse, e', hold, hcall⟩

end Lists

end Exchange

end Pinout.Modbus
