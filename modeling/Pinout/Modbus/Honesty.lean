import Pinout.Modbus.RtuClient
import Pinout.Modbus.TcpClient

/-! # Honest successes

A call that resolves should have been answered: a well-formed response to that very request arrived after
it was made. Neither client checks all of this. They are honest in runs where whatever arrives for a
request under way is either such a response, or something the decoders refuse; over TCP it may also be an
exception, which only that client turns into an error. -/

namespace Pinout.Modbus

open Foundation

/-! ## RTU frames that are answers, and frames that are refused -/

def rtuPdu (bytes : List UInt8) : List UInt8 := (bytes.take (bytes.length - 2)).drop 1

/-- A well-formed frame of the slave that answers a call. -/
def rtuAnswer (slaveAddress : UInt8) (call : ModbusCall) (bytes : List UInt8) : Bool :=
  bytes = encodeRtu slaveAddress (rtuPdu bytes) && call.answeredBy (rtuPdu bytes)

/-- A frame that is too short, comes from another slave, has a wrong check sum, or answers nothing. -/
def rtuDamaged (slaveAddress functionCode : UInt8) (bytes : List UInt8) : Bool :=
  bytes.length < 4 || byteAt bytes 0 ≠ slaveAddress.toNat ||
    byteAt bytes (bytes.length - 2) + byteAt bytes (bytes.length - 1) * 256 ≠
      crc16 (bytes.take (bytes.length - 2)) ||
    damagedFor functionCode (rtuPdu bytes)

theorem decodePdu_error_iff (call : ModbusCall) (pdu : List UInt8) :
    (∃ e, decodePdu pdu call.functionCode = .error e) ↔ damagedFor call.functionCode pdu = true := by
  have hspec := decodePdu_spec call pdu
  split at hspec
  · next e h => exact ⟨fun _ => hspec.1, fun _ => ⟨e, h⟩⟩
  · next h =>
    rw [hspec.1, h]
    exact ⟨nofun, nofun⟩
  · next h =>
    rw [hspec.1, h]
    exact ⟨nofun, nofun⟩

theorem decodeRtu_error_iff (slaveAddress : UInt8) (call : ModbusCall) (bytes : List UInt8) :
    (∃ e, decodeRtu bytes call.functionCode slaveAddress = .error e) ↔
      rtuDamaged slaveAddress call.functionCode bytes = true := by
  rw [decodeRtu, rtuDamaged]
  by_cases hshort : bytes.length < 4
  · simp [hshort]
  · by_cases haddress : byteAt bytes 0 = slaveAddress.toNat
    · by_cases hcrc : byteAt bytes (bytes.length - 2) + byteAt bytes (bytes.length - 1) * 256 =
          crc16 (bytes.take (bytes.length - 2))
      · simp only [hshort, haddress, hcrc, if_false, ne_eq, not_true_eq_false, decide_false,
          Bool.false_or]
        exact decodePdu_error_iff call (rtuPdu bytes)
      · simp [hshort, haddress, hcrc]
    · simp [hshort, haddress]

theorem exceptionFor_of_answeredBy {call : ModbusCall} {pdu : List UInt8}
    (h : call.answeredBy pdu = true) : exceptionFor call.functionCode pdu = false := by
  rw [ModbusCall.answeredBy.eq_def, Bool.and_eq_true, decide_eq_true_eq] at h
  have hbyte : byteAt pdu 0 = call.functionCode.toNat := by
    cases pdu with
    | nil => cases h.1
    | cons head rest =>
      rw [← Option.some.inj h.1]
      rfl
  rw [exceptionFor, hbyte, decide_eq_false (by omega : ¬ call.functionCode.toNat =
    call.functionCode.toNat + 0x80), Bool.and_false]

namespace ModbusRtuClient

/-- Every call that resolved took a well-formed answer to it, which arrived after it was made; and no call
that took an exception resolved. -/
structure Honest (start c : ModbusRtuClient) (events : List RtuEvent) : Prop where
  resolved : ∀ (number : Nat) (e : Exchange) (result : CallResult), c.calls[number]? = some e →
    e.outcome = some (.ok result) →
      ∃ bytes before after m, e.response = some (.ok bytes) ∧ c.decode e.call bytes = .ok result ∧
        events = before ++ .chunk bytes (some number) :: after ∧
        machine.run start before = some m ∧ number < m.calls.length ∧
        rtuAnswer c.slaveAddress e.call bytes = true
  rejected : ∀ (number : Nat) (e : Exchange) (bytes : List UInt8), c.calls[number]? = some e →
    e.response = some (.ok bytes) → exceptionFor e.call.functionCode (rtuPdu bytes) = true →
      ∀ result, e.outcome ≠ some (.ok result)

/-- What arrives for the request in flight is an answer to it, or damaged. -/
def careful (c : ModbusRtuClient) : RtuEvent → Bool
  | .chunk bytes answers => match c.inflight with
    | none => true
    | some number => match c.calls[number]? with
      | none => true
      | some e => (answers = some number && rtuAnswer c.slaveAddress e.call bytes) ||
          rtuDamaged c.slaveAddress e.call.functionCode bytes
  | _ => true

theorem slaveAddress_run {start c : ModbusRtuClient} {events : List RtuEvent}
    (hrun : machine.run start events = some c) : c.slaveAddress = start.slaveAddress := by
  refine Machine.run_invariant (I := fun m => m.slaveAddress = start.slaveAddress) ?_ rfl hrun
  exact fun m event m' hm hstep => (slaveAddress_step hstep).trans hm

theorem resolved_of_careful {start c : ModbusRtuClient} {events : List RtuEvent}
    (hstart : start.calls = []) (hrun : machine.run start events = some c)
    (hcareful : machine.Guarded (fun c event => c.careful event = true) start events) {number : Nat}
    {e : Exchange} {result : CallResult} (he : c.calls[number]? = some e)
    (hresult : e.outcome = some (.ok result)) :
    ∃ bytes before after m, e.response = some (.ok bytes) ∧ c.decode e.call bytes = .ok result ∧
      events = before ++ .chunk bytes (some number) :: after ∧ machine.run start before = some m ∧
      number < m.calls.length ∧ rtuAnswer c.slaveAddress e.call bytes = true := by
  have hsound : Exchange.AllSound c.decode c.calls := by
    refine Machine.run_invariant (I := fun m => Exchange.AllSound m.decode m.calls)
      (fun m event m' hm hstep => allSound_step hstep hm) (fun number e he => ?_) hrun
    rw [hstart] at he
    cases he
  obtain ⟨bytes, hresponse, hdecode⟩ := hsound number e he result hresult
  -- the step at which the call takes its response
  have hnot : ¬ Exchange.Taken start.calls number e.call bytes := by
    rintro ⟨e', he', -⟩
    rw [hstart] at he'
    cases he'
  obtain ⟨before, event, after, m, m', hevents, hm, hguard, hbefore, hstep, hafter⟩ :=
    Machine.exists_onset (Q := fun m => Exchange.Taken m.calls number e.call bytes) hcareful hrun hnot
      ⟨e, he, rfl, hresponse⟩
  obtain ⟨answers, e', rfl, hinflight, he', hcall⟩ := taken_step hstep hbefore hafter
  have haddress : m.slaveAddress = c.slaveAddress :=
    (slaveAddress_run hm).trans (slaveAddress_run hrun).symm
  simp only [careful, hinflight, he', hcall, haddress, Bool.or_eq_true, Bool.and_eq_true,
    decide_eq_true_eq] at hguard
  rcases hguard with ⟨hanswers, hanswer⟩ | hdamaged
  · subst hanswers
    exact ⟨bytes, before, after, m, hresponse, hdecode, hevents, hm,
      (List.getElem?_eq_some_iff.mp he').1, hanswer⟩
  · obtain ⟨error, herror⟩ := (decodeRtu_error_iff c.slaveAddress e.call bytes).mpr hdamaged
    rw [decode, herror] at hdecode
    cases hdecode

/-- **An RTU client is honest** in careful runs. -/
theorem honest_of_careful {start c : ModbusRtuClient} {events : List RtuEvent}
    (hstart : start.calls = []) (hrun : machine.run start events = some c)
    (hcareful : machine.Guarded (fun c event => c.careful event = true) start events) :
    Honest start c events where
  resolved _ _ _ he hresult := resolved_of_careful hstart hrun hcareful he hresult
  rejected number e bytes he hresponse hexception result hresult := by
    obtain ⟨bytes', -, -, -, hresponse', -, -, -, -, hanswer⟩ :=
      resolved_of_careful hstart hrun hcareful he hresult
    obtain rfl := Except.ok.inj (Option.some.inj (hresponse'.symm.trans hresponse))
    rw [rtuAnswer, Bool.and_eq_true] at hanswer
    rw [exceptionFor_of_answeredBy hanswer.2] at hexception
    cases hexception

end ModbusRtuClient

namespace ModbusTcpClient

/-- Every call that resolved took a well-formed answer to it: a frame with the transaction id of its
request, which arrived after it was made; and no call that took an exception resolved. -/
structure Honest (start c : ModbusTcpClient) (events : List TcpEvent) : Prop where
  resolved : ∀ (number : Nat) (e : Exchange) (result : CallResult), c.calls[number]? = some e →
    e.outcome = some (.ok result) →
      ∃ (frame : MbapFrame) (before : List TcpEvent) (bytes : List UInt8) (after : List TcpEvent)
        (m : ModbusTcpClient), e.response = some (.ok frame.pdu) ∧ decode e.call frame.pdu = .ok result ∧
        events = before ++ .chunk bytes :: after ∧ machine.run start before = some m ∧
        frame ∈ m.framesOf bytes ∧
        (∃ r ∈ m.sent, r.number = number ∧ r.transactionId = frame.transactionId) ∧
        frame.unitId = c.unitId ∧ e.call.answeredBy frame.pdu = true
  rejected : ∀ (number : Nat) (e : Exchange) (pdu : List UInt8), c.calls[number]? = some e →
    e.response = some (.ok pdu) → exceptionFor e.call.functionCode pdu = true →
      ∀ result, e.outcome ≠ some (.ok result)

/-- What a frame holds for the call that waits for its transaction id is an answer to it, an exception,
or damaged. -/
def carefulFrame (c : ModbusTcpClient) (frame : MbapFrame) : Bool :=
  match c.pending.get? frame.transactionId with
  | none => true
  | some number => match c.calls[number]? with
    | none => true
    | some e => (frame.unitId = c.unitId && e.call.answeredBy frame.pdu) ||
        exceptionFor e.call.functionCode frame.pdu || damagedFor e.call.functionCode frame.pdu

/-- Every frame that a chunk completes is such a frame when it is handled. -/
def Careful (c : ModbusTcpClient) : TcpEvent → Prop
  | .chunk bytes => dataMachine.Guarded (fun c frame => c.carefulFrame frame = true) (c.rebuffer bytes)
      (c.framesOf bytes)
  | _ => True

instance (c : ModbusTcpClient) : ∀ event, Decidable (c.Careful event)
  | .chunk bytes => inferInstanceAs (Decidable (dataMachine.Guarded _ (c.rebuffer bytes) _))
  | .request _ | .written _ | .writeFailed _ _ | .timeout _ _ | .socketFailed _ | .socketClosed
  | .close => isTrue trivial

/-- A call does not resolve with an exception, or with what is damaged. -/
theorem decode_ne_ok {call : ModbusCall} {pdu : List UInt8}
    (h : exceptionFor call.functionCode pdu = true ∨ damagedFor call.functionCode pdu = true)
    (result : CallResult) : decode call pdu ≠ .ok result := by
  intro hdecode
  rw [decode, SimulatedModbusServer.settle] at hdecode
  have hspec := decodePdu_spec call pdu
  split at hdecode
  · cases hdecode
  · cases hdecode
  · next decoded hne hok =>
    rw [hok] at hspec
    cases decoded with
    | exception functionCode exceptionCode => exact absurd rfl (hne functionCode exceptionCode)
    | bits _ | registers _ | echo _ _ _ =>
      obtain ⟨hdamaged, hexception⟩ := hspec
      rw [hdamaged, hexception] at h
      rcases h with h | h <;> cases h

theorem kept_by_dataMachine {c k : ModbusTcpClient} {frames : List MbapFrame}
    (hrun : dataMachine.run c frames = some k) (hlinked : c.Linked) :
    k.unitId = c.unitId ∧ k.sent = c.sent ∧ k.Linked := by
  refine Machine.run_invariant (I := fun k => k.unitId = c.unitId ∧ k.sent = c.sent ∧ k.Linked) ?_
    ⟨rfl, rfl, hlinked⟩ hrun
  rintro k frame k' ⟨hunit, hsent, hk⟩ hstep
  obtain rfl := Option.some.inj hstep
  obtain ⟨hunit', hsent', hpending⟩ := fields_handleFrame k frame
  exact ⟨hunit'.trans hunit, hsent'.trans hsent, hk.of_le hsent' hpending⟩

theorem kept_by_run {start c : ModbusTcpClient} {events : List TcpEvent}
    (hrun : machine.run start events = some c) (hlinked : start.Linked) :
    c.unitId = start.unitId ∧ c.Linked := by
  refine Machine.run_invariant (I := fun m => m.unitId = start.unitId ∧ m.Linked) ?_ ⟨rfl, hlinked⟩ hrun
  exact fun m event m' hm hstep => ⟨(unitId_step hstep).trans hm.1, linked_step hstep hm.2⟩

/-- **A response that a careful chunk brings** is a frame of the chunk, which is an answer, an exception,
or damaged. -/
theorem taken_onData {c : ModbusTcpClient} {bytes pdu : List UInt8} {number : Nat} {call : ModbusCall}
    (hlinked : c.Linked) (hcareful : c.Careful (.chunk bytes))
    (hbefore : ¬ Exchange.Taken c.calls number call pdu)
    (hafter : Exchange.Taken (c.onData bytes).calls number call pdu) :
    ∃ frame ∈ c.framesOf bytes, frame.pdu = pdu ∧
      (∃ r ∈ c.sent, r.number = number ∧ r.transactionId = frame.transactionId) ∧
      ((frame.unitId = c.unitId ∧ call.answeredBy pdu = true) ∨
        exceptionFor call.functionCode pdu = true ∨ damagedFor call.functionCode pdu = true) := by
  obtain ⟨handled, frame, rest, k, k', hframes, hk, hguard, hnot, hstep, htaken⟩ :=
    Machine.exists_onset (Q := fun m => Exchange.Taken m.calls number call pdu) hcareful
      (run_onData c bytes) hbefore hafter
  obtain rfl := Option.some.inj hstep
  obtain ⟨hpending, rfl, e, he, rfl⟩ := taken_handleFrame hnot htaken
  obtain ⟨hunit, hsent, hlinked⟩ := kept_by_dataMachine hk hlinked
  have hmem : frame ∈ c.framesOf bytes := by
    rw [hframes]
    exact List.mem_append_right _ (List.mem_cons_self ..)
  refine ⟨frame, hmem, rfl, ?_, ?_⟩
  · have hrequest := hlinked frame.transactionId number hpending
    rwa [hsent] at hrequest
  · have hunit : k.unitId = c.unitId := hunit
    simp only [carefulFrame, hpending, he, hunit, Bool.or_eq_true, Bool.and_eq_true,
      decide_eq_true_eq, or_assoc] at hguard
    exact hguard

theorem resolved_of_careful {start c : ModbusTcpClient} {events : List TcpEvent}
    (hcalls : start.calls = []) (hpending : start.pending = .empty)
    (hrun : machine.run start events = some c) (hcareful : machine.Guarded Careful start events)
    {number : Nat} {e : Exchange} {result : CallResult} (he : c.calls[number]? = some e)
    (hresult : e.outcome = some (.ok result)) :
    ∃ (frame : MbapFrame) (before : List TcpEvent) (bytes : List UInt8) (after : List TcpEvent)
      (m : ModbusTcpClient), e.response = some (.ok frame.pdu) ∧ decode e.call frame.pdu = .ok result ∧
      events = before ++ .chunk bytes :: after ∧ machine.run start before = some m ∧
      frame ∈ m.framesOf bytes ∧
      (∃ r ∈ m.sent, r.number = number ∧ r.transactionId = frame.transactionId) ∧
      frame.unitId = c.unitId ∧ e.call.answeredBy frame.pdu = true := by
  have hsound : Exchange.AllSound decode c.calls := by
    refine Machine.run_invariant (I := fun m => Exchange.AllSound decode m.calls)
      (fun m event m' hm hstep => allSound_step hstep hm) (fun number e he => ?_) hrun
    rw [hcalls] at he
    cases he
  obtain ⟨pdu, hresponse, hdecode⟩ := hsound number e he result hresult
  have hlinked : start.Linked := by
    intro transactionId number h
    rw [hpending] at h
    cases h
  -- the step at which the call takes its response
  have hnot : ¬ Exchange.Taken start.calls number e.call pdu := by
    rintro ⟨e', he', -⟩
    rw [hcalls] at he'
    cases he'
  obtain ⟨before, event, after, m, m', hevents, hm, hguard, hbefore, hstep, hafter⟩ :=
    Machine.exists_onset (Q := fun m => Exchange.Taken m.calls number e.call pdu) hcareful hrun hnot
      ⟨e, he, rfl, hresponse⟩
  obtain ⟨bytes, rfl⟩ := taken_step hstep hbefore hafter
  obtain rfl := Option.some.inj hstep
  obtain ⟨hunit, hlinkedm⟩ := kept_by_run hm hlinked
  obtain ⟨frame, hmem, rfl, hrequest, hanswer⟩ := taken_onData hlinkedm hguard hbefore hafter
  rcases hanswer with ⟨hframe, hanswer⟩ | hrefused
  · refine ⟨frame, before, bytes, after, m, hresponse, hdecode, hevents, hm, hmem, hrequest, ?_, hanswer⟩
    rw [hframe, hunit, (kept_by_run hrun hlinked).1]
  · exact absurd hdecode (decode_ne_ok hrefused result)

/-- **A TCP client is honest** in careful runs. -/
theorem honest_of_careful {start c : ModbusTcpClient} {events : List TcpEvent}
    (hcalls : start.calls = []) (hpending : start.pending = .empty)
    (hrun : machine.run start events = some c) (hcareful : machine.Guarded Careful start events) :
    Honest start c events where
  resolved _ _ _ he hresult := resolved_of_careful hcalls hpending hrun hcareful he hresult
  rejected number e pdu he hresponse hexception result hresult := by
    obtain ⟨frame, -, -, -, -, hresponse', hdecode, -⟩ :=
      resolved_of_careful hcalls hpending hrun hcareful he hresult
    obtain rfl := Except.ok.inj (Option.some.inj (hresponse'.symm.trans hresponse))
    exact decode_ne_ok (.inl hexception) result hdecode

end ModbusTcpClient

/-! ## Both clients -/

/-- **Modbus successes are honest** in runs in which whatever arrives for a request under way is a
well-formed answer to it, or refused by the decoders, or, over TCP, an exception. -/
theorem honest_when_careful (slaveAddress : Int) (unitId : UInt8) (timeoutMs : JsString) :
    (∀ (start c : ModbusRtuClient) (events : List RtuEvent), ModbusRtuClient.new slaveAddress timeoutMs = .ok start →
      ModbusRtuClient.machine.run start events = some c →
      ModbusRtuClient.machine.Guarded (fun c event => c.careful event = true) start events →
      ModbusRtuClient.Honest start c events) ∧
    (∀ (c : ModbusTcpClient) (events : List TcpEvent),
      ModbusTcpClient.machine.run { unitId, timeoutMs } events = some c →
      ModbusTcpClient.machine.Guarded ModbusTcpClient.Careful { unitId, timeoutMs } events →
      ModbusTcpClient.Honest { unitId, timeoutMs } c events) := by
  constructor
  · intro start c events hnew hrun hcareful
    have hcalls : start.calls = [] := by
      rw [ModbusRtuClient.new] at hnew
      split at hnew
      · cases hnew
      · obtain rfl := Except.ok.inj hnew
        rfl
    exact ModbusRtuClient.honest_of_careful hcalls hrun hcareful
  · intro c events hrun hcareful
    exact ModbusTcpClient.honest_of_careful rfl rfl hrun hcareful

/-- A register is written over each of the two. -/
theorem honest_when_careful_register :
    (∃ start c : ModbusRtuClient, ModbusRtuClient.new 1 (js "5000") = .ok start ∧
      (c.calls.map fun e => e.outcome.any Except.isOk) = [true] ∧
      ModbusRtuClient.Honest start c [.request (.writeSingleRegister 5 7), .written 0,
        .chunk (encodeRtu 1 [0x06, 0x00, 0x05, 0x00, 0x07]) (some 0)]) ∧
    (∃ c : ModbusTcpClient, (c.calls.map fun e => e.outcome.any Except.isOk) = [true] ∧
      ModbusTcpClient.Honest { unitId := 1, timeoutMs := js "5000" } c
        [.request (.writeSingleRegister 5 7), .written 0,
          .chunk (encodeMbap 0 1 [0x06, 0x00, 0x05, 0x00, 0x07])]) := by
  constructor
  · refine ⟨_, _, rfl, ?_, (honest_when_careful 1 1 (js "5000")).1 _ _ _ rfl rfl (by decide +kernel)⟩
    decide +kernel
  · refine ⟨_, ?_, (honest_when_careful 1 1 (js "5000")).2 _ _ rfl (by decide +kernel)⟩
    decide +kernel

/-- An exception resolves a write over a serial line. -/
theorem not_honest :
    ∃ start c : ModbusRtuClient, ModbusRtuClient.new 1 (js "5000") = .ok start ∧
      ModbusRtuClient.machine.run start [.request (.writeSingleRegister 5 7), .written 0,
        .chunk (encodeRtu 1 [0x86, 0x02]) (some 0)] = some c ∧
      ¬ ModbusRtuClient.Honest start c [.request (.writeSingleRegister 5 7), .written 0,
        .chunk (encodeRtu 1 [0x86, 0x02]) (some 0)] := by
  refine ⟨_, _, rfl, rfl, fun h => ?_⟩
  exact h.rejected 0 _ _ rfl rfl (by decide +kernel) .done rfl

end Pinout.Modbus
