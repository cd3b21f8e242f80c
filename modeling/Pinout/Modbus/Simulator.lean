import Pinout.Modbus.Wire

/-! # The simulated Modbus server

`SimulatedModbusServer` (`packages/protocols-modbus/src/simulator.ts`), and what a call of a TCP client
comes to when the server answers it: the bytes of the request go to the server, it handles every frame
it finds in them, and the client takes the first answer with its transaction id. -/

namespace Pinout.Modbus

open Foundation

/-- `SimulatedModbusServer`: its coils, inputs and registers, as its getters give them. -/
structure SimulatedModbusServer where
  coils : Int → Bool
  discreteInputs : Int → Bool
  holdingRegisters : Int → Int
  inputRegisters : Int → Int

namespace SimulatedModbusServer

/-- `new SimulatedModbusServer()`. -/
def blank : SimulatedModbusServer := ⟨fun _ => false, fun _ => false, fun _ => 0, fun _ => 0⟩

def setCoil (s : SimulatedModbusServer) (address : Int) (value : Bool) : SimulatedModbusServer :=
  { s with coils := fun a => if a = address then value else s.coils a }

def setHoldingRegister (s : SimulatedModbusServer) (address value : Int) : SimulatedModbusServer :=
  { s with holdingRegisters := fun a => if a = address then value % 65536 else s.holdingRegisters a }

def readBitsAnswer (functionCode : UInt8) (get : Int → Bool) (address quantity : Nat) : List UInt8 :=
  let byteCount := bytesFor quantity
  functionCode :: byteCount.toUInt8 ::
    setBits (fun i => get (address + i : Nat)) quantity (List.replicate byteCount 0)

def readRegistersAnswer (functionCode : UInt8) (get : Int → Int) (address quantity : Nat) :
    List UInt8 :=
  functionCode :: (quantity * 2).toUInt8 ::
    (List.range quantity).flatMap fun i => word (get (address + i : Nat))

def handlePdu (s : SimulatedModbusServer) (pdu : List UInt8) : SimulatedModbusServer × List UInt8 :=
  let address := wordAt pdu 1
  let quantity := wordAt pdu 3
  let byteCount := byteAt pdu 5
  let dataBytes := (pdu.take (6 + byteCount)).drop 6
  match pdu.head? with
  | some 0x01 => (s, readBitsAnswer 0x01 s.coils address quantity)
  | some 0x02 => (s, readBitsAnswer 0x02 s.discreteInputs address quantity)
  | some 0x03 => (s, readRegistersAnswer 0x03 s.holdingRegisters address quantity)
  | some 0x04 => (s, readRegistersAnswer 0x04 s.inputRegisters address quantity)
  | some 0x05 => (s.setCoil address (quantity = 0xFF00), pdu)
  | some 0x06 => (s.setHoldingRegister address quantity, pdu)
  | some 0x0F =>
    ((List.range quantity).foldl (fun s i => s.setCoil (address + i : Nat) (getBit dataBytes i)) s,
      pdu.take 6)
  | some 0x10 =>
    ((List.range quantity).foldl
      (fun s i => s.setHoldingRegister (address + i : Nat) (wordAt dataBytes (i * 2))) s, pdu.take 6)
  | some functionCode => (s, [0x80 + functionCode, 0x01])
  | none => (s, [0x00, 0x01])

/-- The frames that arrive at the server, one after the other, and the bytes it answers with. -/
def serve (s : SimulatedModbusServer) : List MbapFrame → SimulatedModbusServer × List UInt8
  | [] => (s, [])
  | frame :: frames =>
    let handled := s.handlePdu frame.pdu
    let rest := serve handled.1 frames
    (rest.1, encodeMbap frame.transactionId frame.unitId handled.2 ++ rest.2)

/-- The error of a request that is not answered. -/
def timeoutError (timeoutMs : JsString) : Thrown :=
  modbusError (js "MODBUS_TIMEOUT") (js "No Modbus response within " ++ timeoutMs ++ js "ms.")

/-- What a TCP client makes of the response to a call. -/
def settle (call : ModbusCall) (pdu : List UInt8) : Except Thrown CallResult :=
  match decodePdu pdu call.functionCode with
  | .error e => .error e
  | .ok (.exception functionCode exceptionCode) => .error (exceptionError functionCode exceptionCode)
  | .ok decoded => .ok (call.result decoded)

/-- A call of a connected TCP client that nothing else uses, until it is settled. -/
def call (s : SimulatedModbusServer) (transactionId : Nat) (unitId : UInt8) (call : ModbusCall) :
    SimulatedModbusServer × Except Thrown CallResult :=
  match call.request with
  | .error e => (s, .error e)
  | .ok pdu =>
    let served := s.serve (mbapDecoder.drain (encodeMbap transactionId unitId pdu)).packets
    match (mbapDecoder.drain served.2).packets.find? fun frame => frame.transactionId = transactionId with
    | none => (served.1, .error (timeoutError (js "5000")))
    | some answer => (served.1, settle call answer.pdu)

/-! ## What a call comes to -/

/-- **A call whose request and answer fit their frames** comes to what the server makes of the
request. -/
theorem call_eq {s : SimulatedModbusServer} {transactionId : Nat} {unitId : UInt8}
    {call : ModbusCall} {pdu : List UInt8} (htransaction : transactionId < 65536)
    (hrequest : call.request = .ok pdu) (hpdu : pdu.length + 1 < 65536)
    (hanswer : (s.handlePdu pdu).2.length + 1 < 65536) :
    s.call transactionId unitId call = ((s.handlePdu pdu).1, settle call (s.handlePdu pdu).2) := by
  have hdrain : ∀ answer : List UInt8, answer.length + 1 < 65536 →
      (mbapDecoder.drain (encodeMbap transactionId unitId answer)).packets =
        [⟨transactionId, 0, unitId, answer⟩] := by
    intro answer hlength
    have h : mbapDecoder.drain ([(⟨transactionId, 0, unitId, answer⟩ : MbapFrame)].flatMap
        MbapFrame.bytes) = ⟨[⟨transactionId, 0, unitId, answer⟩].map id, [], none⟩ := by
      refine PacketDecoder.drain_flatMap fun m hm => ?_
      obtain rfl := List.mem_singleton.mp hm
      exact MbapFrame.recognised ⟨htransaction, rfl, hlength⟩
    rw [List.flatMap_singleton, MbapFrame.bytes] at h
    rw [h]
    rfl
  have hserved : s.serve [⟨transactionId, 0, unitId, pdu⟩] =
      ((s.handlePdu pdu).1, encodeMbap transactionId unitId (s.handlePdu pdu).2) := by
    simp only [serve, List.append_nil]
  simp only [SimulatedModbusServer.call, hrequest, hdrain pdu hpdu, hserved, hdrain _ hanswer,
    List.find?_cons, decide_true]

/-! ### Reads -/

@[simp] theorem length_word (x : Int) : (word x).length = 2 := rfl

theorem length_flatMap_word {α : Type} (f : α → Int) (l : List α) :
    (l.flatMap fun a => word (f a)).length = 2 * l.length := by
  induction l with
  | nil => rfl
  | cons a l ih =>
    rw [List.flatMap_cons, List.length_append, length_word, ih, List.length_cons]
    omega

theorem wordAt_word (before after : List UInt8) (x : Int) :
    wordAt (before ++ (word x ++ after)) before.length = (x % 65536).toNat := by
  obtain ⟨high, low, hword, hread⟩ := exists_word x
  rw [hword, wordAt, byteAt, byteAt, ← hread, ofBigEndian_pair]
  simp

theorem wordAt_request (functionCode : UInt8) (address quantity : Int) (rest : List UInt8) :
    wordAt (functionCode :: (word address ++ (word quantity ++ rest))) 1 = (address % 65536).toNat ∧
      wordAt (functionCode :: (word address ++ (word quantity ++ rest))) 3 =
        (quantity % 65536).toNat := by
  constructor
  · exact wordAt_word [functionCode] _ address
  · obtain ⟨high, low, hword, -⟩ := exists_word address
    have h := wordAt_word (functionCode :: word address) rest quantity
    rw [hword] at h ⊢
    exact h

/-- The bits that are read of an answer: those of the server, and zeros up to the end of the last
byte. -/
theorem settle_readBits {call : ModbusCall} {functionCode : UInt8} {get : Int → Bool}
    {address quantity : Nat} (hcode : call.functionCode = functionCode)
    (hbits : functionCode = 0x01 ∨ functionCode = 0x02) (hquantity : quantity ≤ 2000) :
    settle call (readBitsAnswer functionCode get address quantity) =
      .ok (call.result (.bits ((List.range (bytesFor quantity * 8)).map fun i =>
        decide (i < quantity) && get (address + i : Nat)))) := by
  have hcount : (bytesFor quantity).toUInt8.toNat = bytesFor quantity := by
    rw [toNat_toUInt8_mod, bytesFor]
    omega
  have hbit : getBit (setBits (fun i => get (address + i : Nat)) quantity
      (List.replicate (bytesFor quantity) 0)) =
        fun i => decide (i < quantity) && get (address + i : Nat) := by
    funext i
    rw [getBit_setBits (by rw [List.length_replicate, bytesFor]; omega), getBit_replicate,
      Bool.or_false]
  have hne : ¬ functionCode.toNat = functionCode.toNat + 0x80 := by omega
  simp only [settle, readBitsAnswer, decodePdu, hcode, if_neg hne, if_pos hbits, ne_eq,
    not_true_eq_false, if_false, hcount, hbit]

/-- Words that are written one behind the other are read at even offsets. -/
theorem wordAt_flatMap_word {xs : List Int} {i : Nat} {x : Int} (h : xs[i]? = some x)
    (after : List UInt8) : wordAt (xs.flatMap word ++ after) (2 * i) = (x % 65536).toNat := by
  induction xs generalizing i with
  | nil => cases h
  | cons y xs ih =>
    rw [List.flatMap_cons, List.append_assoc]
    cases i with
    | zero =>
      obtain rfl := Option.some.inj h
      exact wordAt_word [] _ y
    | succ i =>
      obtain ⟨high, low, hword, -⟩ := exists_word y
      rw [← ih h, hword]
      rfl

/-- The registers that are read of an answer: the low 16 bits of those of the server. -/
theorem settle_readRegisters {call : ModbusCall} {functionCode : UInt8} {get : Int → Int}
    {address quantity : Nat} (hcode : call.functionCode = functionCode)
    (hregisters : functionCode = 0x03 ∨ functionCode = 0x04) (hquantity : quantity ≤ 125) :
    settle call (readRegistersAnswer functionCode get address quantity) =
      .ok (call.result (.registers ((List.range quantity).map fun i =>
        (get (address + i : Nat) % 65536).toNat))) := by
  have hcount : (quantity * 2).toUInt8.toNat = quantity * 2 := by
    rw [toNat_toUInt8_mod]
    omega
  have hwords : (List.range quantity).map (fun i => wordAt
      ((List.range quantity).flatMap fun i => word (get (address + i : Nat))) (2 * i)) =
        (List.range quantity).map fun i => (get (address + i : Nat) % 65536).toNat := by
    refine List.map_congr_left fun i hi => ?_
    have hget : ((List.range quantity).map fun i => get (address + i : Nat))[i]? =
        some (get (address + i : Nat)) := by
      rw [List.getElem?_map, List.getElem?_range (List.mem_range.mp hi)]
      rfl
    have h := wordAt_flatMap_word hget []
    rw [List.append_nil, List.flatMap_map] at h
    exact h
  have hne : ¬ functionCode.toNat = functionCode.toNat + 0x80 := by omega
  have hbits : ¬ (functionCode = 0x01 ∨ functionCode = 0x02) := by
    rcases hregisters with rfl | rfl <;> decide
  have heven : ¬ quantity * 2 % 2 ≠ 0 := by omega
  have hhalf : quantity * 2 / 2 = quantity := Nat.mul_div_cancel quantity (by decide)
  simp only [settle, readRegistersAnswer, decodePdu, hcode, if_neg hne, if_neg hbits,
    if_pos hregisters, ne_eq, not_true_eq_false, if_false, hcount, if_neg heven, hhalf, hwords]

theorem encodeReadRequest_eq_ok {functionCode : UInt8} {start quantity : Int} {pdu : List UInt8} :
    encodeReadRequest functionCode start quantity = .ok pdu ↔
      (1 ≤ quantity ∧
        quantity ≤ (if functionCode = 0x01 ∨ functionCode = 0x02 then 2000 else 125)) ∧
      pdu = functionCode :: (word start ++ word quantity) := by
  have hok : ∀ max : Int, ¬ (quantity < 1 ∨ quantity > max) ↔ 1 ≤ quantity ∧ quantity ≤ max := by
    omega
  simp only [encodeReadRequest, assertQuantity]
  generalize (if functionCode = 0x01 ∨ functionCode = 0x02 then (2000 : Int) else 125) = max
  rw [← hok]
  by_cases h : quantity < 1 ∨ quantity > max
  · simp [h]
  · simp [h, eq_comm]

/-- **A read of bits** yields what the server has behind the low 16 bits of the address, and zeros up
to the end of the last byte. -/
theorem call_readBits {s : SimulatedModbusServer} {transactionId : Nat} {unitId : UInt8}
    {call : ModbusCall} (functionCode : UInt8) (get : Int → Bool) {start quantity : Int}
    (htransaction : transactionId < 65536) (hcode : call.functionCode = functionCode)
    (hbits : functionCode = 0x01 ∨ functionCode = 0x02)
    (hrequest : call.request = encodeReadRequest functionCode start quantity)
    (hhandle : ∀ rest, s.handlePdu (functionCode :: rest) =
      (s, readBitsAnswer functionCode get (wordAt (functionCode :: rest) 1)
        (wordAt (functionCode :: rest) 3)))
    (hquantity : 1 ≤ quantity ∧ quantity ≤ 2000) :
    (s.call transactionId unitId call).2 = .ok (call.result (.bits
      ((List.range (bytesFor quantity.toNat * 8)).map fun i =>
        decide (i < quantity.toNat) && get ((start % 65536).toNat + i : Nat)))) := by
  have hok : call.request = .ok (functionCode :: (word start ++ word quantity)) := by
    rw [hrequest, encodeReadRequest_eq_ok, if_pos hbits]
    exact ⟨hquantity, rfl⟩
  obtain ⟨haddress, hword⟩ := wordAt_request functionCode start quantity []
  rw [List.append_nil] at haddress hword
  have hmod : (quantity % 65536).toNat = quantity.toNat := by omega
  have hanswer := hhandle (word start ++ word quantity)
  rw [haddress, hword, hmod] at hanswer
  rw [call_eq htransaction hok (by simp) ?_, hanswer]
  · exact settle_readBits hcode hbits (by omega)
  · rw [hanswer, readBitsAnswer]
    simp only [List.length_cons, length_setBits, List.length_replicate, bytesFor]
    omega

/-- **A read of registers** yields the low 16 bits of what the server has behind the low 16 bits of
the address. -/
theorem call_readRegisters {s : SimulatedModbusServer} {transactionId : Nat} {unitId : UInt8}
    {call : ModbusCall} (functionCode : UInt8) (get : Int → Int) {start quantity : Int}
    (htransaction : transactionId < 65536) (hcode : call.functionCode = functionCode)
    (hregisters : functionCode = 0x03 ∨ functionCode = 0x04)
    (hrequest : call.request = encodeReadRequest functionCode start quantity)
    (hhandle : ∀ rest, s.handlePdu (functionCode :: rest) =
      (s, readRegistersAnswer functionCode get (wordAt (functionCode :: rest) 1)
        (wordAt (functionCode :: rest) 3)))
    (hquantity : 1 ≤ quantity ∧ quantity ≤ 125) :
    (s.call transactionId unitId call).2 = .ok (call.result (.registers
      ((List.range quantity.toNat).map fun i =>
        (get ((start % 65536).toNat + i : Nat) % 65536).toNat))) := by
  have hbits : ¬ (functionCode = 0x01 ∨ functionCode = 0x02) := by
    rcases hregisters with rfl | rfl <;> decide
  have hok : call.request = .ok (functionCode :: (word start ++ word quantity)) := by
    rw [hrequest, encodeReadRequest_eq_ok, if_neg hbits]
    exact ⟨hquantity, rfl⟩
  obtain ⟨haddress, hword⟩ := wordAt_request functionCode start quantity []
  rw [List.append_nil] at haddress hword
  have hmod : (quantity % 65536).toNat = quantity.toNat := by omega
  have hanswer := hhandle (word start ++ word quantity)
  rw [haddress, hword, hmod] at hanswer
  rw [call_eq htransaction hok (by simp) ?_, hanswer]
  · exact settle_readRegisters hcode hregisters (by omega)
  · rw [hanswer, readRegistersAnswer]
    simp only [List.length_cons, length_flatMap_word, List.length_range]
    omega

/-! ### Writes -/

/-- What a server holds after it has written one value behind the other. -/
theorem read_foldl_write {β γ : Type} (write : SimulatedModbusServer → Int → β → SimulatedModbusServer)
    (read : SimulatedModbusServer → Int → γ) (store : β → γ)
    (h : ∀ s a v b, read (write s a v) b = if b = a then store v else read s b)
    (s : SimulatedModbusServer) (address n : Nat) (value : Nat → β) (j : Nat) :
    read ((List.range n).foldl (fun s i => write s (address + i : Nat) (value i)) s)
        (address + j : Nat) =
      if j < n then store (value j) else read s (address + j : Nat) := by
  induction n with
  | zero => rw [List.range_zero, List.foldl_nil, if_neg (Nat.not_lt_zero j)]
  | succ n ih =>
    rw [List.range_succ, List.foldl_append, List.foldl_cons, List.foldl_nil, h, ih]
    by_cases hj : j = n
    · subst hj
      rw [if_pos rfl, if_pos (Nat.lt_succ_self j)]
    · have hlt : j < n + 1 ↔ j < n := by omega
      rw [if_neg (by omega), if_congr hlt rfl rfl]

theorem fields_of_writeMultiple (functionCode : UInt8) (address : Int) {n : Nat} {data : List UInt8}
    (hn : n < 65536) (hdata : data.length < 256) :
    let pdu := functionCode :: (word address ++ (word n ++ data.length.toUInt8 :: data))
    wordAt pdu 1 = (address % 65536).toNat ∧ wordAt pdu 3 = n ∧
      (pdu.take (6 + byteAt pdu 5)).drop 6 = data ∧ ∃ rest, pdu.take 6 = functionCode :: rest ∧
        rest.length = 5 := by
  intro pdu
  have hcount : data.length.toUInt8.toNat = data.length := by
    rw [toNat_toUInt8_mod]
    omega
  obtain ⟨haddress, hword⟩ := wordAt_request functionCode address n (data.length.toUInt8 :: data)
  obtain ⟨a₁, a₀, ha, -⟩ := exists_word address
  obtain ⟨n₁, n₀, hn', -⟩ := exists_word n
  have hpdu : pdu = functionCode :: a₁ :: a₀ :: n₁ :: n₀ :: data.length.toUInt8 :: data := by
    show functionCode :: (word address ++ (word n ++ data.length.toUInt8 :: data)) = _
    rw [ha, hn']
    rfl
  have hbyte : byteAt pdu 5 = data.length := by
    rw [hpdu]
    exact hcount
  rw [toNat_emod hn] at hword
  refine ⟨haddress, hword, ?_, ?_⟩
  · rw [hbyte, hpdu, Nat.add_comm]
    simp
  · rw [hpdu]
    exact ⟨[a₁, a₀, n₁, n₀, data.length.toUInt8], rfl, rfl⟩

/-- A write is answered by its echo: the function code is all that is checked. -/
theorem settle_echo {call : ModbusCall} {functionCode : UInt8} (rest : List UInt8)
    (hcode : call.functionCode = functionCode)
    (hwrite : functionCode = 0x05 ∨ functionCode = 0x06 ∨ functionCode = 0x0F ∨
      functionCode = 0x10) :
    settle call (functionCode :: rest) = .ok (call.result (.echo functionCode
      (wordAt (functionCode :: rest) 1) (wordAt (functionCode :: rest) 3))) := by
  have hne : ¬ functionCode.toNat = functionCode.toNat + 0x80 := by omega
  have hbits : ¬ (functionCode = 0x01 ∨ functionCode = 0x02) := by
    rcases hwrite with rfl | rfl | rfl | rfl <;> decide
  have hregisters : ¬ (functionCode = 0x03 ∨ functionCode = 0x04) := by
    rcases hwrite with rfl | rfl | rfl | rfl <;> decide
  simp only [settle, decodePdu, hcode, if_neg hne, if_neg hbits, if_neg hregisters, if_pos hwrite,
    ne_eq, not_true_eq_false, if_false]

/-- A write whose request is answered by its first six bytes. -/
theorem call_write {s s' : SimulatedModbusServer} {transactionId : Nat} {unitId : UInt8}
    {call : ModbusCall} (functionCode : UInt8) {pdu rest : List UInt8}
    (htransaction : transactionId < 65536)
    (hcode : call.functionCode = functionCode)
    (hwrite : functionCode = 0x05 ∨ functionCode = 0x06 ∨ functionCode = 0x0F ∨
      functionCode = 0x10)
    (hrequest : call.request = .ok pdu) (hpdu : pdu.length + 1 < 65536)
    (hhandle : s.handlePdu pdu = (s', functionCode :: rest)) (hrest : rest.length = 5) :
    s.call transactionId unitId call = (s', .ok (call.result (.echo functionCode
      (wordAt (functionCode :: rest) 1) (wordAt (functionCode :: rest) 3)))) := by
  rw [call_eq htransaction hrequest hpdu (by simp [hhandle, hrest]), hhandle,
    settle_echo rest hcode hwrite]

/-- **A write of coils** that fit one frame is done, and the server holds them. -/
theorem call_writeMultipleCoils (s : SimulatedModbusServer) {transactionId : Nat} (unitId : UInt8)
    (address : Int) {values : List Bool} (htransaction : transactionId < 65536)
    (hlength : values.length ≤ 1968) :
    (s.call transactionId unitId (.writeMultipleCoils address values)).2 = .ok .done ∧
      ∀ i < values.length,
        (s.call transactionId unitId (.writeMultipleCoils address values)).1.coils
          ((address % 65536).toNat + i : Nat) = values[i]?.getD false := by
  have hroom : values.length ≤ 8 * bytesFor values.length := by
    rw [bytesFor]
    omega
  have hcount : bytesFor values.length < 256 := by
    rw [bytesFor]
    omega
  have hpdu : encodeWriteMultipleCoils address values = 0x0F :: (word address ++
      (word values.length ++ (bytesFor values.length).toUInt8 ::
        setBits (fun i => values[i]?.getD false) values.length
          (List.replicate (bytesFor values.length) 0))) := rfl
  generalize hdata : setBits (fun i => values[i]?.getD false) values.length
    (List.replicate (bytesFor values.length) 0) = data at hpdu
  have hdatalength : data.length = bytesFor values.length := by
    rw [← hdata, length_setBits, List.length_replicate]
  obtain ⟨haddress, hquantity, hbytes, answer, hanswer, hrest⟩ := fields_of_writeMultiple 0x0F address
    (by omega : values.length < 65536) (hdatalength ▸ hcount)
  rw [hdatalength, ← hpdu] at haddress hquantity hbytes hanswer
  have hhandle : s.handlePdu (encodeWriteMultipleCoils address values) =
      ((List.range values.length).foldl (fun s i => s.setCoil ((address % 65536).toNat + i : Nat)
        (getBit data i)) s, 0x0F :: answer) := by
    rw [← haddress, ← hbytes, ← hanswer, ← hquantity]
    rfl
  have hsize : (encodeWriteMultipleCoils address values).length + 1 < 65536 := by
    rw [hpdu]
    simp only [List.length_cons, List.length_append, length_word, hdatalength]
    omega
  rw [call_write 0x0F htransaction rfl (by decide) rfl hsize hhandle hrest]
  refine ⟨rfl, fun i hi => ?_⟩
  have hread := read_foldl_write setCoil coils id (fun s a v b => rfl) s (address % 65536).toNat
    values.length (getBit data) i
  rw [if_pos hi] at hread
  rw [hread, id, ← hdata, getBit_setBits (by rwa [List.length_replicate]), getBit_replicate,
    Bool.or_false, decide_eq_true hi, Bool.true_and]

/-- **A write of registers** that fit one frame is done, and the server holds their low 16 bits. -/
theorem call_writeMultipleRegisters (s : SimulatedModbusServer) {transactionId : Nat} (unitId : UInt8)
    (address : Int) {values : List Int} (htransaction : transactionId < 65536)
    (hlength : values.length ≤ 123) :
    (s.call transactionId unitId (.writeMultipleRegisters address values)).2 = .ok .done ∧
      ∀ (i : Nat) (value : Int), values[i]? = some value →
        (s.call transactionId unitId (.writeMultipleRegisters address values)).1.holdingRegisters
          ((address % 65536).toNat + i : Nat) = value % 65536 := by
  have hpdu : encodeWriteMultipleRegisters address values = 0x10 :: (word address ++
      (word values.length ++ (values.length * 2).toUInt8 :: values.flatMap word)) := rfl
  generalize hdata : values.flatMap word = data at hpdu
  have hdatalength : data.length = values.length * 2 := by
    rw [← hdata, length_flatMap_word, Nat.mul_comm]
  obtain ⟨haddress, hquantity, hbytes, answer, hanswer, hrest⟩ := fields_of_writeMultiple 0x10 address
    (by omega : values.length < 65536) (by omega : data.length < 256)
  rw [hdatalength, ← hpdu] at haddress hquantity hbytes hanswer
  have hhandle : s.handlePdu (encodeWriteMultipleRegisters address values) =
      ((List.range values.length).foldl (fun s i => s.setHoldingRegister
        ((address % 65536).toNat + i : Nat) (wordAt data (i * 2))) s, 0x10 :: answer) := by
    rw [← haddress, ← hbytes, ← hanswer, ← hquantity]
    rfl
  have hsize : (encodeWriteMultipleRegisters address values).length + 1 < 65536 := by
    rw [hpdu]
    simp only [List.length_cons, List.length_append, length_word, hdatalength]
    omega
  rw [call_write 0x10 htransaction rfl (by decide) rfl hsize hhandle hrest]
  refine ⟨rfl, fun i value hi => ?_⟩
  have hread := read_foldl_write setHoldingRegister holdingRegisters (· % 65536) (fun s a v b => rfl) s
    (address % 65536).toNat values.length (fun i => (wordAt data (i * 2) : Int)) i
  have hvalue := wordAt_flatMap_word hi []
  rw [List.append_nil, hdata, Nat.mul_comm] at hvalue
  rw [if_pos (List.getElem?_eq_some_iff.mp hi).1, hvalue] at hread
  rw [hread]
  omega

end SimulatedModbusServer

end Pinout.Modbus
