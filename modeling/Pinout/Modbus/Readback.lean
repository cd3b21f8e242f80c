import Pinout.Modbus.Simulator

/-! # What the simulated server gives back

Reads and writes against the simulated server. A read of bits returns whole bytes, so it returns what
was asked for exactly when the quantity is a multiple of eight; a write of several values is never
refused by the client, however many they are and however large. -/

namespace Pinout.Modbus

open Foundation

namespace SimulatedModbusServer

/-- Every read of bits that the client accepts returns the server's values from `start` on. -/
def ReadsBits (s : SimulatedModbusServer) (call : ModbusCall) (get : Int → Bool)
    (start quantity : Int) : Prop :=
  ∀ (transactionId : Fin 65536) (unitId : UInt8) (pdu : List UInt8), call.request = .ok pdu →
    (s.call transactionId unitId call).2 =
      .ok (.bits ((List.range quantity.toNat).map fun i : Nat => get (start + i)))

/-- Every read of registers that the client accepts returns the server's values from `start` on. -/
def ReadsRegisters (s : SimulatedModbusServer) (call : ModbusCall) (get : Int → Int)
    (start quantity : Int) : Prop :=
  ∀ (transactionId : Fin 65536) (unitId : UInt8) (pdu : List UInt8), call.request = .ok pdu →
    ∃ values : List Nat, (s.call transactionId unitId call).2 = .ok (.registers values) ∧
      values.map Int.ofNat = (List.range quantity.toNat).map fun i : Nat => get (start + i)

/-- Coils that fit one request are read back as they were written; a list that does not fit is refused
before anything is sent. -/
def KeepsCoils (s : SimulatedModbusServer) (address : Int) (values : List Bool) : Prop :=
  if values.length ≤ 1968 then
    ∀ (transactionId next : Fin 65536) (unitId : UInt8),
      let written := s.call transactionId unitId (.writeMultipleCoils address values)
      written.2 = .ok .done ∧
        (written.1.call next unitId (.readCoils address values.length)).2 = .ok (.bits values)
  else ∃ e, (ModbusCall.writeMultipleCoils address values).request = .error e

/-- Registers that fit one request are read back as they were written; a list that does not fit, or
holds a value that does not, is refused before anything is sent. -/
def KeepsRegisters (s : SimulatedModbusServer) (address : Int) (values : List Int) : Prop :=
  if values.length ≤ 123 ∧ ∀ value ∈ values, 0 ≤ value ∧ value ≤ 65535 then
    ∀ (transactionId next : Fin 65536) (unitId : UInt8),
      let written := s.call transactionId unitId (.writeMultipleRegisters address values)
      written.2 = .ok .done ∧ ∃ read : List Nat,
        (written.1.call next unitId (.readHoldingRegisters address values.length)).2 =
          .ok (.registers read) ∧ read.map Int.ofNat = values
  else ∃ e, (ModbusCall.writeMultipleRegisters address values).request = .error e

/-! ## Reads -/

/-- Whole bytes of bits are the bits that were asked for exactly when these are whole bytes. -/
theorem map_bits_eq_iff {f g : Nat → Bool} {n : Nat} :
    ((List.range (bytesFor n * 8)).map fun i => decide (i < n) && f i) = (List.range n).map g ↔
      n % 8 = 0 ∧ ∀ i < n, f i = g i := by
  have hlength : bytesFor n * 8 = n ↔ n % 8 = 0 := by
    rw [bytesFor]
    omega
  constructor
  · intro h
    have hn : bytesFor n * 8 = n := by
      have h := congrArg List.length h
      rwa [List.length_map, List.length_map, List.length_range, List.length_range] at h
    rw [hn, List.map_inj_left] at h
    refine ⟨hlength.mp hn, fun i hi => ?_⟩
    have h := h i (List.mem_range.mpr hi)
    rwa [decide_eq_true hi, Bool.true_and] at h
  · rintro ⟨hn, h⟩
    rw [hlength.mpr hn]
    refine List.map_congr_left fun i hi => ?_
    have hi := List.mem_range.mp hi
    rw [decide_eq_true hi, Bool.true_and, h i hi]

/-- The quantity is a multiple of eight, and the server's values from `start` on are those from its low
16 bits on, as they are for every address of 16 bits. -/
def BitsInReach (get : Int → Bool) (start quantity : Int) : Prop :=
  1 ≤ quantity → quantity ≤ 2000 →
    quantity % 8 = 0 ∧ ∀ i < quantity.toNat, get (start % 65536 + i) = get (start + i)

/-- The low 16 bits of the server's values from the low 16 bits of `start` on are its values from `start`
on, as they are for every address of 16 bits when the values have 16 bits. -/
def RegistersInReach (get : Int → Int) (start quantity : Int) : Prop :=
  1 ≤ quantity → quantity ≤ 125 →
    ∀ i < quantity.toNat, get (start % 65536 + i) % 65536 = get (start + i)

theorem address_eq (start : Int) (i : Nat) :
    (((start % 65536).toNat + i : Nat) : Int) = start % 65536 + i := by omega

/-- **Reads of bits** are faithful exactly when the bits are in reach. -/
theorem readsBits_iff {s : SimulatedModbusServer} (functionCode : UInt8) {call : ModbusCall}
    {get : Int → Bool} {start quantity : Int} (hcode : call.functionCode = functionCode)
    (hbits : functionCode = 0x01 ∨ functionCode = 0x02)
    (hrequest : call.request = encodeReadRequest functionCode start quantity)
    (hhandle : ∀ rest, s.handlePdu (functionCode :: rest) =
      (s, readBitsAnswer functionCode get (wordAt (functionCode :: rest) 1)
        (wordAt (functionCode :: rest) 3)))
    (hresult : ∀ values, call.result (.bits values) = .bits values) :
    s.ReadsBits call get start quantity ↔ BitsInReach get start quantity := by
  have hcall : ∀ (transactionId : Fin 65536) (unitId : UInt8), 1 ≤ quantity ∧ quantity ≤ 2000 →
      ((s.call transactionId unitId call).2 =
          .ok (.bits ((List.range quantity.toNat).map fun i : Nat => get (start + i))) ↔
        quantity % 8 = 0 ∧ ∀ i < quantity.toNat, get (start % 65536 + i) = get (start + i)) := by
    intro transactionId unitId hquantity
    have hmod : quantity % 8 = 0 ↔ quantity.toNat % 8 = 0 := by omega
    rw [call_readBits functionCode get transactionId.isLt hcode hbits hrequest hhandle hquantity, hresult,
      Except.ok.injEq, CallResult.bits.injEq, map_bits_eq_iff, hmod]
    simp only [address_eq]
  have haccepted : ∀ pdu, call.request = .ok pdu → 1 ≤ quantity ∧ quantity ≤ 2000 := by
    intro pdu h
    rw [hrequest, encodeReadRequest_eq_ok, if_pos hbits] at h
    exact h.1
  constructor
  · intro h hpos hmax
    have hok : call.request = .ok (functionCode :: (word start ++ word quantity)) := by
      rw [hrequest, encodeReadRequest_eq_ok, if_pos hbits]
      exact ⟨⟨hpos, hmax⟩, rfl⟩
    exact (hcall 0 0 ⟨hpos, hmax⟩).mp (h 0 0 _ hok)
  · intro h transactionId unitId pdu hpdu
    have hquantity := haccepted pdu hpdu
    exact (hcall transactionId unitId hquantity).mpr (h hquantity.1 hquantity.2)

/-- **Reads of registers** are faithful exactly when the registers are in reach. -/
theorem readsRegisters_iff {s : SimulatedModbusServer} (functionCode : UInt8) {call : ModbusCall}
    {get : Int → Int} {start quantity : Int} (hcode : call.functionCode = functionCode)
    (hregisters : functionCode = 0x03 ∨ functionCode = 0x04)
    (hrequest : call.request = encodeReadRequest functionCode start quantity)
    (hhandle : ∀ rest, s.handlePdu (functionCode :: rest) =
      (s, readRegistersAnswer functionCode get (wordAt (functionCode :: rest) 1)
        (wordAt (functionCode :: rest) 3)))
    (hresult : ∀ values, call.result (.registers values) = .registers values) :
    s.ReadsRegisters call get start quantity ↔ RegistersInReach get start quantity := by
  have hbits : ¬ (functionCode = 0x01 ∨ functionCode = 0x02) := by
    rcases hregisters with rfl | rfl <;> decide
  have hcall : ∀ (transactionId : Fin 65536) (unitId : UInt8), 1 ≤ quantity ∧ quantity ≤ 125 →
      ((∃ values : List Nat, (s.call transactionId unitId call).2 = .ok (.registers values) ∧
          values.map Int.ofNat = (List.range quantity.toNat).map fun i : Nat => get (start + i)) ↔
        ∀ i < quantity.toNat, get (start % 65536 + i) % 65536 = get (start + i)) := by
    intro transactionId unitId hquantity
    rw [call_readRegisters functionCode get transactionId.isLt hcode hregisters hrequest hhandle hquantity, hresult]
    simp only [Except.ok.injEq, CallResult.registers.injEq, exists_eq_left', List.map_map,
      List.map_inj_left, List.mem_range, Function.comp_apply, address_eq]
    refine forall_congr' fun i => imp_congr_right fun _ => ?_
    rw [Int.ofNat_eq_natCast, Int.toNat_of_nonneg (Int.emod_nonneg _ (by decide))]
  have haccepted : ∀ pdu, call.request = .ok pdu → 1 ≤ quantity ∧ quantity ≤ 125 := by
    intro pdu h
    rw [hrequest, encodeReadRequest_eq_ok, if_neg hbits] at h
    exact h.1
  constructor
  · intro h hpos hmax
    have hok : call.request = .ok (functionCode :: (word start ++ word quantity)) := by
      rw [hrequest, encodeReadRequest_eq_ok, if_neg hbits]
      exact ⟨⟨hpos, hmax⟩, rfl⟩
    exact (hcall 0 0 ⟨hpos, hmax⟩).mp (h 0 0 _ hok)
  · intro h transactionId unitId pdu hpdu
    have hquantity := haccepted pdu hpdu
    exact (hcall transactionId unitId hquantity).mpr (h hquantity.1 hquantity.2)

/-! ## Writes -/

theorem call_of_refused {s : SimulatedModbusServer} {transactionId : Nat} {unitId : UInt8}
    {call : ModbusCall} {e : Thrown} (h : call.request = .error e) :
    s.call transactionId unitId call = (s, .error e) := by
  rw [SimulatedModbusServer.call, h]

theorem encodeReadRequest_zero (functionCode : UInt8) (start : Int) :
    ∃ e, encodeReadRequest functionCode start 0 = .error e := by
  cases h : encodeReadRequest functionCode start 0 with
  | error e => exact ⟨e, rfl⟩
  | ok pdu =>
    have hquantity := (encodeReadRequest_eq_ok.mp h).1.1
    omega

/-- **Coils are kept** exactly when there are some, they fit one request, and they are whole bytes. -/
theorem keepsCoils_iff {s : SimulatedModbusServer} {address : Int} {values : List Bool} :
    s.KeepsCoils address values ↔
      1 ≤ values.length ∧ values.length ≤ 1968 ∧ values.length % 8 = 0 := by
  rw [KeepsCoils]
  by_cases hlength : values.length ≤ 1968
  · rw [if_pos hlength]
    have hvalues : (List.range values.length).map (fun i => values[i]?.getD false) = values := by
      refine List.ext_getElem? fun i => ?_
      rw [List.getElem?_map]
      by_cases hi : i < values.length
      · simp [hi]
      · rw [List.getElem?_eq_none (by rw [List.length_range]; omega),
          List.getElem?_eq_none (by omega)]
        rfl
    have hread : 1 ≤ values.length → ∀ (transactionId next : Fin 65536) (unitId : UInt8),
        (((s.call transactionId unitId (.writeMultipleCoils address values)).1.call next unitId
          (.readCoils address values.length)).2 = .ok (.bits values) ↔ values.length % 8 = 0) := by
      intro hpos transactionId next unitId
      obtain ⟨-, hcoils⟩ := call_writeMultipleCoils s unitId address transactionId.isLt hlength
      generalize (s.call transactionId unitId (.writeMultipleCoils address values)).1 = written at hcoils
      have hcall : (written.call next unitId (.readCoils address values.length)).2 = _ :=
        call_readBits 0x01 written.coils next.isLt rfl (by decide) rfl (fun rest => rfl) (by omega)
      rw [hcall, Int.toNat_natCast]
      simp only [ModbusCall.result, Except.ok.injEq, CallResult.bits.injEq]
      refine (Eq.congr_right hvalues.symm).trans (map_bits_eq_iff.trans ?_)
      exact ⟨And.left, fun h => ⟨h, hcoils⟩⟩
    constructor
    · intro h
      by_cases hpos : 1 ≤ values.length
      · exact ⟨hpos, hlength, (hread hpos 0 0 0).mp (h 0 0 0).2⟩
      · obtain ⟨e, he⟩ := encodeReadRequest_zero 0x01 address
        have hzero : (values.length : Int) = 0 := by omega
        have hrefused : (ModbusCall.readCoils address values.length).request = .error e := by
          rw [hzero]
          exact he
        have hread := (h 0 0 0).2
        rw [call_of_refused hrefused] at hread
        cases hread
    · rintro ⟨hpos, -, hbytes⟩ transactionId next unitId
      exact ⟨(call_writeMultipleCoils s unitId address transactionId.isLt hlength).1,
        (hread hpos transactionId next unitId).mpr hbytes⟩
  · rw [if_neg hlength]
    constructor
    · rintro ⟨e, he⟩
      cases he
    · intro h
      exact absurd h.2.1 hlength

/-- **Registers are kept** exactly when there are some, they fit one request, and so do their values. -/
theorem keepsRegisters_iff {s : SimulatedModbusServer} {address : Int} {values : List Int} :
    s.KeepsRegisters address values ↔
      1 ≤ values.length ∧ values.length ≤ 123 ∧ ∀ value ∈ values, 0 ≤ value ∧ value ≤ 65535 := by
  rw [KeepsRegisters]
  by_cases hfits : values.length ≤ 123 ∧ ∀ value ∈ values, 0 ≤ value ∧ value ≤ 65535
  · rw [if_pos hfits]
    obtain ⟨hlength, hrange⟩ := hfits
    have hread : 1 ≤ values.length → ∀ (transactionId next : Fin 65536) (unitId : UInt8),
        ∃ read : List Nat,
          ((s.call transactionId unitId (.writeMultipleRegisters address values)).1.call next unitId
            (.readHoldingRegisters address values.length)).2 = .ok (.registers read) ∧
          read.map Int.ofNat = values := by
      intro hpos transactionId next unitId
      obtain ⟨-, hregisters⟩ :=
        call_writeMultipleRegisters s unitId address transactionId.isLt hlength
      generalize (s.call transactionId unitId (.writeMultipleRegisters address values)).1 = written
        at hregisters
      have hcall : (written.call next unitId (.readHoldingRegisters address values.length)).2 = _ :=
        call_readRegisters 0x03 written.holdingRegisters next.isLt rfl (by decide) rfl (fun rest => rfl)
          (by omega)
      refine ⟨_, hcall, List.ext_getElem? fun i => ?_⟩
      rw [Int.toNat_natCast, List.map_map, List.getElem?_map]
      by_cases hi : i < values.length
      · have hget := List.getElem?_eq_getElem hi
        have hvalue := hrange _ (List.mem_of_getElem? hget)
        rw [List.getElem?_range hi, Option.map_some, Function.comp_apply, hregisters i _ hget, hget,
          Int.ofNat_eq_natCast]
        exact congrArg some (by omega)
      · rw [List.getElem?_eq_none (by rw [List.length_range]; omega),
          List.getElem?_eq_none (by omega)]
        rfl
    constructor
    · intro h
      refine ⟨?_, hlength, hrange⟩
      by_contra hpos
      obtain ⟨e, he⟩ := encodeReadRequest_zero 0x03 address
      have hzero : (values.length : Int) = 0 := by omega
      have hrefused : (ModbusCall.readHoldingRegisters address values.length).request = .error e := by
        rw [hzero]
        exact he
      obtain ⟨-, read, hread, -⟩ := h 0 0 0
      rw [call_of_refused hrefused] at hread
      cases hread
    · rintro ⟨hpos, -, -⟩ transactionId next unitId
      exact ⟨(call_writeMultipleRegisters s unitId address transactionId.isLt hlength).1,
        hread hpos transactionId next unitId⟩
  · rw [if_neg hfits]
    constructor
    · rintro ⟨e, he⟩
      cases he
    · intro h
      exact absurd h.2 hfits

/-! ## The calls of a client -/

/-- **When reads and writes are faithful.** Reads are, when what they ask for is in reach; writes of
several values are, when there are some values, they fit one request, and coils are whole bytes; a write
of a single register is refused exactly when its value does not fit. -/
theorem faithful_iff (s : SimulatedModbusServer) (start quantity address value : Int)
    (bits : List Bool) (registers : List Int) :
    (s.ReadsBits (.readCoils start quantity) s.coils start quantity ↔
        BitsInReach s.coils start quantity) ∧
      (s.ReadsBits (.readDiscreteInputs start quantity) s.discreteInputs start quantity ↔
        BitsInReach s.discreteInputs start quantity) ∧
      (s.ReadsRegisters (.readHoldingRegisters start quantity) s.holdingRegisters start quantity ↔
        RegistersInReach s.holdingRegisters start quantity) ∧
      (s.ReadsRegisters (.readInputRegisters start quantity) s.inputRegisters start quantity ↔
        RegistersInReach s.inputRegisters start quantity) ∧
      (s.KeepsCoils address bits ↔
        1 ≤ bits.length ∧ bits.length ≤ 1968 ∧ bits.length % 8 = 0) ∧
      (s.KeepsRegisters address registers ↔
        1 ≤ registers.length ∧ registers.length ≤ 123 ∧
          ∀ value ∈ registers, 0 ≤ value ∧ value ≤ 65535) ∧
      ((∃ e, (ModbusCall.writeSingleRegister address value).request = .error e) ↔
        ¬ (0 ≤ value ∧ value ≤ 65535)) := by
  refine ⟨?_, ?_, ?_, ?_, keepsCoils_iff, keepsRegisters_iff, ?_⟩
  · exact readsBits_iff 0x01 rfl (by decide) rfl (fun rest => rfl) fun values => rfl
  · exact readsBits_iff 0x02 rfl (by decide) rfl (fun rest => rfl) fun values => rfl
  · exact readsRegisters_iff 0x03 rfl (by decide) rfl (fun rest => rfl) fun values => rfl
  · exact readsRegisters_iff 0x04 rfl (by decide) rfl (fun rest => rfl) fun values => rfl
  · by_cases h : value < 0 ∨ value > 0xFFFF
    · simp only [ModbusCall.request, if_pos h]
      exact ⟨fun _ => by omega, fun _ => ⟨_, rfl⟩⟩
    · simp only [ModbusCall.request, if_neg h]
      exact ⟨nofun, fun hout => absurd hout (by omega)⟩

/-- A read of one coil yields eight, and a register is written that does not fit 16 bits. -/
theorem not_faithful :
    ¬ blank.ReadsBits (.readCoils 0 1) blank.coils 0 1 ∧ ¬ blank.KeepsRegisters 0 [65536] := by
  constructor
  · intro h
    have h := (readsBits_iff 0x01 rfl (by decide) rfl (fun rest => rfl) fun values => rfl).mp h
      (by decide) (by decide)
    exact absurd h.1 (by decide)
  · intro h
    exact absurd ((keepsRegisters_iff.mp h).2.2 65536 (List.mem_singleton.mpr rfl)) (by decide)

end SimulatedModbusServer

end Pinout.Modbus
