import Pinout.Errors
import Pinout.Foundation.Bitmap
import Pinout.Foundation.Bytes
import Pinout.Foundation.Packets

/-! # Modbus on the wire

The Modbus codec (`packages/protocols-modbus/src/wire.ts`): the requests and responses of eight
functions, framed by a header with a transaction id and a length over TCP (MBAP), and by the address of
the slave and a check sum over a serial line (RTU). What an index of a byte array yields behind its end
counts as zero in arithmetic, as it does in the source. -/

namespace Pinout.Modbus

open Foundation

/-- `new ModbusError(code, message)`. -/
def modbusError (code message : JsString) : Thrown := .error (js "ModbusError") (some code) message

/-- `new ModbusError('MODBUS_PROTOCOL_ERROR', message)`. -/
def protocolError (message : JsString) : Thrown := modbusError (js "MODBUS_PROTOCOL_ERROR") message

/-- `n.toString(16)`. -/
def hex (n : Nat) : JsString := (Nat.toDigits 16 n).map fun c => c.toNat.toUInt16

/-- `EXCEPTION_NAMES[exceptionCode] ?? 'EXCEPTION'`. -/
def exceptionName (exceptionCode : UInt8) : JsString :=
  match exceptionCode.toNat with
  | 0x01 => js "ILLEGAL_FUNCTION"
  | 0x02 => js "ILLEGAL_DATA_ADDRESS"
  | 0x03 => js "ILLEGAL_DATA_VALUE"
  | 0x04 => js "SERVER_DEVICE_FAILURE"
  | 0x05 => js "ACKNOWLEDGE"
  | 0x06 => js "SERVER_DEVICE_BUSY"
  | 0x08 => js "MEMORY_PARITY_ERROR"
  | 0x0A => js "GATEWAY_PATH_UNAVAILABLE"
  | 0x0B => js "GATEWAY_TARGET_FAILED"
  | _ => js "EXCEPTION"

def exceptionError (functionCode exceptionCode : UInt8) : Thrown :=
  let digits := hex functionCode.toNat
  modbusError (js "MODBUS_EXCEPTION_" ++ exceptionName exceptionCode)
    (js "Modbus exception " ++ decimal exceptionCode.toNat ++ js " (" ++ exceptionName exceptionCode ++
      js ") in response to function 0x" ++ (if digits.length < 2 then js "0" ++ digits else digits) ++
      js ".")

/-! ## The check sum -/

/-- One bit of `crc16`. -/
def crcBit (crc : Nat) : Nat := if crc % 2 = 1 then (crc >>> 1) ^^^ 0xA001 else crc >>> 1

/-- One byte of `crc16`. -/
def crcByte (crc : Nat) (byte : UInt8) : Nat := crcBit^[8] (crc ^^^ byte.toNat)

def crc16 (data : List UInt8) : Nat := data.foldl crcByte 0xFFFF

/-! ## Requests -/

/-- `(x >> 8) & 0xff` and `x & 0xff`: the low 16 bits of an integer. -/
def word (x : Int) : List UInt8 := bigEndian 2 (x % 65536).toNat

/-- `Math.ceil(n / 8)`. -/
def bytesFor (n : Nat) : Nat := (n + 7) / 8

def assertQuantity (functionCode : UInt8) (quantity : Int) : Except Thrown Unit :=
  let max : Int := if functionCode = 0x01 ∨ functionCode = 0x02 then 2000 else 125
  if quantity < 1 ∨ quantity > max then
    .error (modbusError (js "MODBUS_INVALID_QUANTITY")
      (js "Quantity must be an integer in [1, " ++ decimal max.toNat ++ js "] for function 0x" ++
        hex functionCode.toNat ++ js "."))
  else .ok ()

def encodeReadRequest (functionCode : UInt8) (startAddress quantity : Int) :
    Except Thrown (List UInt8) :=
  match assertQuantity functionCode quantity with
  | .ok _ => .ok (functionCode :: (word startAddress ++ word quantity))
  | .error e => .error e

def encodeWriteSingle (functionCode : UInt8) (address value : Int) : List UInt8 :=
  functionCode :: (word address ++ word value)

def encodeWriteMultipleCoils (address : Int) (values : List Bool) : List UInt8 :=
  let byteCount := bytesFor values.length
  0x0F :: (word address ++ (word values.length ++ (byteCount.toUInt8 ::
    setBits (fun i => values[i]?.getD false) values.length (List.replicate byteCount 0))))

def encodeWriteMultipleRegisters (address : Int) (values : List Int) : List UInt8 :=
  0x10 :: (word address ++ (word values.length ++ ((values.length * 2).toUInt8 ::
    values.flatMap word)))

/-! ## Responses -/

inductive PduDecodeResult
  | bits (values : List Bool)
  | registers (values : List Nat)
  | echo (functionCode : UInt8) (address value : Nat)
  | exception (functionCode exceptionCode : UInt8)
  deriving DecidableEq, Repr

def byteAt (bytes : List UInt8) (i : Nat) : Nat := (bytes[i]?.getD 0).toNat

/-- `(bytes[i] << 8) | bytes[i + 1]`. -/
def wordAt (bytes : List UInt8) (i : Nat) : Nat := byteAt bytes i * 256 + byteAt bytes (i + 1)

def decodePdu (pdu : List UInt8) (requestFunctionCode : UInt8) : Except Thrown PduDecodeResult :=
  match pdu with
  | [] => .error (protocolError (js "Empty PDU."))
  | functionCode :: rest =>
    if functionCode.toNat = requestFunctionCode.toNat + 0x80 then
      match rest with
      | exceptionCode :: _ => .ok (.exception requestFunctionCode exceptionCode)
      | [] => .error (protocolError (js "Truncated exception response."))
    else if functionCode ≠ requestFunctionCode then
      .error (protocolError (js "Response function 0x" ++ hex functionCode.toNat ++
        js " does not match request 0x" ++ hex requestFunctionCode.toNat ++ js "."))
    else if functionCode = 0x01 ∨ functionCode = 0x02 then
      match rest with
      | byteCount :: data => .ok (.bits ((List.range (byteCount.toNat * 8)).map (getBit data)))
      | [] => .ok (.bits [])
    else if functionCode = 0x03 ∨ functionCode = 0x04 then
      match rest with
      | byteCount :: data =>
        if byteCount.toNat % 2 ≠ 0 then .error (protocolError (js "Odd register byte count."))
        else .ok (.registers ((List.range (byteCount.toNat / 2)).map fun i => wordAt data (2 * i)))
      | [] => .error (protocolError (js "Odd register byte count."))
    else if functionCode = 0x05 ∨ functionCode = 0x06 ∨ functionCode = 0x0F ∨ functionCode = 0x10 then
      .ok (.echo functionCode (wordAt pdu 1) (wordAt pdu 3))
    else
      .error (protocolError (js "Unsupported function code 0x" ++ hex functionCode.toNat ++ js "."))

/-! ## Calls

The methods of the two clients are the same but for how a request is sent. -/

inductive ModbusCall
  | readCoils (startAddress quantity : Int)
  | readDiscreteInputs (startAddress quantity : Int)
  | readHoldingRegisters (startAddress quantity : Int)
  | readInputRegisters (startAddress quantity : Int)
  | writeSingleCoil (address : Int) (value : Bool)
  | writeSingleRegister (address value : Int)
  | writeMultipleCoils (address : Int) (values : List Bool)
  | writeMultipleRegisters (address : Int) (values : List Int)
  deriving DecidableEq, Repr

inductive CallResult
  | bits (values : List Bool)
  | registers (values : List Nat)
  | done
  deriving DecidableEq, Repr

namespace ModbusCall

def functionCode : ModbusCall → UInt8
  | readCoils _ _ => 0x01
  | readDiscreteInputs _ _ => 0x02
  | readHoldingRegisters _ _ => 0x03
  | readInputRegisters _ _ => 0x04
  | writeSingleCoil _ _ => 0x05
  | writeSingleRegister _ _ => 0x06
  | writeMultipleCoils _ _ => 0x0F
  | writeMultipleRegisters _ _ => 0x10

/-- The request of a call, or what the call throws before it sends one. -/
def request : ModbusCall → Except Thrown (List UInt8)
  | readCoils startAddress quantity => encodeReadRequest 0x01 startAddress quantity
  | readDiscreteInputs startAddress quantity => encodeReadRequest 0x02 startAddress quantity
  | readHoldingRegisters startAddress quantity => encodeReadRequest 0x03 startAddress quantity
  | readInputRegisters startAddress quantity => encodeReadRequest 0x04 startAddress quantity
  | writeSingleCoil address value =>
    .ok (encodeWriteSingle 0x05 address (if value then 0xFF00 else 0x0000))
  | writeSingleRegister address value =>
    if value < 0 ∨ value > 0xFFFF then
      .error (modbusError (js "MODBUS_INVALID_VALUE")
        (js "Register value must be an integer in [0, 65535]."))
    else .ok (encodeWriteSingle 0x06 address value)
  | writeMultipleCoils address values => .ok (encodeWriteMultipleCoils address values)
  | writeMultipleRegisters address values => .ok (encodeWriteMultipleRegisters address values)

def result : ModbusCall → PduDecodeResult → CallResult
  | readCoils _ _, decoded | readDiscreteInputs _ _, decoded => match decoded with
    | .bits values => .bits values
    | _ => .bits []
  | readHoldingRegisters _ _, decoded | readInputRegisters _ _, decoded => match decoded with
    | .registers values => .registers values
    | _ => .registers []
  | _, _ => .done

end ModbusCall

/-! ## TCP frames -/

structure MbapFrame where
  transactionId : Nat
  protocolId : Nat
  unitId : UInt8
  pdu : List UInt8
  deriving DecidableEq, Repr

def encodeMbap (transactionId : Nat) (unitId : UInt8) (pdu : List UInt8) : List UInt8 :=
  word transactionId ++ ([0, 0] ++ (word (pdu.length + 1) ++ unitId :: pdu))

def decodeMbap (frame : List UInt8) : Except Thrown MbapFrame :=
  match frame with
  | t₁ :: t₀ :: p₁ :: p₀ :: l₁ :: l₀ :: unitId :: _ =>
    let length := ofBigEndian [l₁, l₀]
    if frame.length < length + 6 then
      .error (protocolError
        (js "MBAP length field " ++ decimal length ++ js " exceeds available bytes."))
    else
      .ok ⟨ofBigEndian [t₁, t₀], ofBigEndian [p₁, p₀], unitId, (frame.take (length + 6)).drop 7⟩
  | _ => .error (protocolError (js "MBAP frame shorter than 7 bytes."))

def tryDecodeMbap (buffer : List UInt8) : Decoded MbapFrame Thrown :=
  match buffer with
  | _ :: _ :: _ :: _ :: l₁ :: l₀ :: _ :: _ =>
    let total := ofBigEndian [l₁, l₀] + 6
    if buffer.length < total then .incomplete
    else match decodeMbap buffer with
      | .ok frame => .packet frame total
      | .error e => .failed e
  | _ => .incomplete

/-- A buffer with a whole header holds a frame exactly when it is as long as the header says. -/
theorem tryDecodeMbap_header {t₁ t₀ p₁ p₀ l₁ l₀ unitId : UInt8} {rest : List UInt8} :
    tryDecodeMbap (t₁ :: t₀ :: p₁ :: p₀ :: l₁ :: l₀ :: unitId :: rest) =
      if rest.length + 1 < ofBigEndian [l₁, l₀] then .incomplete
      else .packet ⟨ofBigEndian [t₁, t₀], ofBigEndian [p₁, p₀], unitId,
        rest.take (ofBigEndian [l₁, l₀] - 1)⟩ (ofBigEndian [l₁, l₀] + 6) := by
  have hlength : (t₁ :: t₀ :: p₁ :: p₀ :: l₁ :: l₀ :: unitId :: rest).length = rest.length + 7 := rfl
  rw [tryDecodeMbap, decodeMbap, hlength]
  by_cases hshort : rest.length + 1 < ofBigEndian [l₁, l₀]
  · rw [if_pos hshort, if_pos (by omega)]
  · rw [if_neg hshort, if_neg (by omega), if_neg (by omega)]
    cases hl : ofBigEndian [l₁, l₀] with
    | zero => rfl
    | succ n => rfl

theorem exists_of_tryDecodeMbap {buffer : List UInt8} {frame : MbapFrame} {n : Nat}
    (h : tryDecodeMbap buffer = .packet frame n) :
    ∃ t₁ t₀ p₁ p₀ l₁ l₀ unitId rest, buffer = t₁ :: t₀ :: p₁ :: p₀ :: l₁ :: l₀ :: unitId :: rest ∧
      ofBigEndian [l₁, l₀] ≤ rest.length + 1 ∧ n = ofBigEndian [l₁, l₀] + 6 ∧
      frame = ⟨ofBigEndian [t₁, t₀], ofBigEndian [p₁, p₀], unitId,
        rest.take (ofBigEndian [l₁, l₀] - 1)⟩ := by
  match buffer, h with
  | t₁ :: t₀ :: p₁ :: p₀ :: l₁ :: l₀ :: unitId :: rest, h =>
    rw [tryDecodeMbap_header] at h
    split at h
    · cases h
    · next hlen =>
      injection h with hframe hn
      exact ⟨t₁, t₀, p₁, p₀, l₁, l₀, unitId, rest, rfl, Nat.not_lt.mp hlen, hn.symm, hframe.symm⟩

theorem tryDecodeMbap_ne_failed (buffer : List UInt8) (e : Thrown) :
    tryDecodeMbap buffer ≠ .failed e := by
  intro h
  match buffer, h with
  | t₁ :: t₀ :: p₁ :: p₀ :: l₁ :: l₀ :: unitId :: rest, h =>
    rw [tryDecodeMbap_header] at h
    split at h <;> cases h

/-- `tryDecodeMbap` as a packet decoder. -/
def mbapDecoder : PacketDecoder UInt8 MbapFrame Thrown where
  decode := tryDecodeMbap
  decode_nil := rfl
  consumed_pos h := by
    obtain ⟨_, _, _, _, _, _, _, _, -, -, rfl, -⟩ := exists_of_tryDecodeMbap h
    exact Nat.succ_pos _
  consumed_le h := by
    obtain ⟨_, _, _, _, _, _, _, _, rfl, hle, rfl, -⟩ := exists_of_tryDecodeMbap h
    simp only [List.length_cons]
    omega
  packet_append m h := by
    obtain ⟨_, _, _, _, _, _, _, _, rfl, hle, rfl, rfl⟩ := exists_of_tryDecodeMbap h
    simp only [List.cons_append]
    rw [tryDecodeMbap_header, if_neg (by rw [List.length_append]; omega),
      List.take_append_of_le_length (by omega)]
  failed_append m h := absurd h (tryDecodeMbap_ne_failed _ _)

theorem exists_word (x : Int) : ∃ high low, word x = [high, low] ∧
    ofBigEndian [high, low] = (x % 65536).toNat :=
  ⟨_, _, rfl, ofBigEndian_bigEndian (k := 2) (by omega)⟩

theorem toNat_emod {n : Nat} (h : n < 65536) : ((n : Int) % 65536).toNat = n := by omega

structure MbapFrame.Fits (frame : MbapFrame) : Prop where
  transactionId : frame.transactionId < 65536
  protocolId : frame.protocolId = 0
  length : frame.pdu.length + 1 < 65536

def MbapFrame.bytes (frame : MbapFrame) : List UInt8 :=
  encodeMbap frame.transactionId frame.unitId frame.pdu

/-- **An encoded frame is recognised.** -/
theorem MbapFrame.recognised {frame : MbapFrame} (h : frame.Fits) :
    mbapDecoder.Recognises MbapFrame.bytes id frame := by
  obtain ⟨transactionId, protocolId, unitId, pdu⟩ := frame
  obtain ⟨htransaction, hprotocol, hlength⟩ := h
  simp only at htransaction hprotocol hlength
  subst hprotocol
  obtain ⟨t₁, t₀, ht, htread⟩ := exists_word transactionId
  obtain ⟨l₁, l₀, hl, hlread⟩ := exists_word ((pdu.length + 1 : Nat) : Int)
  rw [toNat_emod htransaction] at htread
  rw [toNat_emod hlength] at hlread
  have hbytes : MbapFrame.bytes ⟨transactionId, 0, unitId, pdu⟩ =
      t₁ :: t₀ :: 0 :: 0 :: l₁ :: l₀ :: unitId :: pdu := by
    have hl : word ((pdu.length : Int) + 1) = [l₁, l₀] := by
      rw [← hl, Nat.cast_add, Nat.cast_one]
    rw [MbapFrame.bytes, encodeMbap, ht, hl]
    rfl
  have hzero : ofBigEndian [0, 0] = 0 := by decide
  constructor
  · intro more
    show tryDecodeMbap (MbapFrame.bytes ⟨transactionId, 0, unitId, pdu⟩ ++ more) =
      .packet ⟨transactionId, 0, unitId, pdu⟩ (MbapFrame.bytes ⟨transactionId, 0, unitId, pdu⟩).length
    rw [hbytes]
    simp only [List.cons_append]
    rw [tryDecodeMbap_header, hlread, if_neg (by rw [List.length_append]; omega), htread, hzero,
      Nat.add_sub_cancel, List.take_left]
    rfl
  · intro l hl hne
    show tryDecodeMbap l = .incomplete
    rw [hbytes] at hl hne
    have hshort : l.length < pdu.length + 7 :=
      lt_of_le_of_ne hl.length_le fun heq => hne (hl.eq_of_length heq)
    -- a beginning that is longer than the header has the same header
    match l, hl with
    | [], _ | [_], _ | [_, _], _ | [_, _, _], _ | [_, _, _, _], _ | [_, _, _, _, _], _
    | [_, _, _, _, _, _], _ => rfl
    | a :: b :: c :: d :: e :: f :: g :: rest, hl =>
      have hsix := hl
      simp only [List.cons_prefix_cons] at hsix
      obtain ⟨-, -, -, -, he, hf, -⟩ := hsix
      rw [he, hf, tryDecodeMbap_header, hlread, if_pos]
      simp only [List.length_cons] at hshort
      omega

/-! ## RTU frames -/

def encodeRtu (slaveAddress : UInt8) (pdu : List UInt8) : List UInt8 :=
  let crc := crc16 (slaveAddress :: pdu)
  slaveAddress :: (pdu ++ [(crc % 256).toUInt8, (crc / 256 % 256).toUInt8])

def decodeRtu (frame : List UInt8) (requestFunctionCode expectedAddress : UInt8) :
    Except Thrown PduDecodeResult :=
  if frame.length < 4 then .error (protocolError (js "RTU frame too short."))
  else if byteAt frame 0 ≠ expectedAddress.toNat then
    .error (protocolError (js "Response from slave " ++ decimal (byteAt frame 0) ++ js ", expected " ++
      decimal expectedAddress.toNat ++ js "."))
  else
    let receivedCrc := byteAt frame (frame.length - 2) + byteAt frame (frame.length - 1) * 256
    let computedCrc := crc16 (frame.take (frame.length - 2))
    if receivedCrc ≠ computedCrc then
      .error (modbusError (js "MODBUS_CRC_ERROR")
        (js "CRC mismatch: received 0x" ++ hex receivedCrc ++ js ", computed 0x" ++ hex computedCrc ++
          js "."))
    else decodePdu ((frame.take (frame.length - 2)).drop 1) requestFunctionCode

end Pinout.Modbus
