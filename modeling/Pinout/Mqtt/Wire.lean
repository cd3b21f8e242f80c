import Pinout.Errors
import Pinout.Foundation.Bytes
import Pinout.Foundation.Packets
import Pinout.Foundation.Utf8
import Pinout.Foundation.Fallible

/-! # MQTT on the wire

The MQTT 3.1.1 codec (`packages/protocols-mqtt/src/wire.ts`): a header byte, the remaining length in
one to four bytes of seven bits each, and a body. `tryDecodePacket` knows the packet types of
`TYPE_BY_NUMBER` and no others; the answer to an unsubscription is none of them. -/

namespace Pinout.Mqtt

open Foundation

/-- `new MqttError(code, message)`. -/
def mqttError (code message : JsString) : Thrown := .error (js "MqttError") (some code) message

inductive MqttPacketType
  | connect | connack | publish | puback | subscribe | suback | pingreq | pingresp | disconnect
  deriving DecidableEq, Repr

def typeByNumber : Nat → Option MqttPacketType
  | 1 => some .connect
  | 2 => some .connack
  | 3 => some .publish
  | 4 => some .puback
  | 8 => some .subscribe
  | 9 => some .suback
  | 12 => some .pingreq
  | 13 => some .pingresp
  | 14 => some .disconnect
  | _ => none

/-! ## Encoding -/

/-- The loop of `encodeRemainingLength`; four rounds are enough for the greatest length. -/
def lengthBytes : Nat → Nat → List UInt8
  | 0, _ => []
  | fuel + 1, remaining =>
    if remaining / 128 > 0 then
      (remaining % 128 + 128).toUInt8 :: lengthBytes fuel (remaining / 128)
    else [(remaining % 128).toUInt8]

def maxRemainingLength : Nat := 268435455

def encodeRemainingLength (length : Nat) : Except Thrown (List UInt8) :=
  if length > maxRemainingLength then
    .error (mqttError (js "MQTT_INVALID_LENGTH")
      (js "Remaining length must be an integer from 0 to 268435455."))
  else .ok (lengthBytes 4 length)

/-- What `writeUInt16BE` throws. -/
def outOfRange (value : Nat) : Thrown :=
  .error (js "RangeError") (some (js "ERR_OUT_OF_RANGE"))
    (js "The value of \"value\" is out of range. It must be >= 0 and <= 65535. Received " ++
      decimal value)

def encodeMqttString (value : JsString) : Except Thrown (List UInt8) :=
  let bytes := encodeUtf8 value
  if bytes.length > 0xFFFF then .error (outOfRange bytes.length)
  else .ok (bigEndian 2 bytes.length ++ bytes)

def encodeUint16 (value : Nat) (allowZero : Bool) : Except Thrown (List UInt8) :=
  if value < (if allowZero then 0 else 1) ∨ value > 65535 then
    .error (mqttError (js "MQTT_INVALID_INTEGER") (js "Value is outside the MQTT uint16 range."))
  else .ok (bigEndian 2 value)

def validateQos (qos : Nat) : Except Thrown Unit :=
  if qos ≠ 0 ∧ qos ≠ 1 then
    .error (mqttError (js "MQTT_UNSUPPORTED_QOS") (js "This client supports QoS 0 and 1 only."))
  else .ok ()

def hasWildcard (topic : JsString) : Bool := topic.any fun u => u = 43 ∨ u = 35 ∨ u = 0

def frame (header : UInt8) (body : List UInt8) : Except Thrown (List UInt8) := do
  let length ← encodeRemainingLength body.length
  .ok (header :: (length ++ body))

def encodePublish (topic : JsString) (payload : List UInt8) (packetId : Option Nat) (qos : Nat) :
    Except Thrown (List UInt8) := do
  validateQos qos
  if topic = [] ∨ hasWildcard topic then
    .error (mqttError (js "MQTT_INVALID_TOPIC")
      (js "Publish topics must be nonempty and contain no wildcards or nulls."))
  else
    let topicBytes ← encodeMqttString topic
    if qos = 0 then frame 0x30 (topicBytes ++ payload)
    else
      let id ← encodeUint16 (packetId.getD 1) false
      frame 0x32 (topicBytes ++ (id ++ payload))

def encodePuback (packetId : Nat) : Except Thrown (List UInt8) := do
  let id ← encodeUint16 packetId false
  .ok (0x40 :: 2 :: id)

/-! ## Decoding -/

structure MqttPacket where
  type : MqttPacketType
  topic : Option JsString := none
  payload : Option (List UInt8) := none
  qos : Option Nat := none
  packetId : Option Nat := none
  returnCodes : Option (List UInt8) := none
  topicFilters : Option (List JsString) := none
  connackReturnCode : Option Nat := none
  deriving DecidableEq

/-- `bytes.toString('utf8')`. Unlike a `TextDecoder` it keeps a byte order mark. -/
def utf8Text (bytes : List UInt8) : JsString :=
  let read := ({} : Utf8State).read (bytes.map UInt8.toNat)
  (read.2 ++ if read.1.bytesNeeded = 0 then [] else [replacementCharacter]).flatMap codePointUnits

/-- The loop over the bytes of the remaining length: its value, and the index behind it. -/
def readLength : Nat → Nat → Nat → Nat → List UInt8 → Option (Nat × Nat)
  | 0, _, _, _, _ => none
  | _ + 1, _, _, _, [] => none
  | fuel + 1, multiplier, value, index, byte :: rest =>
    if byte.toNat < 128 then some (value + byte.toNat * multiplier, index + 1)
    else readLength fuel (multiplier * 128) (value + (byte.toNat - 128) * multiplier) (index + 1) rest

/-- The loop over the topic filters of a SUBSCRIBE. -/
def readFilters : Nat → List UInt8 → Option (List JsString)
  | fuel + 1, high :: low :: rest =>
    let length := ofBigEndian [high, low]
    if rest.length ≤ length then none
    else (readFilters fuel (rest.drop (length + 1))).map (utf8Text (rest.take length) :: ·)
  | _, _ => some []

/-- The packet that a body holds; `header` is the first byte of the packet. -/
def decodeBody (type : MqttPacketType) (header : UInt8) (body : List UInt8) : Option MqttPacket :=
  match type with
  | .connack => match body with
    | [flags, code] =>
      if code.toNat > 5 ∨ flags.toNat > 1 then none
      else some { type := .connack, connackReturnCode := some code.toNat }
    | _ => none
  | .publish => match body with
    | high :: low :: rest =>
      let qos := header.toNat / 2 % 4
      let topicLength := ofBigEndian [high, low]
      if qos > 1 then none
      else if rest.length < topicLength then none
      else
        let topic := utf8Text (rest.take topicLength)
        if qos > 0 then match rest.drop topicLength with
          | idHigh :: idLow :: payload =>
            some { type := .publish, qos := some qos, topic := some topic
                   packetId := some (ofBigEndian [idHigh, idLow]), payload := some payload }
          | _ => none
        else
          some { type := .publish, qos := some qos, topic := some topic
                 payload := some (rest.drop topicLength) }
    | _ => none
  | .puback | .suback | .subscribe => match body with
    | high :: low :: rest =>
      let packetId := ofBigEndian [high, low]
      if packetId = 0 then none
      else match type with
        | .suback =>
          if rest = [] then none
          else some { type := type, packetId := some packetId, returnCodes := some rest }
        | .subscribe => (readFilters rest.length rest).map fun filters =>
          { type := type, packetId := some packetId, topicFilters := some filters }
        | _ => some { type := type, packetId := some packetId }
    | _ => none
  | .pingreq | .pingresp | .disconnect | .connect => some { type := type }

/-- `tryDecodePacket`: the packet at the head of a buffer, and how many bytes it takes. -/
def tryDecodePacket (buffer : List UInt8) : Option (MqttPacket × Nat) :=
  match buffer with
  | header :: rest => match typeByNumber (header.toNat / 16) with
    | some type => match readLength 4 1 0 1 rest with
      | some (value, index) =>
        if buffer.length < index + value then none
        else (decodeBody type header ((buffer.take (index + value)).drop index)).map
          (·, index + value)
      | none => none
    | none => none
  | [] => none

/-! ## The decoder -/

theorem readLength_append {fuel multiplier value index n k : Nat} {l : List UInt8} (m : List UInt8)
    (h : readLength fuel multiplier value index l = some (n, k)) :
    readLength fuel multiplier value index (l ++ m) = some (n, k) := by
  induction fuel generalizing multiplier value index l with
  | zero => cases h
  | succ fuel ih =>
    cases l with
    | nil => cases h
    | cons byte rest =>
      rw [List.cons_append, readLength]
      rw [readLength] at h
      split at h
      · next hlast => rw [if_pos hlast]; exact h
      · next hmore => rw [if_neg hmore]; exact ih h

/-- The index behind the length is behind the header byte and one byte more. -/
theorem lt_of_readLength {fuel multiplier value index n k : Nat} {l : List UInt8}
    (h : readLength fuel multiplier value index l = some (n, k)) : index < k := by
  induction fuel generalizing multiplier value index l with
  | zero => cases h
  | succ fuel ih =>
    cases l with
    | nil => cases h
    | cons byte rest =>
      rw [readLength] at h
      split at h
      · cases h
        exact Nat.lt_succ_self _
      · exact (Nat.lt_succ_self _).trans (ih h)

theorem exists_of_tryDecodePacket {buffer : List UInt8} {packet : MqttPacket} {n : Nat}
    (h : tryDecodePacket buffer = some (packet, n)) :
    ∃ header rest type value index, buffer = header :: rest ∧
      typeByNumber (header.toNat / 16) = some type ∧
      readLength 4 1 0 1 rest = some (value, index) ∧ n = index + value ∧ n ≤ buffer.length ∧
      decodeBody type header ((buffer.take n).drop index) = some packet := by
  cases buffer with
  | nil => cases h
  | cons header rest =>
    rw [tryDecodePacket] at h
    split at h
    · next type htype =>
      split at h
      · next value index hlength =>
        split at h
        · cases h
        · next hle =>
          obtain ⟨p, hp, heq⟩ := Option.map_eq_some_iff.mp h
          cases heq
          exact ⟨header, rest, type, value, index, rfl, htype, hlength, rfl, Nat.not_lt.mp hle, hp⟩
      · cases h
    · cases h

/-- `tryDecodePacket` as a packet decoder. It never fails: what it does not know it waits for. -/
def mqttDecoder : PacketDecoder UInt8 MqttPacket Empty where
  decode buffer := match tryDecodePacket buffer with
    | some (packet, n) => .packet packet n
    | none => .incomplete
  decode_nil := rfl
  consumed_pos {l p n} h := by
    split at h
    · next hdecode =>
      cases h
      obtain ⟨_, _, _, _, _, -, -, hlength, rfl, -, -⟩ := exists_of_tryDecodePacket hdecode
      exact Nat.lt_of_lt_of_le (Nat.zero_lt_of_lt (lt_of_readLength hlength)) (Nat.le_add_right _ _)
    · cases h
  consumed_le {l p n} h := by
    split at h
    · next hdecode =>
      cases h
      obtain ⟨_, _, _, _, _, -, -, -, -, hle, -⟩ := exists_of_tryDecodePacket hdecode
      exact hle
    · cases h
  packet_append {l p n} m h := by
    split at h
    · next hdecode =>
      cases h
      obtain ⟨header, rest, type, value, index, rfl, htype, hlength, rfl, hle, hbody⟩ :=
        exists_of_tryDecodePacket hdecode
      have hlength' := readLength_append m hlength
      have htake : ((header :: rest) ++ m).take (index + value) =
          (header :: rest).take (index + value) := List.take_append_of_le_length hle
      have hle' : ¬ ((header :: rest) ++ m).length < index + value := by
        rw [List.length_append]
        omega
      have hdecode' : tryDecodePacket ((header :: rest) ++ m) = some (p, index + value) := by
        rw [List.cons_append] at htake hle' ⊢
        simp only [tryDecodePacket, htype, hlength', if_neg hle', htake, hbody, Option.map_some]
      simp only [hdecode']
    · cases h
  failed_append {l e} m h := by
    split at h <;> cases h

/-! ## Packets as they are laid out -/

/-- A byte of the length, with its low seven bits and the mark that more follow. -/
theorem toNat_lengthByte (n : Nat) :
    (n % 128 + 128).toUInt8.toNat = n % 128 + 128 ∧ (n % 128).toUInt8.toNat = n % 128 := by
  rw [toNat_toUInt8_mod, toNat_toUInt8_mod]
  omega

theorem readLength_lengthBytes {fuel n : Nat} (h : n < 128 ^ (fuel + 1))
    (multiplier value index : Nat) :
    readLength (fuel + 1) multiplier value index (lengthBytes (fuel + 1) n) =
      some (value + n * multiplier, index + (lengthBytes (fuel + 1) n).length) := by
  induction fuel generalizing n multiplier value index with
  | zero =>
    have hdiv : ¬ n / 128 > 0 := by omega
    rw [lengthBytes, if_neg hdiv, readLength, (toNat_lengthByte n).2, if_pos (Nat.mod_lt _ (by decide)),
      Nat.mod_eq_of_lt (by omega)]
    rfl
  | succ fuel ih =>
    rw [lengthBytes]
    split
    · -- a byte with the mark, and the rest of the length behind it
      have hdiv : n / 128 < 128 ^ (fuel + 1) := by
        rw [pow_succ] at h
        exact Nat.div_lt_of_lt_mul (Nat.mul_comm _ _ ▸ h)
      have hvalue : value + (n % 128 + 128 - 128) * multiplier + n / 128 * (multiplier * 128) =
          value + n * multiplier := by
        have hn : n % 128 + n / 128 * 128 = n := by omega
        rw [Nat.add_sub_cancel, Nat.mul_comm multiplier 128, ← Nat.mul_assoc, Nat.add_assoc,
          ← Nat.add_mul, hn]
      rw [readLength, (toNat_lengthByte n).1, if_neg (by omega), ih hdiv, hvalue, List.length_cons]
      congr 2
      omega
    · next hdiv =>
      rw [readLength, (toNat_lengthByte n).2, if_pos (Nat.mod_lt _ (by decide)),
        Nat.mod_eq_of_lt (by omega)]
      rfl

/-- A remaining length is read as it was written, and is never too long. -/
theorem readLength_remainingLength {n : Nat} (h : n ≤ maxRemainingLength) :
    readLength 4 1 0 1 (lengthBytes 4 n) = some (n, 1 + (lengthBytes 4 n).length) := by
  have hlt : n < 128 ^ (3 + 1) := Nat.lt_of_le_of_lt h (by decide)
  rw [readLength_lengthBytes hlt, Nat.mul_one, Nat.zero_add]

theorem readLength_of_isPrefix {fuel n : Nat} {l : List UInt8} (hl : l <+: lengthBytes fuel n)
    (hne : l ≠ lengthBytes fuel n) (multiplier value index : Nat) :
    readLength fuel multiplier value index l = none := by
  induction fuel generalizing n multiplier value index l with
  | zero => rfl
  | succ fuel ih =>
    cases l with
    | nil => rfl
    | cons byte rest =>
      rw [lengthBytes] at hl hne
      split at hl
      · next hdiv =>
        rw [if_pos hdiv] at hne
        obtain ⟨rfl, hrest⟩ := List.cons_prefix_cons.mp hl
        rw [readLength, (toNat_lengthByte n).1, if_neg (by omega)]
        exact ih hrest (fun heq => hne (heq ▸ rfl)) _ _ _
      · next hdiv =>
        rw [if_neg hdiv] at hne
        obtain ⟨rfl, hrest⟩ := List.cons_prefix_cons.mp hl
        exact absurd (List.prefix_nil.mp hrest ▸ rfl) hne

/-- The bytes of a packet with a header byte and a body. -/
def packetBytes (header : UInt8) (body : List UInt8) : List UInt8 :=
  header :: (lengthBytes 4 body.length ++ body)

/-- A packet is encoded, as it is laid out, exactly when its body is not too long. -/
theorem frame_eq_ok {header : UInt8} {body bytes : List UInt8} :
    frame header body = .ok bytes ↔
      body.length ≤ maxRemainingLength ∧ bytes = packetBytes header body := by
  rw [frame, bind_eq_ok]
  simp only [encodeRemainingLength]
  split
  · next hlong => simp [Nat.not_le.mpr hlong]
  · next hfits =>
    simp only [Except.ok.injEq, exists_eq_left', packetBytes, Nat.not_lt.mp hfits, true_and]
    exact eq_comm

/-- A string is encoded exactly when its bytes fit the length field. -/
theorem encodeMqttString_eq_ok {value : JsString} {bytes : List UInt8} :
    encodeMqttString value = .ok bytes ↔ (encodeUtf8 value).length ≤ 65535 ∧
      bytes = bigEndian 2 (encodeUtf8 value).length ++ encodeUtf8 value := by
  simp only [encodeMqttString]
  split
  · next hlong => simp [Nat.not_le.mpr hlong]
  · next hfits =>
    simp only [Except.ok.injEq, Nat.not_lt.mp hfits, true_and]
    exact eq_comm

theorem encodeUint16_eq_ok {value : Nat} {bytes : List UInt8} :
    encodeUint16 value false = .ok bytes ↔ 0 < value ∧ value ≤ 65535 ∧ bytes = bigEndian 2 value := by
  simp only [encodeUint16, Bool.false_eq_true, if_false]
  split
  · next hout =>
    simp only [reduceCtorEq, false_iff]
    omega
  · next hin =>
    simp only [Except.ok.injEq]
    constructor
    · rintro rfl
      exact ⟨by omega, by omega, rfl⟩
    · rintro ⟨-, -, rfl⟩
      rfl

theorem validateQos_eq_ok {qos : Nat} {u : Unit} : validateQos qos = .ok u ↔ qos = 0 ∨ qos = 1 := by
  simp only [validateQos]
  split
  · next hother =>
    simp only [reduceCtorEq, false_iff]
    omega
  · next hsupported =>
    simp only [true_iff]
    omega

section Layout

variable {header : UInt8} {body : List UInt8} {type : MqttPacketType} {packet : MqttPacket}

/-- **A laid out packet is decoded**, whatever follows it. -/
theorem tryDecodePacket_packetBytes (hbody : body.length ≤ maxRemainingLength)
    (htype : typeByNumber (header.toNat / 16) = some type)
    (hdecode : decodeBody type header body = some packet) (more : List UInt8) :
    tryDecodePacket (packetBytes header body ++ more) =
      some (packet, (packetBytes header body).length) := by
  have hread := readLength_append (body ++ more) (readLength_remainingLength hbody)
  rw [← List.append_assoc] at hread
  have hlength : (packetBytes header body).length =
      1 + (lengthBytes 4 body.length).length + body.length := by
    rw [packetBytes, List.length_cons, List.length_append]
    omega
  have hle : ¬ (packetBytes header body ++ more).length < (packetBytes header body).length := by
    rw [List.length_append]
    omega
  have hdrop : ((packetBytes header body ++ more).take (packetBytes header body).length).drop
      (1 + (lengthBytes 4 body.length).length) = body := by
    rw [List.take_left, packetBytes, Nat.add_comm, List.drop_succ_cons, List.drop_left]
  rw [hlength] at hle hdrop ⊢
  rw [packetBytes, List.cons_append] at hle hdrop ⊢
  simp only [tryDecodePacket, htype, hread, if_neg hle, hdrop, hdecode, Option.map_some]

theorem tryDecodePacket_prefix (hbody : body.length ≤ maxRemainingLength) {l : List UInt8}
    (hl : l <+: packetBytes header body) (hne : l ≠ packetBytes header body) :
    tryDecodePacket l = none := by
  cases l with
  | nil => rfl
  | cons first rest =>
    rw [packetBytes] at hl hne
    obtain ⟨rfl, hrest⟩ := List.cons_prefix_cons.mp hl
    rw [tryDecodePacket]
    split
    · by_cases hwhole : lengthBytes 4 body.length <+: rest
      · -- the length is whole, so that part of the body is missing
        obtain ⟨part, rfl⟩ := hwhole
        have hpart := ((List.prefix_append_right_inj _).mp hrest).length_le
        have hshort : part.length < body.length := by
          refine lt_of_le_of_ne hpart fun heq => hne ?_
          rw [((List.prefix_append_right_inj _).mp hrest).eq_of_length heq]
        have hread := readLength_append part (readLength_remainingLength hbody)
        simp only [hread]
        rw [if_pos]
        rw [List.length_cons, List.length_append]
        omega
      · have hpart : rest <+: lengthBytes 4 body.length :=
          (List.prefix_or_prefix_of_prefix hrest (List.prefix_append _ _)).resolve_right hwhole
        have hneq : rest ≠ lengthBytes 4 body.length := fun h => hwhole (h ▸ List.prefix_rfl)
        rw [readLength_of_isPrefix hpart hneq]
    · rfl

end Layout

end Pinout.Mqtt
