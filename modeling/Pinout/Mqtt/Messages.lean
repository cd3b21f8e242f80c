import Pinout.Mqtt.Client

/-! # MQTT messages

What a broker sends to a client, laid out as the protocol says, and what the client makes of it: the
packets of its subset are decoded as they were laid out, and a stream of them is decoded in order,
however it is cut. -/

namespace Pinout.Mqtt

open Foundation

/-- What a broker sends. A publication has a packet identifier when it has QoS 1. -/
inductive MqttMessage
  | connack (sessionPresent : Bool) (returnCode : Nat)
  | publish (dup retain : Bool) (topic : JsString) (packetId : Option Nat) (payload : List UInt8)
  | puback (packetId : Nat)
  | suback (packetId : Nat) (returnCodes : List UInt8)
  | unsuback (packetId : Nat)
  | pingresp

namespace MqttMessage

def publishHeader (dup retain acknowledged : Bool) : UInt8 :=
  0x30 + (if dup then 8 else 0) + (if acknowledged then 2 else 0) + (if retain then 1 else 0)

def header : MqttMessage → UInt8
  | connack _ _ => 0x20
  | publish dup retain _ packetId _ => publishHeader dup retain packetId.isSome
  | puback _ => 0x40
  | suback _ _ => 0x90
  | unsuback _ => 0xB0
  | pingresp => 0xD0

def body : MqttMessage → List UInt8
  | connack sessionPresent returnCode => [if sessionPresent then 1 else 0, returnCode.toUInt8]
  | publish _ _ topic packetId payload =>
    bigEndian 2 (encodeUtf8 topic).length ++ (encodeUtf8 topic ++
      ((packetId.map (bigEndian 2)).getD [] ++ payload))
  | puback packetId => bigEndian 2 packetId
  | suback packetId returnCodes => bigEndian 2 packetId ++ returnCodes
  | unsuback packetId => bigEndian 2 packetId
  | pingresp => []

def bytes (m : MqttMessage) : List UInt8 := packetBytes m.header m.body

def IsPacketId (n : Nat) : Prop := 0 < n ∧ n ≤ 65535

instance (n : Nat) : Decidable (IsPacketId n) := inferInstanceAs (Decidable (0 < n ∧ n ≤ 65535))

def Valid (m : MqttMessage) : Prop :=
  m.body.length ≤ maxRemainingLength ∧ match m with
    | connack _ returnCode => returnCode ≤ 5
    | publish _ _ topic packetId _ =>
      WellFormed topic ∧ (encodeUtf8 topic).length ≤ 65535 ∧ ∀ n ∈ packetId, IsPacketId n
    | puback packetId => IsPacketId packetId
    | suback packetId returnCodes => IsPacketId packetId ∧ returnCodes ≠ []
    | unsuback packetId => IsPacketId packetId
    | pingresp => True

/-- The packet that a message is decoded as. There is no packet type for the answer to an
unsubscription. -/
def packet? : MqttMessage → Option MqttPacket
  | connack _ returnCode => some { type := .connack, connackReturnCode := some returnCode }
  | publish _ _ topic packetId payload =>
    some { type := .publish, topic := some topic, payload := some payload
           qos := some (if packetId.isSome then 1 else 0), packetId := packetId }
  | puback packetId => some { type := .puback, packetId := some packetId }
  | suback packetId returnCodes =>
    some { type := .suback, packetId := some packetId, returnCodes := some returnCodes }
  | unsuback _ => none
  | pingresp => some { type := .pingresp }

theorem utf8Text_encodeUtf8 {text : JsString} (h : WellFormed text) :
    utf8Text (encodeUtf8 text) = text := by
  obtain ⟨ns, hns, rfl⟩ := h
  have hbytes : (encodeUtf8 (ns.flatMap codePointUnits)).map UInt8.toNat =
      ns.flatMap codePointBytes := by
    rw [encodeUtf8, codePoints_flatMap hns, List.map_map]
    refine (List.map_congr_left fun b hb => ?_).trans (List.map_id _)
    obtain ⟨n, hn, hb⟩ := List.mem_flatMap.mp hb
    exact toNat_toUInt8 (lt_of_mem_codePointBytes (hns n hn) hb)
  simp only [utf8Text, hbytes, Utf8State.read_flatMap hns]
  simp

theorem publishHeader_fields (dup retain acknowledged : Bool) :
    (publishHeader dup retain acknowledged).toNat / 16 = 3 ∧
      (publishHeader dup retain acknowledged).toNat / 2 % 4 = if acknowledged then 1 else 0 := by
  revert dup retain acknowledged
  decide

theorem typeByNumber_header {m : MqttMessage} {packet : MqttPacket} (h : m.packet? = some packet) :
    typeByNumber (m.header.toNat / 16) = some packet.type := by
  cases m with
  | publish dup retain topic packetId payload =>
    cases h
    rw [header, (publishHeader_fields _ _ _).1]
    rfl
  | unsuback packetId => cases h
  | connack sessionPresent returnCode =>
    cases h
    show typeByNumber ((0x20 : UInt8).toNat / 16) = some .connack
    decide
  | puback packetId =>
    cases h
    show typeByNumber ((0x40 : UInt8).toNat / 16) = some .puback
    decide
  | suback packetId returnCodes =>
    cases h
    show typeByNumber ((0x90 : UInt8).toNat / 16) = some .suback
    decide
  | pingresp =>
    cases h
    show typeByNumber ((0xD0 : UInt8).toNat / 16) = some .pingresp
    decide

/-- A number of two bytes is two bytes, and is read back from them. -/
theorem exists_bigEndian_two {n : Nat} (h : n ≤ 65535) :
    ∃ high low, bigEndian 2 n = [high, low] ∧ ofBigEndian [high, low] = n :=
  ⟨_, _, rfl, ofBigEndian_bigEndian (k := 2) (Nat.lt_succ_of_le h)⟩

/-- **A body is decoded as it was laid out.** -/
theorem decodeBody_body {m : MqttMessage} {packet : MqttPacket} (hvalid : m.Valid)
    (h : m.packet? = some packet) : decodeBody packet.type m.header m.body = some packet := by
  obtain ⟨-, hvalid⟩ := hvalid
  cases m with
  | connack sessionPresent returnCode =>
    cases h
    have hcode : returnCode.toUInt8.toNat = returnCode := by
      rw [toNat_toUInt8_mod]
      exact Nat.mod_eq_of_lt (Nat.lt_of_le_of_lt hvalid (by decide))
    have hflags : (if sessionPresent then 1 else 0 : UInt8).toNat ≤ 1 := by
      cases sessionPresent <;> decide
    rw [body, decodeBody, hcode, if_neg]
    omega
  | publish dup retain topic packetId payload =>
    cases h
    obtain ⟨htopic, hlength, hid⟩ := hvalid
    obtain ⟨high, low, hbytes, hread⟩ := exists_bigEndian_two hlength
    rw [body, hbytes, List.cons_append, List.cons_append, List.nil_append, decodeBody]
    have hroom : ¬ (encodeUtf8 topic ++ ((packetId.map (bigEndian 2)).getD [] ++ payload)).length <
        (encodeUtf8 topic).length := by
      rw [List.length_append]
      omega
    simp only [header, (publishHeader_fields _ _ _).2, hread, if_neg hroom, List.take_left, List.drop_left,
      utf8Text_encodeUtf8 htopic]
    cases packetId with
    | none => rfl
    | some packetId =>
      obtain ⟨idHigh, idLow, hidBytes, hidRead⟩ := exists_bigEndian_two (hid packetId rfl).2
      simp [hidBytes, hidRead]
  | puback packetId =>
    cases h
    obtain ⟨high, low, hbytes, hread⟩ := exists_bigEndian_two hvalid.2
    have hne : packetId ≠ 0 := Nat.pos_iff_ne_zero.mp hvalid.1
    simp only [body, hbytes, decodeBody, hread, if_neg hne]
  | suback packetId returnCodes =>
    cases h
    obtain ⟨hid, hcodes⟩ := hvalid
    obtain ⟨high, low, hbytes, hread⟩ := exists_bigEndian_two hid.2
    have hne : packetId ≠ 0 := Nat.pos_iff_ne_zero.mp hid.1
    simp only [body, hbytes, decodeBody, List.cons_append, List.nil_append, hread, if_neg hne,
      if_neg hcodes]
  | unsuback packetId => cases h
  | pingresp => cases h; rfl

/-- **A message is recognised**, when there is a packet type for it. -/
theorem recognised {m : MqttMessage} {packet : MqttPacket} (hvalid : m.Valid)
    (h : m.packet? = some packet) :
    (∀ more, tryDecodePacket (m.bytes ++ more) = some (packet, m.bytes.length)) ∧
      ∀ l, l <+: m.bytes → l ≠ m.bytes → tryDecodePacket l = none :=
  ⟨tryDecodePacket_packetBytes hvalid.1 (typeByNumber_header h) (decodeBody_body hvalid h),
    fun _ hl hne => tryDecodePacket_prefix hvalid.1 hl hne⟩

/-! ## What the repository encodes -/

/-- **A publication is encoded as it is laid out.** -/
theorem encodePublish_eq_ok {topic : JsString} {payload bytes : List UInt8} {packetId : Option Nat}
    {qos : Nat} (htopic : WellFormed topic)
    (h : encodePublish topic payload packetId qos = .ok bytes) :
    ∃ id : Option Nat, (id = if qos = 0 then none else some (packetId.getD 1)) ∧
      qos = (if id.isSome then 1 else 0) ∧ (publish false false topic id payload).Valid ∧
      (publish false false topic id payload).bytes = bytes := by
  rw [encodePublish, bind_eq_ok] at h
  obtain ⟨u, hqos, h⟩ := h
  split at h
  · cases h
  · rw [bind_eq_ok] at h
    obtain ⟨topicBytes, htopicBytes, h⟩ := h
    obtain ⟨hlength, rfl⟩ := encodeMqttString_eq_ok.mp htopicBytes
    by_cases hzero : qos = 0
    · rw [if_pos hzero, frame_eq_ok, List.append_assoc] at h
      obtain ⟨hbody, rfl⟩ := h
      refine ⟨none, (if_pos hzero).symm, hzero, ⟨hbody, htopic, hlength, nofun⟩, rfl⟩
    · rw [if_neg hzero, bind_eq_ok] at h
      obtain ⟨id, hid, h⟩ := h
      obtain ⟨hpos, hle, rfl⟩ := encodeUint16_eq_ok.mp hid
      rw [frame_eq_ok, List.append_assoc] at h
      obtain ⟨hbody, rfl⟩ := h
      have hone := (validateQos_eq_ok.mp hqos).resolve_left hzero
      refine ⟨some (packetId.getD 1), (if_neg hzero).symm, hone, ⟨hbody, htopic, hlength, ?_⟩, rfl⟩
      intro n hn
      obtain rfl := Option.some.inj hn
      exact ⟨hpos, hle⟩

theorem bytes_puback (packetId : Nat) :
    (puback packetId).bytes = 0x40 :: 2 :: bigEndian 2 packetId := by
  have hlength : lengthBytes 4 2 = [2] := by decide
  rw [bytes, packetBytes, body, length_bigEndian, hlength]
  rfl

/-- **An acknowledgement is encoded as it is laid out.** -/
theorem encodePuback_eq_ok {packetId : Nat} {bytes : List UInt8} :
    encodePuback packetId = .ok bytes ↔ IsPacketId packetId ∧ (puback packetId).bytes = bytes := by
  rw [encodePuback, bind_eq_ok]
  constructor
  · rintro ⟨id, hid, h⟩
    obtain ⟨hpos, hle, rfl⟩ := encodeUint16_eq_ok.mp hid
    exact ⟨⟨hpos, hle⟩, (bytes_puback packetId).trans (Except.ok.inj h)⟩
  · rintro ⟨⟨hpos, hle⟩, rfl⟩
    rw [bytes_puback]
    exact ⟨_, encodeUint16_eq_ok.mpr ⟨hpos, hle, rfl⟩, rfl⟩

end MqttMessage

/-- A valid message that there is a packet type for. -/
structure KnownMessage where
  message : MqttMessage
  packet : MqttPacket
  valid : message.Valid
  packet_eq : message.packet? = some packet

namespace KnownMessage

def bytes (m : KnownMessage) : List UInt8 := m.message.bytes

/-- **The decoder recognises a known message**, as its packet. -/
theorem recognised (m : KnownMessage) :
    mqttDecoder.Recognises KnownMessage.bytes KnownMessage.packet m where
  decode_append more := by
    have h := (MqttMessage.recognised m.valid m.packet_eq).1 more
    simp only [mqttDecoder, bytes, h]
  decode_prefix {l} hl hne := by
    have h := (MqttMessage.recognised m.valid m.packet_eq).2 l hl hne
    simp only [mqttDecoder, h]

theorem isPacketId (m : KnownMessage) :
    m.packet.type = .publish → ∀ id ∈ m.packet.packetId, MqttMessage.IsPacketId id := by
  obtain ⟨message, packet, ⟨-, hvalid⟩, hpacket⟩ := m
  cases message with
  | publish dup retain topic packetId payload =>
    cases hpacket
    exact fun _ => hvalid.2.2
  | unsuback packetId => cases hpacket
  | connack | puback | suback | pingresp =>
    cases hpacket
    intro h
    cases h

end KnownMessage

/-! ## Streams -/

namespace MqttClient

section

-- what the handler of a filter throws at a topic and a payload
variable (handlerThrows : JsString → JsString → List UInt8 → Option Thrown)

def received (actions : List Action) : List UInt8 := actions.flatMap fun
  | .chunk bytes => bytes
  | _ => []

/-- The packets of a list that are no publications. -/
def controlPackets (packets : List MqttPacket) : List MqttPacket :=
  packets.filter fun packet => packet.type ≠ .publish

/-- What keeps a client within its limits when bytes arrive: no more is buffered than the limit, the
queue has room for the packets that are not publications, and no handler throws. -/
def Roomy (c : MqttClient) : Action → Prop
  | .chunk bytes =>
    (c.rawBuffer ++ bytes).length ≤ maxBuffered ∧
    c.controlQueue.length + (controlPackets (mqttDecoder.drain (c.rawBuffer ++ bytes)).packets).length ≤
      maxControlPackets ∧
    ∀ packet ∈ (mqttDecoder.drain (c.rawBuffer ++ bytes)).packets, ∀ topic ∈ packet.topic,
      ∀ payload ∈ packet.payload, ∀ filter ∈ c.subscriptions, topicMatches filter topic = true →
        handlerThrows filter topic payload = none
  | _ => True

variable {handlerThrows}

theorem callHandlers_of_quiet {c : MqttClient} {topic : JsString} {payload : List UInt8}
    {filters : List JsString} (h : ∀ filter ∈ filters, topicMatches filter topic = true →
      handlerThrows filter topic payload = none) :
    ∃ handled, c.callHandlers handlerThrows topic payload filters =
      ({ c with handled := handled }, none) := by
  induction filters generalizing c with
  | nil => exact ⟨c.handled, rfl⟩
  | cons filter filters ih =>
    have hrest := fun f hf => h f (List.mem_cons_of_mem filter hf)
    rw [callHandlers]
    split
    · next hmatch =>
      rw [h filter List.mem_cons_self hmatch]
      exact ih hrest
    · exact ih hrest

theorem deliverIncoming_of_quiet {c : MqttClient} {packet : MqttPacket}
    (hid : ∀ id ∈ packet.packetId, MqttMessage.IsPacketId id)
    (hquiet : ∀ topic ∈ packet.topic, ∀ payload ∈ packet.payload, ∀ filter ∈ c.subscriptions,
      topicMatches filter topic = true → handlerThrows filter topic payload = none) :
    ∃ handled acknowledged, c.deliverIncoming handlerThrows packet =
      ({ c with handled := handled, acknowledged := acknowledged }, none) := by
  rw [deliverIncoming]
  split
  · next topic payload htopic hpayload =>
    obtain ⟨handled, hcalls⟩ := callHandlers_of_quiet (c := c)
      (hquiet topic htopic payload hpayload)
    simp only [hcalls]
    split
    · next packetId hqos hpacketId =>
      rw [MqttMessage.encodePuback_eq_ok.mpr ⟨hid packetId hpacketId, rfl⟩]
      exact ⟨handled, _, rfl⟩
    · exact ⟨handled, c.acknowledged, rfl⟩
  · exact ⟨c.handled, c.acknowledged, rfl⟩

/-- **Packets that there is room for are decoded**, and what is left of the buffer goes back. -/
theorem handlePackets_of_quiet {c : MqttClient} (rest : List UInt8) {packets : List MqttPacket}
    (hid : ∀ packet ∈ packets, packet.type = .publish →
      ∀ id ∈ packet.packetId, MqttMessage.IsPacketId id)
    (hroom : c.controlQueue.length + (controlPackets packets).length ≤ maxControlPackets)
    (hquiet : ∀ packet ∈ packets, ∀ topic ∈ packet.topic, ∀ payload ∈ packet.payload,
      ∀ filter ∈ c.subscriptions, topicMatches filter topic = true →
        handlerThrows filter topic payload = none) :
    ∃ controlQueue handled acknowledged, handlePackets handlerThrows rest c packets =
      ({ c with
          rawBuffer := rest
          decoded := c.decoded ++ packets
          controlQueue := controlQueue
          handled := handled
          acknowledged := acknowledged }, none) := by
  induction packets generalizing c with
  | nil => exact ⟨c.controlQueue, c.handled, c.acknowledged, by rw [handlePackets, List.append_nil]⟩
  | cons packet packets ih =>
    have hid' := fun p hp => hid p (List.mem_cons_of_mem packet hp)
    have hquiet' := fun p hp => hquiet p (List.mem_cons_of_mem packet hp)
    rw [handlePackets]
    by_cases hpublish : packet.type = .publish
    · obtain ⟨handled, acknowledged, hdeliver⟩ := deliverIncoming_of_quiet
        (c := { c with decoded := c.decoded ++ [packet] })
        (hid packet List.mem_cons_self hpublish) (hquiet packet List.mem_cons_self)
      simp only [handlePacket, if_pos hpublish, hdeliver]
      have hroom' : c.controlQueue.length + (controlPackets packets).length ≤ maxControlPackets := by
        rwa [controlPackets, List.filter_cons_of_neg (by simpa using hpublish)] at hroom
      obtain ⟨queue, handled, acknowledged, heq⟩ := ih (c := { c with
        decoded := c.decoded ++ [packet], handled := handled, acknowledged := acknowledged })
        hid' hroom' hquiet'
      refine ⟨queue, handled, acknowledged, heq.trans ?_⟩
      simp only [List.append_assoc, List.singleton_append]
    · rw [controlPackets, List.filter_cons_of_pos (by simpa using hpublish), List.length_cons] at hroom
      have hnotFull : ¬ c.controlQueue.length ≥ maxControlPackets := by omega
      simp only [handlePacket, if_neg hpublish, if_neg hnotFull]
      have hroom' : (c.controlQueue ++ [packet]).length + (controlPackets packets).length ≤
          maxControlPackets := by
        rw [List.length_append, List.length_singleton, controlPackets]
        omega
      obtain ⟨queue, handled, acknowledged, heq⟩ := ih (c := { c with
        decoded := c.decoded ++ [packet], controlQueue := c.controlQueue ++ [packet] })
        hid' hroom' hquiet'
      refine ⟨queue, handled, acknowledged, heq.trans ?_⟩
      simp only [List.append_assoc, List.singleton_append]

/-- **A buffer within the limits** is decoded: the packets of the first messages of the stream come
off, and what is left is less than the next. -/
theorem drainRawBuffer_of_quiet {c : MqttClient} {messages : List KnownMessage}
    (hbuffer : c.rawBuffer <+: messages.flatMap KnownMessage.bytes)
    (hsize : c.rawBuffer.length ≤ maxBuffered)
    (hroom : c.controlQueue.length + (controlPackets (mqttDecoder.drain c.rawBuffer).packets).length ≤
      maxControlPackets)
    (hquiet : ∀ packet ∈ (mqttDecoder.drain c.rawBuffer).packets, ∀ topic ∈ packet.topic,
      ∀ payload ∈ packet.payload, ∀ filter ∈ c.subscriptions, topicMatches filter topic = true →
        handlerThrows filter topic payload = none) :
    ∃ done rest controlQueue handled acknowledged rawBuffer, messages = done ++ rest ∧
      c.rawBuffer = done.flatMap KnownMessage.bytes ++ rawBuffer ∧
      mqttDecoder.decode rawBuffer = .incomplete ∧
      c.drainRawBuffer handlerThrows =
        ({ c with
            rawBuffer := rawBuffer
            decoded := c.decoded ++ done.map KnownMessage.packet
            controlQueue := controlQueue
            handled := handled
            acknowledged := acknowledged }, none) := by
  obtain ⟨done, rest, rfl, hpackets, hfailure, hsplit⟩ :=
    PacketDecoder.drain_of_prefix (fun m _ => KnownMessage.recognised m) hbuffer
  have hwait := mqttDecoder.decode_rest c.rawBuffer
  simp only [hfailure] at hwait
  have hid : ∀ packet ∈ (mqttDecoder.drain c.rawBuffer).packets, packet.type = .publish →
      ∀ id ∈ packet.packetId, MqttMessage.IsPacketId id := by
    intro packet hpacket
    rw [hpackets] at hpacket
    obtain ⟨m, -, rfl⟩ := List.mem_map.mp hpacket
    exact m.isPacketId
  obtain ⟨controlQueue, handled, acknowledged, heq⟩ := handlePackets_of_quiet
    (c := { c with rawBuffer := [] }) (mqttDecoder.drain c.rawBuffer).rest hid hroom hquiet
  refine ⟨done, rest, controlQueue, handled, acknowledged, _, rfl, hsplit, hwait, ?_⟩
  rw [drainRawBuffer, if_neg (Nat.not_lt.mpr hsize), heq, hpackets]

/-- What holds of a client that has received the beginning of a stream within its limits: the packets
of the first messages are decoded, and what is buffered is less than the next. -/
structure InStep (messages : List KnownMessage) (bytes : List UInt8) (c : MqttClient) : Prop where
  split : ∃ done rest, messages = done ++ rest ∧
    bytes = done.flatMap KnownMessage.bytes ++ c.rawBuffer ∧
    c.decoded = done.map KnownMessage.packet
  waits : mqttDecoder.decode c.rawBuffer = .incomplete
  fits : c.rawBuffer.length ≤ maxBuffered

/-- **A chunk within the limits** keeps a client in step with the stream. -/
theorem InStep.chunk {messages : List KnownMessage} {bytes chunk : List UInt8} {c c' : MqttClient}
    (hc : c.InStep messages bytes)
    (hstream : bytes ++ chunk <+: messages.flatMap KnownMessage.bytes)
    (hroomy : c.Roomy handlerThrows (.chunk chunk))
    (h : (machine handlerThrows).step c (.chunk chunk) = some c') :
    c'.InStep messages (bytes ++ chunk) := by
  obtain ⟨done, rest, rfl, rfl, hdecoded⟩ := hc.split
  obtain ⟨hsize, hroom, hquiet⟩ := hroomy
  rw [List.append_assoc, List.flatMap_append, List.prefix_append_right_inj] at hstream
  obtain ⟨later, rest, controlQueue, handled, acknowledged, rawBuffer, rfl, hsplit, hwaits, heq⟩ :=
    drainRawBuffer_of_quiet (c := { c with rawBuffer := c.rawBuffer ++ chunk }) hstream hsize hroom
      hquiet
  simp only [machine] at h
  split at h
  · obtain rfl := Option.some.inj h
    rw [receive, heq]
    refine ⟨⟨done ++ later, rest, (List.append_assoc _ _ _).symm, ?_, ?_⟩, hwaits, ?_⟩
    · rw [List.append_assoc, List.flatMap_append, List.append_assoc]
      exact congrArg (_ ++ ·) hsplit
    · rw [List.map_append]
      exact congrArg (· ++ _) hdecoded
    · have hlength := congrArg List.length hsplit
      simp only [List.length_append] at hlength hsize ⊢
      omega
  · cases h

/-- **A round of `sendAwait`** decodes nothing when nothing has arrived. -/
theorem poll_of_waits {c : MqttClient} (hwaits : mqttDecoder.decode c.rawBuffer = .incomplete)
    (hfits : c.rawBuffer.length ≤ maxBuffered) (predicate : MqttPacket → Bool) :
    c.poll handlerThrows predicate =
      { c with controlQueue := c.controlQueue.eraseP predicate } := by
  have hdrain : c.drainRawBuffer handlerThrows = (c, none) := by
    rw [drainRawBuffer, if_neg (Nat.not_lt.mpr hfits), mqttDecoder.drain_of_incomplete hwaits]
    rfl
  rw [poll, hdrain]

/-- **A step within the limits** keeps a client in step with the stream. -/
theorem InStep.step {messages : List KnownMessage} {bytes : List UInt8} {c c' : MqttClient}
    {a : Action} (hc : c.InStep messages bytes)
    (hstream : bytes ++ received [a] <+: messages.flatMap KnownMessage.bytes)
    (hroomy : c.Roomy handlerThrows a) (h : (machine handlerThrows).step c a = some c') :
    c'.InStep messages (bytes ++ received [a]) := by
  cases a with
  | chunk chunk =>
    have hone : received [.chunk chunk] = chunk := by simp [received]
    rw [hone] at hstream ⊢
    exact hc.chunk hstream hroomy h
  | poll predicate =>
    obtain rfl := Option.some.inj h
    rw [poll_of_waits hc.waits hc.fits, received, List.flatMap_singleton, List.append_nil]
    exact ⟨hc.split, hc.waits, hc.fits⟩
  | setSubscriptions | close =>
    obtain rfl := Option.some.inj h
    rw [received, List.flatMap_singleton, List.append_nil]
    exact ⟨hc.split, hc.waits, hc.fits⟩
  | endOfStream =>
    simp only [machine] at h
    split at h <;> cases h
    rw [received, List.flatMap_singleton, List.append_nil]
    exact ⟨hc.split, hc.waits, hc.fits⟩

/-- **A run within the limits** keeps a client in step with the stream. -/
theorem InStep.run {messages : List KnownMessage} {bytes : List UInt8} {c c' : MqttClient}
    {actions : List Action} (hc : c.InStep messages bytes)
    (hstream : bytes ++ received actions <+: messages.flatMap KnownMessage.bytes)
    (hroomy : (machine handlerThrows).Guarded (Roomy handlerThrows) c actions)
    (h : (machine handlerThrows).run c actions = some c') :
    c'.InStep messages (bytes ++ received actions) := by
  induction actions generalizing bytes c with
  | nil =>
    obtain rfl : c = c' := by simpa using h
    rw [received, List.flatMap_nil, List.append_nil]
    exact hc
  | cons a actions ih =>
    obtain ⟨m, hm, hrest⟩ := (machine handlerThrows).run_cons_eq_some.mp h
    obtain ⟨hfirst, hlater⟩ := Machine.Guarded.of_cons hroomy hm
    have hreceived : received (a :: actions) = received [a] ++ received actions := by
      rw [received, received, received, ← List.flatMap_append]
      rfl
    rw [hreceived, ← List.append_assoc] at hstream ⊢
    have hstep := hc.step ((List.prefix_append _ _).trans hstream) hfirst hm
    exact ih hstep hstream hlater hrest

/-- **The MQTT codec.** A message of the subset is decoded as its packet, whatever follows it, and
less of it is not; the repository encodes publications and acknowledgements as they are laid out; and
a client within its limits decodes a stream of messages in order, however it is cut. -/
theorem decodes_of_roomy :
    (∀ m : KnownMessage, (∀ more, tryDecodePacket (m.bytes ++ more) = some (m.packet, m.bytes.length)) ∧
      ∀ l, l <+: m.bytes → l ≠ m.bytes → tryDecodePacket l = none) ∧
    (∀ topic payload packetId qos bytes, WellFormed topic →
      encodePublish topic payload packetId qos = .ok bytes → ∃ m : KnownMessage, m.bytes = bytes ∧
        m.packet = { type := .publish, topic := some topic, payload := some payload, qos := some qos
                     packetId := if qos = 0 then none else some (packetId.getD 1) }) ∧
    (∀ packetId bytes, encodePuback packetId = .ok bytes → ∃ m : KnownMessage, m.bytes = bytes ∧
      m.packet = { type := .puback, packetId := some packetId }) ∧
    ∀ (handlerThrows : JsString → JsString → List UInt8 → Option Thrown)
      (messages : List KnownMessage) (actions : List Action) (c : MqttClient),
      (machine handlerThrows).run {} actions = some c →
      received actions <+: messages.flatMap KnownMessage.bytes →
      (machine handlerThrows).Guarded (Roomy handlerThrows) {} actions →
      ∃ done rest, messages = done ++ rest ∧
        received actions = done.flatMap KnownMessage.bytes ++ c.rawBuffer ∧
        (∀ m ∈ rest.head?, ¬ m.bytes <+: c.rawBuffer) ∧
        c.decoded = done.map KnownMessage.packet := by
  refine ⟨fun m => MqttMessage.recognised m.valid m.packet_eq, ?_, ?_, ?_⟩
  · intro topic payload packetId qos bytes htopic h
    obtain ⟨id, hid, hqos, hvalid, hbytes⟩ := MqttMessage.encodePublish_eq_ok htopic h
    refine ⟨⟨_, _, hvalid, rfl⟩, hbytes, ?_⟩
    simp only [← hid, ← hqos]
  · intro packetId bytes h
    obtain ⟨hid, hbytes⟩ := MqttMessage.encodePuback_eq_ok.mp h
    have hlength : (MqttMessage.puback packetId).body.length ≤ maxRemainingLength := by
      rw [MqttMessage.body, length_bigEndian]
      decide
    exact ⟨⟨_, _, ⟨hlength, hid⟩, rfl⟩, hbytes, rfl⟩
  · intro handlerThrows messages actions c hrun hstream hroomy
    have hstart : InStep messages [] {} :=
      ⟨⟨[], messages, rfl, rfl, rfl⟩, mqttDecoder.decode_nil, Nat.zero_le _⟩
    have hc : c.InStep messages ([] ++ received actions) := hstart.run hstream hroomy hrun
    obtain ⟨done, rest, rfl, hsplit, hdecoded⟩ := hc.split
    exact ⟨done, rest, rfl, hsplit, fun m _ => m.recognised.not_isPrefix hc.waits, hdecoded⟩

/-- A run within the limits can be told from its states. -/
instance (c : MqttClient) (a : Action) : Decidable (c.Roomy handlerThrows a) :=
  match a with
  | .chunk _ => inferInstanceAs (Decidable (_ ∧ _ ∧ _))
  | .poll _ | .setSubscriptions _ | .close | .endOfStream => isTrue trivial

/-- A publication, a ping and an acknowledgement, cut within the publication and the ping. -/
theorem decodes_of_roomy_lamp :
    ∃ c : MqttClient, c.decoded.map MqttPacket.type = [.publish, .pingresp] ∧
      ∃ done rest : List KnownMessage,
        received [.setSubscriptions [js "+"], .chunk [0x32, 6, 0, 1], .chunk [97, 0, 7, 1, 0xD0],
          .chunk [0, 0x90, 3]] = done.flatMap KnownMessage.bytes ++ c.rawBuffer ∧
        (∀ m ∈ rest.head?, ¬ m.bytes <+: c.rawBuffer) ∧
        c.decoded = done.map KnownMessage.packet := by
  obtain ⟨c, hc, htypes⟩ := Option.map_eq_some_iff.mp
    (show ((machine fun _ _ _ => none).run {} [.setSubscriptions [js "+"], .chunk [0x32, 6, 0, 1],
      .chunk [97, 0, 7, 1, 0xD0], .chunk [0, 0x90, 3]]).map
        (fun c => c.decoded.map MqttPacket.type) = some [.publish, .pingresp] by decide +kernel)
  obtain ⟨done, rest, -, hsplit, hrest, hdecoded⟩ := decodes_of_roomy.2.2.2 (fun _ _ _ => none)
    [⟨.publish false false (js "a") (some 7) [1], _,
        ⟨by decide, wellFormed_of_forall_lt (by decide), by decide, by decide⟩, rfl⟩,
      ⟨.pingresp, _, ⟨by decide, trivial⟩, rfl⟩,
      ⟨.suback 1 [0], _, ⟨by decide, by decide, by decide⟩, rfl⟩]
    _ c hc (by decide +kernel) (by decide +kernel)
  exact ⟨c, htypes, done, rest, hsplit, hrest, hdecoded⟩

/-- A buffer beyond the limit ends the session, and nothing of it is decoded. -/
theorem receive_of_too_large {c : MqttClient} {chunk : List UInt8}
    (h : maxBuffered < (c.rawBuffer ++ chunk).length) :
    c.receive handlerThrows chunk =
      { c with rawBuffer := c.rawBuffer ++ chunk, closed := true, consuming := false } := by
  rw [receive, drainRawBuffer, if_pos h]

/-- More packets that nobody claims than there is room for end the loop with an error. -/
theorem handlePackets_of_full {c : MqttClient} {rest : List UInt8} {packets : List MqttPacket}
    (hcontrol : ∀ packet ∈ packets, packet.type ≠ .publish)
    (hfull : maxControlPackets < c.controlQueue.length + packets.length)
    (hqueue : c.controlQueue.length ≤ maxControlPackets) :
    (handlePackets handlerThrows rest c packets).2.isSome = true := by
  induction packets generalizing c with
  | nil => exact absurd hfull (Nat.not_lt.mpr hqueue)
  | cons packet packets ih =>
    have hpacket := hcontrol packet List.mem_cons_self
    rw [handlePackets]
    by_cases hroom : c.controlQueue.length ≥ maxControlPackets
    · simp only [handlePacket, if_neg hpacket, if_pos hroom, Option.isSome_some]
    · simp only [handlePacket, if_neg hpacket, if_neg hroom]
      refine ih (fun p hp => hcontrol p (List.mem_cons_of_mem packet hp)) ?_ ?_
      · simp only [List.length_append, List.length_cons, List.length_nil] at hfull ⊢
        omega
      · simp only [List.length_append, List.length_cons, List.length_nil]
        omega

/-- A client that receives more packets that nobody claims than there is room for stops. -/
theorem receive_of_full {messages : List KnownMessage}
    (hcontrol : ∀ m ∈ messages, m.packet.type ≠ .publish)
    (hfull : maxControlPackets < messages.length) :
    (({} : MqttClient).receive handlerThrows (messages.flatMap KnownMessage.bytes)).consuming =
      false := by
  by_cases hlarge : maxBuffered < (messages.flatMap KnownMessage.bytes).length
  · rw [receive_of_too_large (by simpa using hlarge)]
  · have hdrain : mqttDecoder.drain (messages.flatMap KnownMessage.bytes) = ⟨_, [], none⟩ :=
      PacketDecoder.drain_flatMap fun m _ => KnownMessage.recognised m
    have hthrown : (handlePackets handlerThrows [] {} (messages.map KnownMessage.packet)).2.isSome =
        true := handlePackets_of_full
      (fun packet hpacket => by
        obtain ⟨m, hm, rfl⟩ := List.mem_map.mp hpacket
        exact hcontrol m hm)
      (by rw [List.length_map]; exact Nat.lt_of_lt_of_le hfull (Nat.le_add_left _ _))
      (Nat.zero_le _)
    rw [receive, drainRawBuffer, List.nil_append, if_neg hlarge, hdrain]
    split
    · next c hnone =>
      simp only [hnone] at hthrown
      cases hthrown
    · rfl

theorem exists_length_lt {payload : List UInt8} (h : payload.length ≤ maxBuffered) :
    ∃ m : KnownMessage, payload.length < m.bytes.length := by
  have hlength : (MqttMessage.publish false false (js "a") none payload).body.length =
      3 + payload.length := by
    have htopic : (encodeUtf8 (js "a")).length = 1 := by decide
    simp only [MqttMessage.body, List.length_append, length_bigEndian, htopic, Option.map_none,
      Option.getD_none, List.length_nil]
    omega
  refine ⟨⟨.publish false false (js "a") none payload, _,
    ⟨?_, wellFormed_of_forall_lt (by decide), by decide, nofun⟩, rfl⟩, ?_⟩
  · rw [hlength]
    exact (Nat.add_le_add_left h 3).trans (by decide)
  · rw [KnownMessage.bytes, MqttMessage.bytes, packetBytes, List.length_cons, List.length_append, hlength]
    omega

/-- **What is not decoded.** The answer to an unsubscription, though it is a valid message; a
publication that is larger than what a client buffers; anything behind more acknowledgements than
there is room for; and anything behind a publication that a handler throws at. -/
theorem not_decoded :
    (∃ m : MqttMessage, m.Valid ∧ tryDecodePacket m.bytes = none) ∧
    (∃ m : KnownMessage, ∀ c, (machine fun _ _ _ => none).run {} [.chunk m.bytes] = some c →
      c.decoded = []) ∧
    (∃ messages : List KnownMessage, ∀ c,
      (machine fun _ _ _ => none).run {} [.chunk (messages.flatMap KnownMessage.bytes)] = some c →
        c.consuming = false) ∧
    ∃ messages : List KnownMessage, messages.length = 2 ∧
      ((machine fun _ _ _ => some (.value (js "thrown") none)).run {}
        [.setSubscriptions [js "a"], .chunk (messages.flatMap KnownMessage.bytes)]).map
          (fun c => (c.decoded.length, c.consuming)) = some (1, false) := by
  refine ⟨⟨.unsuback 1, ⟨by decide, by decide, by decide⟩, by decide +kernel⟩, ?_, ?_, ?_⟩
  · obtain ⟨m, hm⟩ := exists_length_lt (List.length_replicate (n := maxBuffered) (a := 0)).le
    refine ⟨m, fun c hc => ?_⟩
    rw [List.length_replicate] at hm
    rw [Machine.run_singleton] at hc
    obtain rfl := Option.some.inj hc
    rw [receive_of_too_large]
    rwa [List.nil_append]
  · refine ⟨List.replicate (maxControlPackets + 1) ⟨.pingresp, _, ⟨by decide, trivial⟩, rfl⟩, ?_⟩
    intro c hc
    rw [Machine.run_singleton] at hc
    obtain rfl := Option.some.inj hc
    refine receive_of_full (fun m hm => ?_) (by rw [List.length_replicate]; exact Nat.lt_succ_self _)
    rw [(List.mem_replicate.mp hm).2]
    decide
  · exact ⟨[⟨.publish false false (js "a") none [], _,
        ⟨by decide, wellFormed_of_forall_lt (by decide), by decide, nofun⟩, rfl⟩,
      ⟨.pingresp, _, ⟨by decide, trivial⟩, rfl⟩], rfl, by decide +kernel⟩

end

end MqttClient

end Pinout.Mqtt
