import Pinout.Foundation.Machine
import Pinout.Mqtt.Wire

/-! # The MQTT client

How `MqttClient` (`packages/protocols-mqtt/src/mqttClient.ts`) turns what its transport yields into
packets: publications go to the handlers of the matching subscriptions and are acknowledged, all other
packets wait in a queue for whoever awaits them. What a handler throws is left open. -/

namespace Pinout.Mqtt

open Foundation

/-! ## Topics -/

/-- The loop of `topicMatches` over the parts of a filter and of a topic. -/
def partsMatch : List JsString → List JsString → Bool
  | [], [] => true
  | [], _ :: _ => false
  | part :: filterParts, topicParts =>
    if part = js "#" then filterParts = []
    else match topicParts with
      | [] => false
      | topicPart :: topicParts =>
        if part = js "+" ∨ part = topicPart then partsMatch filterParts topicParts else false

def topicMatches (filter topic : JsString) : Bool :=
  if topic.head? = some 36 ∧ filter.head? ≠ some 36 then false
  else if filter = topic then true
  else partsMatch (filter.splitOn 47) (topic.splitOn 47)

/-! ## The client -/

/-- `MqttClient`, with what it has decoded, handed out and written. -/
structure MqttClient where
  rawBuffer : List UInt8 := []
  controlQueue : List MqttPacket := []
  subscriptions : List JsString := []
  closed : Bool := false
  consuming : Bool := true
  decoded : List MqttPacket := []
  handled : List (JsString × JsString × List UInt8) := []
  acknowledged : List (List UInt8) := []

namespace MqttClient

/-- The limit of `drainRawBuffer` on what is buffered. -/
def maxBuffered : Nat := 1024 * 1024

/-- The limit of `drainRawBuffer` on packets that nobody claims. -/
def maxControlPackets : Nat := 65535

section

-- what the handler of a filter throws at a topic and a payload
variable (handlerThrows : JsString → JsString → List UInt8 → Option Thrown)

/-- The loop of `deliverIncoming` over the subscriptions. -/
def callHandlers (c : MqttClient) (topic : JsString) (payload : List UInt8) :
    List JsString → MqttClient × Option Thrown
  | [] => (c, none)
  | filter :: filters =>
    if topicMatches filter topic then
      match handlerThrows filter topic payload with
      | some e => ({ c with handled := c.handled ++ [(filter, topic, payload)] }, some e)
      | none =>
        callHandlers { c with handled := c.handled ++ [(filter, topic, payload)] } topic payload filters
    else callHandlers c topic payload filters

def deliverIncoming (c : MqttClient) (packet : MqttPacket) : MqttClient × Option Thrown :=
  match packet.topic, packet.payload with
  | some topic, some payload =>
    match c.callHandlers handlerThrows topic payload c.subscriptions with
    | (c, some e) => (c, some e)
    | (c, none) =>
      match packet.qos, packet.packetId with
      | some 1, some packetId => match encodePuback packetId with
        | .ok bytes => ({ c with acknowledged := c.acknowledged ++ [bytes] }, none)
        | .error e => (c, some e)
      | _, _ => (c, none)
  | _, _ => (c, none)

/-- One round of the loop of `drainRawBuffer`, after a packet is decoded. -/
def handlePacket (c : MqttClient) (packet : MqttPacket) : MqttClient × Option Thrown :=
  let c := { c with decoded := c.decoded ++ [packet] }
  if packet.type = .publish then c.deliverIncoming handlerThrows packet
  else if c.controlQueue.length ≥ maxControlPackets then
    (c, some (mqttError (js "MQTT_QUEUE_FULL") (js "Too many unclaimed control packets.")))
  else ({ c with controlQueue := c.controlQueue ++ [packet] }, none)

/-- The loop of `drainRawBuffer`; what is left of the buffer goes back when nothing is thrown. -/
def handlePackets (rest : List UInt8) : MqttClient → List MqttPacket → MqttClient × Option Thrown
  | c, [] => ({ c with rawBuffer := rest }, none)
  | c, packet :: packets => match c.handlePacket handlerThrows packet with
    | (c, some e) => (c, some e)
    | (c, none) => handlePackets rest c packets

def drainRawBuffer (c : MqttClient) : MqttClient × Option Thrown :=
  if c.rawBuffer.length > maxBuffered then
    (c, some (mqttError (js "MQTT_PACKET_TOO_LARGE")
      (js "Buffered MQTT data exceeds the 1 MiB client limit.")))
  else
    let drained := mqttDecoder.drain c.rawBuffer
    handlePackets handlerThrows drained.rest { c with rawBuffer := [] } drained.packets

/-- One round of the loop of `consume`: what is thrown ends the session. -/
def receive (c : MqttClient) (chunk : List UInt8) : MqttClient :=
  match { c with rawBuffer := c.rawBuffer ++ chunk }.drainRawBuffer handlerThrows with
  | (c, none) => c
  | (c, some _) => { c with closed := true, consuming := false }

/-- One round of the loop of `sendAwait`: drain, and claim the first packet that is awaited. What
`drainRawBuffer` throws goes to the caller. -/
def poll (c : MqttClient) (predicate : MqttPacket → Bool) : MqttClient :=
  match c.drainRawBuffer handlerThrows with
  | (c, none) => { c with controlQueue := c.controlQueue.eraseP predicate }
  | (c, some _) => c

inductive Action
  | chunk (bytes : List UInt8)
  | poll (predicate : MqttPacket → Bool)
  | setSubscriptions (filters : List JsString)
  | close
  | endOfStream

def machine : Machine MqttClient Action where
  step c
    | .chunk bytes => if c.consuming then some (c.receive handlerThrows bytes) else none
    | .poll predicate => some (c.poll handlerThrows predicate)
    | .setSubscriptions filters => some { c with subscriptions := filters }
    | .close => some { c with closed := true }
    | .endOfStream => if c.consuming then some { c with closed := true, consuming := false } else none

end

end MqttClient

end Pinout.Mqtt
