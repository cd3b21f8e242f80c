import Pinout.Foundation.Json
import Pinout.Foundation.Machine

/-! # The stream bus

`packages/core/src/stream/streamBus.ts`: a broker that fans frames out to subscribers with bounded queues. Whoever asks
for the next frame of an empty queue leaves the promise it was given in the subscriber's one `notify` slot, where a
publication or the end finds it. -/

namespace Pinout.Stream

open Foundation

/-- `StreamDescriptor`, as far as the bus reads it. -/
structure StreamDescriptor where
  id : String
  deviceId : String
  name : String
  deriving DecidableEq, Repr

/-- `StreamFrame`, over the type of its data. -/
structure StreamFrame (D : Type) where
  streamId : String
  sequence : Nat
  sourceAt : Option Int
  publishedAt : Int
  data : D
  metadata : Option JsonObject

inductive BackpressurePolicy
  | dropOldest | dropLatest | latestOnly
  deriving DecidableEq, Repr

structure SubscribeOptions where
  bufferSize : Option Nat := none
  policy : Option BackpressurePolicy := none
  deriving DecidableEq, Repr

/-- `IteratorResult<StreamFrame>`. -/
inductive IteratorResult (D : Type)
  | done
  | value (frame : StreamFrame D)

def IteratorResult.frame? {D : Type} : IteratorResult D → Option (StreamFrame D)
  | done => none
  | value frame => some frame

def defaultBuffer : Nat := 64

/-! ## Subscribers -/

/-- `SubscriberQueue`, with what `subscribe` closes over. -/
structure SubscriberQueue (D : Type) where
  streamId : String
  queue : List (StreamFrame D) := []
  bufferSize : Nat
  policy : BackpressurePolicy
  notify : Option Nat := none
  closed : Bool := false
  iteratorDone : Bool := false
  /-- Whether the stream has the subscriber, and the signal of its end, among its own. -/
  subscribed : Bool := true
  ended : Bool := false
  /-- The promises given for reads, in the order of the calls: what they are resolved to, or nothing yet. -/
  reads : List (Option (IteratorResult D)) := []
  offered : List (StreamFrame D) := []
  dropped : List (StreamFrame D) := []

namespace SubscriberQueue

variable {D : Type}

/-- The frames the reads were resolved to, in the order of the calls. -/
def received (sub : SubscriberQueue D) : List (StreamFrame D) :=
  sub.reads.filterMap fun read => read.bind IteratorResult.frame?

def pending (sub : SubscriberQueue D) : Nat :=
  sub.reads.countP Option.isNone

/-- `resolve` of the promise of a read. -/
def resolve (sub : SubscriberQueue D) (read : Nat) (result : IteratorResult D) : SubscriberQueue D :=
  { sub with reads := sub.reads.set read (some result) }

def finish (sub : SubscriberQueue D) : SubscriberQueue D :=
  if sub.iteratorDone then sub else { sub with iteratorDone := true, ended := true, subscribed := false }

/-- `notify()`: the slot is emptied, and the read it held is resolved if there is anything to resolve it to. -/
def fire (sub : SubscriberQueue D) : SubscriberQueue D :=
  match sub.notify with
  | none => sub
  | some read =>
    let sub := { sub with notify := none }
    if sub.iteratorDone then sub.resolve read .done
    else match sub.queue with
      | frame :: queue => { sub with queue := queue }.resolve read (.value frame)
      | [] => if sub.closed then sub.finish.resolve read .done else sub

/-- Whether a publication counts as dropped for this subscriber. -/
def drops (sub : SubscriberQueue D) : Bool :=
  sub.policy ≠ .latestOnly && sub.bufferSize ≤ sub.queue.length

/-- What `publish` does to the queue of a subscriber. -/
def push (sub : SubscriberQueue D) (frame : StreamFrame D) : SubscriberQueue D :=
  if sub.policy = .latestOnly then { sub with queue := [frame] }
  else if sub.bufferSize ≤ sub.queue.length then
    if sub.policy = .dropOldest then
      { sub with queue := sub.queue.tail ++ [frame], dropped := sub.dropped ++ sub.queue.head?.toList }
    else { sub with dropped := sub.dropped ++ [frame] }
  else { sub with queue := sub.queue ++ [frame] }

/-- What `publish` does to a subscriber. -/
def offer (sub : SubscriberQueue D) (frame : StreamFrame D) : SubscriberQueue D :=
  { sub.push frame with offered := sub.offered ++ [frame] }.fire

def next (sub : SubscriberQueue D) : SubscriberQueue D :=
  if sub.iteratorDone then { sub with reads := sub.reads ++ [some .done] }
  else match sub.queue with
    | frame :: queue => { sub with queue := queue, reads := sub.reads ++ [some (.value frame)] }
    | [] =>
      if sub.closed then { sub.finish with reads := sub.reads ++ [some .done] }
      else { sub with reads := sub.reads ++ [none], notify := some sub.reads.length }

/-- `close`, and `return` of an iterator. -/
def close (sub : SubscriberQueue D) : SubscriberQueue D :=
  { sub with closed := true }.fire.finish

/-- What `closeStream` does to a subscriber of the stream. -/
def closeStream (sub : SubscriberQueue D) : SubscriberQueue D :=
  { { sub with ended := true, closed := true }.fire with subscribed := false }

end SubscriberQueue

/-! ## The bus -/

structure StreamCounters where
  published : Nat := 0
  dropped : Nat := 0
  deriving DecidableEq, Repr

structure StreamStats where
  publishedFrames : Nat
  droppedFrames : Nat
  subscribers : Nat
  deriving DecidableEq, Repr

/-- `StreamBus`, with every subscription that was made, in order. -/
structure StreamBus (D : Type) where
  streams : List StreamDescriptor := []
  latestFrame : String → Option (StreamFrame D) := fun _ => none
  sequences : String → Nat := fun _ => 0
  statsMap : String → StreamCounters := fun _ => {}
  handles : List (SubscriberQueue D) := []

namespace StreamBus

variable {D : Type}

/-- `streams.has(streamId)`. -/
def has (bus : StreamBus D) (streamId : String) : Bool :=
  bus.streams.any fun descriptor => descriptor.id = streamId

def register (bus : StreamBus D) (descriptor : StreamDescriptor) : Except String (StreamBus D) :=
  if bus.has descriptor.id then .error ("Stream '" ++ descriptor.id ++ "' is already registered.")
  else .ok { bus with
    streams := bus.streams ++ [descriptor]
    statsMap := Function.update bus.statsMap descriptor.id {} }

def subscribers (bus : StreamBus D) (streamId : String) : List (SubscriberQueue D) :=
  bus.handles.filter fun sub => sub.subscribed && sub.streamId = streamId

/-- The subscribers of a stream are changed, the other subscriptions are not. -/
def updateSubscribers (bus : StreamBus D) (streamId : String) (f : SubscriberQueue D → SubscriberQueue D) :
    StreamBus D :=
  { bus with handles := bus.handles.map fun sub => if sub.subscribed && sub.streamId = streamId then f sub else sub }

/-- The frame `publish` makes. -/
def frameOf (bus : StreamBus D) (streamId : String) (data : D) (sourceAt : Option Int)
    (metadata : Option JsonObject) (now : Int) : StreamFrame D :=
  ⟨streamId, bus.sequences streamId, sourceAt, now, data, metadata⟩

/-- `publish`, at the time `now`. -/
def publish (bus : StreamBus D) (streamId : String) (data : D) (sourceAt : Option Int)
    (metadata : Option JsonObject) (now : Int) : Except String (StreamBus D × StreamFrame D) :=
  if bus.has streamId then
    let frame := bus.frameOf streamId data sourceAt metadata now
    let counters := bus.statsMap streamId
    let dropped := (bus.subscribers streamId).countP SubscriberQueue.drops
    let bus := { bus with
      sequences := Function.update bus.sequences streamId (bus.sequences streamId + 1)
      latestFrame := Function.update bus.latestFrame streamId (some frame)
      statsMap := Function.update bus.statsMap streamId ⟨counters.published + 1, counters.dropped + dropped⟩ }
    .ok (bus.updateSubscribers streamId fun sub => sub.offer frame, frame)
  else .error ("Cannot publish to unknown stream '" ++ streamId ++ "'.")

def snapshot (bus : StreamBus D) (streamId : String) : Option (StreamFrame D) :=
  bus.latestFrame streamId

/-- The `sub` of `subscribe`. -/
def subscriberOf (streamId : String) (options : SubscribeOptions) : SubscriberQueue D :=
  { streamId := streamId
    bufferSize := options.bufferSize.getD defaultBuffer
    policy := options.policy.getD .dropOldest }

/-- `subscribe`, with the number of the handle. -/
def subscribe (bus : StreamBus D) (streamId : String) (options : SubscribeOptions) :
    Except String (StreamBus D × Nat) :=
  if bus.has streamId then
    .ok ({ bus with handles := bus.handles ++ [subscriberOf streamId options] }, bus.handles.length)
  else .error ("Unknown stream '" ++ streamId ++ "'.")

def closeStream (bus : StreamBus D) (streamId : String) : StreamBus D :=
  bus.updateSubscribers streamId SubscriberQueue.closeStream

def stats (bus : StreamBus D) (streamId : String) : Option StreamStats :=
  if bus.has streamId then
    some ⟨(bus.statsMap streamId).published, (bus.statsMap streamId).dropped, (bus.subscribers streamId).length⟩
  else none

end StreamBus

/-! ## Runs -/

/-- What producers and consumers do to the bus. `sample` and a loop over the handle do `next`, again each time they
are given a frame. -/
inductive StreamEvent (D : Type)
  | register (descriptor : StreamDescriptor)
  | publish (streamId : String) (data : D) (sourceAt : Option Int) (metadata : Option JsonObject) (now : Int)
  | subscribe (streamId : String) (options : SubscribeOptions)
  | next (handle : Nat)
  | close (handle : Nat)
  | closeStream (streamId : String)

/-- The bus after an event; what throws changes nothing, and only handles that were given can be used. -/
def streamStep {D : Type} (bus : StreamBus D) : StreamEvent D → Option (StreamBus D)
  | .register descriptor => some ((bus.register descriptor).toOption.getD bus)
  | .publish streamId data sourceAt metadata now =>
    some (((bus.publish streamId data sourceAt metadata now).toOption.map Prod.fst).getD bus)
  | .subscribe streamId options => some (((bus.subscribe streamId options).toOption.map Prod.fst).getD bus)
  | .next handle =>
    if handle < bus.handles.length then
      some { bus with handles := bus.handles.modify handle SubscriberQueue.next }
    else none
  | .close handle =>
    if handle < bus.handles.length then
      some { bus with handles := bus.handles.modify handle SubscriberQueue.close }
    else none
  | .closeStream streamId => some (bus.closeStream streamId)

def streamMachine (D : Type) : Machine (StreamBus D) (StreamEvent D) where
  step := streamStep

end Pinout.Stream
