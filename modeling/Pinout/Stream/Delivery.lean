import Pinout.Foundation.Entries
import Pinout.Stream.StreamBus

/-! # Delivery

What happens to a published frame: every subscriber is given frames in the order of their sequence numbers, its queue
stays within its bound, and where backpressure drops frames, what was published is what was given, what is queued and
what was dropped. Reads and ends only move frames from the queue to the reader; only a publication brings one. -/

namespace Pinout.Stream

open Foundation

namespace SubscriberQueue

variable {D : Type} {sub sub' sub'' : SubscriberQueue D}

/-! ## Frames that are only moved -/

/-- Frames are moved from the queue to the reader, and nothing else happens to them. -/
structure Moves (sub sub' : SubscriberQueue D) : Prop where
  stock : sub'.received ++ sub'.queue = sub.received ++ sub.queue
  length_le : sub'.queue.length ≤ sub.queue.length
  offered : sub'.offered = sub.offered
  dropped : sub'.dropped = sub.dropped
  policy : sub'.policy = sub.policy
  bufferSize : sub'.bufferSize = sub.bufferSize
  streamId : sub'.streamId = sub.streamId

theorem Moves.refl (sub : SubscriberQueue D) : Moves sub sub :=
  ⟨rfl, le_rfl, rfl, rfl, rfl, rfl, rfl⟩

theorem Moves.trans (h : Moves sub sub') (h' : Moves sub' sub'') : Moves sub sub'' where
  stock := h'.stock.trans h.stock
  length_le := h'.length_le.trans h.length_le
  offered := h'.offered.trans h.offered
  dropped := h'.dropped.trans h.dropped
  policy := h'.policy.trans h.policy
  bufferSize := h'.bufferSize.trans h.bufferSize
  streamId := h'.streamId.trans h.streamId

/-- The read in the slot is the last one, and not resolved. -/
def SlotLast (sub : SubscriberQueue D) : Prop :=
  ∀ read, sub.notify = some read → ∃ before, sub.reads = before ++ [none] ∧ before.length = read

@[simp] theorem received_mk (before : List (Option (IteratorResult D))) (result : Option (IteratorResult D)) :
    (before ++ [result]).filterMap (fun read => read.bind IteratorResult.frame?) =
      before.filterMap (fun read => read.bind IteratorResult.frame?) ++ (result.bind IteratorResult.frame?).toList := by
  rw [List.filterMap_append]
  cases h : result.bind IteratorResult.frame? <;> simp [h]

theorem finish_moves (sub : SubscriberQueue D) : Moves sub sub.finish := by
  unfold finish
  split
  · exact .refl sub
  · exact ⟨rfl, le_rfl, rfl, rfl, rfl, rfl, rfl⟩

@[simp] theorem finish_reads (sub : SubscriberQueue D) : sub.finish.reads = sub.reads := by
  unfold finish
  split <;> rfl

@[simp] theorem finish_notify (sub : SubscriberQueue D) : sub.finish.notify = sub.notify := by
  unfold finish
  split <;> rfl

def quiet (sub : SubscriberQueue D) : SubscriberQueue D :=
  { sub with notify := none }

theorem quiet_moves (sub : SubscriberQueue D) : Moves sub sub.quiet :=
  ⟨rfl, le_rfl, rfl, rfl, rfl, rfl, rfl⟩

theorem resolve_done_moves (sub : SubscriberQueue D) {before : List (Option (IteratorResult D))}
    (hreads : sub.reads = before ++ [none]) :
    Moves sub (sub.resolve before.length .done) :=
  ⟨by simp [resolve, received, hreads, IteratorResult.frame?], le_rfl, rfl, rfl, rfl, rfl, rfl⟩

theorem resolve_value_moves (sub : SubscriberQueue D) {before : List (Option (IteratorResult D))} {frame : StreamFrame D}
    {queue : List (StreamFrame D)} (hreads : sub.reads = before ++ [none]) (hqueue : sub.queue = frame :: queue) :
    Moves sub ({ sub with queue := queue }.resolve before.length (.value frame)) :=
  ⟨by simp [resolve, received, hreads, hqueue, IteratorResult.frame?], by simp [resolve, hqueue], rfl, rfl, rfl, rfl,
    rfl⟩

theorem fire_moves (sub : SubscriberQueue D) (hslot : sub.SlotLast) : Moves sub sub.fire := by
  unfold fire
  cases hnotify : sub.notify with
  | none => exact .refl sub
  | some read =>
    obtain ⟨before, hreads, rfl⟩ := hslot read hnotify
    by_cases hdone : sub.iteratorDone
    · simp only [if_pos hdone]
      exact sub.quiet_moves.trans (resolve_done_moves sub.quiet hreads)
    · simp only [if_neg hdone]
      cases hqueue : sub.queue with
      | cons frame queue =>
        exact sub.quiet_moves.trans (resolve_value_moves sub.quiet hreads hqueue)
      | nil =>
        by_cases hclosed : sub.closed
        · simp only [if_pos hclosed, ← hqueue]
          have hfinished : sub.quiet.finish.reads = before ++ [none] := by rw [finish_reads]; exact hreads
          exact sub.quiet_moves.trans (sub.quiet.finish_moves.trans (resolve_done_moves _ hfinished))
        · simp only [if_neg hclosed, ← hqueue]
          exact sub.quiet_moves

@[simp] theorem fire_notify (sub : SubscriberQueue D) : sub.fire.notify = none := by
  unfold fire
  cases hnotify : sub.notify with
  | none => exact hnotify
  | some read =>
    simp only
    split
    · rfl
    · split
      · rfl
      · split
        · rw [resolve, finish_notify]
        · rfl

theorem next_moves (sub : SubscriberQueue D) : Moves sub sub.next := by
  unfold next
  by_cases hdone : sub.iteratorDone
  · rw [if_pos hdone]
    exact ⟨by simp [received, IteratorResult.frame?], le_rfl, rfl, rfl, rfl, rfl, rfl⟩
  · rw [if_neg hdone]
    cases hqueue : sub.queue with
    | cons frame queue =>
      exact ⟨by simp [received, hqueue, IteratorResult.frame?], by simp [hqueue], rfl, rfl, rfl, rfl, rfl⟩
    | nil =>
      by_cases hclosed : sub.closed
      · simp only [if_pos hclosed]
        refine sub.finish_moves.trans ⟨?_, le_rfl, rfl, rfl, rfl, rfl, rfl⟩
        simp [received, IteratorResult.frame?]
      · simp only [if_neg hclosed]
        exact ⟨by simp [received, hqueue], by simp [hqueue], rfl, rfl, rfl, rfl, rfl⟩

theorem close_moves (hslot : sub.SlotLast) : Moves sub sub.close := by
  have hclosed : Moves sub { sub with closed := true } := ⟨rfl, le_rfl, rfl, rfl, rfl, rfl, rfl⟩
  exact hclosed.trans ((fire_moves { sub with closed := true } hslot).trans (finish_moves _))

theorem closeStream_moves (hslot : sub.SlotLast) : Moves sub sub.closeStream := by
  have hclosed : Moves sub { sub with ended := true, closed := true } := ⟨rfl, le_rfl, rfl, rfl, rfl, rfl, rfl⟩
  refine hclosed.trans ((fire_moves { sub with ended := true, closed := true } hslot).trans ?_)
  exact ⟨rfl, le_rfl, rfl, rfl, rfl, rfl, rfl⟩

/-! ## What is kept -/

/-- How many frames a queue may hold: one where only the latest is kept. -/
def bound (sub : SubscriberQueue D) : Nat :=
  if sub.policy = .latestOnly then 1 else max 1 sub.bufferSize

/-- The frames of a subscriber before the next sequence number of its stream is given out. -/
structure Ordered (sequence : Nat) (sub : SubscriberQueue D) : Prop where
  increasing : (sub.received ++ sub.queue).Pairwise fun earlier later => earlier.sequence < later.sequence
  fresh : ∀ frame ∈ sub.received ++ sub.queue, frame.sequence < sequence
  bounded : sub.queue.length ≤ sub.bound
  conserved : sub.policy ≠ .latestOnly → sub.offered.Perm (sub.received ++ sub.queue ++ sub.dropped)

theorem Ordered.of_moves {sequence : Nat} (h : Ordered sequence sub) (hmoves : Moves sub sub') :
    Ordered sequence sub' where
  increasing := by
    rw [hmoves.stock]
    exact h.increasing
  fresh := by
    rw [hmoves.stock]
    exact h.fresh
  bounded := by
    rw [bound, hmoves.policy, hmoves.bufferSize]
    exact hmoves.length_le.trans h.bounded
  conserved := by
    rw [hmoves.policy, hmoves.offered, hmoves.dropped, hmoves.stock]
    exact h.conserved

theorem Ordered.pairwise_concat {sequence : Nat} {frame : StreamFrame D} (h : Ordered sequence sub)
    (hframe : frame.sequence = sequence) {kept : List (StreamFrame D)} (hkept : kept.Sublist sub.queue) :
    (sub.received ++ (kept ++ [frame])).Pairwise (fun earlier later => earlier.sequence < later.sequence) ∧
      ∀ other ∈ sub.received ++ (kept ++ [frame]), other.sequence < sequence + 1 := by
  have hsub : (sub.received ++ kept).Sublist (sub.received ++ sub.queue) := hkept.append_left _
  rw [← List.append_assoc]
  constructor
  · rw [List.pairwise_append]
    refine ⟨h.increasing.sublist hsub, List.pairwise_singleton _ _, fun other hother last hlast => ?_⟩
    obtain rfl := List.mem_singleton.mp hlast
    rw [hframe]
    exact h.fresh other (hsub.subset hother)
  · intro other hother
    rcases List.mem_append.mp hother with hother | hother
    · exact Nat.lt_succ_of_lt (h.fresh other (hsub.subset hother))
    · rw [List.mem_singleton.mp hother, hframe]
      exact Nat.lt_succ_self sequence

/-- A publication brings one frame, and takes one where there is no room. -/
theorem Ordered.push {sequence : Nat} {frame : StreamFrame D} (h : Ordered sequence sub)
    (hframe : frame.sequence = sequence) :
    Ordered (sequence + 1) { sub.push frame with offered := sub.offered ++ [frame] } := by
  have hlonger : (sub.received ++ sub.queue ++ sub.dropped ++ [frame]).Perm (sub.received ++ (sub.queue ++ [frame]) ++
      sub.dropped) := by
    simpa using ((List.perm_append_singleton frame sub.dropped).append_left sub.queue).append_left sub.received
  unfold SubscriberQueue.push
  by_cases hlatest : sub.policy = .latestOnly
  · rw [if_pos hlatest]
    obtain ⟨hincreasing, hfresh⟩ := h.pairwise_concat hframe (List.nil_sublist _)
    exact ⟨hincreasing, hfresh, by simp [bound, hlatest], fun hne => absurd hlatest hne⟩
  rw [if_neg hlatest]
  have hbound : sub.bound = max 1 sub.bufferSize := if_neg hlatest
  have hbounded := h.bounded
  have hconserved := h.conserved hlatest
  by_cases hfull : sub.bufferSize ≤ sub.queue.length
  · rw [if_pos hfull]
    by_cases holdest : sub.policy = .dropOldest
    · rw [if_pos holdest]
      obtain ⟨hincreasing, hfresh⟩ := h.pairwise_concat hframe (List.tail_sublist _)
      refine ⟨hincreasing, hfresh, ?_, fun _ => ?_⟩
      · rw [bound, if_neg hlatest]
        simp only [List.length_append, List.length_tail, List.length_singleton]
        omega
      · have holder : (sub.queue ++ [frame] ++ sub.dropped).Perm
            (sub.queue.tail ++ [frame] ++ (sub.dropped ++ sub.queue.head?.toList)) := by
          cases sub.queue with
          | nil => simp
          | cons oldest queue =>
            simpa using (List.perm_append_singleton oldest (queue ++ frame :: sub.dropped)).symm
        have hall : (sub.offered ++ [frame]).Perm
            (sub.received ++ (sub.queue.tail ++ [frame]) ++ (sub.dropped ++ sub.queue.head?.toList)) := by
          refine (hconserved.append_right [frame]).trans (hlonger.trans ?_)
          simpa using holder.append_left sub.received
        exact hall
    · rw [if_neg holdest]
      refine ⟨h.increasing, fun other hother => Nat.lt_succ_of_lt (h.fresh other hother), hbounded, fun _ => ?_⟩
      rw [← List.append_assoc]
      exact hconserved.append_right [frame]
  · rw [if_neg hfull]
    obtain ⟨hincreasing, hfresh⟩ := h.pairwise_concat hframe (List.Sublist.refl _)
    refine ⟨hincreasing, hfresh, ?_, fun _ => ?_⟩
    · rw [bound, if_neg hlatest]
      simp only [List.length_append, List.length_singleton]
      omega
    · exact (hconserved.append_right [frame]).trans hlonger

/-! ## Who still is a subscriber -/

def DoneGone (sub : SubscriberQueue D) : Prop :=
  sub.iteratorDone = true → sub.subscribed = false

@[simp] theorem finish_closed (sub : SubscriberQueue D) : sub.finish.closed = sub.closed := by
  unfold finish
  split <;> rfl

@[simp] theorem finish_iteratorDone (sub : SubscriberQueue D) : sub.finish.iteratorDone = true := by
  unfold finish
  split
  · assumption
  · rfl

theorem DoneGone.finish_subscribed (h : sub.DoneGone) : sub.finish.subscribed = false := by
  unfold finish
  split
  · exact h (by assumption)
  · rfl

/-- What the slot does is to end the subscription, or to leave it as it is. -/
theorem fire_end (sub : SubscriberQueue D) :
    sub.fire.closed = sub.closed ∧
      (sub.fire.iteratorDone = sub.iteratorDone ∧ sub.fire.subscribed = sub.subscribed ∨
        sub.fire.iteratorDone = true ∧ sub.iteratorDone = false ∧ sub.fire.subscribed = false) := by
  unfold fire
  cases sub.notify with
  | none => simp
  | some read =>
    by_cases hdone : sub.iteratorDone
    · simp [hdone, resolve]
    · cases sub.queue with
      | cons frame queue => simp [hdone, resolve]
      | nil =>
        by_cases hclosed : sub.closed <;> simp [hdone, hclosed, resolve, finish]

theorem DoneGone.fire (h : sub.DoneGone) : sub.fire.DoneGone := by
  intro hdone
  obtain ⟨-, ⟨hsame, hsubscribed⟩ | ⟨-, -, hgone⟩⟩ := fire_end sub
  · rw [hsubscribed]
    exact h (hsame ▸ hdone)
  · exact hgone

@[simp] theorem push_notify (sub : SubscriberQueue D) (frame : StreamFrame D) :
    (sub.push frame).notify = sub.notify := by
  unfold push
  split_ifs <;> rfl

@[simp] theorem push_reads (sub : SubscriberQueue D) (frame : StreamFrame D) :
    (sub.push frame).reads = sub.reads := by
  unfold push
  split_ifs <;> rfl

@[simp] theorem push_end (sub : SubscriberQueue D) (frame : StreamFrame D) :
    (sub.push frame).closed = sub.closed ∧ (sub.push frame).iteratorDone = sub.iteratorDone ∧
      (sub.push frame).subscribed = sub.subscribed := by
  unfold push
  split_ifs <;> exact ⟨rfl, rfl, rfl⟩

/-! ## What holds of every subscriber -/

/-- A subscriber before the next sequence number of its stream is given out. A read waits in the slot only while the
queue is empty and nothing has ended. -/
structure Sound (sequence : Nat) (sub : SubscriberQueue D) : Prop extends Ordered sequence sub where
  last : sub.SlotLast
  waits : sub.notify ≠ none → sub.queue = [] ∧ sub.closed = false ∧ sub.iteratorDone = false
  doneGone : sub.DoneGone
  closedGone : sub.closed = true → sub.subscribed = false

theorem slotLast_of_notify (h : sub.notify = none) : sub.SlotLast := by
  intro read hread
  rw [h] at hread
  cases hread

variable {sequence : Nat}

theorem Sound.succ (h : sub.Sound sequence) : sub.Sound (sequence + 1) :=
  { h with fresh := fun frame hframe => Nat.lt_succ_of_lt (h.fresh frame hframe) }

theorem Sound.offer_moves (h : sub.Sound sequence) (frame : StreamFrame D) :
    Moves { sub.push frame with offered := sub.offered ++ [frame] } (sub.offer frame) := by
  refine fire_moves _ fun read hread => ?_
  obtain ⟨before, hreads, hlength⟩ := h.last read ((push_notify sub frame).symm.trans hread)
  exact ⟨before, (push_reads sub frame).trans hreads, hlength⟩

theorem Sound.offer {frame : StreamFrame D} (h : sub.Sound sequence) (hsubscribed : sub.subscribed = true)
    (hframe : frame.sequence = sequence) : (sub.offer frame).Sound (sequence + 1) := by
  have hend := push_end sub frame
  have hopen : (sub.push frame).closed = false := by
    rw [hend.1]
    by_contra hclosed
    simp [h.closedGone (by simpa using hclosed)] at hsubscribed
  have hdoneGone : DoneGone { sub.push frame with offered := sub.offered ++ [frame] } := by
    intro hdone
    exact hend.2.2.trans (h.doneGone (hend.2.1.symm.trans hdone))
  exact {
    toOrdered := (h.toOrdered.push hframe).of_moves (h.offer_moves frame)
    last := slotLast_of_notify (fire_notify _)
    waits := fun hwaits => absurd (fire_notify _) hwaits
    doneGone := hdoneGone.fire
    closedGone := by
      intro hclosed
      rw [SubscriberQueue.offer, (fire_end _).1] at hclosed
      exact absurd hclosed (by simpa using hopen) }

theorem Sound.close (h : sub.Sound sequence) : sub.close.Sound sequence := by
  have hdoneGone : DoneGone { sub with closed := true } := h.doneGone
  have hgone : sub.close.subscribed = false := hdoneGone.fire.finish_subscribed
  have hnotify : sub.close.notify = none := (finish_notify _).trans (fire_notify _)
  exact {
    toOrdered := h.toOrdered.of_moves (close_moves h.last)
    last := slotLast_of_notify hnotify
    waits := fun hwaits => absurd hnotify hwaits
    doneGone := fun _ => hgone
    closedGone := fun _ => hgone }

theorem Sound.closeStream (h : sub.Sound sequence) : sub.closeStream.Sound sequence := by
  have hnotify : sub.closeStream.notify = none := fire_notify _
  exact {
    toOrdered := h.toOrdered.of_moves (closeStream_moves h.last)
    last := slotLast_of_notify hnotify
    waits := fun hwaits => absurd hnotify hwaits
    doneGone := fun _ => rfl
    closedGone := fun _ => rfl }

theorem Sound.next (h : sub.Sound sequence) : sub.next.Sound sequence := by
  have hordered := h.toOrdered.of_moves (next_moves sub)
  unfold SubscriberQueue.next at hordered ⊢
  by_cases hdone : sub.iteratorDone = true
  · have hnotify : sub.notify = none := by
      by_contra hwaits
      simp [(h.waits hwaits).2.2] at hdone
    rw [if_pos hdone] at hordered ⊢
    exact ⟨hordered, slotLast_of_notify hnotify, fun hwaits => absurd hnotify hwaits, h.doneGone, h.closedGone⟩
  rw [if_neg hdone] at hordered ⊢
  cases hqueue : sub.queue with
  | cons frame queue =>
    have hnotify : sub.notify = none := by
      by_contra hwaits
      simp [(h.waits hwaits).1] at hqueue
    rw [hqueue] at hordered
    exact ⟨hordered, slotLast_of_notify hnotify, fun hwaits => absurd hnotify hwaits, h.doneGone, h.closedGone⟩
  | nil =>
    rw [hqueue] at hordered
    by_cases hclosed : sub.closed = true
    · have hnotify : sub.notify = none := by
        by_contra hwaits
        simp [(h.waits hwaits).2.1] at hclosed
      simp only [if_pos hclosed] at hordered ⊢
      have hgone := h.doneGone.finish_subscribed
      have hquiet : sub.finish.notify = none := (finish_notify sub).trans hnotify
      exact ⟨hordered, slotLast_of_notify hquiet, fun hwaits => absurd hquiet hwaits, fun _ => hgone, fun _ => hgone⟩
    · simp only [if_neg hclosed] at hordered ⊢
      refine ⟨hordered, ?_, fun _ => ⟨rfl, by simpa using hclosed, by simpa using hdone⟩, h.doneGone,
        h.closedGone⟩
      intro read hread
      exact ⟨sub.reads, rfl, Option.some.inj hread⟩

theorem length_dropped_offer (h : sub.Sound sequence) (frame : StreamFrame D) (hsize : 1 ≤ sub.bufferSize) :
    (sub.offer frame).dropped.length = sub.dropped.length + if sub.drops then 1 else 0 := by
  rw [(h.offer_moves frame).dropped]
  unfold push drops
  by_cases hlatest : sub.policy = .latestOnly
  · simp [hlatest]
  by_cases hfull : sub.bufferSize ≤ sub.queue.length
  · by_cases holdest : sub.policy = .dropOldest
    · obtain ⟨oldest, queue, hqueue⟩ := List.exists_cons_of_length_pos (hsize.trans hfull)
      have hroom : sub.bufferSize ≤ queue.length + 1 := by simpa [hqueue] using hfull
      simp [holdest, hqueue, hroom]
    · simp [hlatest, hfull, holdest]
  · simp [hlatest, hfull]

theorem push_streamId (sub : SubscriberQueue D) (frame : StreamFrame D) :
    (sub.push frame).streamId = sub.streamId := by
  unfold push
  split_ifs <;> rfl

theorem push_bufferSize (sub : SubscriberQueue D) (frame : StreamFrame D) :
    (sub.push frame).bufferSize = sub.bufferSize := by
  unfold push
  split_ifs <;> rfl

end SubscriberQueue

namespace StreamBus

variable {D : Type} {bus bus' : StreamBus D}

/-- How many frames backpressure took from a subscription of a stream. -/
def droppedOf (streamId : String) (sub : SubscriberQueue D) : Nat :=
  if sub.streamId = streamId then sub.dropped.length else 0

structure Sound (bus : StreamBus D) : Prop where
  handles : Entries (fun _ sub => sub.Sound (bus.sequences sub.streamId) ∧ bus.has sub.streamId = true) bus.handles
  counted : (∀ size ∈ bus.handles.map SubscriberQueue.bufferSize, 1 ≤ size) →
    ∀ streamId, (bus.statsMap streamId).dropped = (bus.handles.map (droppedOf streamId)).sum

theorem sound_empty : ({} : StreamBus D).Sound :=
  ⟨Entries.nil, fun _ _ => rfl⟩

theorem Sound.of_mem (h : bus.Sound) {sub : SubscriberQueue D} (hmem : sub ∈ bus.handles) :
    sub.Sound (bus.sequences sub.streamId) ∧ bus.has sub.streamId = true := by
  obtain ⟨n, hn⟩ := List.mem_iff_getElem?.mp hmem
  exact h.handles n sub hn

theorem Sound.modify (h : bus.Sound) {f : SubscriberQueue D → SubscriberQueue D} (handle : Nat)
    (hsound : ∀ {sequence sub}, sub.Sound sequence → (f sub).Sound sequence)
    (hmoves : ∀ {sequence sub}, sub.Sound sequence → SubscriberQueue.Moves sub (f sub)) :
    { bus with handles := bus.handles.modify handle f }.Sound where
  handles := h.handles.modify fun sub ⟨hsub, hhas⟩ => by
    rw [(hmoves hsub).streamId]
    exact ⟨hsound hsub, hhas⟩
  counted := by
    intro hsizes streamId
    have hdropped : (bus.handles.modify handle f).map (droppedOf streamId) = bus.handles.map (droppedOf streamId) :=
      map_modify_of_eq fun sub hmem => by
        have hmoved := hmoves (h.of_mem hmem).1
        rw [droppedOf, droppedOf, hmoved.streamId, hmoved.dropped]
    have hsize : (bus.handles.modify handle f).map SubscriberQueue.bufferSize =
        bus.handles.map SubscriberQueue.bufferSize :=
      map_modify_of_eq fun sub hmem => (hmoves (h.of_mem hmem).1).bufferSize
    rw [hdropped]
    exact h.counted (hsize ▸ hsizes) streamId

/-- What is done to the subscribers of a stream is counted as it is done. -/
theorem sum_droppedOf_update {handles : List (SubscriberQueue D)} (streamId : String)
    {f : SubscriberQueue D → SubscriberQueue D} (counts : SubscriberQueue D → Bool)
    (hf : ∀ sub ∈ handles, (f sub).streamId = sub.streamId ∧
      (f sub).dropped.length = sub.dropped.length + if counts sub then 1 else 0) (other : String) :
    ((handles.map fun sub => if sub.subscribed && sub.streamId = streamId then f sub else sub).map
        (droppedOf other)).sum =
      (handles.map (droppedOf other)).sum +
        if other = streamId then
          (handles.filter fun sub => sub.subscribed && sub.streamId = streamId).countP counts
        else 0 := by
  induction handles with
  | nil => simp
  | cons sub handles ih =>
    obtain ⟨⟨hid, hlength⟩, hrest⟩ := List.forall_mem_cons.mp hf
    simp only [List.map_cons, List.sum_cons, ih hrest]
    by_cases hmine : (sub.subscribed && decide (sub.streamId = streamId)) = true
    · have hstream : sub.streamId = streamId := by simpa using (Bool.and_eq_true_iff.mp hmine).2
      rw [if_pos hmine, List.filter_cons_of_pos (by simpa using hmine), List.countP_cons, droppedOf, droppedOf, hid,
        hstream, hlength]
      by_cases hother : other = streamId
      · subst hother
        simp only [if_true]
        omega
      · simp [hother, Ne.symm hother]
    · rw [if_neg hmine, List.filter_cons_of_neg (by simpa using hmine)]
      omega

theorem Sound.register (h : bus.Sound) {descriptor : StreamDescriptor} (hnew : bus.has descriptor.id = false) :
    { bus with
      streams := bus.streams ++ [descriptor]
      statsMap := Function.update bus.statsMap descriptor.id {} }.Sound where
  handles := h.handles.mono fun _ sub ⟨hsub, hhas⟩ => by
    refine ⟨hsub, ?_⟩
    rw [has, List.any_append, Bool.or_eq_true]
    exact .inl hhas
  counted := by
    intro hsizes streamId
    by_cases hsame : streamId = descriptor.id
    · subst hsame
      -- nobody can have subscribed to what was not registered
      have hnone : bus.handles.map (droppedOf descriptor.id) = bus.handles.map fun _ => 0 := by
        refine List.map_congr_left fun sub hmem => if_neg fun hstream => ?_
        have hhas := (h.of_mem hmem).2
        rw [hstream, hnew] at hhas
        cases hhas
      simp [hnone]
    · simp only [Function.update_of_ne hsame]
      exact h.counted hsizes streamId

theorem sound_subscriberOf (sequence : Nat) (streamId : String) (options : SubscribeOptions) :
    (subscriberOf streamId options : SubscriberQueue D).Sound sequence where
  increasing := List.Pairwise.nil
  fresh := nofun
  bounded := Nat.zero_le _
  conserved := fun _ => List.Perm.refl []
  last := SubscriberQueue.slotLast_of_notify rfl
  waits := fun hwaits => absurd rfl hwaits
  doneGone := nofun
  closedGone := nofun

theorem Sound.subscribe (h : bus.Sound) {streamId : String} (hhas : bus.has streamId = true)
    (options : SubscribeOptions) :
    { bus with handles := bus.handles ++ [subscriberOf streamId options] }.Sound where
  handles := h.handles.append ⟨sound_subscriberOf _ streamId options, hhas⟩
  counted := by
    intro hsizes other
    rw [List.map_append] at hsizes
    rw [List.map_append, List.sum_append, ← h.counted (fun size hmem => hsizes size (List.mem_append_left _ hmem)) other]
    simp [droppedOf, subscriberOf]

theorem map_bufferSize_update {handles : List (SubscriberQueue D)} (changes : SubscriberQueue D → Bool)
    {f : SubscriberQueue D → SubscriberQueue D} (hf : ∀ sub ∈ handles, (f sub).bufferSize = sub.bufferSize) :
    (handles.map fun sub => if changes sub then f sub else sub).map SubscriberQueue.bufferSize =
      handles.map SubscriberQueue.bufferSize := by
  rw [List.map_map]
  refine List.map_congr_left fun sub hmem => ?_
  rw [Function.comp_apply]
  split
  · exact hf sub hmem
  · rfl

theorem Sound.closeStream (h : bus.Sound) (streamId : String) : (bus.closeStream streamId).Sound where
  handles := h.handles.map fun _ sub ⟨hsub, hhas⟩ => by
    split
    · rw [(SubscriberQueue.closeStream_moves hsub.last).streamId]
      exact ⟨hsub.closeStream, hhas⟩
    · exact ⟨hsub, hhas⟩
  counted := by
    intro hsizes other
    have hmoves : ∀ sub ∈ bus.handles, SubscriberQueue.Moves sub sub.closeStream :=
      fun sub hmem => SubscriberQueue.closeStream_moves (h.of_mem hmem).1.last
    have hsize := map_bufferSize_update (fun sub => sub.subscribed && sub.streamId = streamId)
      fun sub hmem => (hmoves sub hmem).bufferSize
    have hsum := sum_droppedOf_update streamId (fun _ => false)
      (fun sub hmem => ⟨(hmoves sub hmem).streamId, by rw [(hmoves sub hmem).dropped]; rfl⟩) other
    simp only [List.countP_false, Function.const_apply, ite_self, add_zero] at hsum
    exact (h.counted (hsize ▸ hsizes) other).trans hsum.symm

theorem Sound.publish (h : bus.Sound) {streamId : String} {data : D} {sourceAt : Option Int}
    {metadata : Option JsonObject} {now : Int} {frame : StreamFrame D}
    (hpublish : bus.publish streamId data sourceAt metadata now = .ok (bus', frame)) : bus'.Sound := by
  rw [StreamBus.publish] at hpublish
  split_ifs at hpublish with hhas
  obtain ⟨rfl, rfl⟩ := Prod.mk.inj (Except.ok.inj hpublish)
  have hsound : ∀ sub ∈ bus.handles, sub.Sound (bus.sequences sub.streamId) := fun sub hmem => (h.of_mem hmem).1
  have hstreamId : ∀ {sequence sub} (_ : SubscriberQueue.Sound sequence sub) (frame : StreamFrame D),
      (sub.offer frame).streamId = sub.streamId := fun hsub frame =>
    (hsub.offer_moves frame).streamId.trans (SubscriberQueue.push_streamId _ frame)
  constructor
  · refine h.handles.map fun _ sub ⟨hsub, hsubHas⟩ => ?_
    by_cases hmine : (sub.subscribed && decide (sub.streamId = streamId)) = true
    · obtain ⟨hsubscribed, hstream⟩ : sub.subscribed = true ∧ sub.streamId = streamId := by simpa using hmine
      rw [if_pos hmine, hstreamId hsub]
      refine ⟨?_, hsubHas⟩
      rw [hstream] at hsub
      simp only [updateSubscribers, hstream, Function.update_self]
      exact hsub.offer hsubscribed rfl
    · rw [if_neg hmine]
      refine ⟨?_, hsubHas⟩
      by_cases hstream : sub.streamId = streamId
      · -- a handle of the stream that is no subscriber any more
        simp only [updateSubscribers, hstream, Function.update_self]
        exact (hstream ▸ hsub).succ
      · simp only [updateSubscribers, Function.update_of_ne hstream]
        exact hsub
  · intro hsizes other
    have hsize := map_bufferSize_update (fun sub => sub.subscribed && sub.streamId = streamId)
      (f := fun sub => sub.offer (bus.frameOf streamId data sourceAt metadata now)) fun sub hmem =>
        ((hsound sub hmem).offer_moves _).bufferSize.trans (SubscriberQueue.push_bufferSize sub _)
    have hsizesBefore : ∀ size ∈ bus.handles.map SubscriberQueue.bufferSize, 1 ≤ size := hsize ▸ hsizes
    have hsum := sum_droppedOf_update streamId SubscriberQueue.drops
      (f := fun sub => sub.offer (bus.frameOf streamId data sourceAt metadata now)) (fun sub hmem =>
        ⟨hstreamId (hsound sub hmem) _, SubscriberQueue.length_dropped_offer (hsound sub hmem) _
          (hsizesBefore _ (List.mem_map_of_mem hmem))⟩) other
    refine Eq.trans ?_ hsum.symm
    by_cases hother : other = streamId
    · subst hother
      simp [updateSubscribers, subscribers, h.counted hsizesBefore other]
    · simp [updateSubscribers, hother, h.counted hsizesBefore other]

theorem Sound.step (h : bus.Sound) {event : StreamEvent D} (hstep : (streamMachine D).step bus event = some bus') :
    bus'.Sound := by
  cases event with
  | register descriptor =>
    obtain rfl := Option.some.inj hstep
    rw [StreamBus.register]
    by_cases hhas : bus.has descriptor.id = true
    · rw [if_pos hhas]
      exact h
    · rw [if_neg hhas]
      exact h.register (by simpa using hhas)
  | publish streamId data sourceAt metadata now =>
    obtain rfl := Option.some.inj hstep
    cases hpublish : bus.publish streamId data sourceAt metadata now with
    | error thrown => exact h
    | ok published => exact h.publish hpublish
  | subscribe streamId options =>
    obtain rfl := Option.some.inj hstep
    rw [StreamBus.subscribe]
    by_cases hhas : bus.has streamId = true
    · rw [if_pos hhas]
      exact h.subscribe hhas options
    · rw [if_neg hhas]
      exact h
  | next handle =>
    obtain ⟨-, hstep⟩ := Option.ite_none_right_eq_some.mp hstep
    obtain rfl := Option.some.inj hstep
    exact h.modify handle (fun hsub => hsub.next) fun _ => SubscriberQueue.next_moves _
  | close handle =>
    obtain ⟨-, hstep⟩ := Option.ite_none_right_eq_some.mp hstep
    obtain rfl := Option.some.inj hstep
    exact h.modify handle (fun hsub => hsub.close) fun hsub => SubscriberQueue.close_moves hsub.last
  | closeStream streamId =>
    obtain rfl := Option.some.inj hstep
    exact h.closeStream streamId

end StreamBus

end Pinout.Stream
