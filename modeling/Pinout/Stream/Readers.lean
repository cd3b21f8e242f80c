import Pinout.Stream.Delivery

/-! # Waiting readers

A subscriber remembers one waiting read. While no second read of a handle is begun beside it, nobody waits in vain: a
read is answered by the next publication or by the end. A second one takes its place in the slot. -/

namespace Pinout.Stream

open Foundation

namespace SubscriberQueue

variable {D : Type} {sub : SubscriberQueue D} {sequence : Nat}

def keepsNothing (sub : SubscriberQueue D) : Bool :=
  sub.policy = .dropLatest && sub.bufferSize = 0

/-- At most one read waits, in the slot of an open subscription that can be given frames. -/
structure Attended (sub : SubscriberQueue D) : Prop where
  single : sub.pending = if sub.notify.isSome then 1 else 0
  keeps : sub.notify.isSome = true → sub.keepsNothing = false
  stays : sub.subscribed = false → sub.closed = true ∨ sub.iteratorDone = true

@[simp] theorem countP_isNone_append (before : List (Option (IteratorResult D)))
    (read : Option (IteratorResult D)) :
    (before ++ [read]).countP Option.isNone = before.countP Option.isNone + if read.isNone then 1 else 0 := by
  rw [List.countP_append, List.countP_singleton]

theorem Attended.waits (h : sub.Attended) (hsound : sub.Sound sequence) (hpending : sub.pending ≠ 0) :
    sub.notify ≠ none ∧ sub.queue = [] ∧ sub.closed = false ∧ sub.iteratorDone = false := by
  have hnotify : sub.notify ≠ none := by
    intro hnone
    rw [h.single, hnone] at hpending
    exact hpending rfl
  exact ⟨hnotify, hsound.waits hnotify⟩

/-- What answers the read in the slot: a frame, or the end. -/
theorem pending_fire (hlast : sub.SlotLast) (hsingle : sub.pending = if sub.notify.isSome then 1 else 0)
    (hanswer : sub.queue ≠ [] ∨ sub.closed = true ∨ sub.iteratorDone = true) : sub.fire.pending = 0 := by
  unfold fire
  cases hnotify : sub.notify with
  | none => simpa [hnotify] using hsingle
  | some read =>
    obtain ⟨before, hreads, rfl⟩ := hlast read hnotify
    have hbefore : before.countP Option.isNone = 0 := by
      rw [hnotify, pending, hreads, countP_isNone_append] at hsingle
      simpa using hsingle
    by_cases hdone : sub.iteratorDone = true
    · simp [hdone, resolve, pending, hreads, hbefore]
    · cases hqueue : sub.queue with
      | cons frame queue => simp [hdone, resolve, pending, hreads, hbefore]
      | nil =>
        have hclosed : sub.closed = true := by simpa [hqueue, hdone] using hanswer
        simp [hdone, hclosed, resolve, pending, hreads, hbefore]

theorem attended_of_quiet (hnotify : sub.notify = none) (hpending : sub.pending = 0)
    (hstays : sub.subscribed = false → sub.closed = true ∨ sub.iteratorDone = true) : sub.Attended where
  single := by simp [hnotify, hpending]
  keeps := by simp [hnotify]
  stays := hstays

/-- Where frames are kept, one that is pushed to an empty queue is in it. -/
theorem push_queue_ne_nil (frame : StreamFrame D) (hqueue : sub.queue = []) (hkeeps : sub.keepsNothing = false) :
    (sub.push frame).queue ≠ [] := by
  unfold push
  split_ifs with hlatest hfull holdest
  · simp
  · simp
  · have hdropLatest : sub.policy = .dropLatest := by
      cases hpolicy : sub.policy <;> simp_all
    simp_all [keepsNothing]
  · simp

theorem Attended.pending_offer (h : sub.Attended) (hsound : sub.Sound sequence) (frame : StreamFrame D) :
    (sub.offer frame).pending = 0 := by
  by_cases hnotify : sub.notify = none
  · have hsame : (sub.offer frame).reads = sub.reads := by
      rw [offer, fire]
      simp [hnotify]
    rw [pending, hsame, ← pending, h.single, hnotify]
    rfl
  · refine pending_fire ?_ ?_ (.inl ?_)
    · intro read hread
      obtain ⟨before, hreads, hlength⟩ := hsound.last read ((push_notify sub frame).symm.trans hread)
      exact ⟨before, (push_reads sub frame).trans hreads, hlength⟩
    · simpa [pending] using h.single
    · exact push_queue_ne_nil frame (hsound.waits hnotify).1 (h.keeps (Option.isSome_iff_ne_none.mpr hnotify))

theorem Attended.offer (h : sub.Attended) (hsound : sub.Sound sequence) (hsubscribed : sub.subscribed = true)
    (frame : StreamFrame D) : (sub.offer frame).Attended := by
  refine attended_of_quiet (fire_notify _) (h.pending_offer hsound frame) fun hgone => ?_
  obtain ⟨-, ⟨-, hsame⟩ | ⟨hdone, -, -⟩⟩ :=
    fire_end { sub.push frame with offered := sub.offered ++ [frame] }
  · have hsubscribed' := hsame.symm.trans hgone
    rw [(push_end sub frame).2.2, hsubscribed] at hsubscribed'
    cases hsubscribed'
  · exact .inr hdone

theorem Attended.close (h : sub.Attended) (hsound : sub.Sound sequence) : sub.close.Attended := by
  have hpending : ({ sub with closed := true } : SubscriberQueue D).fire.pending = 0 :=
    pending_fire hsound.last h.single (.inr (.inl rfl))
  refine attended_of_quiet ((finish_notify _).trans (fire_notify _)) ?_ fun _ => .inr (finish_iteratorDone _)
  rw [SubscriberQueue.close, pending, finish_reads]
  exact hpending

theorem Attended.closeStream (h : sub.Attended) (hsound : sub.Sound sequence) : sub.closeStream.Attended := by
  have hpending : ({ sub with ended := true, closed := true } : SubscriberQueue D).fire.pending = 0 :=
    pending_fire hsound.last h.single (.inr (.inl rfl))
  exact attended_of_quiet (fire_notify _) hpending fun _ => .inl (fire_end _).1

/-- A read is begun while no other one waits, and where no frame is ever kept only after the end. -/
def ReadAlone (sub : SubscriberQueue D) : Prop :=
  sub.pending = 0 ∧ (sub.keepsNothing = true → sub.closed = true ∨ sub.iteratorDone = true)

instance (sub : SubscriberQueue D) : Decidable sub.ReadAlone :=
  inferInstanceAs (Decidable (_ ∧ _))

theorem Attended.next (h : sub.Attended) (halone : sub.ReadAlone) :
    sub.next.Attended := by
  have hnotify : sub.notify = none := by
    by_contra hwaits
    have hsingle := h.single
    rw [halone.1, if_pos (Option.isSome_iff_ne_none.mpr hwaits)] at hsingle
    cases hsingle
  have hpending := halone.1
  rw [pending] at hpending
  unfold SubscriberQueue.next
  by_cases hdone : sub.iteratorDone = true
  · rw [if_pos hdone]
    exact attended_of_quiet hnotify (by simp [pending, hpending]) h.stays
  rw [if_neg hdone]
  cases hqueue : sub.queue with
  | cons frame queue => exact attended_of_quiet hnotify (by simp [pending, hpending]) h.stays
  | nil =>
    by_cases hclosed : sub.closed = true
    · simp only [if_pos hclosed]
      exact attended_of_quiet ((finish_notify sub).trans hnotify) (by simp [pending, hpending])
        fun _ => .inr (finish_iteratorDone sub)
    · simp only [if_neg hclosed]
      refine ⟨by simp [pending, hpending], fun _ => ?_, h.stays⟩
      by_contra hnothing
      rcases halone.2 (by simpa [keepsNothing] using hnothing) with hend | hend
      · exact hclosed hend
      · exact hdone hend

end SubscriberQueue

namespace StreamBus

variable {D : Type} {bus bus' : StreamBus D}

structure Publication (D : Type) where
  data : D
  sourceAt : Option Int := none
  metadata : Option JsonObject := none
  now : Int

def Publication.on (publication : Publication D) (streamId : String) : StreamEvent D :=
  .publish streamId publication.data publication.sourceAt publication.metadata publication.now

/-- Nobody waits in vain: a read waits only while there is nothing to give it and nothing has ended, and as many
publications as there are reads waiting answer them. -/
structure NoReadStranded (bus : StreamBus D) : Prop where
  waiting : ∀ sub ∈ bus.handles, sub.pending ≠ 0 →
    sub.queue = [] ∧ sub.closed = false ∧ sub.iteratorDone = false
  answered : ∀ (n : Nat) (sub sub' : SubscriberQueue D) (publications : List (Publication D)) (bus' : StreamBus D),
    bus.handles[n]? = some sub → sub.pending ≤ publications.length →
    (streamMachine D).run bus (publications.map fun publication => publication.on sub.streamId) = some bus' →
    bus'.handles[n]? = some sub' → sub'.pending = 0

/-- A read of a handle is begun while no other read of it waits. -/
def OneReader (bus : StreamBus D) : StreamEvent D → Prop
  | .next handle => ∀ sub ∈ bus.handles[handle]?, sub.ReadAlone
  | _ => True

instance (bus : StreamBus D) (event : StreamEvent D) : Decidable (OneReader bus event) := by
  unfold OneReader
  split <;> infer_instance

/-- What holds of the bus where reads of a handle do not overlap. -/
structure Attended (bus : StreamBus D) : Prop extends bus.Sound where
  readers : Entries (fun _ sub => sub.Attended) bus.handles

theorem attended_empty : ({} : StreamBus D).Attended :=
  ⟨sound_empty, Entries.nil⟩

theorem Attended.of_mem (h : bus.Attended) {sub : SubscriberQueue D} (hmem : sub ∈ bus.handles) : sub.Attended := by
  obtain ⟨n, hn⟩ := List.mem_iff_getElem?.mp hmem
  exact h.readers n sub hn

theorem Attended.step (h : bus.Attended) {event : StreamEvent D} (hguard : OneReader bus event)
    (hstep : (streamMachine D).step bus event = some bus') : bus'.Attended := by
  refine ⟨h.toSound.step hstep, ?_⟩
  have hboth : Entries (fun _ sub => sub.Sound (bus.sequences sub.streamId) ∧ sub.Attended) bus.handles :=
    fun n sub hsub => ⟨(h.handles n sub hsub).1, h.readers n sub hsub⟩
  cases event with
  | register descriptor =>
    obtain rfl := Option.some.inj hstep
    rw [StreamBus.register]
    split_ifs <;> exact h.readers
  | publish streamId data sourceAt metadata now =>
    obtain rfl := Option.some.inj hstep
    rw [StreamBus.publish]
    split_ifs
    · refine hboth.map fun _ sub hsub => ?_
      obtain ⟨hsound, hattended⟩ := hsub
      by_cases hmine : (sub.subscribed && decide (sub.streamId = streamId)) = true
      · rw [if_pos hmine]
        exact hattended.offer hsound (Bool.and_eq_true_iff.mp hmine).1 _
      · rw [if_neg hmine]
        exact hattended
    · exact h.readers
  | subscribe streamId options =>
    obtain rfl := Option.some.inj hstep
    rw [StreamBus.subscribe]
    split_ifs
    · exact h.readers.append (SubscriberQueue.attended_of_quiet rfl rfl (by rintro ⟨⟩))
    · exact h.readers
  | next handle =>
    obtain ⟨-, hstep⟩ := Option.ite_none_right_eq_some.mp hstep
    obtain rfl := Option.some.inj hstep
    intro n sub hsub
    rcases getElem?_modify_eq_some hsub with ⟨-, hother⟩ | ⟨rfl, sub, hself, rfl⟩
    · exact h.readers n sub hother
    · exact (h.readers handle sub hself).next (hguard sub hself)
  | close handle =>
    obtain ⟨-, hstep⟩ := Option.ite_none_right_eq_some.mp hstep
    obtain rfl := Option.some.inj hstep
    intro n sub hsub
    rcases getElem?_modify_eq_some hsub with ⟨-, hother⟩ | ⟨rfl, sub, hself, rfl⟩
    · exact h.readers n sub hother
    · exact (h.readers handle sub hself).close (h.handles handle sub hself).1
  | closeStream streamId =>
    obtain rfl := Option.some.inj hstep
    refine hboth.map fun _ sub hsub => ?_
    obtain ⟨hsound, hattended⟩ := hsub
    split
    · exact hattended.closeStream hsound
    · exact hattended

theorem Attended.publish (h : bus.Attended) {n : Nat} {sub : SubscriberQueue D} (hsub : bus.handles[n]? = some sub)
    {publication : Publication D} (hstep : (streamMachine D).step bus (publication.on sub.streamId) = some bus') :
    ∃ sub', bus'.handles[n]? = some sub' ∧ sub'.streamId = sub.streamId ∧ sub'.pending = 0 := by
  obtain ⟨hsound, hhas⟩ := h.handles n sub hsub
  have hattended := h.readers n sub hsub
  obtain rfl := Option.some.inj hstep
  rw [StreamBus.publish, if_pos hhas]
  by_cases hmine : sub.subscribed = true
  · refine ⟨sub.offer (bus.frameOf sub.streamId publication.data publication.sourceAt publication.metadata
      publication.now), by simp [Except.toOption, updateSubscribers, hsub, hmine], ?_, hattended.pending_offer hsound _⟩
    exact (hsound.offer_moves _).streamId.trans (SubscriberQueue.push_streamId sub _)
  · refine ⟨sub, by simp [Except.toOption, updateSubscribers, hsub, hmine], rfl, ?_⟩
    have hgone : sub.subscribed = false := by simpa using hmine
    by_contra hpending
    obtain ⟨-, -, hclosed, hdone⟩ := hattended.waits hsound hpending
    rcases hattended.stays hgone with hend | hend
    · rw [hclosed] at hend
      cases hend
    · rw [hdone] at hend
      cases hend

/-- Publications leave nobody waiting, one of them at least if somebody was. -/
theorem Attended.publications (h : bus.Attended) {n : Nat} {sub sub' : SubscriberQueue D}
    {publications : List (Publication D)} (hsub : bus.handles[n]? = some sub)
    (hpending : sub.pending ≤ publications.length)
    (hrun : (streamMachine D).run bus (publications.map fun publication => publication.on sub.streamId) = some bus')
    (hsub' : bus'.handles[n]? = some sub') : sub'.pending = 0 := by
  induction publications generalizing bus sub with
  | nil =>
    obtain rfl := Option.some.inj hrun
    obtain rfl := Option.some.inj (hsub.symm.trans hsub')
    exact Nat.le_zero.mp hpending
  | cons publication publications ih =>
    obtain ⟨next, hstep, hrun⟩ := Machine.run_cons_eq_some _ |>.mp hrun
    obtain ⟨nextSub, hnext, hstream, hquiet⟩ := h.publish hsub hstep
    have hguard : OneReader bus (publication.on sub.streamId) := trivial
    refine ih (h.step hguard hstep) hnext (by omega) ?_
    rw [hstream]
    exact hrun

theorem Attended.nobodyStranded (h : bus.Attended) : bus.NoReadStranded where
  waiting _ hmem hpending := ((h.of_mem hmem).waits (h.toSound.of_mem hmem).1 hpending).2
  answered _ _ _ _ _ hsub hpending hrun hsub' := h.publications hsub hpending hrun hsub'

/-- **Readers.** In a run in which no read of a handle is begun while another read of it waits, nobody waits in
vain. -/
theorem noReadStranded {events : List (StreamEvent D)} (hguard : (streamMachine D).Guarded OneReader {} events)
    (hrun : (streamMachine D).run {} events = some bus) : bus.NoReadStranded :=
  (Machine.run_guarded_invariant (fun _ _ _ h hguard hstep => Attended.step h hguard hstep) attended_empty hguard
    hrun).nobodyStranded

/-- One reader waits, and is given the frame that is published. -/
theorem noReadStranded_camera : ∃ bus : StreamBus Nat,
    (streamMachine Nat).run {} [.register ⟨"cam:rgb", "cam", "rgb"⟩, .subscribe "cam:rgb" {}, .next 0,
      .publish "cam:rgb" 10 none none 0, .next 0, .close 0] = some bus ∧ bus.NoReadStranded :=
  ⟨_, rfl, noReadStranded (show (streamMachine Nat).Guarded OneReader {} [.register ⟨"cam:rgb", "cam", "rgb"⟩,
    .subscribe "cam:rgb" {}, .next 0, .publish "cam:rgb" 10 none none 0, .next 0, .close 0] by decide) rfl⟩

/-- Of two readers that wait on one handle, the first waits on after the handle is closed. -/
theorem not_noReadStranded : ¬ ∀ (events : List (StreamEvent Nat)) (bus : StreamBus Nat),
    (streamMachine Nat).run {} events = some bus → bus.NoReadStranded := by
  intro h
  have hstranded := (h [.register ⟨"cam:rgb", "cam", "rgb"⟩, .subscribe "cam:rgb" {}, .next 0, .next 0, .close 0]
    _ rfl).waiting _ (.head _) (by decide)
  exact absurd hstranded.2.1 (by decide)

end StreamBus

end Pinout.Stream
