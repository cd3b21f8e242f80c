import Pinout.Ros2.Sidecar

/-! # What a confirmed stop says

A stop that resolves should mean that no goal of an earlier move is under way, and the status `stopped`
should be observed only with such a stop or with a cancelled result. The sidecar remembers one goal, from
when `sendGoal` is answered until `getResult` is, and records `stopped` before it looks at the answer to the
cancel. In runs in which each stop finds at most the remembered goal under way, and each cancel of a stop is
answered with `ERROR_NONE`, stops are honest. -/

namespace Pinout.Ros2

open Foundation

def haltedAt (moves : List Move) (n : Nat) : Bool := (moves[n]?).all fun m => m.fate ≠ .underway

/-- The goals of the moves before a stop that it does not cancel are not under way; when it is confirmed, no
goal is. -/
def Stop.Covers (moves : List Move) (s : Stop) : Prop :=
  match s.phase with
  | .cancelling goal => ∀ n < s.mark, n ≠ goal → haltedAt moves n = true
  | .confirmed _ => ∀ n < s.mark, haltedAt moves n = true
  | .unconfirmed => False

/-- A move changes and its goal does not come to be under way. -/
theorem haltedAt_modify {moves : List Move} {number : Nat} {f : Move → Move}
    (hf : ∀ m, m.fate ≠ .underway → (f m).fate ≠ .underway) {n : Nat} (h : haltedAt moves n = true) :
    haltedAt (moves.modify number f) n = true := by
  unfold haltedAt at h ⊢
  cases hm : (moves.modify number f)[n]? with
  | none => rfl
  | some m =>
    rcases getElem?_modify_eq_some hm with ⟨-, hold⟩ | ⟨-, m', hm', rfl⟩
    · rw [hold] at h
      exact h
    · rw [hm'] at h
      simp only [Option.all_some, decide_eq_true_eq] at h ⊢
      exact hf m' h

theorem haltedAt_append {moves : List Move} {n : Nat} (hn : n < moves.length) (later : List Move) :
    haltedAt (moves ++ later) n = haltedAt moves n := by
  unfold haltedAt
  rw [List.getElem?_append_left hn]

/-- What a stop covers stays covered while no goal before it comes to be under way. -/
theorem Stop.Covers.mono {moves moves' : List Move} {s : Stop} (h : s.Covers moves)
    (hmono : ∀ n < s.mark, haltedAt moves n = true → haltedAt moves' n = true) : s.Covers moves' := by
  unfold Stop.Covers at h ⊢
  cases hphase : s.phase with
  | cancelling goal =>
    rw [hphase] at h
    exact fun n hn hne => hmono n hn (h n hn hne)
  | confirmed cancelled =>
    rw [hphase] at h
    exact fun n hn => hmono n hn (h n hn)
  | unconfirmed =>
    rw [hphase] at h
    exact h

/-- A source from which `stopped` may be observed: a cancelled result or a confirmed stop. -/
def ObservationSource.Honest (stops : List Stop) : ObservationSource → Prop
  | result _ status => status = .canceled
  | stop number => ∃ s, stops[number]? = some s ∧ ∃ cancelled, s.phase = .confirmed cancelled
  | _ => False

/-- An honest source stays honest while confirmed stops stay confirmed. -/
theorem ObservationSource.Honest.mono {stops stops' : List Stop} {source : ObservationSource}
    (h : source.Honest stops) (hmono : ∀ (k : Nat) (s : Stop), stops[k]? = some s →
      (∃ cancelled, s.phase = .confirmed cancelled) → stops'[k]? = some s) : source.Honest stops' := by
  cases source with
  | result n status => exact h
  | stop number =>
    obtain ⟨s, hs, hconfirmed⟩ := h
    exact ⟨s, hmono number s hs hconfirmed, hconfirmed⟩
  | construction => exact h
  | controllerStatus => exact h

namespace Ros2Sidecar

/-- A stop that resolved with `stopConfirmed: true` left no goal of an earlier move under way, and `stopped`
was observed only with such a stop or a cancelled result. -/
structure Honest (b : Ros2Sidecar) : Prop where
  confirmed : ∀ s ∈ b.stops, ∀ cancelled, s.phase = .confirmed cancelled →
    ∀ n < s.mark, haltedAt b.moves n = true
  observed : ∀ o ∈ b.statusEvidence.observed, o.1 = .stopped → o.2.Honest b.stops

/-- **The condition**: when a stop is called, no goal is under way or still being sent but the active one;
and the cancel of a stop is answered with `ERROR_NONE`. -/
def Orderly (b : Ros2Sidecar) : Event → Prop
  | .stop => ∀ n < b.moves.length, haltedAt b.moves n = true ∨ b.activeGoal = some n
  | .stopAnswer _ code => code = some .errorNone
  | _ => True

structure Sound (b : Ros2Sidecar) : Prop where
  stops : Entries (fun _ s => s.mark ≤ b.moves.length ∧ s.Covers b.moves) b.stops
  observed : ∀ o ∈ b.statusEvidence.observed, o.1 = .stopped → o.2.Honest b.stops

variable {b : Ros2Sidecar} {number : Nat}

theorem Sound.honest (h : b.Sound) : b.Honest := by
  refine ⟨fun s hs cancelled hphase => ?_, h.observed⟩
  obtain ⟨k, hk⟩ := List.mem_iff_getElem?.mp hs
  have hcovers := (h.stops k s hk).2
  rw [Stop.Covers, hphase] at hcovers
  exact hcovers

theorem sound_initial : ({} : Ros2Sidecar).Sound := by
  refine ⟨.nil, fun o ho hstopped => ?_⟩
  rw [List.mem_singleton.mp ho] at hstopped
  cases hstopped

/-! ## Moves -/

/-- A move changes, and its goal does not come to be under way. -/
theorem Sound.updateMove (h : b.Sound) {f : Move → Move}
    (hf : ∀ m, m.fate ≠ .underway → (f m).fate ≠ .underway) : (b.updateMove number f).Sound := by
  refine ⟨fun k s hs => ?_, h.observed⟩
  obtain ⟨hmark, hcovers⟩ := h.stops k s hs
  refine ⟨?_, hcovers.mono fun n _ hn => haltedAt_modify hf hn⟩
  show s.mark ≤ (b.moves.modify number f).length
  rwa [List.length_modify]

theorem Sound.addMove (h : b.Sound) (m : Move) : Sound { b with moves := b.moves ++ [m] } := by
  refine ⟨fun k s hs => ?_, h.observed⟩
  obtain ⟨hmark, hcovers⟩ := h.stops k s hs
  refine ⟨?_, hcovers.mono fun n hn hhalted => ?_⟩
  · rw [List.length_append]
    exact Nat.le_add_right_of_le hmark
  · show haltedAt (b.moves ++ [m]) n = true
    rwa [haltedAt_append (hn.trans_le hmark)]

theorem Sound.observe (h : b.Sound) (value : OperationalStatus) (source : ObservationSource)
    (hsource : value = .stopped → source.Honest b.stops) :
    Sound { b with statusEvidence := b.statusEvidence.recordObserved value source } := by
  refine ⟨h.stops, fun o ho hstopped => ?_⟩
  rcases List.mem_append.mp ho with ho | ho
  · exact h.observed o ho hstopped
  · rw [List.mem_singleton.mp ho] at hstopped ⊢
    exact hsource hstopped

theorem Sound.flags (h : b.Sound) (closed controllerAlive : Bool) (activeGoal : Option Nat)
    (operationalStatus : OperationalStatus) :
    Sound { b with closed, controllerAlive, activeGoal, operationalStatus } := ⟨h.stops, h.observed⟩

theorem Sound.release (h : b.Sound) : (b.release number).Sound := ⟨h.stops, h.observed⟩

theorem Sound.beginMove (h : b.Sound) (refusal : Option Thrown) : (b.beginMove refusal).Sound := by
  unfold Ros2Sidecar.beginMove
  dsimp only
  split
  · exact h.addMove _
  · split
    · exact h.addMove _
    · split
      · exact h.addMove _
      · have hmove := (h.flags b.closed b.controllerAlive b.activeGoal .busy).addMove
          { phase := .sending, fate := .underway }
        exact ⟨hmove.stops, hmove.observed⟩

theorem Sound.hearSent (h : b.Sound) (answer : SendAnswer) : (b.hearSent number answer).Sound := by
  cases answer with
  | accepted =>
    refine Sound.updateMove ?_ fun _ hm => hm
    exact ⟨h.stops, h.observed⟩
  | rejected =>
    refine Sound.updateMove ?_ fun _ _ => ?_
    · exact ⟨h.stops, h.observed⟩
    · nofun
  | failed e reached =>
    refine Sound.updateMove ?_ fun m hm => ?_
    · exact ⟨h.stops, h.observed⟩
    · show (if reached then m.fate else .absent) ≠ Fate.underway
      split
      · exact hm
      · nofun

theorem Sound.hearResult (h : b.Sound) (error : Option JsString) (status : GoalStatus) :
    (b.hearResult number error status).Sound := by
  have hended : ∀ {f : Move → Move}, (∀ m, (f m).fate = .ended) → ∀ m : Move, m.fate ≠ .underway →
      (f m).fate ≠ .underway := by
    intro f hf m _
    rw [hf]
    nofun
  cases status with
  | succeeded =>
    have hobserved := h.observe .ready (.result number .succeeded) nofun
    exact (Sound.updateMove (hobserved.flags _ _ _ .ready) (hended fun _ => rfl)).release
  | canceled =>
    have hobserved := h.observe .stopped (.result number .canceled) fun _ => rfl
    exact (Sound.updateMove (hobserved.flags _ _ _ .stopped) (hended fun _ => rfl)).release
  | aborted =>
    have hobserved := h.observe .faulted (.result number .aborted) nofun
    exact (Sound.updateMove (hobserved.flags _ _ _ .faulted) (hended fun _ => rfl)).release

theorem Sound.hearFailure (h : b.Sound) (e : Thrown) : (b.hearFailure number e).Sound := by
  rw [Ros2Sidecar.hearFailure]
  split
  · refine Sound.release (Sound.updateMove (h.flags _ _ _ .faulted) fun m hm => ?_)
    exact hm
  · refine Sound.release (h.updateMove fun m hm => ?_)
    exact hm

/-! ## Stops -/

/-- The answer to a cancel does not bring a goal under way; `ERROR_NONE` ends it. -/
theorem fate_cancel (m : Move) (code : Option RosCancelCode) :
    (m.fate ≠ .underway → (m.cancel code).fate ≠ .underway) ∧
      (code = some .errorNone → (m.cancel code).fate ≠ .underway) := by
  rw [Move.cancel]
  split
  · exact ⟨fun _ => nofun, fun _ => nofun⟩
  · next hnot => exact ⟨id, fun hcode hfate => hnot ⟨hcode, hfate⟩⟩

/-- **A stop is confirmed** when no goal of an earlier move is under way. -/
theorem sound_finishStop {s : Stop} (hs : b.stops[number]? = some s) (hmark : s.mark ≤ b.moves.length)
    (hcovers : ∀ n < s.mark, haltedAt b.moves n = true)
    (hopen : ∀ cancelled, s.phase ≠ .confirmed cancelled)
    (hothers : ∀ k r, k ≠ number → b.stops[k]? = some r → r.mark ≤ b.moves.length ∧ r.Covers b.moves)
    (hobserved : ∀ o ∈ b.statusEvidence.observed, o.1 = .stopped → o.2.Honest b.stops)
    (cancelled : Bool) : (b.finishStop number (.confirmed cancelled)).Sound := by
  constructor
  · intro k r hr
    rcases getElem?_modify_cases hs hr with ⟨hne, hold⟩ | ⟨rfl, rfl⟩
    · exact hothers k r (Ne.symm hne) hold
    · exact ⟨hmark, hcovers⟩
  · intro o ho hstopped
    rcases List.mem_append.mp ho with ho | ho
    · refine (hobserved o ho hstopped).mono fun k r hr hconfirmed => ?_
      have hne : number ≠ k := by
        rintro rfl
        obtain rfl := Option.some.inj (hs.symm.trans hr)
        obtain ⟨cancelled, hphase⟩ := hconfirmed
        exact hopen cancelled hphase
      exact (getElem?_modify_of_ne _ hne).trans hr
    · rw [List.mem_singleton.mp ho]
      exact ⟨_, getElem?_modify_self _ hs, cancelled, rfl⟩

theorem Sound.beginStop (h : b.Sound)
    (horderly : ∀ n < b.moves.length, haltedAt b.moves n = true ∨ b.activeGoal = some n) :
    b.beginStop.Sound := by
  have happend : ∀ phase : StopPhase, ∀ o ∈ b.statusEvidence.observed, o.1 = .stopped →
      o.2.Honest (b.stops ++ [{ mark := b.moves.length, phase }]) := by
    intro phase o ho hstopped
    exact (h.observed o ho hstopped).mono fun k s hs _ => getElem?_append_of_eq_some _ hs
  unfold Ros2Sidecar.beginStop
  split
  · next goal hactive =>
    refine ⟨h.stops.append ⟨Nat.le_refl _, fun n hn hne => ?_⟩, happend _⟩
    refine (horderly n hn).resolve_right ?_
    rw [hactive]
    exact fun heq => hne (Option.some.inj heq).symm
  · next hactive =>
    refine sound_finishStop
      (b := { b with stops := b.stops ++ [{ mark := b.moves.length, phase := .unconfirmed }] })
      (s := { mark := b.moves.length, phase := .unconfirmed }) List.getElem?_concat_length (Nat.le_refl _)
      (fun n hn => ?_) nofun (fun k r hne hr => ?_) (happend _) false
    · refine (horderly n hn).resolve_right ?_
      rw [hactive]
      nofun
    · rcases getElem?_append_singleton_eq_some hr with hold | ⟨rfl, -⟩
      · exact h.stops k r hold
      · exact absurd rfl hne

/-- **The cancel of a stop is answered** with `ERROR_NONE`. -/
theorem Sound.hearStop (h : b.Sound) {mark goal : Nat}
    (hs : b.stops[number]? = some ⟨mark, .cancelling goal⟩) :
    (b.hearStop number goal (some .errorNone)).Sound := by
  obtain ⟨hmark, hcovers⟩ := h.stops number _ hs
  have hcancel : ∀ m : Move, m.fate ≠ .underway → (m.cancel (some .errorNone)).fate ≠ .underway :=
    fun m => (fate_cancel m _).1
  have hupdated : (b.updateMove goal fun m => m.cancel (some .errorNone)).Sound := h.updateMove hcancel
  have hlength : (b.moves.modify goal fun m => m.cancel (some .errorNone)).length = b.moves.length :=
    List.length_modify _ _ _
  rw [Ros2Sidecar.hearStop, if_pos rfl]
  refine sound_finishStop (b := b.updateMove goal fun m => m.cancel (some .errorNone)) hs
    (hlength ▸ hmark) (fun n hn => ?_) nofun (fun k r _ hr => ?_) h.observed true
  · by_cases hgoal : n = goal
    · subst hgoal
      show haltedAt (b.moves.modify n _) n = true
      unfold haltedAt
      cases hm : (b.moves.modify n fun m => m.cancel (some .errorNone))[n]? with
      | none => rfl
      | some m =>
        rcases getElem?_modify_eq_some hm with ⟨hne, -⟩ | ⟨-, m', -, rfl⟩
        · exact absurd rfl hne
        · simpa using (fate_cancel m' _).2 rfl
    · exact haltedAt_modify hcancel (hcovers n hn hgoal)
  · exact hupdated.stops k r hr

/-! ## Runs -/

/-- **Step lemma.** An event that meets the condition keeps the invariant. -/
theorem Sound.step (h : b.Sound) {event : Event} (horderly : b.Orderly event) {b' : Ros2Sidecar}
    (hstep : b.step event = some b') : b'.Sound := by
  cases event with
  | move refusal =>
    obtain rfl := Option.some.inj hstep
    exact h.beginMove refusal
  | sent number answer =>
    rw [Ros2Sidecar.step] at hstep
    split at hstep
    · obtain rfl := Option.some.inj hstep
      exact h.hearSent answer
    · cases hstep
  | abort number =>
    rw [Ros2Sidecar.step] at hstep
    split at hstep
    · split at hstep
      · cases hstep
      · obtain rfl := Option.some.inj hstep
        unfold Ros2Sidecar.abortMove
        split
        · exact h.updateMove fun _ hm => hm
        · exact h.updateMove fun _ hm => hm
    · cases hstep
  | abortAnswer number code =>
    rw [Ros2Sidecar.step] at hstep
    split at hstep
    · obtain rfl := Option.some.inj hstep
      exact h.updateMove fun m => (fate_cancel m code).1
    · cases hstep
  | ended number =>
    have hended : (b.updateMove number fun m => { m with fate := .ended }).Sound :=
      h.updateMove fun _ _ => nofun
    rw [Ros2Sidecar.step] at hstep
    split at hstep
    · obtain rfl := Option.some.inj hstep
      exact hended
    · obtain rfl := Option.some.inj hstep
      exact hended
    · cases hstep
  | result number status error =>
    rw [Ros2Sidecar.step] at hstep
    split at hstep
    · obtain rfl := Option.some.inj hstep
      exact h.hearResult error status
    · cases hstep
  | resultFailed number e =>
    rw [Ros2Sidecar.step] at hstep
    split at hstep
    · obtain rfl := Option.some.inj hstep
      exact h.hearFailure e
    · cases hstep
  | stop =>
    obtain rfl := Option.some.inj hstep
    exact h.beginStop horderly
  | stopAnswer number code =>
    rw [Ros2Sidecar.step] at hstep
    split at hstep
    · next mark goal hs =>
      obtain rfl := Option.some.inj hstep
      obtain rfl : code = some .errorNone := horderly
      exact h.hearStop hs
    · cases hstep
  | controllerStatus alive =>
    obtain rfl := Option.some.inj hstep
    rw [Ros2Sidecar.hearStatus]
    split
    · exact h
    · split
      · exact (h.observe .faulted .controllerStatus nofun).flags _ _ _ _
      · split
        · exact (h.observe .ready .controllerStatus nofun).flags _ _ _ _
        · exact h.flags _ _ _ _
  | close =>
    obtain rfl := Option.some.inj hstep
    exact h.flags true _ _ _

/-- The condition can be evaluated. -/
instance (b : Ros2Sidecar) (event : Event) : Decidable (b.Orderly event) :=
  match event with
  | .stop => inferInstanceAs (Decidable (∀ n < b.moves.length,
      haltedAt b.moves n = true ∨ b.activeGoal = some n))
  | .stopAnswer _ code => inferInstanceAs (Decidable (code = some .errorNone))
  | .move _ | .sent _ _ | .abort _ | .abortAnswer _ _ | .ended _ | .result _ _ _ | .resultFailed _ _
  | .controllerStatus _ | .close => isTrue trivial

/-- **Stops are honest** in every run in which each stop finds at most the active goal under way, and each
cancel of a stop is answered with `ERROR_NONE`. -/
theorem honest_stops_of_orderly {events : List Event}
    (horderly : machine.Guarded Orderly {} events) (hrun : machine.run {} events = some b) : b.Honest := by
  have hsound : b.Sound :=
    Machine.run_guarded_invariant (I := Sound)
      (fun _ _ _ h hevent hstep => Sound.step h hevent hstep) sound_initial horderly hrun
  exact hsound.honest

/-- A move that ends, one that is cancelled by a stop, and a stop when nothing is under way. -/
def orderlyRun : List Event :=
  [.move none, .sent 0 .accepted, .result 0 .succeeded none, .move none, .sent 1 .accepted, .stop,
    .stopAnswer 0 (some .errorNone), .result 1 .canceled none, .stop]

theorem honest_stops_of_orderly_stopped :
    ∃ b, machine.run {} orderlyRun = some b ∧
      b.statusEvidence.observed = [(.ready, .construction), (.ready, .result 0 .succeeded),
        (.stopped, .stop 0), (.stopped, .result 1 .canceled), (.stopped, .stop 1)] ∧ b.Honest := by
  have hrun : (machine.run {} orderlyRun).map (·.statusEvidence.observed) =
      some [(.ready, .construction), (.ready, .result 0 .succeeded), (.stopped, .stop 0),
        (.stopped, .result 1 .canceled), (.stopped, .stop 1)] := by decide +kernel
  obtain ⟨b, hb, hobserved⟩ := Option.map_eq_some_iff.mp hrun
  exact ⟨b, hb, hobserved, honest_stops_of_orderly (by decide +kernel) hb⟩

/-- What stops were confirmed, with the goals under way of the moves before them. -/
def unconfirmedGoals (b : Ros2Sidecar) : List (List Nat) :=
  b.stops.map fun s => match s.phase with
    | .confirmed _ => (List.range s.mark).filter fun n => !haltedAt b.moves n
    | _ => []

/-- On an honest sidecar no goal is under way that a confirmed stop covers. -/
theorem Honest.unconfirmedGoals (h : b.Honest) : ∀ goals ∈ b.unconfirmedGoals, goals = [] := by
  intro goals hgoals
  obtain ⟨s, hs, rfl⟩ := List.mem_map.mp hgoals
  cases hphase : s.phase with
  | confirmed cancelled =>
    refine List.filter_eq_nil_iff.mpr fun n hn => ?_
    rw [h.confirmed s hs cancelled hphase n (List.mem_range.mp hn)]
    nofun
  | cancelling goal => rfl
  | unconfirmed => rfl

/-- **Stops are not honest** in general: a stop is confirmed while a goal is still being sent, while the goal
of an overtaken move is under way, and after a move has given up waiting for its result; and `stopped` is
observed when the cancel of a stop was rejected. -/
theorem not_honest_stops :
    (∃ b, machine.run {} [.move none, .stop] = some b ∧ b.unconfirmedGoals = [[0]] ∧ ¬ b.Honest) ∧
    (∃ b, machine.run {} [.move none, .sent 0 .accepted, .move none, .sent 1 .accepted, .stop,
        .stopAnswer 0 (some .errorNone)] = some b ∧ b.unconfirmedGoals = [[0]] ∧ ¬ b.Honest) ∧
    (∃ b, machine.run {} [.move none, .sent 0 .accepted,
        .resultFailed 0 (.error (js "T") none []), .stop] = some b ∧
      b.unconfirmedGoals = [[0]] ∧ ¬ b.Honest) ∧
    ∃ b, machine.run {} [.move none, .sent 0 .accepted, .stop, .stopAnswer 0 (some .errorRejected)] = some b ∧
      (.stopped, .stop 0) ∈ b.statusEvidence.observed ∧ ¬ b.Honest := by
  have hgoals : ∀ {events : List Event},
      (machine.run {} events).map (·.unconfirmedGoals) = some [[0]] →
      ∃ b, machine.run {} events = some b ∧ b.unconfirmedGoals = [[0]] ∧ ¬ b.Honest := by
    intro events hrun
    obtain ⟨b, hb, hgoals⟩ := Option.map_eq_some_iff.mp hrun
    refine ⟨b, hb, hgoals, fun h => ?_⟩
    have hnil := h.unconfirmedGoals [0] (by rw [hgoals]; exact List.mem_singleton.mpr rfl)
    cases hnil
  refine ⟨hgoals (by decide +kernel), hgoals (by decide +kernel), hgoals (by decide +kernel), ?_⟩
  refine ⟨_, rfl, by decide +kernel, fun h => ?_⟩
  obtain ⟨s, hs, cancelled, hphase⟩ := h.observed (.stopped, .stop 0) (by decide +kernel) rfl
  obtain rfl := Option.some.inj hs
  cases hphase

end Ros2Sidecar

end Pinout.Ros2
