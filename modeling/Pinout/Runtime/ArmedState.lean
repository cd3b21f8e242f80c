import Mathlib.Data.List.Induction
import Pinout.Runtime.ProtocolBackend

/-! # The armed state is honest

What a backend says of being armed is what its device confirmed last, and a backend that was stopped sends no kick
until it is armed again, in every run in which no reply is overtaken by a stop and `safeState` is not what disarms
(`honest_of_orderly`). -/

namespace Pinout.Runtime

open Foundation

namespace ProtocolBackend

variable {options : BackendOptions} {support : DeviceSupport}

/-- What handling a reply makes of the state, if anything. -/
def effect (support : DeviceSupport) : Awaiting → Reply → Option ArmState
  | .armed _, .ok _ => some .armed
  | .disarmed, .ok _ | .stopped, .ok _ | .safeStopped, .ok _ => some .disarmed
  | .safeDisarmed, _ => if support.stopAll then none else some .disarmed
  | .kicked, .watchdogTripped => some .tripped
  | .kicked, .notArmed => some .disarmed
  | _, _ => none

def settleFrom (support : DeviceSupport) (state : ArmState) (ready : List (Awaiting × Reply)) : ArmState :=
  ready.foldl (fun state entry => (effect support entry.1 entry.2).getD state) state

/-- The state once all that has arrived is handled. -/
def settled (support : DeviceSupport) (s : ProtocolBackend) : ArmState := settleFrom support s.state s.ready

/-- A backend is **honest**: its state and its acknowledged evidence agree; when all that has arrived is handled, it
says to be armed only if the last confirmation was that it is; and no kick was sent after a stop. -/
structure Honest (s : ProtocolBackend) : Prop where
  agree : s.state = s.acknowledged
  confirmed : s.ready = [] → s.state = .armed → s.last = some .armed
  kicks : ∀ blocked ∈ s.kicks, blocked = false

/-- A step is **orderly**:
* a confirmation that the backend makes nothing of arrives only when it is not armed;
* a trip is heard, with no reply to `sys.arm` waiting to be handled, or the backend is not armed;
* `sys.arm` is supported, and when it succeeds there was no stop since `arm` was called, or no heartbeat is kept;
* when `safeState` ends, the acknowledged evidence is that the device is disarmed. -/
def Orderly (options : BackendOptions) (support : DeviceSupport) (s : ProtocolBackend) : Event → Prop
  | .arrive request reply => match s.inFlight.lookup request with
    | some awaiting => effect support awaiting reply = none → confirmation awaiting reply ≠ none →
        s.settled support ≠ .armed
    | none => True
  | .unheard confirmation => confirmation ≠ .armed → s.settled support ≠ .armed
  | .trip _ =>
    if s.listening then settleFrom support .tripped s.ready ≠ .armed
    else s.settled support ≠ .armed ∧ (s.heartbeat = none ∨ s.state ≠ .armed)
  | .resume => match s.ready with
    | (.initialized _, _) :: _ => support.arm = true
    | (.armed call, .ok _) :: _ => call.stops = s.stops ∨ keepsHeartbeat options support = false
    | (.safeDisarmed, _) :: _ => support.stopAll = true ∨ s.acknowledged = .disarmed
    | (.safeStopped, .ok _) :: _ => s.acknowledged = .disarmed
    | _ => True
  | .safeState => support.disarm = true ∨ support.stopAll = true ∨ s.acknowledged = .disarmed
  | _ => True

/-- What holds in every state of an orderly run. -/
structure Sound (options : BackendOptions) (support : DeviceSupport) (s : ProtocolBackend) : Prop where
  agree : s.state = s.acknowledged
  settled : s.settled support = .armed → s.last = some .armed
  quiet : s.blocked = true → s.heartbeat = none ∨ s.state ≠ .armed
  kept : keepsHeartbeat options support = false → s.heartbeat = none
  kicks : ∀ blocked ∈ s.kicks, blocked = false

theorem Sound.honest {s : ProtocolBackend} (h : Sound options support s) : Honest s where
  agree := h.agree
  confirmed hready harmed := h.settled (by rw [ProtocolBackend.settled, hready]; exact harmed)
  kicks := h.kicks

theorem settleFrom_append (state : ArmState) (ready more : List (Awaiting × Reply)) :
    settleFrom support state (ready ++ more) = settleFrom support (settleFrom support state ready) more := by
  rw [settleFrom, List.foldl_append, settleFrom, settleFrom]

theorem settleFrom_singleton (state : ArmState) (entry : Awaiting × Reply) :
    settleFrom support state [entry] = (effect support entry.1 entry.2).getD state := rfl

/-- Settling from another state: either it does not matter where one starts, or nothing changes. -/
theorem settleFrom_cases (state other : ArmState) (ready : List (Awaiting × Reply)) :
    settleFrom support state ready = settleFrom support other ready ∨ settleFrom support state ready = state := by
  induction ready using List.reverseRecOn with
  | nil => exact .inr rfl
  | append_singleton ready entry ih =>
    simp only [settleFrom_append, settleFrom_singleton]
    cases effect support entry.1 entry.2 with
    | some state => exact .inl rfl
    | none => exact ih

/-- What is armed once settled, though it is not armed now, is armed from wherever one starts. -/
theorem settleFrom_armed {state : ArmState} (hstate : state ≠ .armed) (other : ArmState)
    {ready : List (Awaiting × Reply)} (h : settleFrom support state ready = .armed) :
    settleFrom support other ready = .armed := by
  rcases @settleFrom_cases support state other ready with heq | heq
  · rwa [← heq]
  · exact absurd (heq.symm.trans h) hstate

section Steps

variable {s : ProtocolBackend}

theorem Sound.request (h : Sound options support s) (awaiting : Awaiting) :
    Sound options support (s.request awaiting) := ⟨h.agree, h.settled, h.quiet, h.kept, h.kicks⟩

theorem Sound.stopHeartbeat (h : Sound options support s) : Sound options support s.stopHeartbeat :=
  ⟨h.agree, h.settled, fun _ => .inl rfl, fun _ => rfl, h.kicks⟩

/-- A stop is counted once the heartbeat is stopped, or the backend is not armed. -/
theorem Sound.countStop (h : Sound options support s) (hquiet : s.heartbeat = none ∨ s.state ≠ .armed) :
    Sound options support s.countStop := ⟨h.agree, h.settled, fun _ => hquiet, h.kept, h.kicks⟩

theorem Sound.command (h : Sound options support s) (commanded : Option ArmState) :
    Sound options support { s with commanded } := ⟨h.agree, h.settled, h.quiet, h.kept, h.kicks⟩

theorem Sound.acknowledge (h : Sound options support s) {state : ArmState} (hstate : state ≠ .armed)
    (reason : Option JsString) : Sound options support (s.acknowledge state reason) where
  agree := rfl
  settled harmed := h.settled (settleFrom_armed hstate s.state harmed)
  quiet _ := .inr hstate
  kept := h.kept
  kicks := h.kicks

/-- The state becomes disarmed without evidence, which is so already. -/
theorem Sound.disarm_of_acknowledged (h : Sound options support s) (hack : s.acknowledged = .disarmed) :
    Sound options support { s with state := .disarmed } where
  agree := hack.symm
  settled harmed := h.settled (settleFrom_armed (by decide : ArmState.disarmed ≠ .armed) s.state harmed)
  quiet _ := .inr (by decide : ArmState.disarmed ≠ .armed)
  kept := h.kept
  kicks := h.kicks

theorem Sound.nextOutput (h : Sound options support s) (index : Nat) (call : ArmCall) :
    Sound options support (s.nextOutput support index call) := by
  unfold ProtocolBackend.nextOutput
  split
  · exact h.request _
  · refine ⟨h.agree, fun harmed => h.settled ?_, h.quiet, h.kept, h.kicks⟩
    rwa [ProtocolBackend.settled, settleFrom_append, settleFrom_singleton] at harmed

theorem Sound.disarm (h : Sound options support s) : Sound options support (s.disarm support) := by
  have hstopped := (h.stopHeartbeat.countStop (.inl rfl)).command (some .disarmed)
  unfold ProtocolBackend.disarm
  split
  · exact hstopped.request _
  · split
    · exact hstopped.request _
    · exact hstopped.acknowledge (by decide) _

theorem Sound.afterSafeDisarm (h : Sound options support s)
    (hack : support.stopAll = true ∨ s.acknowledged = .disarmed) :
    Sound options support (s.afterSafeDisarm support) := by
  unfold ProtocolBackend.afterSafeDisarm
  split
  · exact h.request _
  · next hnot => exact h.disarm_of_acknowledged (hack.resolve_left hnot)

theorem Sound.safeState (h : Sound options support s)
    (hack : support.disarm = true ∨ support.stopAll = true ∨ s.acknowledged = .disarmed) :
    Sound options support (s.safeState support) := by
  have hstopped := h.stopHeartbeat.countStop (.inl rfl)
  unfold ProtocolBackend.safeState
  split
  · exact hstopped.request _
  · next hnot => exact hstopped.afterSafeDisarm (hack.resolve_left hnot)

theorem Sound.close (h : Sound options support s) : Sound options support (s.close support) := by
  have hstopped : Sound options support { s.stopHeartbeat with listening := false } :=
    ⟨h.stopHeartbeat.agree, h.stopHeartbeat.settled, h.stopHeartbeat.quiet, h.stopHeartbeat.kept,
      h.stopHeartbeat.kicks⟩
  unfold ProtocolBackend.close
  dsimp only
  split
  · exact hstopped.disarm
  · exact hstopped

theorem Sound.arm (h : Sound options support s) (arm : ArmOptions) :
    Sound options support (s.arm options support arm) := by
  unfold ProtocolBackend.arm
  split
  · exact h
  · exact h.nextOutput 0 _

theorem Sound.startHeartbeat (h : Sound options support s)
    (hblocked : s.blocked = false ∨ keepsHeartbeat options support = false)
    (intervalMs : Option ℚ) : Sound options support (s.startHeartbeat options support intervalMs) := by
  unfold ProtocolBackend.startHeartbeat
  split
  · next hkeeps =>
    have hfalse : s.blocked = false := hblocked.resolve_right (by rw [hkeeps]; decide)
    refine ⟨h.agree, h.settled, fun htrue => ?_, fun hnot => ?_, h.kicks⟩
    · exact absurd (hfalse.symm.trans htrue) (by decide)
    · exact absurd (hkeeps.symm.trans hnot) (by decide)
  · exact h

/-- What is known of a backend when the reply that arrived first is taken. -/
structure Taken (options : BackendOptions) (support : DeviceSupport) (s : ProtocolBackend) (entry : Awaiting × Reply) :
    Prop where
  agree : s.state = s.acknowledged
  settled : settleFrom support ((effect support entry.1 entry.2).getD s.state) s.ready = .armed →
    s.last = some .armed
  quiet : s.blocked = true → s.heartbeat = none ∨ s.state ≠ .armed
  kept : keepsHeartbeat options support = false → s.heartbeat = none
  kicks : ∀ blocked ∈ s.kicks, blocked = false

theorem Taken.sound {entry : Awaiting × Reply} (h : Taken options support s entry)
    (hnone : effect support entry.1 entry.2 = none) : Sound options support s := by
  refine ⟨h.agree, fun harmed => h.settled ?_, h.quiet, h.kept, h.kicks⟩
  rwa [hnone, Option.getD_none]

/-- The state becomes what the reply makes of it, and is not armed. -/
theorem Taken.acknowledge {entry : Awaiting × Reply} (h : Taken options support s entry) {state : ArmState}
    (heffect : effect support entry.1 entry.2 = some state) (hstate : state ≠ .armed) (reason : Option JsString) :
    Sound options support (s.acknowledge state reason) := by
  refine ⟨rfl, fun harmed => h.settled ?_, fun _ => .inr hstate, h.kept, h.kicks⟩
  rw [heffect, Option.getD_some]
  exact harmed

theorem Taken.disarm_of_acknowledged {entry : Awaiting × Reply} (h : Taken options support s entry)
    (heffect : effect support entry.1 entry.2 = some .disarmed) (hack : s.acknowledged = .disarmed) :
    Sound options support { s with state := .disarmed } := by
  refine ⟨hack.symm, fun harmed => h.settled ?_, fun _ => .inr (by decide : ArmState.disarmed ≠ .armed), h.kept, h.kicks⟩
  rw [heffect, Option.getD_some]
  exact harmed

theorem Taken.arm {call : ArmCall} {timeoutMs : Option ℚ} (h : Taken options support s (.armed call, .ok timeoutMs))
    (horderly : call.stops = s.stops ∨ keepsHeartbeat options support = false) :
    Sound options support (s.handle options support (.armed call) (.ok timeoutMs)) := by
  have hblocked : (s.blocked && call.stops ≠ s.stops) = false ∨ keepsHeartbeat options support = false := by
    refine horderly.imp_left fun heq => ?_
    rw [heq]
    simp
  have hsound : Sound options support
      { s.acknowledge .armed none with
        timeoutMs := timeoutMs.getD s.timeoutMs, blocked := s.blocked && call.stops ≠ s.stops } := by
    refine ⟨rfl, h.settled, fun htrue => .inl ?_, h.kept, h.kicks⟩
    rcases hblocked with hfalse | hnot
    · exact absurd (hfalse.symm.trans htrue) (by decide)
    · exact h.kept hnot
  exact hsound.startHeartbeat hblocked _

/-- **What handling a reply preserves**, case by case. -/
theorem Taken.handle {awaiting : Awaiting} {reply : Reply} {ready : List (Awaiting × Reply)}
    (h : Taken options support { s with ready } (awaiting, reply)) (hready : s.ready = (awaiting, reply) :: ready)
    (horderly : Orderly options support s .resume) :
    Sound options support ({ s with ready }.handle options support awaiting reply) := by
  rw [Orderly, hready] at horderly
  cases awaiting with
  | configured index call =>
    cases reply with
    | ok => exact (h.sound rfl).nextOutput _ _
    | notArmed | watchdogTripped | failed => exact h.sound rfl
  | initialized call =>
    have harm : support.arm = true := horderly
    have hsound := ((h.sound rfl).command (some .armed)).request (.armed call)
    cases reply <;> (unfold ProtocolBackend.handle; dsimp only; rw [if_pos harm]; exact hsound)
  | armed call =>
    cases reply with
    | ok => exact h.arm horderly
    | notArmed | watchdogTripped | failed => exact h.sound rfl
  | disarmed | stopped =>
    cases reply with
    | ok => exact h.acknowledge rfl (by decide) _
    | notArmed | watchdogTripped | failed => exact h.sound rfl
  | safeDisarmed =>
    have hack : support.stopAll = true ∨ s.acknowledged = .disarmed := horderly
    unfold ProtocolBackend.handle ProtocolBackend.afterSafeDisarm
    cases hstop : support.stopAll with
    | true =>
      rw [if_pos rfl]
      exact (h.sound (by cases reply <;> simp [effect, hstop])).request _
    | false =>
      rw [if_neg (by decide)]
      exact h.disarm_of_acknowledged (by cases reply <;> simp [effect, hstop])
        (hack.resolve_left (by rw [hstop]; decide))
  | safeStopped =>
    cases reply with
    | ok => exact h.disarm_of_acknowledged rfl horderly
    | notArmed | watchdogTripped | failed => exact h.sound rfl
  | kicked =>
    cases reply with
    | ok | failed => exact h.sound rfl
    | notArmed =>
      refine ⟨rfl, fun harmed => h.settled harmed, fun _ => .inl rfl, fun _ => rfl, h.kicks⟩
    | watchdogTripped =>
      refine ⟨rfl, fun harmed => h.settled harmed, fun _ => .inl rfl, fun _ => rfl, h.kicks⟩

/-- **What one orderly step preserves.** -/
theorem Sound.step (h : Sound options support s) {event : Event} {t : ProtocolBackend}
    (horderly : Orderly options support s event) (hstep : step options support s event = some t) :
    Sound options support t := by
  cases event with
  | arm arm =>
    obtain rfl := Option.some.inj hstep
    exact h.arm arm
  | disarm =>
    obtain rfl := Option.some.inj hstep
    exact h.disarm
  | safeState =>
    obtain rfl := Option.some.inj hstep
    exact h.safeState horderly
  | close =>
    obtain rfl := Option.some.inj hstep
    exact h.close
  | configSafeState pin =>
    obtain rfl := Option.some.inj hstep
    exact ⟨h.agree, h.settled, h.quiet, h.kept, h.kicks⟩
  | arrive request reply =>
    obtain ⟨awaiting, hawaiting, rfl⟩ := Option.map_eq_some_iff.mp hstep
    rw [Orderly, hawaiting] at horderly
    refine ⟨h.agree, fun harmed => ?_, h.quiet, h.kept, h.kicks⟩
    -- the reply that arrives is handled last, so what it makes of the state is what counts
    rw [ProtocolBackend.settled, settleFrom_append, settleFrom_singleton] at harmed
    dsimp only at harmed ⊢
    cases heffect : effect support awaiting reply with
    | none =>
      rw [heffect, Option.getD_none] at harmed
      cases hconfirmation : confirmation awaiting reply with
      | none => exact h.settled harmed
      | some confirmation => exact absurd harmed (horderly heffect (by rw [hconfirmation]; exact nofun))
    | some state =>
      rw [heffect, Option.getD_some] at harmed
      subst harmed
      cases awaiting <;> cases reply <;> simp_all [effect, confirmation]
  | unheard confirmation =>
    obtain rfl := Option.some.inj hstep
    refine ⟨h.agree, fun harmed => ?_, h.quiet, h.kept, h.kicks⟩
    by_cases heq : confirmation = .armed
    · rw [heq]
    · exact absurd harmed (horderly heq)
  | trip reason =>
    obtain rfl := Option.some.inj hstep
    unfold ProtocolBackend.trip
    by_cases hlistening : s.listening = true
    · rw [Orderly, if_pos hlistening] at horderly
      have hheard : ({ s with last := some .tripped } : ProtocolBackend).countStop.listening = true := hlistening
      dsimp only
      rw [if_pos hheard]
      exact ⟨rfl, fun harmed => absurd harmed horderly, fun _ => .inl rfl, fun _ => rfl, h.kicks⟩
    · rw [Orderly, if_neg hlistening] at horderly
      have hunheard : ¬ ({ s with last := some .tripped } : ProtocolBackend).countStop.listening = true := hlistening
      dsimp only
      rw [if_neg hunheard]
      exact ⟨h.agree, fun harmed => absurd harmed horderly.1, fun _ => horderly.2, h.kept, h.kicks⟩
  | resume =>
    rw [ProtocolBackend.step] at hstep
    cases hready : s.ready with
    | nil =>
      rw [hready] at hstep
      cases hstep
    | cons entry ready =>
      obtain ⟨awaiting, reply⟩ := entry
      rw [hready] at hstep
      obtain rfl := Option.some.inj hstep
      refine Taken.handle ⟨h.agree, fun harmed => h.settled ?_, h.quiet, h.kept, h.kicks⟩ hready horderly
      rw [ProtocolBackend.settled, hready]
      exact harmed
  | tick =>
    rw [ProtocolBackend.step] at hstep
    split at hstep
    · next henabled =>
      obtain rfl := Option.some.inj hstep
      unfold ProtocolBackend.tick
      split
      · exact h.stopHeartbeat
      · next harmed =>
        have harmed : s.state = .armed := not_not.mp harmed
        have hblocked : s.blocked = false := by
          by_contra hblocked
          rcases h.quiet (Bool.eq_true_of_not_eq_false hblocked) with hnone | hnot
          · rw [hnone] at henabled
            exact absurd henabled.1 (by decide)
          · exact hnot harmed
        refine ⟨h.agree, h.settled, h.quiet, h.kept, fun blocked hkick => ?_⟩
        rcases List.mem_append.mp hkick with hkick | hkick
        · exact h.kicks blocked hkick
        · rw [List.mem_singleton.mp hkick, hblocked]
    · cases hstep

end Steps

theorem sound_construct (outputs : List Nat) : Sound options support (construct options outputs) where
  agree := rfl
  settled harmed := by cases harmed
  quiet htrue := by cases htrue
  kept _ := rfl
  kicks := nofun

/-- **The backend is honest in every state of an orderly run.** -/
theorem honest_of_orderly (options : BackendOptions) (support : DeviceSupport) (outputs : List Nat)
    (events : List Event) (s : ProtocolBackend)
    (horderly : (machine options support).Guarded (Orderly options support) (construct options outputs) events)
    (hrun : (machine options support).run (construct options outputs) events = some s) : Honest s := by
  have hsound : Sound options support s := Machine.run_guarded_invariant
    (fun _ _ _ h horderly hstep => h.step horderly hstep) (sound_construct outputs) horderly hrun
  exact hsound.honest

instance (s : ProtocolBackend) (event : Event) : Decidable (Orderly options support s event) := by
  unfold Orderly
  cases event with
  | arrive | resume => dsimp only; split <;> infer_instance
  | trip => dsimp only; infer_instance
  | arm | disarm | close | configSafeState | tick => exact instDecidableTrue
  | safeState | unheard => dsimp only; infer_instance

/-- A device that is armed, kept alive with a kick, and trips. -/
def trippedEvents : List Event :=
  [.arm {}, .arrive 0 (.ok none), .resume, .resume, .arrive 1 (.ok (some 1000)), .resume, .tick, .arrive 2 (.ok none),
    .resume, .trip none]

/-- A backend is honest when its device trips. -/
theorem honest_of_orderly_tripped :
    ∃ s, (machine {} {}).run (construct {} [4]) trippedEvents = some s ∧ s.kicks = [false] ∧ Honest s := by
  have hkicks : ((machine {} {}).run (construct {} [4]) trippedEvents).map (·.kicks) = some [false] := by
    decide +kernel
  obtain ⟨s, hrun, hkicks⟩ := Option.map_eq_some_iff.mp hkicks
  exact ⟨s, hrun, hkicks, honest_of_orderly {} {} [4] trippedEvents s (by decide +kernel) hrun⟩

/-- A device that is armed, and stopped with `safeState`. -/
def safeStateEvents : List Event :=
  [.arm {}, .resume, .arrive 0 (.ok none), .resume, .safeState, .arrive 1 (.ok none), .resume, .arrive 2 (.ok none),
    .resume]

/-- A device whose reply to `sys.arm` comes after `disarm` was called. -/
def overtakenEvents : List Event :=
  [.arm {}, .resume, .disarm, .arrive 0 (.ok none), .resume, .tick]

/-- After `safeState` the evidence still says that the device is armed; and a kick is sent after `disarm`. -/
theorem not_agreeing :
    (∃ s, (machine {} {}).run (construct {} []) safeStateEvents = some s ∧ s.state = .disarmed ∧
      s.acknowledged = .armed ∧ ¬ Honest s) ∧
    ∃ s, (machine {} {}).run (construct {} []) overtakenEvents = some s ∧ s.kicks = [true] ∧ ¬ Honest s := by
  have hsafe : ((machine {} {}).run (construct {} []) safeStateEvents).map (fun s => (s.state, s.acknowledged)) =
      some (.disarmed, .armed) := by decide +kernel
  have hkicks : ((machine {} {}).run (construct {} []) overtakenEvents).map (·.kicks) = some [true] := by
    decide +kernel
  obtain ⟨s, hs, hstate⟩ := Option.map_eq_some_iff.mp hsafe
  obtain ⟨hstate, hack⟩ := Prod.mk.inj hstate
  obtain ⟨t, ht, hkick⟩ := Option.map_eq_some_iff.mp hkicks
  refine ⟨⟨s, hs, hstate, hack, fun h => ?_⟩, t, ht, hkick, fun h => ?_⟩
  · have hagree := h.agree
    rw [hstate, hack] at hagree
    cases hagree
  · exact absurd (h.kicks true (by rw [hkick]; exact List.mem_singleton_self _)) (by decide)

end ProtocolBackend

end Pinout.Runtime
