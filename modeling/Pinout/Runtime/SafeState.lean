import Pinout.Foundation.Machine
import Pinout.Halt.Coordinator

/-! # The safe state at every stop

`PinoutRuntime.onSafetyStateChange` (`packages/core/src/runtime/runtime.ts`): the runtime is one of the
listeners of its halt coordinator, and links the work of every stop behind that of the stops before it.
The link of a stop asks every device that is registered then for its safe state, and is done when all
devices have answered and the event of each has been emitted; a handler that throws at the event of a
failure makes the link reject, and no link behind it runs. What happens between two points where
something waits is one *event*. The number of a stop is its place in the order in which stops were made. -/

namespace Pinout.Runtime

open Foundation Halt

/-- A listener of a coordinator: the runtime, or another one. -/
inductive HaltListener
  | runtime
  | other (id : Nat)
  deriving DecidableEq

/-- Whether the loop of `transition` over the listeners comes to the runtime, when `throws` tells which of
the others throw. -/
def reachesRuntime (throws : Nat → Bool) : List HaltListener → Bool
  | [] => false
  | .runtime :: _ => true
  | .other id :: listeners => if throws id then false else reachesRuntime throws listeners

structure RuntimeEventEnvelope where
  deviceId : JsString
  event : JsString
  payload : JsonObject
  timestamp : Int

def safeStateApplied (deviceId : JsString) (result : Option JsonObject) (now : Int) :
    RuntimeEventEnvelope where
  deviceId := deviceId
  event := js "device.safe_state_applied"
  payload := result.getD
    [(js "applied", .bool false), (js "reason", .str (js "safe-state-not-supported"))]
  timestamp := now

def safeStateFailed (deviceId : JsString) (error : Thrown) (now : Int) : RuntimeEventEnvelope where
  deviceId := deviceId
  event := js "device.safe_state_failed"
  payload := [(js "message", .str error.text)]
  timestamp := now

/-- What a device does after `applySafeState` has settled, when `emit` tells what the handlers of an event
throw: the events that are emitted, and what the task rejects with. -/
def settleTask (deviceId : JsString) (result : Except Thrown (Option JsonObject))
    (emit : RuntimeEventEnvelope → Option Thrown) (now : Int) :
    List RuntimeEventEnvelope × Option Thrown :=
  let failed := fun error =>
    ([safeStateFailed deviceId error now], emit (safeStateFailed deviceId error now))
  match result with
  | .error error => failed error
  | .ok result =>
    let applied := safeStateApplied deviceId result now
    match emit applied with
    | none => ([applied], none)
    | some error => (applied :: (failed error).1, (failed error).2)

structure SafeStates where
  halt : HaltCoordinator := {}
  /-- The listeners of `halt`, in the order in which they subscribed. -/
  listeners : List HaltListener := [.runtime]
  devices : List JsString := []
  waiting : List Nat := []
  current : Option Nat := none
  rejected : Bool := false
  /-- The devices that have been asked and have not answered, with the link that asked. -/
  tasks : List (Nat × JsString) := []
  emitted : List RuntimeEventEnvelope := []
  stops : List (List JsString) := []
  /-- The calls of `applySafeState`, with the stop they were made for. -/
  attempts : List (Nat × JsString) := []

inductive SafeStateEvent
  | call (call : Call) (throws : Nat → Bool) (now : Int)
  | advance
  | settle (link : Nat) (device : JsString) (result : Except Thrown (Option JsonObject))
    (emit : RuntimeEventEnvelope → Option Thrown) (now : Int)
  | register (device : JsString)
  | unregister (device : JsString)
  | subscribe (id : Nat)
  | unsubscribe (id : Nat)
  | configureGovernance (halt : HaltCoordinator) (listeners : List Nat)

def SafeStateEvent.ofChain : SafeStateEvent → Bool
  | advance | settle _ _ _ _ _ => true
  | _ => false

namespace SafeStates

def isStop (change : SafetyStateChange) : Bool :=
  change.toState = .halted ∨ change.toState = .estopRequested

/-- `onSafetyStateChange`, when the loop over the listeners comes to the runtime. -/
def stop (s : SafeStates) (throws : Nat → Bool) : SafeStates :=
  { s with
    stops := s.stops ++ [s.devices]
    waiting := if reachesRuntime throws s.listeners then s.waiting ++ [s.stops.length] else s.waiting }

/-- The next link begins, unless a link has rejected. -/
def advance (s : SafeStates) (link : Nat) (waiting : List Nat) : SafeStates :=
  if s.rejected then { s with waiting := waiting }
  else
    let asked := s.devices.map fun device => (link, device)
    { s with
      waiting := waiting
      current := if asked = [] then none else some link
      tasks := s.tasks ++ asked
      attempts := s.attempts ++ asked }

/-- A device has answered. The link is done when all have, and rejects as soon as one task does. -/
def settle (s : SafeStates) (link : Nat) (device : JsString)
    (outcome : List RuntimeEventEnvelope × Option Thrown) : SafeStates :=
  let tasks := s.tasks.erase (link, device)
  let s := { s with tasks, emitted := s.emitted ++ outcome.1 }
  if s.current = some link then match outcome.2 with
    | some _ => { s with current := none, rejected := true }
    | none => { s with current := if tasks.any (·.1 = link) then some link else none }
  else s

def step (s : SafeStates) : SafeStateEvent → Option SafeStates
  | .call call throws now =>
    let next := { s with halt := s.halt.apply call }
    match s.halt.change call now with
    | some change => some (if isStop change then next.stop throws else next)
    | none => some next
  | .advance => match s.current, s.waiting with
    | none, link :: waiting => some (s.advance link waiting)
    | _, _ => none
  | .settle link device result emit now =>
    if (link, device) ∈ s.tasks then some (s.settle link device (settleTask device result emit now))
    else none
  | .register device =>
    if device ∈ s.devices then none else some { s with devices := s.devices ++ [device] }
  | .unregister device => some { s with devices := s.devices.filter (· ≠ device) }
  | .subscribe id =>
    if .other id ∈ s.listeners then some s
    else some { s with listeners := s.listeners ++ [.other id] }
  | .unsubscribe id => some { s with listeners := s.listeners.filter (· ≠ .other id) }
  | .configureGovernance halt listeners =>
    some { s with halt := halt, listeners := listeners.map .other ++ [.runtime] }

def machine : Machine SafeStates SafeStateEvent := ⟨step⟩

def Idle (s : SafeStates) : Prop := s.waiting = [] ∧ s.current = none

/-- Every device that was registered at a stop was asked for its safe state for this stop. -/
def Followed (s : SafeStates) : Prop :=
  ∀ (n : Nat) (devices : List JsString), s.stops[n]? = some devices →
    ∀ device ∈ devices, (n, device) ∈ s.attempts

def work (s : SafeStates) : Nat := s.tasks.length + s.waiting.length * (s.devices.length + 1)

/-- Every stop is followed: it has been when the chain is idle, the chain goes on until it is, however
its tasks settle, and it is idle after finitely many of its events. -/
structure Safe (s : SafeStates) : Prop where
  followed : s.Idle → s.Followed
  goes : ¬ s.Idle → (s.step .advance).isSome = true ∨
    ∃ task ∈ s.tasks, ∀ result emit now, (s.step (.settle task.1 task.2 result emit now)).isSome = true
  ends : ∀ (events : List SafeStateEvent) (s' : SafeStates), (∀ event ∈ events, event.ofChain = true) →
    machine.run s events = some s' → events.length ≤ s.work

/-- Nothing goes wrong: no listener that subscribed before the runtime throws at a stop, no handler throws
at the event of a failure, and no device leaves while a stop waits that it was registered at. -/
def Undisturbed (s : SafeStates) : SafeStateEvent → Prop
  | .call call throws now => ∀ change ∈ s.halt.change call now, isStop change = true →
      reachesRuntime throws s.listeners = true
  | .settle _ device result emit now => (settleTask device result emit now).2 = none
  | .unregister device => ∀ link ∈ s.waiting, ∀ devices ∈ s.stops[link]?, device ∉ devices
  | _ => True

instance (s : SafeStates) : ∀ event, Decidable (s.Undisturbed event)
  | .call call throws now => inferInstanceAs (Decidable (∀ change ∈ s.halt.change call now,
      isStop change = true → reachesRuntime throws s.listeners = true))
  | .settle _ device result emit now =>
    match h : (settleTask device result emit now).2 with
    | none => isTrue h
    | some _ => isFalse fun hnone => by
      have hnone : (settleTask device result emit now).2 = none := hnone
      rw [h] at hnone
      cases hnone
  | .unregister device =>
    inferInstanceAs (Decidable (∀ link ∈ s.waiting, ∀ devices ∈ s.stops[link]?, device ∉ devices))
  | .advance | .register _ | .subscribe _ | .unsubscribe _ | .configureGovernance _ _ => isTrue trivial

/-! ## The chain comes to its end -/

/-- **An event of the chain** leaves less to do. -/
theorem work_lt {s s' : SafeStates} {event : SafeStateEvent} (hchain : event.ofChain = true)
    (hstep : s.step event = some s') : s'.work < s.work := by
  cases event <;> simp only [SafeStateEvent.ofChain, Bool.false_eq_true] at hchain <;>
    simp only [SafeStates.step] at hstep
  case advance =>
    split at hstep
    · next link waiting hcurrent hwaiting =>
      obtain rfl := Option.some.inj hstep
      have hmul : (waiting.length + 1) * (s.devices.length + 1) =
          waiting.length * (s.devices.length + 1) + (s.devices.length + 1) := Nat.succ_mul _ _
      rw [advance]
      split
      · simp only [work, hwaiting, List.length_cons]
        omega
      · simp only [work, hwaiting, List.length_cons, List.length_append, List.length_map]
        omega
    · cases hstep
  case settle link device result emit now =>
    split at hstep
    · next hmem =>
      obtain rfl := Option.some.inj hstep
      have hlength := List.length_erase_of_mem hmem
      have hpos := List.length_pos_of_mem hmem
      have hwork : (s.settle link device (settleTask device result emit now)).work =
          (s.tasks.erase (link, device)).length + s.waiting.length * (s.devices.length + 1) := by
        rw [settle]
        dsimp only
        split
        · split <;> rfl
        · rfl
      rw [hwork, hlength, work]
      omega
    · cases hstep

/-- **The chain ends.** -/
theorem length_le_work {s s' : SafeStates} {events : List SafeStateEvent}
    (hchain : ∀ event ∈ events, event.ofChain = true) (hrun : machine.run s events = some s') :
    events.length ≤ s.work := by
  induction events generalizing s with
  | nil => exact Nat.zero_le _
  | cons event events ih =>
    obtain ⟨t, hstep, hrun⟩ := machine.run_cons_eq_some.mp hrun
    have hlt := work_lt (hchain event List.mem_cons_self) hstep
    have hle := ih (fun e he => hchain e (List.mem_cons_of_mem event he)) hrun
    rw [List.length_cons]
    omega

/-! ## What a run keeps -/

/-- No link has rejected; only the link under way has devices that have not answered, and it has some; a
stop waits or has been followed; and the devices of a stop that waits are still registered. -/
structure Sound (s : SafeStates) : Prop where
  fulfilled : s.rejected = false
  tasks : ∀ task ∈ s.tasks, s.current = some task.1
  current : ∀ link, s.current = some link → s.tasks ≠ []
  stops : ∀ (n : Nat) (devices : List JsString), s.stops[n]? = some devices →
    n ∈ s.waiting ∨ ∀ device ∈ devices, (n, device) ∈ s.attempts
  waiting : ∀ n ∈ s.waiting, ∃ devices, s.stops[n]? = some devices ∧ ∀ device ∈ devices, device ∈ s.devices

variable {s s' : SafeStates}

theorem Sound.stop (h : s.Sound) {throws : Nat → Bool} (hhears : reachesRuntime throws s.listeners = true) :
    (s.stop throws).Sound := by
  have hold : ∀ {n devices}, s.stops[n]? = some devices → (s.stops ++ [s.devices])[n]? = some devices :=
    fun hn => (List.getElem?_append_left (List.getElem?_eq_some_iff.mp hn).1).trans hn
  rw [SafeStates.stop, if_pos hhears]
  refine ⟨h.fulfilled, h.tasks, h.current, fun n devices hn => ?_, fun n hn => ?_⟩
  · by_cases hlt : n < s.stops.length
    · have hn' : s.stops[n]? = some devices := (List.getElem?_append_left hlt).symm.trans hn
      exact (h.stops n devices hn').imp_left (List.mem_append_left _)
    · have hle := (List.getElem?_eq_some_iff.mp hn).1
      rw [List.length_append, List.length_singleton] at hle
      have heq : n = s.stops.length := by omega
      exact .inl (List.mem_append_right _ (List.mem_singleton.mpr heq))
  · rcases List.mem_append.mp hn with hn | hn
    · obtain ⟨devices, hdevices, hin⟩ := h.waiting n hn
      exact ⟨devices, hold hdevices, hin⟩
    · obtain rfl := List.mem_singleton.mp hn
      exact ⟨s.devices, by simp, fun _ => id⟩

theorem Sound.advance (h : s.Sound) (hidle : s.current = none) {link : Nat} {waiting : List Nat}
    (hwaiting : s.waiting = link :: waiting) : (s.advance link waiting).Sound := by
  have htasks : s.tasks = [] := by
    refine List.eq_nil_iff_forall_not_mem.mpr fun task htask => ?_
    have hcurrent := h.tasks task htask
    rw [hidle] at hcurrent
    cases hcurrent
  have hmem : ∀ n ∈ waiting, n ∈ s.waiting := by
    intro n hn
    rw [hwaiting]
    exact List.mem_cons_of_mem link hn
  rw [SafeStates.advance, h.fulfilled, if_neg Bool.false_ne_true]
  constructor
  · rfl
  · intro task htask
    dsimp only at htask ⊢
    rw [htasks, List.nil_append] at htask
    rw [if_neg (List.ne_nil_of_mem htask)]
    obtain ⟨device, -, rfl⟩ := List.mem_map.mp htask
    rfl
  · intro n hn hnil
    dsimp only at hn hnil
    rw [htasks, List.nil_append] at hnil
    rw [if_pos hnil] at hn
    cases hn
  · intro n devices hn
    rcases h.stops n devices hn with hwaits | hfollowed
    · rw [hwaiting, List.mem_cons] at hwaits
      rcases hwaits with rfl | hwaits
      · -- the link asks the devices of its stop, since they are still registered
        right
        intro device hdevice
        obtain ⟨devices', hdevices', hin⟩ := h.waiting n (by rw [hwaiting]; exact List.mem_cons_self)
        obtain rfl := Option.some.inj (hn.symm.trans hdevices')
        exact List.mem_append_right _ (List.mem_map.mpr ⟨device, hin device hdevice, rfl⟩)
      · exact .inl hwaits
    · exact .inr fun device hdevice => List.mem_append_left _ (hfollowed device hdevice)
  · exact fun n hn => h.waiting n (hmem n hn)

/-- A device answers, and no handler throws at the event of a failure. -/
theorem Sound.settle (h : s.Sound) {link : Nat} {device : JsString} (hmem : (link, device) ∈ s.tasks)
    {outcome : List RuntimeEventEnvelope × Option Thrown} (hquiet : outcome.2 = none) :
    (s.settle link device outcome).Sound := by
  have hcurrent := h.tasks _ hmem
  have herase : ∀ task ∈ s.tasks.erase (link, device), task.1 = link := by
    intro task htask
    have hsame := h.tasks task (List.mem_of_mem_erase htask)
    exact Option.some.inj (hsame.symm.trans hcurrent)
  rw [SafeStates.settle]
  dsimp only
  rw [if_pos hcurrent, hquiet]
  refine ⟨h.fulfilled, fun task htask => ?_, fun n hn hnil => ?_, h.stops, h.waiting⟩
  · have hany : (s.tasks.erase (link, device)).any (·.1 = link) = true :=
      List.any_eq_true.mpr ⟨task, htask, decide_eq_true (herase task htask)⟩
    simp only [hany, if_true, herase task htask]
  · dsimp only at hn hnil
    rw [hnil] at hn
    cases hn

/-- **A step that nothing disturbs** leaves everything sound. -/
theorem Sound.step (h : s.Sound) {event : SafeStateEvent} (hquiet : s.Undisturbed event)
    (hstep : s.step event = some s') : s'.Sound := by
  have hsame : ∀ halt listeners, Sound { s with halt, listeners } :=
    fun _ _ => ⟨h.fulfilled, h.tasks, h.current, h.stops, h.waiting⟩
  cases event <;> simp only [SafeStates.step] at hstep
  case call call throws now =>
    split at hstep
    · next change hchange =>
      obtain rfl := Option.some.inj hstep
      split
      · next hstop =>
        have hhears := hquiet change hchange hstop
        exact (hsame (s.halt.apply call) s.listeners).stop hhears
      · exact hsame _ s.listeners
    · obtain rfl := Option.some.inj hstep
      exact hsame _ s.listeners
  case advance =>
    split at hstep
    · next hidle hwaiting =>
      obtain rfl := Option.some.inj hstep
      exact h.advance hidle hwaiting
    · cases hstep
  case settle link device result emit now =>
    split at hstep
    · next hmem =>
      obtain rfl := Option.some.inj hstep
      exact h.settle hmem hquiet
    · cases hstep
  case register device =>
    split at hstep
    · cases hstep
    · obtain rfl := Option.some.inj hstep
      refine ⟨h.fulfilled, h.tasks, h.current, h.stops, fun n hn => ?_⟩
      obtain ⟨devices, hdevices, hin⟩ := h.waiting n hn
      exact ⟨devices, hdevices, fun d hd => List.mem_append_left _ (hin d hd)⟩
  case unregister device =>
    obtain rfl := Option.some.inj hstep
    refine ⟨h.fulfilled, h.tasks, h.current, h.stops, fun n hn => ?_⟩
    obtain ⟨devices, hdevices, hin⟩ := h.waiting n hn
    refine ⟨devices, hdevices, fun d hd => List.mem_filter.mpr ⟨hin d hd, decide_eq_true ?_⟩⟩
    rintro rfl
    exact hquiet n hn devices hdevices hd
  case subscribe id =>
    split at hstep
    · obtain rfl := Option.some.inj hstep
      exact h
    · obtain rfl := Option.some.inj hstep
      exact hsame s.halt _
  case unsubscribe id =>
    obtain rfl := Option.some.inj hstep
    exact hsame s.halt _
  case configureGovernance halt listeners =>
    obtain rfl := Option.some.inj hstep
    exact hsame _ _

/-- **What is sound is safe.** -/
theorem Sound.safe (h : s.Sound) : s.Safe := by
  refine ⟨fun hidle n devices hn => ?_, fun hbusy => ?_, fun events s' => length_le_work⟩
  · rcases h.stops n devices hn with hwaits | hfollowed
    · rw [hidle.1] at hwaits
      cases hwaits
    · exact hfollowed
  · cases hcurrent : s.current with
    | none =>
      left
      cases hwaiting : s.waiting with
      | nil => exact absurd ⟨hwaiting, hcurrent⟩ hbusy
      | cons link waiting =>
        rw [SafeStates.step, hcurrent, hwaiting]
        rfl
    | some link =>
      right
      obtain ⟨task, htask⟩ := List.exists_mem_of_ne_nil _ (h.current link hcurrent)
      refine ⟨task, htask, fun result emit now => ?_⟩
      rw [SafeStates.step, if_pos htask]
      rfl

/-- **Every stop is followed** by a call of `applySafeState` on every device that was registered at it, in
runs that nothing disturbs. -/
theorem safe_of_undisturbed {halt : HaltCoordinator} {listeners : List Nat} {events : List SafeStateEvent}
    (hrun : machine.run { halt, listeners := listeners.map .other ++ [.runtime] } events = some s)
    (hquiet : machine.Guarded Undisturbed
      { halt, listeners := listeners.map .other ++ [.runtime] } events) : s.Safe := by
  have hstart : Sound { halt, listeners := listeners.map .other ++ [.runtime] } :=
    ⟨rfl, nofun, nofun, nofun, nofun⟩
  exact (machine.run_guarded_invariant (fun s event s' h hq hstep => h.step hq hstep) hstart hquiet
    hrun).safe

/-! ## A handler that throws -/

/-- Two stops with one device; both times the device answers. -/
def twoStops (emit : RuntimeEventEnvelope → Option Thrown) : List SafeStateEvent :=
  [.register (js "d"), .call (.halt (js "first") none) (fun _ => false) 0, .advance,
    .settle 0 (js "d") (.ok none) emit 0, .call (.halt (js "second") none) (fun _ => false) 1, .advance,
    .settle 1 (js "d") (.ok none) emit 1]

/-- Two stops, and no handler throws. -/
theorem safe_of_undisturbed_twice :
    ∃ s, machine.run {} (twoStops fun _ => none) = some s ∧
      s.attempts = [(0, js "d"), (1, js "d")] ∧ s.Safe := by
  obtain ⟨s, hs, hview⟩ := Option.map_eq_some_iff.mp
    (show (machine.run {} (twoStops fun _ => none)).map (·.attempts) =
      some [(0, js "d"), (1, js "d")] by decide +kernel)
  exact ⟨s, hs, hview, @safe_of_undisturbed _ {} [] _ hs (by decide +kernel)⟩

set_option synthInstance.maxSize 400 in
/-- A handler that throws at every event: after the first stop nothing is asked for its safe state. -/
theorem not_safe :
    ∃ s, machine.run {} ((twoStops fun _ => some (.value (js "thrown") none)).take 6) = some s ∧
      ¬ s.Safe := by
  obtain ⟨s, hs, hview⟩ := Option.map_eq_some_iff.mp
    (show (machine.run {} ((twoStops fun _ => some (.value (js "thrown") none)).take 6)).map
        (fun s => (s.waiting, s.current, s.stops, s.attempts)) =
      some ([], none, [[js "d"], [js "d"]], [(0, js "d")]) by decide +kernel)
  obtain ⟨hwaiting, hview⟩ := Prod.mk.inj hview
  obtain ⟨hcurrent, hview⟩ := Prod.mk.inj hview
  obtain ⟨hstops, hattempts⟩ := Prod.mk.inj hview
  refine ⟨s, hs, fun h => ?_⟩
  have hfollowed := h.followed ⟨hwaiting, hcurrent⟩ 1 [js "d"] (by rw [hstops]; rfl) (js "d")
    List.mem_cons_self
  rw [hattempts] at hfollowed
  exact absurd hfollowed (by decide)

end SafeStates

end Pinout.Runtime
