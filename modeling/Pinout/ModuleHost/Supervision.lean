import Pinout.ModuleHost.Process
import Pinout.Foundation.Entries

/-! # The supervision of workers

An exit schedules a restart, and so does a write of `init` that fails in a worker that a restart spawned; the
watchdog is armed when a worker says that it is ready, or by a heartbeat; and a shutdown that finds no worker
leaves the state as it is. Runs that keep clear of these are supervised: one worker at a time, a bounded
number of restarts, no worker silent for longer than the watchdog allows, and no worker after a shutdown. -/

namespace Pinout.ModuleHost

open Foundation

namespace ModuleProcess

variable (spec : ModuleSpawnSpec) (parse : JsString → Option Json)

/-- At most one worker is alive; between two heartbeats at most `maxRestarts` restarts are scheduled, and
with the next crash the state is dead; a worker that has been silent for longer than the watchdog allows was
killed; after a shutdown no worker is spawned, the state is dead once the time the shutdown leaves to the
worker is over, and then no start waits. -/
structure Supervised (s : ModuleProcess) : Prop where
  alone : ∀ (m n : Nat) (v w : Worker), s.workers[m]? = some v → v.alive = true →
    s.workers[n]? = some w → w.alive = true → m = n
  restarts : s.scheduled ≤ spec.restart.maxRestarts
  spent : s.exhausted = true → s.currentState = .dead
  watched : ∀ (n : Nat) (w : Worker), s.workers[n]? = some w → w.alive = true → w.killed = false →
    s.now ≤ w.heard + spec.watchdogMs
  stopped : s.spawnedStopping = false
  down : s.stopping = true →
    s.currentState = .dead ∨ s.shutdowns ≠ [] ∧ ∀ call ∈ s.shutdowns, s.now ≤ call.due
  settled : s.currentState = .dead → ∀ start ∈ s.starts, start ≠ .waiting

/-- A start finds no worker and no restart that is scheduled, and no shutdown before it; a restarted worker
takes its `init` message; a shutdown finds a worker, or a dead process; a worker that is told to stop does not
say that it is ready when the state is dead already; and a worker that no watchdog watches is not silent for
longer than a watchdog would allow. -/
def Orderly (s : ModuleProcess) : ProcessEvent → Prop
  | .start => s.child = none ∧ s.restartTimers = [] ∧ s.stopping = false
  | .initWritten worker error =>
    error.isSome = true → ∀ w ∈ s.workers[worker]?, w.respawned = true → s.stopping = true
  | .shutdown => s.child.isSome = true ∨ s.currentState = .dead
  | .line _ text _ => s.stopping = true → s.currentState = .dead →
    ∀ message ∈ decodeMessage parse text, kindOf message ≠ js "ready"
  | .elapse ms => s.heartbeatTimer = none →
    ∀ w ∈ s.workers, w.alive = true → w.killed = false → s.now + ms ≤ w.heard + spec.watchdogMs
  | _ => True

/-! ## What a run keeps -/

/-- What holds of a worker, with the time, the child and the timer of the watchdog. -/
structure WorkerSound (now : Nat) (child timer : Option Nat) (n : Nat) (w : Worker) : Prop where
  heard : w.heard ≤ now
  child : w.alive = true → child = some n
  watched : w.alive = true → w.killed = false → now ≤ w.heard + spec.watchdogMs
  timer : w.alive = true → w.killed = false → ∀ due ∈ timer, due ≤ w.heard + spec.watchdogMs

/-- What holds of a shutdown: it waits for the worker, or the state is dead. -/
def ShutdownSound (s : ModuleProcess) (call : ShutdownCall) : Prop :=
  call.waiting = true ∧ s.child = some call.worker ∧ s.now ≤ call.due ∨
    call.waiting = false ∧ s.currentState = .dead

/-- A start waits only for a state in which it settles. -/
def StartSound (state : ModuleProcessState) (start : StartStage) : Prop :=
  start = .waiting → state ≠ .ready ∧ state ≠ .dead

structure Sound (s : ModuleProcess) : Prop where
  workers : Entries (WorkerSound spec s.now s.child s.heartbeatTimer) s.workers
  child : ∀ n ∈ s.child, ∃ w, s.workers[n]? = some w ∧ w.alive = true
  unwatched : s.child = none → s.heartbeatTimer = none
  restarts : s.scheduled = s.restartAttempts ∧ s.restartAttempts ≤ spec.restart.maxRestarts
  timers : s.restartTimers = [] ∨ s.restartTimers.length = 1 ∧ s.child = none ∧
    s.currentState = .restarting ∧ s.stopping = false
  spent : s.exhausted = true → s.currentState = .dead ∧ s.child = none
  stopped : s.spawnedStopping = false
  idle : s.stopping = true → s.child = none → s.currentState = .dead
  shutdowns : ∀ call ∈ s.shutdowns, ShutdownSound s call
  stopping : s.shutdowns ≠ [] → s.stopping = true
  asked : s.stopping = true → s.currentState = .dead ∨ s.shutdowns ≠ []
  settled : ∀ start ∈ s.starts, StartSound s.currentState start

variable {spec parse} {s s' : ModuleProcess}

theorem Sound.supervised (h : Sound spec s) : Supervised spec s := by
  refine ⟨fun m n v w hv hvalive hw hwalive => ?_, h.restarts.1.trans_le h.restarts.2,
    fun hspent => (h.spent hspent).1, fun n w hw => (h.workers n w hw).watched, h.stopped,
    fun hstopping => ?_, fun hdead start hstart hwaiting => ?_⟩
  · have hm := (h.workers m v hv).child hvalive
    have hn := (h.workers n w hw).child hwalive
    exact Option.some.inj (hm.symm.trans hn)
  · by_cases hdead : s.currentState = .dead
    · exact .inl hdead
    · refine .inr ⟨(h.asked hstopping).resolve_left hdead, fun call hcall => ?_⟩
      rcases h.shutdowns call hcall with ⟨-, -, hdue⟩ | ⟨-, hstate⟩
      · exact hdue
      · exact absurd hstate hdead
  · exact (h.settled start hstart hwaiting).2 hdead

/-! ### The state -/

section SetState

variable (s) (state : ModuleProcessState)

theorem setState_eq : s.setState spec state =
    { s with currentState := state, starts := (s.setState spec state).starts } := by
  rw [setState]
  split
  · next hsame => subst hsame; rfl
  · rfl

@[simp] theorem currentState_setState : (s.setState spec state).currentState = state := by
  rw [setState_eq]

variable {s state} in
theorem setState_of_eq (h : s.currentState = state) : s.setState spec state = s := by
  rw [setState, if_pos h]

/-- What is told a state does not wait in it when it settles. -/
theorem startSound_onState (start : StartStage) : StartSound state (start.onState spec state) := by
  intro hwaiting
  cases start with
  | waiting =>
    cases state with
    | starting | restarting => exact ⟨nofun, nofun⟩
    | ready | dead => cases hwaiting
  | writing worker => cases hwaiting
  | settled error => cases hwaiting

/-- What goes on does not wait in a state in which it settles. -/
theorem startSound_afterInit {start : StartStage} (h : StartSound state start) (worker : Nat)
    (error : Option Thrown) : StartSound state (start.afterInit spec state worker error) := by
  cases start with
  | waiting => exact h
  | settled error => exact nofun
  | writing n =>
    by_cases hn : n = worker
    · cases error with
      | some e => simp [StartStage.afterInit, hn, StartSound]
      | none => simpa [StartStage.afterInit, hn] using startSound_onState state .waiting
    · simp [StartStage.afterInit, hn, StartSound]

variable {s} in
theorem settled_setState (h : ∀ start ∈ s.starts, StartSound s.currentState start) :
    ∀ start ∈ (s.setState spec state).starts, StartSound state start := by
  rw [setState]
  split
  · next hsame => rwa [← hsame]
  · intro start hstart
    obtain ⟨before, -, rfl⟩ := List.mem_map.mp hstart
    exact startSound_onState state before

end SetState

/-- **The state is set** when that leaves sound what depends on it. -/
theorem Sound.setState (h : Sound spec s) {state : ModuleProcessState}
    (htimers : s.restartTimers ≠ [] → state = .restarting)
    (hspent : s.exhausted = true → state = .dead)
    (hidle : s.stopping = true → s.child = none → state = .dead)
    (hshutdowns : ∀ call ∈ s.shutdowns, call.waiting = false → state = .dead)
    (hasked : s.stopping = true → s.currentState = .dead → state = .dead) :
    Sound spec (s.setState spec state) := by
  have hsettled : ∀ start ∈ (s.setState spec state).starts, StartSound state start :=
    settled_setState state h.settled
  rw [setState_eq]
  refine ⟨h.workers, h.child, h.unwatched, h.restarts, ?_, fun hs => ⟨hspent hs, (h.spent hs).2⟩, h.stopped,
    hidle, fun call hcall => ?_, h.stopping, fun hs => ?_, hsettled⟩
  · rcases h.timers with hnone | ⟨hone, hchild, -, hstopping⟩
    · exact .inl hnone
    · exact .inr ⟨hone, hchild, htimers (by rintro hnil; rw [hnil] at hone; cases hone), hstopping⟩
  · rcases h.shutdowns call hcall with hwaiting | ⟨hended, -⟩
    · exact .inl hwaiting
    · exact .inr ⟨hended, hshutdowns call hcall hended⟩
  · rcases h.asked hs with hdead | hasked'
    · exact .inl (hasked hs hdead)
    · exact .inr hasked'

/-! ### What the host does -/

/-- What a process remembers of its requests does not matter. -/
theorem Sound.requests (h : Sound spec s) (pending : InsertionMap JsString PendingInvoke)
    (invocations : List Invocation) (requestSequence : Nat) :
    Sound spec { s with pending, invocations, requestSequence } :=
  ⟨h.workers, h.child, h.unwatched, h.restarts, h.timers, h.spent, h.stopped, h.idle, h.shutdowns, h.stopping,
    h.asked, h.settled⟩

theorem Sound.messages (h : Sound spec s) (eventListeners : Nat) (knownCapabilities : Option Json)
    (lines : List (Nat × JsString)) (thrown : List Thrown) :
    Sound spec { s with eventListeners, knownCapabilities, lines, thrown } :=
  ⟨h.workers, h.child, h.unwatched, h.restarts, h.timers, h.spent, h.stopped, h.idle, h.shutdowns, h.stopping,
    h.asked, h.settled⟩

theorem Sound.not_alive (h : Sound spec s) (hchild : s.child = none) {n : Nat} {w : Worker}
    (hw : s.workers[n]? = some w) : w.alive ≠ true := by
  intro halive
  have hn := (h.workers n w hw).child halive
  rw [hchild] at hn
  cases hn

theorem Sound.timers_of_child (h : Sound spec s) {n : Nat} (hchild : s.child = some n) :
    s.restartTimers = [] := by
  rcases h.timers with hnone | ⟨-, hnot, -⟩
  · exact hnone
  · rw [hchild] at hnot
    cases hnot

theorem Sound.no_shutdowns (h : Sound spec s) (hstopping : s.stopping = false) : s.shutdowns = [] := by
  by_contra hne
  have hs := h.stopping hne
  rw [hstopping] at hs
  cases hs

/-- **A worker is spawned** where there is none, and none is due. -/
theorem Sound.spawnChild (h : Sound spec s) (hchild : s.child = none) (htimers : s.restartTimers = [])
    (hstopping : s.stopping = false) (hexhausted : s.exhausted = false) (respawned : Bool) :
    Sound spec (s.spawnChild spec respawned) := by
  have hnone := h.no_shutdowns hstopping
  have hspawned : Sound spec { s with
      workers := s.workers ++ [({ respawned, heard := s.now } : Worker)]
      child := some s.workers.length
      spawnedStopping := s.spawnedStopping || s.stopping } := by
    constructor
    case workers =>
      refine Entries.append (fun n w hw => ?_) ⟨le_rfl, fun _ => rfl, fun _ _ => Nat.le_add_right _ _,
        fun _ _ due hdue => ?_⟩
      · have hdead := h.not_alive hchild hw
        exact ⟨(h.workers n w hw).heard, fun ha => absurd ha hdead, fun ha => absurd ha hdead,
          fun ha => absurd ha hdead⟩
      · have hdue : s.heartbeatTimer = some due := hdue
        rw [h.unwatched hchild] at hdue
        cases hdue
    case child =>
      intro n hn
      obtain rfl := Option.some.inj hn
      exact ⟨_, List.getElem?_concat_length, rfl⟩
    case unwatched => exact nofun
    case restarts => exact h.restarts
    case timers => exact .inl htimers
    case spent => exact fun hs => absurd (hs.symm.trans hexhausted) nofun
    case stopped =>
      show (s.spawnedStopping || s.stopping) = false
      rw [h.stopped, hstopping]
      rfl
    case idle => exact fun hs => absurd (hs.symm.trans hstopping) nofun
    case shutdowns => exact fun call hcall => absurd hcall (by rw [hnone]; exact List.not_mem_nil)
    case stopping => exact fun hne => absurd hnone hne
    case asked => exact fun hs => absurd (hs.symm.trans hstopping) nofun
    case settled => exact h.settled
  refine hspawned.setState (fun hne => absurd htimers hne) (fun hs => absurd (hs.symm.trans hexhausted) nofun)
    (fun hs => absurd (hs.symm.trans hstopping) nofun)
    (fun call hcall => absurd hcall (by rw [hnone]; exact List.not_mem_nil))
    (fun hs => absurd (hs.symm.trans hstopping) nofun)

/-- A restart is scheduled, or the process is dead, where no worker is left. -/
theorem Sound.scheduleRestart (h : Sound spec s) (hchild : s.child = none) (htimers : s.restartTimers = [])
    (hstopping : s.stopping = false) (hexhausted : s.exhausted = false) :
    Sound spec (s.scheduleRestart spec) := by
  have hnone := h.no_shutdowns hstopping
  have hnot : ∀ {p : Prop}, s.stopping = true → p := fun hs => absurd (hs.symm.trans hstopping) nofun
  have hcalls : ∀ {p : ShutdownCall → Prop}, ∀ call ∈ s.shutdowns, p call := by
    rw [hnone]
    exact fun call hcall => absurd hcall List.not_mem_nil
  rw [ModuleProcess.scheduleRestart, if_neg (by rw [hstopping]; nofun)]
  -- the state changes together with `exhausted`, or with the timer
  split
  · rw [setState_eq]
    exact ⟨h.workers, h.child, h.unwatched, h.restarts, .inl htimers, fun _ => ⟨rfl, hchild⟩, h.stopped, hnot,
      hcalls, fun hne => absurd hnone hne, hnot,
      settled_setState (s := { s with exhausted := true }) .dead h.settled⟩
  · next hleft =>
    rw [setState_eq]
    refine ⟨h.workers, h.child, h.unwatched, ⟨congrArg (· + 1) h.restarts.1, Nat.lt_of_not_le hleft⟩,
      .inr ⟨?_, hchild, rfl, hstopping⟩, fun hs => absurd (hs.symm.trans hexhausted) nofun, h.stopped, hnot,
      hcalls, fun hne => absurd hnone hne, hnot, ?_⟩
    · show (s.restartTimers ++ _).length = 1
      rw [htimers]
      rfl
    · exact settled_setState (s := { s with
          restartAttempts := s.restartAttempts + 1
          restartTimers := s.restartTimers ++ [s.now + timerDelay (spec.backoff (s.restartAttempts + 1))]
          scheduled := s.scheduled + 1 }) .restarting h.settled

theorem endShutdowns_of_nil (h : s.shutdowns = []) (worker : Nat) : s.endShutdowns spec worker = s := by
  rw [endShutdowns, h]
  cases s
  subst h
  rfl

@[simp] theorem shutdowns_scheduleRestart (s : ModuleProcess) :
    (s.scheduleRestart spec).shutdowns = s.shutdowns := by
  rw [ModuleProcess.scheduleRestart]
  split
  · rfl
  · split <;> rw [setState_eq]

theorem Sound.onExit (h : Sound spec s) {n : Nat} {w : Worker} (hw : s.workers[n]? = some w)
    (halive : w.alive = true) (reason : JsString) : Sound spec (s.onExit spec n reason) := by
  have hchild := (h.workers n w hw).child halive
  have htimers := h.timers_of_child hchild
  have hdead : Entries (WorkerSound spec s.now none none)
      (s.workers.modify n fun w => { w with alive := false }) := by
    intro m v hv
    rcases getElem?_modify_eq_some hv with ⟨hm, hold⟩ | ⟨rfl, v, hold, rfl⟩
    · have hnot : v.alive ≠ true := fun hv => by
        have hm' := (h.workers m v hold).child hv
        exact hm (Option.some.inj (hchild.symm.trans hm'))
      exact ⟨(h.workers m v hold).heard, fun ha => absurd ha hnot, fun ha => absurd ha hnot, fun _ _ => nofun⟩
    · exact ⟨(h.workers n v hold).heard, nofun, nofun, nofun⟩
  have hexhausted : s.exhausted = false := by
    by_contra hs
    rw [Bool.not_eq_false] at hs
    have hnone := (h.spent hs).2
    rw [hchild] at hnone
    cases hnone
  cases hstopping : s.stopping with
  | false =>
    have hnone := h.no_shutdowns hstopping
    have hleft : Sound spec (s.exited spec n reason) :=
      ⟨hdead, nofun, fun _ => rfl, h.restarts, .inl htimers, fun hs => absurd (hs.symm.trans hexhausted) nofun,
        h.stopped, fun hs => absurd (hs.symm.trans hstopping) nofun,
        fun call hcall => absurd (show call ∈ s.shutdowns from hcall) (by rw [hnone]; exact List.not_mem_nil),
        h.stopping, fun hs => absurd (hs.symm.trans hstopping) nofun, h.settled⟩
    have hexit : s.onExit spec n reason = (s.exited spec n reason).scheduleRestart spec := by
      have hgo : (s.exited spec n reason).stopping ≠ true := fun hs => absurd (hs.symm.trans hstopping) nofun
      rw [ModuleProcess.onExit, if_neg hgo, endShutdowns_of_nil]
      rw [shutdowns_scheduleRestart]
      exact hnone
    rw [hexit]
    exact hleft.scheduleRestart rfl htimers hstopping hexhausted
  | true =>
    have hexit : s.onExit spec n reason = { (s.exited spec n reason).setState spec .dead with
        shutdowns := s.shutdowns.map fun call => { call with waiting := call.waiting && call.worker ≠ n } } := by
      have hgo : (s.exited spec n reason).stopping = true := hstopping
      rw [ModuleProcess.onExit, if_pos hgo, endShutdowns, setState_eq]
      split
      · exact setState_of_eq rfl
      · rfl
    rw [hexit, setState_eq]
    refine ⟨hdead, nofun, fun _ => rfl, h.restarts, .inl htimers, fun _ => ⟨rfl, rfl⟩, h.stopped,
      fun _ _ => rfl, fun call hcall => ?_, fun _ => hstopping, fun _ => .inl rfl,
      settled_setState (s := s.exited spec n reason) .dead h.settled⟩
    obtain ⟨before, hbefore, rfl⟩ := List.mem_map.mp hcall
    refine .inr ⟨?_, rfl⟩
    rcases h.shutdowns before hbefore with ⟨-, hworker, -⟩ | ⟨hended, -⟩
    · have heq := Option.some.inj (hchild.symm.trans hworker)
      simp [← heq]
    · simp [hended]

/-- Workers are changed in what does not matter, or are killed. -/
theorem Sound.modify (h : Sound spec s) (n : Nat) (f : Worker → Worker)
    (hf : ∀ w, (f w).heard = w.heard ∧ (f w).alive = w.alive ∧ ((f w).killed = false → w.killed = false)) :
    Sound spec { s with workers := s.workers.modify n f } := by
  refine ⟨h.workers.modify fun w hw => ?_, fun m hm => ?_, h.unwatched, h.restarts, h.timers, h.spent, h.stopped,
    h.idle, h.shutdowns, h.stopping, h.asked, h.settled⟩
  · obtain ⟨hheard, halive, hkilled⟩ := hf w
    refine ⟨?_, fun ha => hw.child (halive ▸ ha), fun ha hk => ?_, fun ha hk => ?_⟩
    · rw [hheard]
      exact hw.heard
    · rw [hheard]
      exact hw.watched (halive ▸ ha) (hkilled hk)
    · rw [hheard]
      exact hw.timer (halive ▸ ha) (hkilled hk)
  · obtain ⟨w, hw, halive⟩ := h.child m hm
    by_cases hn : n = m
    · subst hn
      exact ⟨f w, getElem?_modify_self f hw, by rw [(hf w).2.1, halive]⟩
    · exact ⟨w, (getElem?_modify_of_ne f hn).trans hw, halive⟩

theorem timerDelay_le {ms : Nat} (h : 1 ≤ ms) : timerDelay ms ≤ ms := by
  rw [timerDelay]
  split
  · exact le_rfl
  · exact h

/-- The timer of the watchdog is set anew by a worker that has just been heard. -/
theorem Sound.watch (h : Sound spec s) {n : Nat} (hchild : s.child = some n)
    (hheard : ∀ w, s.workers[n]? = some w → w.heard = s.now) : Sound spec (s.resetHeartbeatWatch spec) := by
  refine ⟨fun m w hw => ?_, h.child, fun hnone => absurd (hnone.symm.trans hchild) nofun, h.restarts, h.timers,
    h.spent, h.stopped, h.idle, h.shutdowns, h.stopping, h.asked, h.settled⟩
  have hsound := h.workers m w hw
  refine ⟨hsound.heard, hsound.child, hsound.watched, fun halive hkilled due hdue => ?_⟩
  obtain rfl := Option.some.inj (hchild.symm.trans (hsound.child halive))
  obtain rfl := Option.some.inj hdue
  rw [hheard w hw]
  exact Nat.add_le_add_left (timerDelay_le (Nat.le_add_left 1 _)) _

theorem Sound.onResult (h : Sound spec s) (message : JsonObject) : Sound spec (s.onResult message).1 := by
  rw [ModuleProcess.onResult]
  split
  · exact h
  · dsimp only
    split <;> exact h.requests _ _ _

theorem Sound.onError (h : Sound spec s) (message : JsonObject) : Sound spec (s.onError message).1 := by
  rw [ModuleProcess.onError]
  split
  · exact h
  · dsimp only
    split <;> exact h.requests _ _ _

/-- A message is handled, of a worker that has just been heard. -/
theorem Sound.onWorkerMessage (h : Sound spec s) {n : Nat} (hchild : s.child = some n)
    (hheard : ∀ w, s.workers[n]? = some w → w.heard = s.now) {message : JsonObject} (emit : Option Thrown)
    (hready : s.stopping = true → s.currentState = .dead → kindOf message ≠ js "ready") :
    Sound spec (s.onWorkerMessage spec message emit).1 := by
  rw [ModuleProcess.onWorkerMessage]
  split
  · next hkind =>
    split
    · exact h
    · next capabilities hread =>
      have hopen : s.stopping = true → s.currentState ≠ .dead := fun hs hdead => hready hs hdead hkind
      have hwatch := (h.messages s.eventListeners capabilities s.lines s.thrown).watch hchild hheard
      refine hwatch.setState (fun hne => absurd (h.timers_of_child hchild) hne) (fun hs => ?_)
        (fun _ hnone => absurd (hnone.symm.trans hchild) nofun) (fun call hcall hended => ?_)
        (fun hs hdead => absurd hdead (hopen hs))
      · exact absurd ((h.spent hs).2.symm.trans hchild) nofun
      · have hne : s.shutdowns ≠ [] := fun hnil => absurd (hnil ▸ hcall) List.not_mem_nil
        rcases h.shutdowns call hcall with ⟨hwaiting, -⟩ | ⟨-, hdead⟩
        · exact absurd (hwaiting.symm.trans hended) nofun
        · exact absurd hdead (hopen (h.stopping hne))
  · split
    · exact h.onResult message
    · split
      · exact h.onError message
      · split
        · split
          · exact h
          · split <;> exact h
        · split
          · have hreset : Sound spec { s with restartAttempts := 0, scheduled := 0 } :=
              ⟨h.workers, h.child, h.unwatched, ⟨rfl, Nat.zero_le _⟩, h.timers, h.spent, h.stopped, h.idle,
                h.shutdowns, h.stopping, h.asked, h.settled⟩
            exact hreset.watch hchild hheard
          · exact h

/-- **A worker prints a line.** -/
theorem Sound.onLine (h : Sound spec s) {n : Nat} {w : Worker} (hw : s.workers[n]? = some w)
    (halive : w.alive = true) {text : JsString} {emit : Option Thrown}
    (horderly : Orderly spec parse s (.line n text emit)) : Sound spec (s.onLine spec parse n text emit) := by
  have hchild := (h.workers n w hw).child halive
  have hheard : Sound spec { s with
      lines := s.lines ++ [(n, text)]
      workers := s.workers.modify n fun w => { w with heard := s.now } } := by
    refine ⟨h.workers.modify fun v hv => ⟨le_rfl, hv.child, fun _ _ => Nat.le_add_right _ _,
        fun ha hk due hdue => (hv.timer ha hk due hdue).trans (Nat.add_le_add_right hv.heard _)⟩,
      fun m hm => ?_, h.unwatched, h.restarts, h.timers, h.spent, h.stopped, h.idle, h.shutdowns, h.stopping,
      h.asked, h.settled⟩
    obtain rfl := Option.some.inj (hchild.symm.trans hm)
    exact ⟨_, getElem?_modify_self _ hw, halive⟩
  have hnow : ∀ v, (s.workers.modify n fun w => { w with heard := s.now })[n]? = some v → v.heard = s.now := by
    intro v hv
    rw [getElem?_modify_self _ hw] at hv
    rw [← Option.some.inj hv]
  rw [ModuleProcess.onLine]
  dsimp only
  split
  · exact hheard
  · next message hmessage =>
    exact (hheard.onWorkerMessage hchild hnow emit fun hs hdead =>
      horderly hs hdead message hmessage).messages _ _ _ _

/-- The `init` message of a worker has been written, or could not be. -/
theorem Sound.onInitWritten (h : Sound spec s) {n : Nat} {w : Worker} (hw : s.workers[n]? = some w)
    {error : Option Thrown} (horderly : Orderly spec parse s (.initWritten n error)) :
    Sound spec (s.onInitWritten spec n w.respawned error) := by
  have hwritten := h.modify n (fun w => { w with initWritten := true }) fun w => ⟨rfl, rfl, id⟩
  rw [ModuleProcess.onInitWritten]
  dsimp only
  split
  · next hrespawned =>
    split
    · next herror =>
      rw [ModuleProcess.scheduleRestart, if_pos (horderly herror w hw hrespawned)]
      exact hwritten
    · exact hwritten
  · refine ⟨hwritten.workers, hwritten.child, h.unwatched, h.restarts, h.timers, h.spent, h.stopped, h.idle,
      h.shutdowns, h.stopping, h.asked, fun start hstart => ?_⟩
    obtain ⟨before, hbefore, rfl⟩ := List.mem_map.mp hstart
    exact startSound_afterInit _ (h.settled before hbefore) n error

theorem Sound.onWatchdog (h : Sound spec s) : Sound spec (s.onWatchdog spec) := by
  have hoff : Sound spec { s with heartbeatTimer := none } :=
    ⟨fun n w hw => ⟨(h.workers n w hw).heard, (h.workers n w hw).child, (h.workers n w hw).watched,
        fun _ _ => nofun⟩,
      h.child, fun _ => rfl, h.restarts, h.timers, h.spent, h.stopped, h.idle, h.shutdowns, h.stopping, h.asked,
      h.settled⟩
  have hrejected := hoff.requests .empty
    (settleAll (spec.crashedError (js "heartbeat timeout")) s.pending.entries s.invocations) s.requestSequence
  rw [ModuleProcess.onWatchdog]
  dsimp only [rejectAllPending]
  split
  · exact hoff
  · split
    · exact hrejected.modify _ _ fun w => ⟨rfl, rfl, nofun⟩
    · exact hrejected

theorem Sound.invoke (h : Sound spec s) (capability : JsString) (timeoutMs : Nat) :
    Sound spec (s.invoke spec capability timeoutMs) := by
  rw [ModuleProcess.invoke]
  split
  · exact h.requests _ _ _
  · split <;> exact h.requests _ _ _

theorem Sound.shutdown (h : Sound spec s) (horderly : s.child.isSome = true ∨ s.currentState = .dead) :
    Sound spec (s.shutdown spec) := by
  have htimers : s.restartTimers = [] := by
    rcases h.timers with hnone | ⟨-, hchild, hstate, -⟩
    · exact hnone
    · rcases horderly with hsome | hdead
      · rw [hchild] at hsome
        cases hsome
      · exact absurd (hstate.symm.trans hdead) nofun
  rw [ModuleProcess.shutdown]
  dsimp only [rejectAllPending]
  split
  · next hchild =>
    have hdead := horderly.resolve_left (by rw [hchild]; nofun)
    exact ⟨h.workers, h.child, h.unwatched, h.restarts, .inl htimers, h.spent, h.stopped, fun _ _ => hdead,
      h.shutdowns, fun _ => rfl, fun _ => .inl hdead, h.settled⟩
  · next n hchild =>
    have hidle : s.child = none → s.currentState = .dead := fun hnone =>
      absurd (hnone.symm.trans hchild) nofun
    refine ⟨h.workers, h.child, h.unwatched, h.restarts, .inl htimers, h.spent, h.stopped, fun _ => hidle,
      fun call hcall => ?_, fun _ => rfl, fun _ => .inr (List.append_ne_nil_of_right_ne_nil _ nofun), h.settled⟩
    rcases List.mem_append.mp hcall with hold | hnew
    · exact h.shutdowns call hold
    · obtain rfl := List.mem_singleton.mp hnew
      exact .inl ⟨rfl, hchild, Nat.le_add_right _ _⟩

theorem Sound.onShutdownDue (h : Sound spec s) {k : Nat} {call : ShutdownCall}
    (hcall : s.shutdowns[k]? = some call) (hwaiting : call.waiting = true) :
    Sound spec (s.onShutdownDue spec k call.worker) := by
  have hchild : s.child = some call.worker := by
    rcases h.shutdowns call (List.mem_of_getElem? hcall) with ⟨-, hchild, -⟩ | ⟨hended, -⟩
    · exact hchild
    · exact absurd (hwaiting.symm.trans hended) nofun
  have hstopping : s.stopping = true := h.stopping fun hnil => by
    rw [hnil] at hcall
    cases hcall
  have hkilled := h.modify call.worker (fun w => { w with killed := true }) fun w => ⟨rfl, rfl, nofun⟩
  rw [ModuleProcess.onShutdownDue, setState_eq]
  refine ⟨hkilled.workers, hkilled.child, h.unwatched, h.restarts, .inl (h.timers_of_child hchild),
    fun hs => ⟨rfl, (h.spent hs).2⟩, h.stopped, fun _ _ => rfl, fun other hother => ?_, fun _ => hstopping,
    fun _ => .inl rfl, ?_⟩
  · obtain ⟨n, hn⟩ := List.mem_iff_getElem?.mp hother
    have hcases : other.waiting = false ∨ other ∈ s.shutdowns := by
      rcases getElem?_modify_eq_some hn with ⟨-, hold⟩ | ⟨-, before, -, rfl⟩
      · exact .inr (List.mem_of_getElem? hold)
      · exact .inl rfl
    rcases hcases with hended | hold
    · exact .inr ⟨hended, rfl⟩
    · rcases h.shutdowns other hold with hw | ⟨hended, -⟩
      · exact .inl hw
      · exact .inr ⟨hended, rfl⟩
  · exact settled_setState (s := { s with
        workers := s.workers.modify call.worker fun w => { w with killed := true }
        shutdowns := s.shutdowns.modify k fun call => { call with waiting := false } }) .dead h.settled

theorem Sound.elapse (h : Sound spec s) {ms : Nat}
    (hwatched : s.heartbeatTimer = none →
      ∀ w ∈ s.workers, w.alive = true → w.killed = false → s.now + ms ≤ w.heard + spec.watchdogMs)
    (htimer : ∀ due ∈ s.heartbeatTimer, s.now + ms ≤ due)
    (hshutdowns : ∀ call ∈ s.shutdowns, call.waiting = true → s.now + ms ≤ call.due) :
    Sound spec { s with now := s.now + ms } := by
  refine ⟨fun n w hw => ?_, h.child, h.unwatched, h.restarts, h.timers, h.spent, h.stopped, h.idle,
    fun call hcall => ?_, h.stopping, h.asked, h.settled⟩
  · have hsound := h.workers n w hw
    refine ⟨hsound.heard.trans (Nat.le_add_right _ _), hsound.child, fun halive hkilled => ?_, hsound.timer⟩
    cases hnone : s.heartbeatTimer with
    | none => exact hwatched hnone w (List.mem_of_getElem? hw) halive hkilled
    | some due => exact (htimer due hnone).trans (hsound.timer halive hkilled due hnone)
  · rcases h.shutdowns call hcall with ⟨hwaiting, hchild, -⟩ | hended
    · exact .inl ⟨hwaiting, hchild, hshutdowns call hcall hwaiting⟩
    · exact .inr hended

/-- **An orderly event** leaves everything sound. -/
theorem Sound.step (h : Sound spec s) {event : ProcessEvent} (horderly : Orderly spec parse s event)
    (hstep : s.step spec parse event = some s') : Sound spec s' := by
  cases event <;> simp only [ModuleProcess.step] at hstep
  case start =>
    obtain rfl := Option.some.inj hstep
    obtain ⟨hchild, htimers, hstopping⟩ := horderly
    have hbegun : Sound spec { s with
        starts := s.starts ++ [StartStage.writing s.workers.length], exhausted := false } := by
      refine ⟨h.workers, h.child, h.unwatched, h.restarts, h.timers, by rintro ⟨⟩, h.stopped, h.idle, h.shutdowns,
        h.stopping, h.asked, fun start hstart => ?_⟩
      rcases List.mem_append.mp hstart with hold | hnew
      · exact h.settled start hold
      · obtain rfl := List.mem_singleton.mp hnew
        rintro ⟨⟩
    exact hbegun.spawnChild hchild htimers hstopping rfl false
  case initWritten worker error =>
    split at hstep
    · next w hw =>
      split at hstep
      · cases hstep
      · obtain rfl := Option.some.inj hstep
        exact h.onInitWritten hw horderly
    · cases hstep
  case line worker text emit =>
    split at hstep
    · next w hw =>
      split at hstep
      · next halive =>
        obtain rfl := Option.some.inj hstep
        exact h.onLine hw halive horderly
      · cases hstep
    · cases hstep
  case exit worker reason =>
    split at hstep
    · next w hw =>
      split at hstep
      · next halive =>
        obtain rfl := Option.some.inj hstep
        exact h.onExit hw halive reason
      · cases hstep
    · cases hstep
  case restartDue timer =>
    split at hstep
    · next due hdue =>
      split at hstep
      · rcases h.timers with hnone | ⟨hone, hchild, hstate, hstopping⟩
        · rw [hnone] at hdue
          cases hdue
        · obtain ⟨only, honly⟩ := List.length_eq_one_iff.mp hone
          have hlast : s.restartTimers.eraseIdx timer = [] := by
            rw [honly] at hdue ⊢
            cases timer with
            | zero => rfl
            | succ n => cases hdue
          rw [hlast, if_neg (by rw [hstopping]; exact Bool.false_ne_true)] at hstep
          obtain rfl := Option.some.inj hstep
          have hleft : Sound spec { s with restartTimers := [] } :=
            ⟨h.workers, h.child, h.unwatched, h.restarts, .inl rfl, h.spent, h.stopped, h.idle, h.shutdowns,
              h.stopping, h.asked, h.settled⟩
          refine hleft.spawnChild hchild rfl hstopping ?_ true
          by_contra hs
          exact absurd ((h.spent (Bool.not_eq_false _ ▸ hs)).1.symm.trans hstate) (by rintro ⟨⟩)
      · cases hstep
    · cases hstep
  case watchdogDue =>
    split at hstep
    · split at hstep
      · obtain rfl := Option.some.inj hstep
        exact h.onWatchdog
      · cases hstep
    · cases hstep
  case invoke capability timeoutMs =>
    obtain rfl := Option.some.inj hstep
    exact h.invoke capability timeoutMs
  case invokeDue requestId =>
    split at hstep
    · split at hstep
      · obtain rfl := Option.some.inj hstep
        exact h.requests _ _ _
      · cases hstep
    · cases hstep
  case shutdown =>
    obtain rfl := Option.some.inj hstep
    exact h.shutdown horderly
  case shutdownDue call =>
    split at hstep
    · next worker due hcall =>
      split at hstep
      · obtain rfl := Option.some.inj hstep
        exact h.onShutdownDue hcall rfl
      · cases hstep
    · cases hstep
  case onEvent =>
    obtain rfl := Option.some.inj hstep
    exact h.messages _ _ _ _
  case offEvent =>
    obtain rfl := Option.some.inj hstep
    exact h.messages _ _ _ _
  case elapse ms =>
    split at hstep
    · next hdue =>
      obtain rfl := Option.some.inj hstep
      obtain ⟨htimer, hcalls⟩ := hdue
      refine h.elapse horderly (fun due hsome => ?_) fun call hcall hwaiting => ?_
      · rw [Option.mem_def.mp hsome] at htimer
        simpa using htimer
      · have hcall := List.all_eq_true.mp hcalls call hcall
        simpa [hwaiting] using hcall
    · cases hstep

/-- **Workers are supervised** in every run of orderly events. -/
theorem supervised_of_orderly {events : List ProcessEvent} (hrun : (machine spec parse).run {} events = some s)
    (horderly : (machine spec parse).Guarded (Orderly spec parse) {} events) : Supervised spec s := by
  have hstart : Sound spec {} :=
    ⟨Entries.nil, fun _ => nofun, fun _ => rfl, ⟨rfl, Nat.zero_le _⟩, .inl rfl, nofun, rfl, nofun,
      fun _ h => absurd h List.not_mem_nil, fun h => absurd rfl h, nofun, fun _ h => absurd h List.not_mem_nil⟩
  exact ((machine spec parse).run_guarded_invariant
    (fun s event s' h horderly hstep => h.step horderly hstep) hstart horderly hrun).supervised

instance (event : ProcessEvent) : Decidable (Orderly spec parse s event) := by
  unfold Orderly
  split <;> infer_instance

/-! ## A crash that is handled twice -/

def readyLine : JsString :=
  js "\x7b\"v\":1,\"id\":\"ready\",\"kind\":\"ready\",\"payload\":\x7b\"capabilities\":[]\x7d\x7d"

/-- `JSON.parse`, of that line. -/
def parseReady (text : JsString) : Option Json :=
  if text = readyLine then
    some (.obj [(js "v", .num 1), (js "id", .str (js "ready")), (js "kind", .str (js "ready")),
      (js "payload", .obj [(js "capabilities", .arr [])])])
  else none

/-- A worker that crashes after it was ready, and the restart. -/
def crashing : List ProcessEvent :=
  [.start, .initWritten 0 none, .line 0 readyLine none, .exit 0 (js "exited"), .elapse 100, .restartDue 0]

/-- The restarted worker takes its message, and is told to stop. -/
theorem supervised_of_orderly_crashing :
    ∃ s, (machine ⟨js "m", 1000, {}⟩ parseReady).run {}
        (crashing ++ [.initWritten 1 none, .line 1 readyLine none, .shutdown, .exit 1 (js "exited")]) = some s ∧
      s.currentState = .dead ∧ Supervised ⟨js "m", 1000, {}⟩ s := by
  obtain ⟨s, hs, hview⟩ := Option.map_eq_some_iff.mp
    (show ((machine ⟨js "m", 1000, {}⟩ parseReady).run {} (crashing ++
        [.initWritten 1 none, .line 1 readyLine none, .shutdown, .exit 1 (js "exited")])).map (·.currentState) =
      some .dead by decide +kernel)
  exact ⟨s, hs, hview, supervised_of_orderly hs (by decide +kernel)⟩

/-- The restarted worker exits before it has taken its message: the write fails, and then comes the exit. Two
restarts are scheduled, and two workers live. -/
theorem not_supervised :
    ∃ s, (machine ⟨js "m", 1000, {}⟩ parseReady).run {}
        (crashing ++ [.initWritten 1 (some (.error (js "Error") (some (js "EPIPE")) (js "write EPIPE"))),
          .exit 1 (js "exited"), .elapse 400, .restartDue 0, .restartDue 0]) = some s ∧
      ¬ Supervised ⟨js "m", 1000, {}⟩ s := by
  obtain ⟨s, hs, hview⟩ := Option.map_eq_some_iff.mp
    (show ((machine ⟨js "m", 1000, {}⟩ parseReady).run {}
        (crashing ++ [.initWritten 1 (some (.error (js "Error") (some (js "EPIPE")) (js "write EPIPE"))),
          .exit 1 (js "exited"), .elapse 400, .restartDue 0, .restartDue 0])).map
        (fun s => s.workers.map (·.alive)) = some [false, false, true, true] by decide +kernel)
  have halive : ∀ (n : Nat) (b : Bool), [false, false, true, true][n]? = some b →
      ∃ w : Worker, s.workers[n]? = some w ∧ w.alive = b := by
    intro n b hb
    rw [← hview, List.getElem?_map] at hb
    exact Option.map_eq_some_iff.mp hb
  obtain ⟨v, hv, hvalive⟩ := halive 2 true rfl
  obtain ⟨w, hw, hwalive⟩ := halive 3 true rfl
  exact ⟨s, hs, fun h => absurd (h.alone 2 3 v w hv hvalive hw hwalive) (by decide)⟩

end ModuleProcess

end Pinout.ModuleHost
