import Pinout.Foundation.Entries
import Pinout.Ur.Backend

/-! # A stop and the invocations before it

After a `stopMotion` has resolved, no line of an invocation that began before it should be written. An
invocation that waits in its preflight when the stop is called does not learn of it and writes its line
afterwards. Where every invocation has handed over its last line before a stop is called, the stop is final:
what a `play` left in the queue of the dashboard client is written before the dashboard's `stop` is, since
calls begin in the order in which they are queued. -/

namespace Pinout.Ur

open Foundation Protocol

variable {options : UrOptions}

/-- An invocation has nothing left to write but what waits in the queue of the dashboard client. -/
def Phase.HandedOver (options : UrOptions) : Phase → Prop
  | writing => ¬ (options.playAfterScript = true ∧ options.hasDashboard = true)
  | playing _ | settled _ => True
  | _ => False

/-- Whether an invocation has nothing left to write can be evaluated. -/
instance (phase : Phase) : Decidable (phase.HandedOver options) :=
  match phase with
  | .writing => inferInstanceAs (Decidable (¬ _))
  | .playing _ | .settled _ => isTrue trivial
  | .starting | .robotMode _ | .safetyMode _ | .opening _ => isFalse id

/-- An invocation waits for a reply to its preflight. -/
def Phase.inPreflight : Phase → Bool
  | robotMode _ | safetyMode _ => true
  | _ => false

namespace UrBackend

/-- No line of an invocation is written after a stop has resolved that was called after the invocation. -/
def Final (b : UrBackend) : Prop := ∀ line ∈ b.lines, ∀ mark ∈ line.stopped, mark ≤ line.invocation

variable (options) in
/-- **The condition**: when a stop is called, every invocation has handed over its last line. -/
def Orderly (b : UrBackend) : UrEvent → Prop
  | .stop => ∀ i ∈ b.invocations, i.phase.HandedOver options
  | _ => True

/-! ## The invariant -/

variable (options) in
/-- A stop and the invocations that began before it: they have handed over their last lines, and a `play` of
theirs is in front of the stop in the queue, or out of it. -/
structure Outruns (b : UrBackend) (s : Stop) : Prop where
  mark : s.mark ≤ b.invocations.length
  handedOver : ∀ n < s.mark, ∀ i, b.invocations[n]? = some i → i.phase.HandedOver options
  queued : ∀ task, s.phase = .dashboard task → ∀ p ∈ b.plays, p.2 < s.mark → p.1 < task
  past : (∀ task, s.phase ≠ .dashboard task) →
    ∀ t ∈ b.dashboard.queue, ∀ p ∈ b.plays, p.1 = t.number → s.mark ≤ p.2

variable (options) in
structure Sound (b : UrBackend) : Prop where
  fifo : b.dashboard.Ordered
  plays : ∀ p ∈ b.plays, p.1 < b.dashboard.made
  unused : options.hasDashboard = false → b.plays = []
  preflights : ∀ i ∈ b.invocations, i.phase.inPreflight = true → options.hasDashboard = true
  stops : Entries (fun _ s => Outruns options b s) b.stops
  final : b.Final

variable {b : UrBackend} {number : Nat}

/-- No stop was called since an invocation began. -/
def Free (b : UrBackend) (number : Nat) : Prop := Entries (fun _ s => s.mark ≤ number) b.stops

/-- An invocation that has something left to write was not begun before a stop. -/
theorem Sound.free (h : b.Sound options) {i : Invocation} (hi : b.invocations[number]? = some i)
    (hphase : ¬ i.phase.HandedOver options) : b.Free number := by
  intro k s hs
  by_contra hlt
  exact hphase ((h.stops k s hs).handedOver number (Nat.lt_of_not_le hlt) i hi)

theorem exists_of_mem_stopped {mark : Nat} (h : mark ∈ b.stopped) :
    ∃ (k : Nat) (s : Stop), b.stops[k]? = some s ∧ s.mark = mark ∧ ∀ task, s.phase ≠ .dashboard task := by
  obtain ⟨s, hs, rfl⟩ := List.mem_map.mp h
  obtain ⟨hmem, hresolved⟩ := List.mem_filter.mp hs
  obtain ⟨k, hk⟩ := List.mem_iff_getElem?.mp hmem
  refine ⟨k, s, hk, rfl, fun task htask => ?_⟩
  rw [htask] at hresolved
  cases hresolved

theorem sound_initial : ({} : UrBackend).Sound options :=
  ⟨DashboardClient.ordered_initial, fun _ h => absurd h List.not_mem_nil, fun _ => rfl,
    fun _ h => absurd h List.not_mem_nil, .nil, fun _ h => absurd h List.not_mem_nil⟩

/-! ## Invocations -/

/-- The phase of an invocation changes: it has handed over its lines then, or no stop was called since it
began. -/
theorem Sound.moveOn (h : b.Sound options) {phase : Phase}
    (hphase : phase.HandedOver options ∨ b.Free number)
    (hused : phase.inPreflight = true → options.hasDashboard = true) :
    (b.moveOn number phase).Sound options := by
  refine ⟨h.fifo, h.plays, h.unused, fun i hi => ?_, fun k s hs => ?_, h.final⟩
  · obtain ⟨n, hn⟩ := List.mem_iff_getElem?.mp hi
    rcases getElem?_modify_eq_some hn with ⟨-, hold⟩ | ⟨-, j, -, rfl⟩
    · exact h.preflights i (List.mem_of_getElem? hold)
    · exact hused
  obtain ⟨hmark, hhanded, hqueued, hpast⟩ := h.stops k s hs
  refine ⟨?_, fun n hn i hi => ?_, hqueued, hpast⟩
  · show s.mark ≤ (b.invocations.modify number _).length
    rwa [List.length_modify]
  · rcases getElem?_modify_eq_some hi with ⟨-, hold⟩ | ⟨rfl, j, hj, rfl⟩
    · exact hhanded n hn i hold
    · rcases hphase with hphase | hfree
      · exact hphase
      · exact absurd (hfree k s hs) (Nat.not_le_of_lt hn)

theorem Sound.settle (h : b.Sound options) (result : Except UrFailure (Option JsString)) :
    (b.moveOn number (.settled result)).Sound options := h.moveOn (.inl trivial) nofun

theorem Sound.startScript (h : b.Sound options) : Sound options { b with scriptStarted := true } :=
  ⟨h.fifo, h.plays, h.unused, h.preflights, fun k s hs => ⟨(h.stops k s hs).mark, (h.stops k s hs).handedOver,
    (h.stops k s hs).queued, (h.stops k s hs).past⟩, h.final⟩

theorem Sound.writeLine (h : b.Sound options) (hfree : b.Free number) (line : JsString) :
    (b.writeLine number line).Sound options := by
  refine Sound.moveOn (b := { b with lines := b.lines ++ [⟨number, payload line, b.stopped⟩] })
    ⟨h.fifo, h.plays, h.unused, h.preflights, fun k s hs => ?_, ?_⟩ (.inr hfree) nofun
  · obtain ⟨hmark, hhanded, hqueued, hpast⟩ := h.stops k s hs
    exact ⟨hmark, hhanded, hqueued, hpast⟩
  · intro written hwritten mark hmark
    rcases List.mem_append.mp hwritten with hwritten | hwritten
    · exact h.final written hwritten mark hmark
    · rw [List.mem_singleton.mp hwritten] at hmark ⊢
      obtain ⟨k, s, hs, rfl, -⟩ := exists_of_mem_stopped hmark
      exact hfree k s hs

theorem Sound.enqueue (h : b.Sound options) (call : DashboardCall) :
    Sound options { b with dashboard := b.dashboard.enqueue call } := by
  have hprogress : DashboardClient.Progress b.dashboard (b.dashboard.enqueue call) := .called call rfl
  refine ⟨h.fifo.enqueue call, fun p hp => (h.plays p hp).trans_le hprogress.made_le, h.unused,
    h.preflights, fun k s hs => ?_, h.final⟩
  obtain ⟨hmark, hhanded, hqueued, hpast⟩ := h.stops k s hs
  refine ⟨hmark, hhanded, hqueued, fun hphase t ht p hp heq => ?_⟩
  rcases hprogress.queue ht with ht | ht
  · exact hpast hphase t ht p hp heq
  · exact absurd (h.plays p hp) (by omega)

theorem Sound.play (h : b.Sound options) (hfree : b.Free number) (hused : options.hasDashboard = true) :
    (b.play number).Sound options := by
  have hprogress : DashboardClient.Progress b.dashboard (b.dashboard.enqueue .play) := .called .play rfl
  have hmade : b.dashboard.made < (b.dashboard.enqueue .play).made := Nat.lt_succ_self _
  refine Sound.moveOn (b := { b with
    dashboard := b.dashboard.enqueue .play, plays := b.plays ++ [(b.dashboard.made, number)] })
    ⟨h.fifo.enqueue .play, fun p hp => ?_, fun hunused => ?_, h.preflights, fun k s hs => ?_, h.final⟩
    (.inl trivial) nofun
  · rcases List.mem_append.mp hp with hp | hp
    · exact (h.plays p hp).trans hmade
    · rw [List.mem_singleton.mp hp]
      exact hmade
  · rw [hused] at hunused
    cases hunused
  · obtain ⟨hmark, hhanded, hqueued, hpast⟩ := h.stops k s hs
    refine ⟨hmark, hhanded, fun task htask p hp hlt => ?_, fun hphase t ht p hp heq => ?_⟩
    · rcases List.mem_append.mp hp with hp | hp
      · exact hqueued task htask p hp hlt
      · rw [List.mem_singleton.mp hp] at hlt
        exact absurd (hfree k s hs) (Nat.not_le_of_lt hlt)
    · rcases List.mem_append.mp hp with hp | hp
      · rcases hprogress.queue ht with ht | ht
        · exact hpast hphase t ht p hp heq
        · exact absurd (h.plays p hp) (by omega)
      · rw [List.mem_singleton.mp hp]
        exact hfree k s hs

theorem Sound.sendScript (h : b.Sound options) (hfree : b.Free number) (text : JsString) :
    (b.sendScript number text).Sound options := by
  rw [UrBackend.sendScript]
  split
  · exact h.settle _
  · split
    · exact h.writeLine hfree text
    · exact h.startScript.moveOn (.inr hfree) nofun

theorem Sound.proceed (h : b.Sound options) (hfree : b.Free number) {motion : Motion}
    (hused : motion = .playProgram → options.hasDashboard = true) :
    (b.proceed number motion).Sound options := by
  cases motion with
  | moveToPose refusal command =>
    cases command with
    | error e => exact h.settle _
    | ok line => exact h.sendScript hfree line
  | executeScript script => exact h.sendScript hfree script
  | playProgram => exact h.play hfree (hused rfl)

theorem Sound.preflight (h : b.Sound options) (hfree : b.Free number) {motion : Motion}
    (hused : motion = .playProgram → options.hasDashboard = true) :
    (b.preflight options number motion).Sound options := by
  rw [UrBackend.preflight]
  split
  · next hchecks => exact (h.enqueue .robotMode).moveOn (.inr hfree) fun _ => hchecks.2
  · exact h.proceed hfree hused

theorem Sound.start (h : b.Sound options) (hfree : b.Free number) (motion : Motion) :
    (b.start options number motion).Sound options := by
  cases motion with
  | moveToPose refusal command =>
    unfold UrBackend.start
    dsimp only
    split
    · exact h.settle _
    · split
      · exact h.settle _
      · exact h.preflight hfree nofun
  | executeScript script =>
    rw [UrBackend.start]
    split
    · exact h.settle _
    · split
      · exact h.settle _
      · split
        · exact h.settle _
        · exact h.sendScript hfree script
  | playProgram =>
    rw [UrBackend.start]
    split
    · exact h.settle _
    · next hused => exact h.preflight hfree fun _ => by simpa using hused

theorem Sound.hearRobotMode (h : b.Sound options) (hfree : b.Free number)
    (hused : options.hasDashboard = true) (mode : UrRobotMode) :
    (b.hearRobotMode number mode).Sound options := by
  rw [UrBackend.hearRobotMode]
  split
  · exact h.settle _
  · exact (h.enqueue .safetyMode).moveOn (.inr hfree) fun _ => hused

theorem Sound.hearSafetyMode (h : b.Sound options) (hfree : b.Free number)
    (hused : options.hasDashboard = true) (motion : Motion) (mode : UrSafetyMode) :
    (b.hearSafetyMode number motion mode).Sound options := by
  rw [UrBackend.hearSafetyMode]
  split
  · exact h.settle _
  · exact h.proceed hfree fun _ => hused

theorem Sound.hear (h : b.Sound options) {i : Invocation} (hi : b.invocations[number]? = some i)
    {b' : UrBackend} (hhear : b.hear number i = some b') : b'.Sound options := by
  have hfree := h.free hi
  have hused := h.preflights i (List.mem_of_getElem? hi)
  rw [UrBackend.hear] at hhear
  cases hphase : i.phase with
  | robotMode task =>
    rw [hphase] at hhear hfree hused
    dsimp only at hhear
    split at hhear
    · obtain rfl := Option.some.inj hhear
      exact h.hearRobotMode (hfree id) (hused rfl) _
    · obtain rfl := Option.some.inj hhear
      exact h.settle _
    · cases hhear
  | safetyMode task =>
    rw [hphase] at hhear hfree hused
    dsimp only at hhear
    split at hhear
    · obtain rfl := Option.some.inj hhear
      exact h.hearSafetyMode (hfree id) (hused rfl) _ _
    · obtain rfl := Option.some.inj hhear
      exact h.settle _
    · cases hhear
  | playing task =>
    rw [hphase] at hhear
    dsimp only at hhear
    split at hhear
    · obtain rfl := Option.some.inj hhear
      exact h.settle _
    · obtain rfl := Option.some.inj hhear
      exact h.settle _
    · cases hhear
  | starting => rw [hphase] at hhear; cases hhear
  | opening line => rw [hphase] at hhear; cases hhear
  | writing => rw [hphase] at hhear; cases hhear
  | settled result => rw [hphase] at hhear; cases hhear

theorem Sound.goOn (h : b.Sound options) {i : Invocation} (hi : b.invocations[number]? = some i)
    {thrown : Option Thrown} {b' : UrBackend} (hgo : b.goOn options number i thrown = some b') :
    b'.Sound options := by
  have hfree := h.free hi
  unfold UrBackend.goOn at hgo
  split at hgo
  · next line hphase =>
    obtain rfl := Option.some.inj hgo
    rw [hphase] at hfree
    exact h.writeLine (hfree id) line
  · next hphase =>
    split at hgo
    · next hplay =>
      obtain rfl := Option.some.inj hgo
      rw [hphase] at hfree
      exact h.play (hfree fun hnot => hnot hplay) hplay.2
    · obtain rfl := Option.some.inj hgo
      exact h.settle _
  · obtain rfl := Option.some.inj hgo
    exact h.settle _
  · obtain rfl := Option.some.inj hgo
    exact h.settle _
  · cases hgo

theorem Sound.invoke (h : b.Sound options) (i : Invocation) (hphase : i.phase.inPreflight = false) :
    Sound options { b with invocations := b.invocations ++ [i] } := by
  refine ⟨h.fifo, h.plays, h.unused, fun j hj => ?_, fun k s hs => ?_, h.final⟩
  · rcases List.mem_append.mp hj with hj | hj
    · exact h.preflights j hj
    · rw [List.mem_singleton.mp hj, hphase]
      nofun
  · obtain ⟨hmark, hhanded, hqueued, hpast⟩ := h.stops k s hs
    refine ⟨?_, fun n hn j hj => ?_, hqueued, hpast⟩
    · rw [List.length_append]
      exact Nat.le_add_right_of_le hmark
    · rcases getElem?_append_singleton_eq_some hj with hold | ⟨rfl, -⟩
      · exact hhanded n hn j hold
      · exact absurd hmark (Nat.not_le_of_lt hn)

/-! ## Stops -/

/-- What is in the queue and belongs to an invocation, began after the stop. -/
def Past (b : UrBackend) (s : Stop) : Prop :=
  ∀ t ∈ b.dashboard.queue, ∀ p ∈ b.plays, p.1 = t.number → s.mark ≤ p.2

theorem Sound.withStops (h : b.Sound options) {stops : List Stop}
    (hstops : Entries (fun _ s => Outruns options b s) stops) : Sound options { b with stops := stops } := by
  refine ⟨h.fifo, h.plays, h.unused, h.preflights, fun k s hs => ?_, h.final⟩
  obtain ⟨hmark, hhanded, hqueued, hpast⟩ := hstops k s hs
  exact ⟨hmark, hhanded, hqueued, hpast⟩

theorem Sound.moveStop (h : b.Sound options) {phase : StopPhase}
    (hphase : ∀ task, phase ≠ .dashboard task)
    (hpast : ∀ s, b.stops[number]? = some s → b.Past s) : (b.moveStop number phase).Sound options := by
  refine h.withStops fun k s hs => ?_
  rcases getElem?_modify_eq_some hs with ⟨-, hold⟩ | ⟨rfl, r, hr, rfl⟩
  · exact h.stops k s hold
  · obtain ⟨hmark, hhanded, -, -⟩ := h.stops number r hr
    exact ⟨hmark, hhanded, fun task htask => absurd htask (hphase task), fun _ => hpast r hr⟩

theorem Sound.finishStop (h : b.Sound options) (hpast : ∀ s, b.stops[number]? = some s → b.Past s)
    (programStop : ProgramStop) (scriptStop : ScriptStop) :
    (b.finishStop number programStop scriptStop).Sound options := by
  unfold UrBackend.finishStop
  split
  · exact h.moveStop nofun hpast
  · exact h.moveStop nofun hpast
  · exact h.moveStop nofun hpast

theorem Sound.stopScript (h : b.Sound options) (hpast : ∀ s, b.stops[number]? = some s → b.Past s)
    (programStop : ProgramStop) : (b.stopScript options number programStop).Sound options := by
  rw [UrBackend.stopScript]
  split
  · split
    · exact h.finishStop hpast _ _
    · split
      · exact h.finishStop hpast _ _
      · split
        · exact h.moveStop nofun hpast
        · exact h.startScript.moveStop nofun hpast
  · exact h.finishStop hpast _ _

/-- **A stop is called** when every invocation has handed over its last line. -/
theorem Sound.stopMotion (h : b.Sound options)
    (horderly : ∀ i ∈ b.invocations, i.phase.HandedOver options) :
    (b.stopMotion options).Sound options := by
  have hhanded : ∀ n < b.invocations.length, ∀ i, b.invocations[n]? = some i →
      i.phase.HandedOver options := fun n _ i hi => horderly i (List.mem_of_getElem? hi)
  rw [UrBackend.stopMotion]
  split
  · have hqueued := h.enqueue .stop
    refine hqueued.withStops (hqueued.stops.append ?_)
    refine ⟨Nat.le_refl _, hhanded, fun task htask p hp _ => ?_, fun hphase => absurd rfl (hphase _)⟩
    obtain rfl := StopPhase.dashboard.inj htask
    exact h.plays p hp
  · next hunused =>
    have hnone : b.plays = [] := h.unused (by simpa using hunused)
    have hpast : ∀ s : Stop, ∀ t ∈ b.dashboard.queue, ∀ p ∈ b.plays, p.1 = t.number → s.mark ≤ p.2 := by
      intro s t _ p hp
      rw [hnone] at hp
      cases hp
    have hstop : Outruns options b { mark := b.invocations.length, phase := .writing } :=
      ⟨Nat.le_refl _, hhanded, nofun, fun _ => hpast _⟩
    exact (h.withStops (h.stops.append hstop)).stopScript (fun s _ => hpast s) _

/-- A call that was settled is out of the queue, and so is what was queued before it. -/
theorem Sound.past_of_outcome (h : b.Sound options) {s : Stop} (hs : Outruns options b s) {task : Nat}
    (hphase : s.phase = .dashboard task) {result : Except DashboardFailure DashboardResult}
    (houtcome : b.outcome ⟨task, .stop⟩ = some result) : b.Past s := by
  obtain ⟨⟨other, result'⟩, hfind, rfl⟩ := Option.map_eq_some_iff.mp houtcome
  have hother : other = ⟨task, .stop⟩ := by simpa using List.find?_some hfind
  have hbegun : b.dashboard.Begun ⟨task, .stop⟩ :=
    .inr ⟨rfl, result', hother ▸ List.mem_of_find?_eq_some hfind⟩
  intro t ht p hp heq
  by_contra hlt
  have hbehind := hs.queued task hphase p hp (Nat.lt_of_not_le hlt)
  have hahead := (h.fifo.begun _ hbegun).2 t ht
  rw [heq] at hbehind
  exact absurd hbehind (Nat.lt_asymm hahead)

theorem Sound.hearStop (h : b.Sound options) {s : Stop} (hs : b.stops[number]? = some s) {b' : UrBackend}
    (hhear : b.hearStop options number s = some b') : b'.Sound options := by
  rw [UrBackend.hearStop] at hhear
  split at hhear
  · next task hphase =>
    obtain ⟨result, houtcome, rfl⟩ := Option.map_eq_some_iff.mp hhear
    have hpast := h.past_of_outcome (h.stops number s hs) hphase houtcome
    refine Sound.stopScript (h.withStops (h.stops.modify fun r hr => ?_)) (fun r hr => ?_) _
    · exact ⟨hr.mark, hr.handedOver, hr.queued, hr.past⟩
    · rcases getElem?_modify_cases hs hr with ⟨hne, -⟩ | ⟨-, rfl⟩
      · exact absurd rfl hne
      · exact hpast
  · cases hhear

theorem Sound.goOnStop (h : b.Sound options) {s : Stop} (hs : b.stops[number]? = some s)
    {thrown : Option Thrown} {b' : UrBackend} (hgo : b.goOnStop number s thrown = some b') :
    b'.Sound options := by
  have hpast : (∀ task, s.phase ≠ .dashboard task) → ∀ r, b.stops[number]? = some r → b.Past r := by
    intro hphase r hr
    obtain rfl := Option.some.inj (hs.symm.trans hr)
    exact (h.stops number s hs).past hphase
  unfold UrBackend.goOnStop at hgo
  split at hgo
  · next line hphase =>
    obtain rfl := Option.some.inj hgo
    exact h.moveStop nofun (hpast (by rw [hphase]; nofun))
  · next hphase =>
    obtain rfl := Option.some.inj hgo
    exact h.finishStop (hpast (by rw [hphase]; nofun)) _ _
  · next line e hphase =>
    obtain rfl := Option.some.inj hgo
    exact h.finishStop (hpast (by rw [hphase]; nofun)) _ _
  · next e hphase =>
    obtain rfl := Option.some.inj hgo
    exact h.finishStop (hpast (by rw [hphase]; nofun)) _ _
  · cases hgo

/-! ## Runs -/

/-- **The dashboard client goes on**: what it writes for an invocation was in its queue. -/
theorem Sound.dashboard (h : b.Sound options) {event : DashboardEvent} {dashboard : DashboardClient}
    (hstep : b.dashboard.step options.dashboard event = some dashboard) :
    Sound options { b with dashboard, lines := b.lines ++ b.playLines dashboard } := by
  have hprogress := DashboardClient.progress_of_step hstep
  refine ⟨h.fifo.step hstep, fun p hp => (h.plays p hp).trans_le hprogress.made_le, h.unused,
    h.preflights, fun k s hs => ?_, fun line hline mark hmark => ?_⟩
  · obtain ⟨hmark, hhanded, hqueued, hpast⟩ := h.stops k s hs
    refine ⟨hmark, hhanded, hqueued, fun hphase t ht p hp heq => ?_⟩
    rcases hprogress.queue ht with ht | ht
    · exact hpast hphase t ht p hp heq
    · exact absurd (h.plays p hp) (by omega)
  · rcases List.mem_append.mp hline with hline | hline
    · exact h.final line hline mark hmark
    · obtain ⟨p, hp, hplay⟩ := List.mem_flatMap.mp hline
      obtain ⟨play, hmem, rfl⟩ := List.mem_map.mp hplay
      obtain ⟨hplay, heq⟩ := List.mem_filter.mp hmem
      obtain ⟨t, ht, htp⟩ := hprogress.sent hp
      obtain ⟨k, s, hs, rfl, hphase⟩ := exists_of_mem_stopped hmark
      refine (h.stops k s hs).past hphase t ht play hplay ?_
      rw [htp]
      simpa using heq

/-- **Step lemma.** An event that meets the condition keeps the invariant. -/
theorem Sound.step (h : b.Sound options) {event : UrEvent} (horderly : b.Orderly options event)
    {b' : UrBackend} (hstep : b.step options event = some b') : b'.Sound options := by
  cases event with
  | dashboard event =>
    obtain ⟨dashboard, hdashboard, rfl⟩ := Option.map_eq_some_iff.mp hstep
    exact h.dashboard hdashboard
  | startScript =>
    obtain rfl := Option.some.inj hstep
    exact h.startScript
  | invoke motion =>
    obtain rfl := Option.some.inj hstep
    refine h.invoke _ ?_
    dsimp only
    split <;> rfl
  | ready number thrown =>
    rw [UrBackend.step] at hstep
    split at hstep
    · next i hi =>
      split at hstep
      · next hphase =>
        obtain rfl := Option.some.inj hstep
        exact h.start (h.free hi (by rw [hphase]; exact id)) i.motion
      · obtain rfl := Option.some.inj hstep
        exact h.settle _
      · cases hstep
    · cases hstep
  | hear number =>
    obtain ⟨i, hi, hhear⟩ := Option.bind_eq_some_iff.mp hstep
    exact h.hear hi hhear
  | goOn number thrown =>
    obtain ⟨i, hi, hgo⟩ := Option.bind_eq_some_iff.mp hstep
    exact h.goOn hi hgo
  | stop =>
    obtain rfl := Option.some.inj hstep
    exact h.stopMotion horderly
  | hearStop number =>
    obtain ⟨s, hs, hhear⟩ := Option.bind_eq_some_iff.mp hstep
    exact h.hearStop hs hhear
  | goOnStop number thrown =>
    obtain ⟨s, hs, hgo⟩ := Option.bind_eq_some_iff.mp hstep
    exact h.goOnStop hs hgo
  | close =>
    obtain rfl := Option.some.inj hstep
    exact ⟨h.fifo, h.plays, h.unused, h.preflights, fun k s hs => ⟨(h.stops k s hs).mark,
      (h.stops k s hs).handedOver, (h.stops k s hs).queued, (h.stops k s hs).past⟩, h.final⟩
  | closeScript =>
    obtain rfl := Option.some.inj hstep
    exact ⟨h.fifo, h.plays, h.unused, h.preflights, fun k s hs => ⟨(h.stops k s hs).mark,
      (h.stops k s hs).handedOver, (h.stops k s hs).queued, (h.stops k s hs).past⟩, h.final⟩

/-- The condition can be evaluated. -/
instance (b : UrBackend) (event : UrEvent) : Decidable (b.Orderly options event) :=
  match event with
  | .stop => inferInstanceAs (Decidable (∀ i ∈ b.invocations, i.phase.HandedOver options))
  | .dashboard _ | .startScript | .invoke _ | .ready _ _ | .hear _ | .goOn _ _ | .hearStop _
  | .goOnStop _ _ | .close | .closeScript => isTrue trivial

/-- **A stop is final** in every run in which each stop is called when every invocation has handed over its
last line. -/
theorem final_of_orderly {events : List UrEvent}
    (horderly : (machine options).Guarded (Orderly options) {} events)
    (hrun : (machine options).run {} events = some b) : b.Final := by
  have hsound : b.Sound options :=
    Machine.run_guarded_invariant (I := Sound options)
      (fun _ _ _ h hevent hstep => Sound.step h hevent hstep) sound_initial horderly hrun
  exact hsound.final

/-- A backend whose dashboard sends no welcome line. -/
def plainOptions (preflightChecks : Bool) : UrOptions where
  dashboard := { expectWelcome := false }
  preflightChecks := preflightChecks
  stopLCommand := .ok (js "stopl(5)")

/-- A call of the dashboard client begins and is replied to. -/
def exchange (reply : List UInt8) : List UrEvent :=
  [.dashboard (.begin none), .dashboard (.chunk reply), .dashboard .read]

def started : List UrEvent := [.dashboard .start, .dashboard .opened, .startScript]

/-- A stop behind a `play` in the queue, and a move after the stop. -/
def orderlyRun : List UrEvent :=
  started ++ [.invoke .playProgram, .ready 0 none, .stop] ++
    exchange (encodeUtf8 (js "Starting program\n")) ++ [.hear 0] ++
    exchange (encodeUtf8 (js "Stopped\n")) ++ [.hearStop 0, .goOnStop 0 none] ++
    [.invoke (.moveToPose none (.ok (js "m"))), .ready 1 none, .goOn 1 none]

theorem final_of_orderly_stopped :
    ∃ b, (machine (plainOptions false)).run {} orderlyRun = some b ∧
      b.lines.map (fun line => (line.invocation, line.stopped)) = [(0, []), (1, [1])] ∧ b.Final := by
  have hrun : ((machine (plainOptions false)).run {} orderlyRun).map
      (fun b => b.lines.map fun line => (line.invocation, line.stopped)) = some [(0, []), (1, [1])] := by
    decide +kernel
  obtain ⟨b, hb, hlines⟩ := Option.map_eq_some_iff.mp hrun
  exact ⟨b, hb, hlines, final_of_orderly (by decide +kernel) hb⟩

/-- A move that waits for its safety mode while a stop runs from beginning to end. -/
def pendingRun : List UrEvent :=
  started ++ [.invoke (.moveToPose none (.ok (js "m"))), .ready 0 none, .stop] ++
    exchange [55, 10] ++ [.hear 0] ++
    exchange (encodeUtf8 (js "Stopped\n")) ++ [.hearStop 0, .goOnStop 0 none] ++
    exchange [49, 10] ++ [.hear 0]

/-- **A stop is not final**: a move that waits in its preflight is written after the stop has resolved. -/
theorem not_final :
    ∃ b, (machine (plainOptions true)).run {} pendingRun = some b ∧
      b.lines = [⟨0, encodeUtf8 (js "m\n"), [1]⟩] ∧ ¬ b.Final := by
  have hrun : ((machine (plainOptions true)).run {} pendingRun).map UrBackend.lines =
      some [⟨0, encodeUtf8 (js "m\n"), [1]⟩] := by
    decide +kernel
  obtain ⟨b, hb, hlines⟩ := Option.map_eq_some_iff.mp hrun
  refine ⟨b, hb, hlines, fun hfinal => ?_⟩
  have hle := hfinal ⟨0, encodeUtf8 (js "m\n"), [1]⟩ (by rw [hlines]; exact List.mem_singleton.mpr rfl) 1
    (List.mem_singleton.mpr rfl)
  exact absurd hle (by decide)

end UrBackend

end Pinout.Ur
