import Pinout.Foundation.Machine
import Pinout.Ur.Replies

/-! # The dashboard client

`UrDashboardClient` (`packages/protocols-ur/src/dashboardClient.ts`): calls are queued behind one another;
the one under way writes its line and then waits for a line in a buffer that all calls, and `start`, read
from. What happens between two points where the client waits is one *event*; when a deadline passes is up
to the environment. What was written and what calls were settled with is kept as a record. -/

namespace Pinout.Ur

open Foundation Protocol

structure DashboardTask where
  number : Nat
  call : DashboardCall
  deriving DecidableEq

/-- `UrDashboardClient`. -/
structure DashboardClient where
  started : Bool := false
  closed : Bool := false
  opening : Bool := false
  reading : Bool := false
  greeting : Bool := false
  welcome : Option JsString := none
  lineBuffer : List UInt8 := []
  made : Nat := 0
  queue : List DashboardTask := []
  current : Option DashboardTask := none
  sent : List (Nat × List UInt8) := []
  outcomes : List (DashboardTask × Except DashboardFailure DashboardResult) := []
  diagnostics : List (JsString × JsString) := []

inductive DashboardEvent
  | start
  | opened
  | openFailed
  | call (call : DashboardCall)
  | begin (refused : Option Thrown)
  | read
  | expire
  | observeClosed
  | readWelcome
  | expireWelcome
  | observeClosedWelcome
  | chunk (bytes : List UInt8)
  | streamEnded
  | close

namespace DashboardClient

def settle (c : DashboardClient) (task : DashboardTask)
    (result : Except DashboardFailure DashboardResult) : DashboardClient :=
  { c with outcomes := c.outcomes ++ [(task, result)] }

/-- A call is made, and queued unless it is refused at once. -/
def enqueue (c : DashboardClient) (call : DashboardCall) : DashboardClient :=
  let task : DashboardTask := ⟨c.made, call⟩
  match call.refusal with
  | some e => { c with made := c.made + 1 }.settle task (.error e)
  | none => { c with made := c.made + 1, queue := c.queue ++ [task] }

/-- `sendAndReceive` up to where it waits for the reply; `refused` is what the transport throws instead
of taking the line. -/
def sendTask (c : DashboardClient) (task : DashboardTask) (refused : Option Thrown) : DashboardClient :=
  if c.closed then
    c.settle task (.error (.dashboard (js "UR_DASHBOARD_CLOSED")
      (js "Dashboard transport is closed.") none))
  else if ¬ c.started then
    c.settle task (.error (.dashboard (js "UR_DASHBOARD_NOT_STARTED")
      (js "Dashboard client is not started; call start() first.") none))
  else match refused with
    | some e => c.settle task (.error (.thrown e))
    | none => { c with
        current := some task
        sent := c.sent ++ [(task.number, encodeUtf8 (task.call.text ++ [lineFeed]))] }

/-- A chunk of `consume`. -/
def consume (c : DashboardClient) (chunk : List UInt8) : DashboardClient :=
  let lineBuffer := c.lineBuffer ++ chunk
  if lineBuffer.length > 1048576 then { c with
    lineBuffer
    closed := true
    reading := false
    diagnostics := c.diagnostics ++ [(js "UR_DASHBOARD_LINE_OVERFLOW",
      js "Dashboard line buffer exceeded 1 MiB; closing.")] }
  else { c with lineBuffer }

variable (options : DashboardOptions)

def step (c : DashboardClient) : DashboardEvent → Option DashboardClient
  | .start => if c.started then some c else some { c with started := true, opening := true }
  | .opened =>
    if c.opening then
      some { c with opening := false, reading := true, greeting := options.expectWelcome }
    else none
  | .openFailed => if c.opening then some { c with opening := false } else none
  | .call call => some (c.enqueue call)
  | .begin refused => match c.current, c.queue with
    | none, task :: queue => some ({ c with queue := queue }.sendTask task refused)
    | _, _ => none
  | .read => match c.current, nextLine? c.lineBuffer with
    | some task, some (line, rest) =>
      some ({ c with lineBuffer := rest, current := none }.settle task
        (task.call.settle options (lineText (line ++ [10]))))
    | _, _ => none
  | .expire => match c.current, nextLine? c.lineBuffer with
    | some task, none =>
      if c.closed then none
      else some ({ c with closed := true, current := none }.settle task
        (.error (.dashboard (js "UR_DASHBOARD_TIMEOUT")
          (js "No dashboard reply to '" ++ task.call.text ++ js "' within " ++
            decimal options.timeoutMs ++ js "ms; the connection was closed.") none)))
    | _, _ => none
  | .observeClosed => match c.current, nextLine? c.lineBuffer with
    | some task, none =>
      if c.closed then
        some ({ c with current := none }.settle task
          (.error (.dashboard (js "UR_DASHBOARD_CLOSED")
            (js "Dashboard transport closed while waiting for a reply.") none)))
      else none
    | _, _ => none
  | .readWelcome => match c.greeting, nextLine? c.lineBuffer with
    | true, some (line, rest) =>
      some { c with lineBuffer := rest, greeting := false, welcome := some (lineText (line ++ [10])) }
    | _, _ => none
  | .expireWelcome => match c.greeting, nextLine? c.lineBuffer with
    | true, none =>
      if c.closed then none
      else some { c with
        greeting := false
        diagnostics := c.diagnostics ++ [(js "UR_DASHBOARD_NO_WELCOME",
          js "No dashboard welcome line arrived before the welcome timeout; continuing.")] }
    | _, _ => none
  | .observeClosedWelcome => match c.greeting, nextLine? c.lineBuffer with
    | true, none => if c.closed then some { c with greeting := false } else none
    | _, _ => none
  | .chunk bytes => if c.reading then some (c.consume bytes) else none
  | .streamEnded => if c.reading then some { c with reading := false, closed := true } else none
  | .close => some { c with closed := true }

def machine : Machine DashboardClient DashboardEvent := ⟨step options⟩

/-! ## What a call is given -/

variable {c : DashboardClient}

theorem enqueue_cases (c : DashboardClient) (call : DashboardCall) :
    (∃ e, c.enqueue call =
      { c with made := c.made + 1, outcomes := c.outcomes ++ [(⟨c.made, call⟩, .error e)] }) ∨
    c.enqueue call = { c with made := c.made + 1, queue := c.queue ++ [⟨c.made, call⟩] } := by
  rw [enqueue]
  cases call.refusal with
  | some e => exact .inl ⟨e, rfl⟩
  | none => exact .inr rfl

/-- A call begins: it writes its line and waits, or ends with an error. -/
theorem sendTask_cases (c : DashboardClient) (task : DashboardTask) (refused : Option Thrown) :
    (∃ e, c.sendTask task refused = { c with outcomes := c.outcomes ++ [(task, .error e)] }) ∨
    c.closed = false ∧ c.started = true ∧ refused = none ∧
      c.sendTask task refused = { c with
        current := some task
        sent := c.sent ++ [(task.number, encodeUtf8 (task.call.text ++ [lineFeed]))] } := by
  unfold sendTask
  split
  · exact .inl ⟨_, rfl⟩
  · next hopen =>
    split
    · exact .inl ⟨_, rfl⟩
    · next hstarted =>
      cases refused with
      | some e => exact .inl ⟨_, rfl⟩
      | none => exact .inr ⟨by simpa using hopen, by simpa using hstarted, rfl, rfl⟩

/-- A chunk goes to the end of the buffer, and may close the client. -/
theorem consume_cases (c : DashboardClient) (chunk : List UInt8) :
    ∃ closed reading diagnostics, (c.closed = true → closed = true) ∧
      c.consume chunk =
        { c with lineBuffer := c.lineBuffer ++ chunk, closed, reading, diagnostics } := by
  rw [consume]
  split
  · exact ⟨true, false, _, fun _ => rfl, rfl⟩
  · exact ⟨c.closed, c.reading, c.diagnostics, id, rfl⟩

/-! ## What one event does -/

/-- What one event does to the calls of a client, and to what it wrote. -/
inductive Progress (c d : DashboardClient) : Prop
  | quiet (hqueue : d.queue = c.queue) (hmade : d.made = c.made) (hcurrent : d.current = c.current)
      (hsent : d.sent = c.sent) (houtcomes : d.outcomes = c.outcomes)
  | called (call : DashboardCall) (hcall : d = c.enqueue call)
  | began (task : DashboardTask) (queue : List DashboardTask) (refused : Option Thrown)
      (hqueue : c.queue = task :: queue) (hbegin : d = ({ c with queue := queue }.sendTask task refused))
  | ended (task : DashboardTask) (result : Except DashboardFailure DashboardResult)
      (hcurrent : c.current = some task) (hqueue : d.queue = c.queue) (hmade : d.made = c.made)
      (hidle : d.current = none) (hsent : d.sent = c.sent)
      (houtcomes : d.outcomes = c.outcomes ++ [(task, result)])

variable {options}

/-- **Inversion.** What one event does to the calls. -/
theorem progress_of_step {event : DashboardEvent} {d : DashboardClient}
    (hstep : c.step options event = some d) : Progress c d := by
  have quiet : ∀ {client : DashboardClient}, some client = some d → client.queue = c.queue →
      client.made = c.made → client.current = c.current → client.sent = c.sent →
      client.outcomes = c.outcomes → Progress c d := by
    rintro client hclient hqueue hmade hcurrent hsent houtcomes
    obtain rfl := Option.some.inj hclient
    exact .quiet hqueue hmade hcurrent hsent houtcomes
  cases event with
  | start =>
    rw [step] at hstep
    split at hstep
    · exact quiet hstep rfl rfl rfl rfl rfl
    · exact quiet hstep rfl rfl rfl rfl rfl
  | opened =>
    rw [step] at hstep
    split at hstep
    · exact quiet hstep rfl rfl rfl rfl rfl
    · cases hstep
  | openFailed =>
    rw [step] at hstep
    split at hstep
    · exact quiet hstep rfl rfl rfl rfl rfl
    · cases hstep
  | call call => exact .called call (Option.some.inj hstep).symm
  | begin refused =>
    rw [step] at hstep
    split at hstep
    · next task queue hcurrent hqueue =>
      exact .began task queue refused hqueue (Option.some.inj hstep).symm
    · cases hstep
  | read =>
    rw [step] at hstep
    split at hstep
    · next task raw rest hcurrent hnext =>
      obtain rfl := Option.some.inj hstep
      exact .ended task _ hcurrent rfl rfl rfl rfl rfl
    · cases hstep
  | expire =>
    rw [step] at hstep
    split at hstep
    · next task hcurrent hnext =>
      split at hstep
      · cases hstep
      · obtain rfl := Option.some.inj hstep
        exact .ended task _ hcurrent rfl rfl rfl rfl rfl
    · cases hstep
  | observeClosed =>
    rw [step] at hstep
    split at hstep
    · next task hcurrent hnext =>
      split at hstep
      · obtain rfl := Option.some.inj hstep
        exact .ended task _ hcurrent rfl rfl rfl rfl rfl
      · cases hstep
    · cases hstep
  | readWelcome =>
    rw [step] at hstep
    split at hstep
    · exact quiet hstep rfl rfl rfl rfl rfl
    · cases hstep
  | expireWelcome =>
    rw [step] at hstep
    split at hstep
    · split at hstep
      · cases hstep
      · exact quiet hstep rfl rfl rfl rfl rfl
    · cases hstep
  | observeClosedWelcome =>
    rw [step] at hstep
    split at hstep
    · split at hstep
      · exact quiet hstep rfl rfl rfl rfl rfl
      · cases hstep
    · cases hstep
  | chunk bytes =>
    rw [step] at hstep
    split at hstep
    · obtain ⟨closed, reading, diagnostics, -, hconsume⟩ := c.consume_cases bytes
      rw [hconsume] at hstep
      exact quiet hstep rfl rfl rfl rfl rfl
    · cases hstep
  | streamEnded =>
    rw [step] at hstep
    split at hstep
    · exact quiet hstep rfl rfl rfl rfl rfl
    · cases hstep
  | close => exact quiet hstep rfl rfl rfl rfl rfl

/-! ## First in, first out -/

/-- A call that has begun: it is under way, or was settled and not refused at once. -/
def Begun (c : DashboardClient) (task : DashboardTask) : Prop :=
  c.current = some task ∨ task.call.refusal = none ∧ ∃ result, (task, result) ∈ c.outcomes

/-- Calls begin in the order in which they are queued. -/
structure Ordered (c : DashboardClient) : Prop where
  sorted : c.queue.Pairwise fun t u => t.number < u.number
  queued : ∀ t ∈ c.queue, t.number < c.made
  begun : ∀ task, c.Begun task → task.number < c.made ∧ ∀ t ∈ c.queue, task.number < t.number

theorem ordered_initial : ({} : DashboardClient).Ordered := by
  refine ⟨List.Pairwise.nil, fun _ h => absurd h List.not_mem_nil, fun task htask => ?_⟩
  rcases htask with hcurrent | ⟨-, result, hmem⟩
  · cases hcurrent
  · exact absurd hmem List.not_mem_nil

theorem Ordered.of_begun (h : c.Ordered) {d : DashboardClient} (hqueue : d.queue = c.queue)
    (hmade : d.made = c.made) (hbegun : ∀ task, d.Begun task → c.Begun task) : d.Ordered := by
  constructor
  · rw [hqueue]
    exact h.sorted
  · rw [hqueue, hmade]
    exact h.queued
  · intro task htask
    rw [hqueue, hmade]
    exact h.begun task (hbegun task htask)

/-- A call that is settled in place of the one under way had begun. -/
theorem Begun.of_settled {task : DashboardTask} (hcurrent : c.current = some task) {d : DashboardClient}
    (hidle : d.current = none) {result : Except DashboardFailure DashboardResult}
    (houtcomes : d.outcomes = c.outcomes ++ [(task, result)]) {other : DashboardTask}
    (h : d.Begun other) : c.Begun other := by
  rcases h with hother | ⟨hrefusal, result', hmem⟩
  · rw [hidle] at hother
    cases hother
  · rw [houtcomes] at hmem
    rcases List.mem_append.mp hmem with hmem | hmem
    · exact .inr ⟨hrefusal, result', hmem⟩
    · obtain ⟨rfl, -⟩ := Prod.mk.inj (List.mem_singleton.mp hmem)
      exact .inl hcurrent

theorem Ordered.enqueue (h : c.Ordered) (call : DashboardCall) : (c.enqueue call).Ordered := by
  rw [DashboardClient.enqueue]
  cases hrefusal : call.refusal with
  | some e =>
    refine ⟨h.sorted, fun t ht => Nat.lt_succ_of_lt (h.queued t ht), fun task htask => ?_⟩
    have hbegun : c.Begun task := by
      rcases htask with hcurrent | ⟨hnone, result, hmem⟩
      · exact .inl hcurrent
      · refine .inr ⟨hnone, ?_⟩
        rcases List.mem_append.mp hmem with hmem | hmem
        · exact ⟨result, hmem⟩
        · obtain ⟨rfl, -⟩ := Prod.mk.inj (List.mem_singleton.mp hmem)
          exact absurd (hrefusal.symm.trans hnone) nofun
    obtain ⟨hmade, hqueue⟩ := h.begun task hbegun
    exact ⟨Nat.lt_succ_of_lt hmade, hqueue⟩
  | none =>
    refine ⟨?_, fun t ht => ?_, fun task htask => ?_⟩
    · refine List.pairwise_append.mpr ⟨h.sorted, List.pairwise_singleton _ _, fun t ht u hu => ?_⟩
      rw [List.mem_singleton.mp hu]
      exact h.queued t ht
    · rcases List.mem_append.mp ht with ht | ht
      · exact Nat.lt_succ_of_lt (h.queued t ht)
      · rw [List.mem_singleton.mp ht]
        exact Nat.lt_succ_self _
    · obtain ⟨hmade, hqueue⟩ := h.begun task htask
      refine ⟨Nat.lt_succ_of_lt hmade, fun t ht => ?_⟩
      rcases List.mem_append.mp ht with ht | ht
      · exact hqueue t ht
      · rw [List.mem_singleton.mp ht]
        exact hmade

theorem Ordered.sendTask (h : c.Ordered) {task : DashboardTask} {queue : List DashboardTask}
    (hqueue : c.queue = task :: queue) (refused : Option Thrown) :
    (({ c with queue := queue } : DashboardClient).sendTask task refused).Ordered := by
  have hsorted := h.sorted
  rw [hqueue, List.pairwise_cons] at hsorted
  have hsubset : ∀ t ∈ queue, t ∈ c.queue := by
    intro t ht
    rw [hqueue]
    exact List.mem_cons_of_mem task ht
  have hhead : task.number < c.made := h.queued task (by rw [hqueue]; exact List.mem_cons_self)
  have hold : ∀ other, c.Begun other →
      other.number < c.made ∧ ∀ t ∈ queue, other.number < t.number := by
    intro other hother
    obtain ⟨hmade, hlt⟩ := h.begun other hother
    exact ⟨hmade, fun t ht => hlt t (hsubset t ht)⟩
  rcases sendTask_cases { c with queue := queue } task refused with ⟨e, he⟩ | ⟨-, -, -, hsent⟩
  · rw [he]
    refine ⟨hsorted.2, fun t ht => h.queued t (hsubset t ht), fun other hother => ?_⟩
    rcases hother with hcurrent | ⟨hrefusal, result, hmem⟩
    · exact hold other (.inl hcurrent)
    · rcases List.mem_append.mp hmem with hmem | hmem
      · exact hold other (.inr ⟨hrefusal, result, hmem⟩)
      · obtain ⟨rfl, -⟩ := Prod.mk.inj (List.mem_singleton.mp hmem)
        exact ⟨hhead, hsorted.1⟩
  · rw [hsent]
    refine ⟨hsorted.2, fun t ht => h.queued t (hsubset t ht), fun other hother => ?_⟩
    rcases hother with hcurrent | hsettled
    · obtain rfl := Option.some.inj hcurrent
      exact ⟨hhead, hsorted.1⟩
    · exact hold other (.inr hsettled)

/-- **One event keeps the order.** -/
theorem Ordered.step (h : c.Ordered) {event : DashboardEvent} {d : DashboardClient}
    (hstep : c.step options event = some d) : d.Ordered := by
  cases progress_of_step hstep with
  | quiet hqueue hmade hcurrent hsent houtcomes =>
    refine h.of_begun hqueue hmade fun task htask => ?_
    unfold Begun at htask ⊢
    rwa [hcurrent, houtcomes] at htask
  | called call hcall =>
    rw [hcall]
    exact h.enqueue call
  | began task queue refused hqueue hbegin =>
    rw [hbegin]
    exact h.sendTask hqueue refused
  | ended task result hcurrent hqueue hmade hidle hsent houtcomes =>
    exact h.of_begun hqueue hmade fun _ => Begun.of_settled hcurrent hidle houtcomes

/-- What waits in the queue after an event waited there before, or is a new call. -/
theorem Progress.queue {d : DashboardClient} (h : Progress c d) {t : DashboardTask} (ht : t ∈ d.queue) :
    t ∈ c.queue ∨ t.number = c.made := by
  cases h with
  | quiet hqueue => exact .inl (hqueue ▸ ht)
  | called call hcall =>
    rcases c.enqueue_cases call with ⟨e, he⟩ | hqueued
    · rw [hcall, he] at ht
      exact .inl ht
    · rw [hcall, hqueued] at ht
      rcases List.mem_append.mp ht with ht | ht
      · exact .inl ht
      · rw [List.mem_singleton.mp ht]
        exact .inr rfl
  | began task queue refused hqueue hbegin =>
    left
    rw [hqueue]
    refine List.mem_cons_of_mem task ?_
    rcases sendTask_cases { c with queue := queue } task refused with ⟨e, he⟩ | ⟨-, -, -, hsent⟩
    · rwa [hbegin, he] at ht
    · rwa [hbegin, hsent] at ht
  | ended task result hcurrent hqueue => exact .inl (hqueue ▸ ht)

theorem Progress.made_le {d : DashboardClient} (h : Progress c d) : c.made ≤ d.made := by
  cases h with
  | quiet hqueue hmade => exact hmade.ge
  | called call hcall =>
    rcases c.enqueue_cases call with ⟨e, he⟩ | hqueued
    · rw [hcall, he]
      exact Nat.le_succ _
    · rw [hcall, hqueued]
      exact Nat.le_succ _
  | began task queue refused hqueue hbegin =>
    rcases sendTask_cases { c with queue := queue } task refused with ⟨e, he⟩ | ⟨-, -, -, hsent⟩
    · rw [hbegin, he]
    · rw [hbegin, hsent]
  | ended task result hcurrent hqueue hmade => exact hmade.ge

/-- What is written in an event belongs to a call that waited in the queue. -/
theorem Progress.sent {d : DashboardClient} (h : Progress c d) {p : Nat × List UInt8}
    (hp : p ∈ d.sent.drop c.sent.length) : ∃ t ∈ c.queue, t.number = p.1 := by
  have hnone : ∀ {sent}, sent = c.sent → p ∉ sent.drop c.sent.length := by
    rintro sent rfl
    simp
  cases h with
  | quiet hqueue hmade hcurrent hsent => exact absurd hp (hnone hsent)
  | called call hcall =>
    rcases c.enqueue_cases call with ⟨e, he⟩ | hqueued
    · rw [hcall, he] at hp
      exact absurd hp (hnone rfl)
    · rw [hcall, hqueued] at hp
      exact absurd hp (hnone rfl)
  | began task queue refused hqueue hbegin =>
    refine ⟨task, by rw [hqueue]; exact List.mem_cons_self, ?_⟩
    rcases sendTask_cases { c with queue := queue } task refused with ⟨e, he⟩ | ⟨-, -, -, hsent⟩
    · rw [hbegin, he] at hp
      exact absurd hp (hnone rfl)
    · rw [hbegin, hsent, List.drop_left] at hp
      rw [List.mem_singleton.mp hp]
  | ended task result hcurrent hqueue hmade hidle hsent => exact absurd hp (hnone hsent)

end DashboardClient

end Pinout.Ur
