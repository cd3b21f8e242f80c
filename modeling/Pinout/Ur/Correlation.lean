import Pinout.Ur.DashboardClient

/-! # Dashboard replies and the calls they settle

A dashboard client and a controller that sends at most one welcome line and then one reply for each command
line it gets, over a stream that arrives in chunks. A reply is matched to a call by its place in the stream
alone, so a line that no call waits for answers the next call: a welcome line that comes after `start` has
given up on it, or the reply to the second line of a text with a line feed in it. Runs without these two
settle every call by the reply to its command. -/

namespace Pinout.Ur

open Foundation Protocol

/-! ## Client and controller -/

structure ControllerLine where
  /-- The call whose command it replies to; the welcome line replies to none. -/
  reply : Option Nat
  bytes : List UInt8

structure Bench where
  client : DashboardClient := {}
  /-- What the controller sent and the client has not received. -/
  wire : List UInt8 := []
  greeted : Bool := false
  /-- The lines of the controller that the client has not read. -/
  unread : List ControllerLine := []
  /-- The replies the controller sent, and to which call's command. -/
  answered : List (Nat × List UInt8) := []

inductive BenchEvent
  | client (event : DashboardEvent)
  | deliver (count : Nat)
  | greet (line : List UInt8)
  | reply (line : List UInt8)

/-- Whether an event takes a line out of the buffer of the client. -/
def DashboardEvent.takesLine : DashboardEvent → Bool
  | read | readWelcome => true
  | _ => false

/-- Whether an event is a chunk, which on the bench comes from the controller. -/
def DashboardEvent.isChunk : DashboardEvent → Bool
  | chunk _ => true
  | _ => false

/-- The calls whose command lines were written, one by one. -/
def commandLines (sent : List (Nat × List UInt8)) : List Nat :=
  sent.flatMap fun p => List.replicate (p.2.count 10) p.1

namespace Bench

/-- The command lines the controller has not replied to. -/
def owed (s : Bench) : List Nat := (commandLines s.client.sent).drop s.answered.length

/-- The replies that the client has not read, those to come included. -/
def due (s : Bench) : List Nat := s.unread.filterMap ControllerLine.reply ++ s.owed

variable (options : DashboardOptions)

def step (s : Bench) : BenchEvent → Option Bench
  | .client event =>
    if event.isChunk then none
    else (s.client.step options event).map fun client =>
      { s with client, unread := if event.takesLine then s.unread.tail else s.unread }
  | .deliver count => (s.client.step options (.chunk (s.wire.take count))).map fun client =>
      { s with client, wire := s.wire.drop count }
  | .greet line =>
    if s.greeted = false ∧ s.answered = [] ∧ 10 ∉ line then
      some { s with
        greeted := true
        wire := s.wire ++ (line ++ [10])
        unread := s.unread ++ [⟨none, line⟩] }
    else none
  | .reply line => match s.owed with
    | number :: _ =>
      if 10 ∉ line then
        some { s with
          wire := s.wire ++ (line ++ [10])
          unread := s.unread ++ [⟨some number, line⟩]
          answered := s.answered ++ [(number, line)] }
      else none
    | [] => none

def machine : Machine Bench BenchEvent := ⟨step options⟩

/-- Every call that was settled with a result was settled by the controller's reply to its command, and no
call wrote more or less than one command line. -/
structure Correlated (s : Bench) : Prop where
  answered : ∀ task result, (task, .ok result) ∈ s.client.outcomes →
    ∃ line, (task.number, line) ∈ s.answered ∧
      task.call.settle options (lineText (line ++ [10])) = .ok result
  written : ∀ task result, (task, .ok result) ∈ s.client.outcomes →
    task.number ∈ s.client.sent.map Prod.fst
  single : ∀ p ∈ s.client.sent, p.2.count 10 = 1
  once : (s.client.sent.map Prod.fst).Nodup

/-- **The condition**: a call that writes its line has no line feed in its text, and the line that a call
reads is not the welcome line. -/
def Orderly (s : Bench) : BenchEvent → Prop
  | .client (.begin none) => s.client.closed = false → s.client.started = true →
    ∀ task ∈ s.client.queue.head?, task.call.OneLine
  | .client .read => ∀ line ∈ s.unread.head?, line.reply ≠ none
  | _ => True

/-! ## The invariant -/

/-- What holds as long as the condition does: the unread lines are those of the stream, and at most one
reply is to come, to the call under way. -/
structure Sound (s : Bench) : Prop where
  stream : s.client.lineBuffer ++ s.wire = (s.unread.map ControllerLine.bytes).flatMap (· ++ [10])
  lines : ∀ line ∈ s.unread.map ControllerLine.bytes, 10 ∉ line
  labelled : ∀ line ∈ s.unread, ∀ n, line.reply = some n → (n, line.bytes) ∈ s.answered
  bounded : s.answered.length ≤ (commandLines s.client.sent).length
  waiting : ∀ task, s.client.current = some task →
    task.number ∈ s.client.sent.map Prod.fst ∧ (s.due = [] ∨ s.due = [task.number])
  idle : s.client.current = none → s.client.closed = true ∨ s.due = []
  distinct : (s.client.sent.map Prod.fst ++ s.client.queue.map DashboardTask.number).Nodup
  known : ∀ n ∈ s.client.sent.map Prod.fst ++ s.client.queue.map DashboardTask.number, n < s.client.made
  answered : ∀ task result, (task, .ok result) ∈ s.client.outcomes →
    ∃ line, (task.number, line) ∈ s.answered ∧
      task.call.settle options (lineText (line ++ [10])) = .ok result
  written : ∀ task result, (task, .ok result) ∈ s.client.outcomes →
    task.number ∈ s.client.sent.map Prod.fst
  single : ∀ p ∈ s.client.sent, p.2.count 10 = 1

variable {options}

theorem Sound.correlated {s : Bench} (h : s.Sound options) : s.Correlated options :=
  ⟨h.answered, h.written, h.single, (List.nodup_append.mp h.distinct).1⟩

/-! ## What preserves it -/

variable {s : Bench}

/-- A fresh client and a controller that has not said anything. -/
theorem sound_initial : ({} : Bench).Sound options := by
  constructor
  · rfl
  · exact fun _ h => absurd h List.not_mem_nil
  · exact fun _ h => absurd h List.not_mem_nil
  · exact Nat.le_refl 0
  · nofun
  · exact fun _ => .inr rfl
  · exact List.nodup_nil
  · exact fun _ h => absurd h List.not_mem_nil
  · exact fun _ _ h => absurd h List.not_mem_nil
  · exact fun _ _ h => absurd h List.not_mem_nil
  · exact fun _ h => absurd h List.not_mem_nil

/-- The flags of the client do not matter, as long as a closed one stays closed. -/
theorem Sound.flags (h : s.Sound options) (started closed opening reading greeting : Bool)
    (welcome : Option JsString) (diagnostics : List (JsString × JsString))
    (hclosed : s.client.closed = true → closed = true) :
    Sound options { s with client :=
      { s.client with started, closed, opening, reading, greeting, welcome, diagnostics } } := by
  refine ⟨h.stream, h.lines, h.labelled, h.bounded, h.waiting, fun hidle => ?_, h.distinct, h.known,
    h.answered, h.written, h.single⟩
  exact (h.idle hidle).imp_left hclosed

theorem Sound.fail (h : s.Sound options) (task : DashboardTask) (e : DashboardFailure) :
    Sound options { s with client :=
      { s.client with outcomes := s.client.outcomes ++ [(task, .error e)] } } := by
  have hold : ∀ other result, (other, .ok result) ∈ s.client.outcomes ++ [(task, .error e)] →
      (other, .ok result) ∈ s.client.outcomes := by
    intro other result hmem
    rcases List.mem_append.mp hmem with hmem | hmem
    · exact hmem
    · cases List.mem_singleton.mp hmem
  exact ⟨h.stream, h.lines, h.labelled, h.bounded, h.waiting, h.idle, h.distinct, h.known,
    fun other result hmem => h.answered other result (hold other result hmem),
    fun other result hmem => h.written other result (hold other result hmem), h.single⟩

theorem Sound.made (h : s.Sound options) :
    Sound options { s with client := { s.client with made := s.client.made + 1 } } := by
  refine ⟨h.stream, h.lines, h.labelled, h.bounded, h.waiting, h.idle, h.distinct, fun n hn => ?_,
    h.answered, h.written, h.single⟩
  exact Nat.lt_succ_of_lt (h.known n hn)

theorem Sound.queued (h : s.Sound options) {task : DashboardTask} (htask : task.number = s.client.made) :
    Sound options { s with client := { s.client with
      made := s.client.made + 1
      queue := s.client.queue ++ [task] } } := by
  have hnumbers : s.client.sent.map Prod.fst ++ (s.client.queue ++ [task]).map DashboardTask.number =
      (s.client.sent.map Prod.fst ++ s.client.queue.map DashboardTask.number) ++ [s.client.made] := by
    simp [htask]
  refine ⟨h.stream, h.lines, h.labelled, h.bounded, h.waiting, h.idle, ?_, ?_, h.answered, h.written,
    h.single⟩
  · show (s.client.sent.map Prod.fst ++ _).Nodup
    rw [hnumbers, List.nodup_append]
    refine ⟨h.distinct, by simp, fun n hn m hm heq => ?_⟩
    have hlt := h.known n hn
    rw [heq, List.mem_singleton.mp hm] at hlt
    exact absurd hlt (Nat.lt_irrefl _)
  · intro n hn
    have hn : n ∈ s.client.sent.map Prod.fst ++
        (s.client.queue ++ [task]).map DashboardTask.number := hn
    rw [hnumbers] at hn
    rcases List.mem_append.mp hn with hn | hn
    · exact Nat.lt_succ_of_lt (h.known n hn)
    · rw [List.mem_singleton.mp hn]
      exact Nat.lt_succ_self _

theorem Sound.pop (h : s.Sound options) {task : DashboardTask} {queue : List DashboardTask}
    (hqueue : s.client.queue = task :: queue) :
    Sound options { s with client := { s.client with queue := queue } } := by
  have hsub : (s.client.sent.map Prod.fst ++ queue.map DashboardTask.number).Sublist
      (s.client.sent.map Prod.fst ++ s.client.queue.map DashboardTask.number) := by
    rw [hqueue]
    exact (List.Sublist.refl _).append (List.sublist_cons_self _ _)
  exact ⟨h.stream, h.lines, h.labelled, h.bounded, h.waiting, h.idle, h.distinct.sublist hsub,
    fun n hn => h.known n (hsub.subset hn), h.answered, h.written, h.single⟩

theorem count_encodeUtf8 {text : JsString} (h : lineFeed ∉ text) :
    (encodeUtf8 (text ++ [lineFeed])).count 10 = 1 := by
  have hnot : lineFeed.toNat.toUInt8 ∉ encodeUtf8 text := toUInt8_notMem_encodeUtf8 (by decide) h
  rw [encodeUtf8_append_basic text (by decide), List.count_append,
    List.count_eq_zero.mpr (show (10 : UInt8) ∉ encodeUtf8 text from hnot)]
  rfl

/-- **A call writes its line**: the one reply to come is the reply to it. -/
theorem Sound.send (h : s.Sound options) {task : DashboardTask} {queue : List DashboardTask}
    (hqueue : s.client.queue = task :: queue) (hidle : s.client.current = none)
    (hopen : s.client.closed = false) (hline : task.call.OneLine) :
    Sound options { s with client := { s.client with
      queue := queue
      current := some task
      sent := s.client.sent ++ [(task.number, encodeUtf8 (task.call.text ++ [lineFeed]))] } } := by
  have hsingle := count_encodeUtf8 hline.lineFeed_notMem_text
  have hcommands : commandLines
      (s.client.sent ++ [(task.number, encodeUtf8 (task.call.text ++ [lineFeed]))]) =
      commandLines s.client.sent ++ [task.number] := by
    simp [commandLines, hsingle]
  have hnone : s.due = [] := (h.idle hidle).resolve_left (by simp [hopen])
  obtain ⟨hunread, howed⟩ := List.append_eq_nil_iff.mp hnone
  have hnumbers : (s.client.sent ++ [(task.number, encodeUtf8 (task.call.text ++ [lineFeed]))]).map
      Prod.fst ++ queue.map DashboardTask.number =
      s.client.sent.map Prod.fst ++ s.client.queue.map DashboardTask.number := by
    rw [hqueue]
    simp
  constructor
  · exact h.stream
  · exact h.lines
  · exact h.labelled
  · show _ ≤ (commandLines (s.client.sent ++ [_])).length
    rw [hcommands, List.length_append]
    exact Nat.le_add_right_of_le h.bounded
  · intro task' htask'
    obtain rfl := Option.some.inj htask'
    refine ⟨by simp, .inr ?_⟩
    show s.unread.filterMap ControllerLine.reply ++
      (commandLines (s.client.sent ++ [_])).drop s.answered.length = _
    rw [hcommands, hunread, List.drop_append_of_le_length h.bounded]
    exact congrArg (· ++ [task.number]) howed
  · nofun
  · show (_ ++ _ : List Nat).Nodup
    rw [hnumbers]
    exact h.distinct
  · intro n hn
    refine h.known n ?_
    rw [← hnumbers]
    exact hn
  · exact h.answered
  · intro other result hmem
    have hsent := h.written other result hmem
    rw [List.map_append]
    exact List.mem_append_left _ hsent
  · intro p hp
    rcases List.mem_append.mp hp with hp | hp
    · exact h.single p hp
    · rw [List.mem_singleton.mp hp]
      exact hsingle

theorem Sound.exists_unread (h : s.Sound options) {raw rest : List UInt8}
    (hnext : nextLine? s.client.lineBuffer = some (raw, rest)) :
    ∃ line lines, s.unread = line :: lines ∧ line.bytes = raw ∧
      rest ++ s.wire = (lines.map ControllerLine.bytes).flatMap (· ++ [10]) := by
  obtain ⟨bytes, hlines, hrest⟩ := eq_cons_of_nextLine? h.lines h.stream hnext
  obtain ⟨line, lines, hunread, hraw, hbytes⟩ := List.map_eq_cons_iff.mp hlines
  refine ⟨line, lines, hunread, hraw, ?_⟩
  rw [hbytes]
  exact hrest

theorem due_of_unread {line : ControllerLine} {lines : List ControllerLine}
    (hunread : s.unread = line :: lines) (client : DashboardClient)
    (hsent : client.sent = s.client.sent) :
    s.due = line.reply.toList ++ due { s with client, unread := lines } := by
  have howed : owed { s with client, unread := lines } = s.owed := by
    show (commandLines client.sent).drop _ = _
    rw [hsent]
    rfl
  rw [due, due, howed, hunread, ← List.append_assoc]
  cases hreply : line.reply <;> simp [hreply]

/-- **The call under way reads a line**, which is the reply to it. -/
theorem Sound.read (h : s.Sound options) {task : DashboardTask} {raw rest : List UInt8}
    (hcurrent : s.client.current = some task) (hnext : nextLine? s.client.lineBuffer = some (raw, rest))
    (horderly : ∀ line ∈ s.unread.head?, line.reply ≠ none) :
    Sound options { s with
      client := { s.client with
        lineBuffer := rest
        current := none
        outcomes := s.client.outcomes ++
          [(task, task.call.settle options (lineText (raw ++ [10])))] }
      unread := s.unread.tail } := by
  obtain ⟨line, lines, hunread, rfl, hstream⟩ := h.exists_unread hnext
  obtain ⟨hwritten, hdue⟩ := h.waiting task hcurrent
  obtain ⟨number, hreply⟩ : ∃ number, line.reply = some number :=
    Option.ne_none_iff_exists'.mp (horderly line (by rw [hunread]; rfl))
  rw [hunread]
  have hsplit := due_of_unread hunread
    { s.client with lineBuffer := rest, current := none, outcomes := s.client.outcomes ++
        [(task, task.call.settle options (lineText (line.bytes ++ [10])))] } rfl
  rw [hreply] at hsplit
  obtain ⟨rfl, hnone⟩ : number = task.number ∧ _ = [] := by
    rcases hdue with hdue | hdue
    · rw [hdue] at hsplit
      cases hsplit
    · rw [hdue] at hsplit
      exact ⟨(List.cons.inj hsplit).1.symm, (List.cons.inj hsplit).2.symm⟩
  have hanswered : (task.number, line.bytes) ∈ s.answered :=
    h.labelled line (by rw [hunread]; exact List.mem_cons_self) task.number hreply
  constructor
  · exact hstream
  · intro l hl
    refine h.lines l ?_
    rw [hunread]
    exact List.mem_cons_of_mem line.bytes hl
  · intro l hl
    refine h.labelled l ?_
    rw [hunread]
    exact List.mem_cons_of_mem line hl
  · exact h.bounded
  · nofun
  · exact fun _ => .inr hnone
  · exact h.distinct
  · exact h.known
  · intro other result hmem
    rcases List.mem_append.mp hmem with hmem | hmem
    · exact h.answered other result hmem
    · obtain ⟨rfl, hresult⟩ := Prod.mk.inj (List.mem_singleton.mp hmem)
      exact ⟨line.bytes, hanswered, hresult.symm⟩
  · intro other result hmem
    rcases List.mem_append.mp hmem with hmem | hmem
    · exact h.written other result hmem
    · obtain ⟨rfl, -⟩ := Prod.mk.inj (List.mem_singleton.mp hmem)
      exact hwritten
  · exact h.single

/-- `start` reads a line, be it the welcome line or a reply. -/
theorem Sound.readWelcome (h : s.Sound options) {raw rest : List UInt8}
    (hnext : nextLine? s.client.lineBuffer = some (raw, rest)) (welcome : Option JsString) :
    Sound options { s with
      client := { s.client with lineBuffer := rest, greeting := false, welcome }
      unread := s.unread.tail } := by
  obtain ⟨line, lines, hunread, rfl, hstream⟩ := h.exists_unread hnext
  rw [hunread]
  have hsplit := due_of_unread hunread
    { s.client with lineBuffer := rest, greeting := false, welcome } rfl
  constructor
  · exact hstream
  · intro l hl
    refine h.lines l ?_
    rw [hunread]
    exact List.mem_cons_of_mem line.bytes hl
  · intro l hl
    refine h.labelled l ?_
    rw [hunread]
    exact List.mem_cons_of_mem line hl
  · exact h.bounded
  · intro task htask
    obtain ⟨hwritten, hdue⟩ := h.waiting task htask
    refine ⟨hwritten, ?_⟩
    rcases hdue with hdue | hdue
    · rw [hdue] at hsplit
      exact .inl (List.append_eq_nil_iff.mp hsplit.symm).2
    · rw [hdue] at hsplit
      cases hreply : line.reply with
      | none =>
        rw [hreply] at hsplit
        exact .inr hsplit.symm
      | some number =>
        rw [hreply] at hsplit
        exact .inl (List.cons.inj hsplit).2.symm
  · intro hidle
    refine (h.idle hidle).imp_right fun hdue => ?_
    rw [hdue] at hsplit
    exact (List.append_eq_nil_iff.mp hsplit.symm).2
  · exact h.distinct
  · exact h.known
  · exact h.answered
  · exact h.written
  · exact h.single

/-- The call under way gives up, and the client is closed. -/
theorem Sound.giveUp (h : s.Sound options) (task : DashboardTask) (e : DashboardFailure) {closed : Bool}
    (hclosed : closed = true) :
    Sound options { s with client := { s.client with
      closed
      current := none
      outcomes := s.client.outcomes ++ [(task, .error e)] } } := by
  have hfail := h.fail task e
  exact ⟨h.stream, h.lines, h.labelled, h.bounded, nofun, fun _ => .inl hclosed, h.distinct, h.known,
    hfail.answered, hfail.written, h.single⟩

theorem Sound.deliver (h : s.Sound options) (count : Nat) :
    Sound options { s with
      client := { s.client with lineBuffer := s.client.lineBuffer ++ s.wire.take count }
      wire := s.wire.drop count } := by
  refine ⟨?_, h.lines, h.labelled, h.bounded, h.waiting, h.idle, h.distinct, h.known, h.answered,
    h.written, h.single⟩
  show s.client.lineBuffer ++ s.wire.take count ++ s.wire.drop count = _
  rw [List.append_assoc, List.take_append_drop]
  exact h.stream

theorem Sound.greet (h : s.Sound options) {line : List UInt8} (hline : 10 ∉ line) :
    Sound options { s with
      greeted := true
      wire := s.wire ++ (line ++ [10])
      unread := s.unread ++ [⟨none, line⟩] } := by
  have hdue : due { s with
      greeted := true, wire := s.wire ++ (line ++ [10]), unread := s.unread ++ [⟨none, line⟩] } = s.due := by
    show (s.unread ++ [(⟨none, line⟩ : ControllerLine)]).filterMap ControllerLine.reply ++ s.owed = _
    rw [List.filterMap_append]
    exact congrArg (· ++ s.owed) (List.append_nil _)
  refine ⟨?_, ?_, ?_, h.bounded, fun task htask => ?_, fun hidle => ?_, h.distinct, h.known, h.answered,
    h.written, h.single⟩
  · show s.client.lineBuffer ++ (s.wire ++ (line ++ [10])) = _
    rw [← List.append_assoc, h.stream]
    simp
  · intro l hl
    rw [List.map_append] at hl
    rcases List.mem_append.mp hl with hl | hl
    · exact h.lines l hl
    · rw [List.mem_singleton.mp hl]
      exact hline
  · intro l hl n hn
    rcases List.mem_append.mp hl with hl | hl
    · exact h.labelled l hl n hn
    · rw [List.mem_singleton.mp hl] at hn
      cases hn
  · rw [hdue]
    exact h.waiting task htask
  · rw [hdue]
    exact h.idle hidle

theorem Sound.reply (h : s.Sound options) {number : Nat} {owed : List Nat}
    (howed : s.owed = number :: owed) {line : List UInt8} (hline : 10 ∉ line) :
    Sound options { s with
      wire := s.wire ++ (line ++ [10])
      unread := s.unread ++ [⟨some number, line⟩]
      answered := s.answered ++ [(number, line)] } := by
  have hlater : (commandLines s.client.sent).drop (s.answered.length + 1) = owed := by
    rw [← List.drop_drop, show (commandLines s.client.sent).drop s.answered.length = _ from howed]
    rfl
  have hdue : due { s with
      wire := s.wire ++ (line ++ [10])
      unread := s.unread ++ [⟨some number, line⟩]
      answered := s.answered ++ [(number, line)] } = s.due := by
    show (s.unread ++ [(⟨some number, line⟩ : ControllerLine)]).filterMap ControllerLine.reply ++
      (commandLines s.client.sent).drop (s.answered ++ [(number, line)]).length = _
    rw [List.length_append, List.length_singleton, hlater, due, howed, List.filterMap_append]
    simp
  refine ⟨?_, ?_, ?_, ?_, fun task htask => ?_, fun hidle => ?_, h.distinct, h.known, ?_, h.written,
    h.single⟩
  · show s.client.lineBuffer ++ (s.wire ++ (line ++ [10])) = _
    rw [← List.append_assoc, h.stream]
    simp
  · intro l hl
    rw [List.map_append] at hl
    rcases List.mem_append.mp hl with hl | hl
    · exact h.lines l hl
    · rw [List.mem_singleton.mp hl]
      exact hline
  · intro l hl n hn
    rcases List.mem_append.mp hl with hl | hl
    · exact List.mem_append_left _ (h.labelled l hl n hn)
    · rw [List.mem_singleton.mp hl] at hn ⊢
      obtain rfl := Option.some.inj hn
      exact List.mem_append_right _ (List.mem_singleton.mpr rfl)
  · have hlength := congrArg List.length howed
    rw [Bench.owed, List.length_drop, List.length_cons] at hlength
    show (s.answered ++ [(number, line)]).length ≤ (commandLines s.client.sent).length
    rw [List.length_append, List.length_singleton]
    omega
  · rw [hdue]
    exact h.waiting task htask
  · rw [hdue]
    exact h.idle hidle
  · intro task result hmem
    obtain ⟨bytes, hbytes, hresult⟩ := h.answered task result hmem
    exact ⟨bytes, List.mem_append_left _ hbytes, hresult⟩

/-! ## Runs -/

/-- An event of the client that does not take a line leaves the rest of the bench as it is. -/
theorem step_client {event : DashboardEvent} {t : Bench} (h : s.step options (.client event) = some t) :
    event.isChunk = false ∧ ∃ client, s.client.step options event = some client ∧
      t = { s with client, unread := if event.takesLine then s.unread.tail else s.unread } := by
  rw [step] at h
  split at h
  · cases h
  · next hchunk =>
    obtain ⟨client, hclient, rfl⟩ := Option.map_eq_some_iff.mp h
    exact ⟨by simpa using hchunk, client, hclient, rfl⟩

/-- **A client event** that meets the condition keeps the invariant. -/
theorem Sound.client (h : s.Sound options) {event : DashboardEvent} (horderly : s.Orderly (.client event))
    {t : Bench} (hstep : s.step options (.client event) = some t) : t.Sound options := by
  obtain ⟨hchunk, client, hclient, rfl⟩ := step_client hstep
  cases event with
  | start =>
    rw [DashboardClient.step] at hclient
    split at hclient
    · obtain rfl := Option.some.inj hclient
      exact h
    · obtain rfl := Option.some.inj hclient
      exact h.flags true _ true _ _ _ _ id
  | opened =>
    rw [DashboardClient.step] at hclient
    split at hclient
    · obtain rfl := Option.some.inj hclient
      exact h.flags _ _ false true _ _ _ id
    · cases hclient
  | openFailed =>
    rw [DashboardClient.step] at hclient
    split at hclient
    · obtain rfl := Option.some.inj hclient
      exact h.flags _ _ false _ _ _ _ id
    · cases hclient
  | call call =>
    obtain rfl := Option.some.inj hclient
    rcases s.client.enqueue_cases call with ⟨e, he⟩ | hqueued
    · rw [he]
      exact h.made.fail ⟨s.client.made, call⟩ e
    · rw [hqueued]
      exact h.queued rfl
  | begin refused =>
    rw [DashboardClient.step] at hclient
    split at hclient
    · next task queue hcurrent hqueue =>
      obtain rfl := Option.some.inj hclient
      rcases DashboardClient.sendTask_cases { s.client with queue := queue } task refused with
        ⟨e, he⟩ | ⟨hopen, hstarted, rfl, hsent⟩
      · rw [he]
        exact (h.pop hqueue).fail task e
      · rw [hsent]
        exact h.send hqueue hcurrent hopen (horderly hopen hstarted task (by rw [hqueue]; rfl))
    · cases hclient
  | read =>
    rw [DashboardClient.step] at hclient
    split at hclient
    · next task raw rest hcurrent hnext =>
      obtain rfl := Option.some.inj hclient
      exact h.read hcurrent hnext horderly
    · cases hclient
  | expire =>
    rw [DashboardClient.step] at hclient
    split at hclient
    · split at hclient
      · cases hclient
      · obtain rfl := Option.some.inj hclient
        exact h.giveUp _ _ rfl
    · cases hclient
  | observeClosed =>
    rw [DashboardClient.step] at hclient
    split at hclient
    · split at hclient
      · next hclosed =>
        obtain rfl := Option.some.inj hclient
        exact h.giveUp _ _ hclosed
      · cases hclient
    · cases hclient
  | readWelcome =>
    rw [DashboardClient.step] at hclient
    split at hclient
    · next raw rest hgreeting hnext =>
      obtain rfl := Option.some.inj hclient
      exact h.readWelcome hnext _
    · cases hclient
  | expireWelcome =>
    rw [DashboardClient.step] at hclient
    split at hclient
    · split at hclient
      · cases hclient
      · obtain rfl := Option.some.inj hclient
        exact h.flags _ _ _ _ false _ _ id
    · cases hclient
  | observeClosedWelcome =>
    rw [DashboardClient.step] at hclient
    split at hclient
    · split at hclient
      · obtain rfl := Option.some.inj hclient
        exact h.flags _ _ _ _ false _ _ id
      · cases hclient
    · cases hclient
  | chunk bytes => cases hchunk
  | streamEnded =>
    rw [DashboardClient.step] at hclient
    split at hclient
    · obtain rfl := Option.some.inj hclient
      exact h.flags _ true _ false _ _ _ fun _ => rfl
    · cases hclient
  | close =>
    obtain rfl := Option.some.inj hclient
    exact h.flags _ true _ _ _ _ _ fun _ => rfl

/-- **Step lemma.** An event that meets the condition keeps the invariant. -/
theorem Sound.step (h : s.Sound options) {event : BenchEvent} (horderly : s.Orderly event) {t : Bench}
    (hstep : s.step options event = some t) : t.Sound options := by
  cases event with
  | client event => exact h.client horderly hstep
  | deliver count =>
    rw [Bench.step] at hstep
    obtain ⟨client, hclient, rfl⟩ := Option.map_eq_some_iff.mp hstep
    rw [DashboardClient.step] at hclient
    split at hclient
    · obtain rfl := Option.some.inj hclient
      obtain ⟨closed, reading, diagnostics, hclosed, hconsume⟩ :=
        s.client.consume_cases (s.wire.take count)
      rw [hconsume]
      exact (h.deliver count).flags _ closed _ reading _ _ diagnostics hclosed
    · cases hclient
  | greet line =>
    rw [Bench.step] at hstep
    split at hstep
    · next hgreet =>
      obtain rfl := Option.some.inj hstep
      exact h.greet hgreet.2.2
    · cases hstep
  | reply line =>
    rw [Bench.step] at hstep
    split at hstep
    · next number owed howed =>
      split at hstep
      · next hline =>
        obtain rfl := Option.some.inj hstep
        exact h.reply howed hline
      · cases hstep
    · cases hstep

/-- The condition can be evaluated. -/
instance (s : Bench) (event : BenchEvent) : Decidable (s.Orderly event) :=
  match event with
  | .client (.begin none) => inferInstanceAs (Decidable (s.client.closed = false →
    s.client.started = true → ∀ task ∈ s.client.queue.head?, task.call.OneLine))
  | .client .read => inferInstanceAs (Decidable (∀ line ∈ s.unread.head?, line.reply ≠ none))
  | .client (.begin (some _)) | .client .start | .client .opened | .client .openFailed
  | .client (.call _) | .client .expire | .client .observeClosed | .client .readWelcome
  | .client .expireWelcome | .client .observeClosedWelcome | .client (.chunk _) | .client .streamEnded
  | .client .close | .deliver _ | .greet _ | .reply _ => isTrue trivial

/-- **Every call that resolves does so with the reply to its command**, and writes one command line, in
every run in which no call that begins has a line feed in its text and none reads the welcome line. -/
theorem correlated_of_orderly {events : List BenchEvent} {s : Bench}
    (horderly : (machine options).Guarded Orderly {} events)
    (hrun : (machine options).run {} events = some s) : s.Correlated options := by
  have hsound : s.Sound options :=
    Machine.run_guarded_invariant (I := Sound options)
      (fun _ _ _ h hevent hstep => Sound.step h hevent hstep) sound_initial horderly hrun
  exact hsound.correlated

/-- A run with two calls one behind the other, after a welcome line. -/
def greetedRun : List BenchEvent :=
  [.client .start, .client .opened, .greet [72], .deliver 2, .client .readWelcome,
    .client (.call (.command [97])), .client (.call (.loadProgram [98])), .client (.begin none),
    .reply [49, 50], .deliver 1, .deliver 2, .client .read, .client (.begin none), .reply [51],
    .deliver 2, .client .read]

theorem correlated_of_orderly_greeted :
    ∃ s, (machine {}).run {} greetedRun = some s ∧ s.client.outcomes.length = 2 ∧
      s.Correlated {} := by
  have hrun : ((machine {}).run {} greetedRun).isSome = true := by decide +kernel
  obtain ⟨s, hs⟩ := Option.isSome_iff_exists.mp hrun
  have hlength : ((machine {}).run {} greetedRun).map (·.client.outcomes.length) = some 2 := by
    decide +kernel
  rw [hs] at hlength
  exact ⟨s, hs, Option.some.inj hlength, correlated_of_orderly (by decide +kernel) hs⟩

/-- A welcome line that comes after `start` has given up on it, and then two calls. -/
def lateWelcomeRun : List BenchEvent :=
  [.client .start, .client .opened, .client .expireWelcome, .greet [72],
    .client (.call (.command [97])), .client (.call (.command [98])), .client (.begin none), .reply [49],
    .deliver 4, .client .read, .client (.begin none), .reply [50], .deliver 2, .client .read]

/-- Two calls, the first of which has a line feed in its text. -/
def twoLinesRun : List BenchEvent :=
  [.client .start, .client .opened, .client .expireWelcome, .client (.call (.command [97, 10, 98])),
    .client (.call (.command [99])), .client (.begin none), .reply [49], .reply [50], .deliver 4,
    .client .read, .client (.begin none), .client .read]

def texts (s : Bench) : List (Nat × JsString) :=
  s.client.outcomes.filterMap fun p => match p.2 with
    | .ok (.text reply) => some (p.1.number, reply)
    | _ => none

/-- On a bench with the property, a text that a call resolved with is a reply to its command. -/
theorem Correlated.exists_answered {s : Bench} (h : s.Correlated options) {number : Nat} {reply : JsString}
    (hreply : (number, reply) ∈ s.texts) :
    ∃ line, (number, line) ∈ s.answered ∧ lineText (line ++ [10]) = reply := by
  obtain ⟨⟨task, result⟩, hmem, hresult⟩ := List.mem_filterMap.mp hreply
  dsimp only at hresult
  split at hresult
  · next text =>
    obtain ⟨rfl, rfl⟩ := Prod.mk.inj (Option.some.inj hresult)
    obtain ⟨line, hline, hsettle⟩ := h.answered task _ hmem
    exact ⟨line, hline, (DashboardCall.eq_of_settle hsettle).symm⟩
  · cases hresult

/-- **Not every run is correlated**: after a late welcome line the second call resolves with the reply to
the first, and after a text of two lines the next call resolves with the reply to its second line. -/
theorem not_correlated_of_stray_line :
    (∃ s, (machine {}).run {} lateWelcomeRun = some s ∧
      s.texts = [(0, [72]), (1, [49])] ∧ s.answered = [(0, [49]), (1, [50])] ∧ ¬ s.Correlated {}) ∧
    ∃ s, (machine {}).run {} twoLinesRun = some s ∧
      s.texts = [(0, [49]), (1, [50])] ∧ s.answered = [(0, [49]), (0, [50])] ∧ ¬ s.Correlated {} := by
  have hlate : ((machine {}).run {} lateWelcomeRun).map (fun s => (s.texts, s.answered)) =
      some ([(0, [72]), (1, [49])], [(0, [49]), (1, [50])]) := by decide +kernel
  have hlines : ((machine {}).run {} twoLinesRun).map (fun s => (s.texts, s.answered)) =
      some ([(0, [49]), (1, [50])], [(0, [49]), (0, [50])]) := by decide +kernel
  constructor
  · obtain ⟨s, hs, heq⟩ := Option.map_eq_some_iff.mp hlate
    obtain ⟨htexts, hanswered⟩ := Prod.mk.inj heq
    refine ⟨s, hs, htexts, hanswered, fun h => ?_⟩
    obtain ⟨line, hline, htext⟩ := h.exists_answered (show (1, [49]) ∈ s.texts by rw [htexts]; decide)
    rw [hanswered] at hline
    obtain rfl : line = [50] := by simpa using hline
    exact absurd htext (by decide +kernel)
  · obtain ⟨s, hs, heq⟩ := Option.map_eq_some_iff.mp hlines
    obtain ⟨htexts, hanswered⟩ := Prod.mk.inj heq
    refine ⟨s, hs, htexts, hanswered, fun h => ?_⟩
    obtain ⟨line, hline, -⟩ := h.exists_answered (show (1, [50]) ∈ s.texts by rw [htexts]; decide)
    rw [hanswered] at hline
    simp at hline

end Bench

end Pinout.Ur
