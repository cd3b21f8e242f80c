import Pinout.Errors
import Pinout.Foundation.Entries
import Pinout.Foundation.Machine
import Pinout.Protocol.LineReader

/-! # The GRBL client

`GrblClient` (`packages/protocols-grbl/src/grblClient.ts`): requests are queued behind one another; the one
under way writes its text and then takes complete lines from a buffer that all requests share, until a line
settles it. What happens to a client between two points where it waits is one *event*; a request that reads
several lines in a row does so in as many events. The number of a request is its place in the order in
which requests were made, and numbers that are written into a command are given as their text. -/

namespace Pinout.Grbl

open Foundation Protocol

/-! ## Errors -/

inductive GrblFailure
  /-- `new GrblError(grblErrorCode, message)`; the code may not be a number. -/
  | grblError (grblErrorCode : Option Int) (message : JsString)
  | grblStatusError (code message : JsString)
  | thrown (e : Thrown)

/-- Whether a line of the controller makes a request reject with an error. -/
def GrblFailure.ofLine : GrblFailure → Bool
  | grblError _ _ => true
  | grblStatusError code _ => code = js "GRBL_ALARM"
  | thrown _ => false

/-- `Number.parseInt(text, 10)`, when that is a number. -/
def parseInt (text : JsString) : Option Int :=
  let text := text.dropWhile isWhiteSpace
  let negative := text.head? = some 45
  let digits := (if negative ∨ text.head? = some 43 then text.tail else text).takeWhile isDigit
  if digits = [] then none
  else some (if negative then -(parseDecimal digits : Int) else parseDecimal digits)

def numberText : Option Int → JsString
  | none => js "NaN"
  | some n => if n < 0 then js "-" ++ decimal n.natAbs else decimal n.natAbs

def grblErrorMessages : Option Int → Option JsString
  | some 1 => some (js "G-code words consist of a letter and a value; the letter was not found.")
  | some 8 => some (js "Tool number greater than max supported.")
  | some 9 => some (js "Trailing characters found in command.")
  | some 20 => some (js "Unsupported or invalid g-code command.")
  | some 22 => some (js "Feed rate not set (G1/G2/G3 require F).")
  | some 33 => some (js "Motion target exceeds machine travel (soft limits).")
  | _ => none

/-- The error of an `error:` line, with the message for a code that has none. -/
def errorOf (line : JsString) (fallback : Option Int → JsString) : GrblFailure :=
  let code := parseInt (line.drop 6)
  .grblError code ((grblErrorMessages code).getD (fallback code))

/-! ## Calls -/

/-- A position in millimeters; a number is given as its text. -/
structure GrblPosition where
  x : Option JsString := none
  y : Option JsString := none
  z : Option JsString := none

/-- `Number.isFinite`, of a number that is given as its text. -/
def isFinite (number : JsString) : Bool :=
  number ≠ js "NaN" ∧ number ≠ js "Infinity" ∧ number ≠ js "-Infinity"

/-- `number <= 0`, of a finite number that is given as its text. -/
def isNonPositive (number : JsString) : Bool := number = js "0" ∨ number.head? = some 45

/-- The loop of `buildMove` over the axes. -/
def buildAxes : List (JsString × JsString × Option JsString) → Except GrblFailure (List JsString)
  | [] => .ok []
  | (_, _, none) :: axes => buildAxes axes
  | (axis, letter, some value) :: axes =>
    if isFinite value then (buildAxes axes).map ((letter ++ value) :: ·)
    else .error (.grblStatusError (js "GRBL_INVALID_POSITION")
      (js "Axis " ++ axis ++ js " must be a finite number of millimeters."))

def buildMove (code : JsString) (position : GrblPosition) : Except GrblFailure JsString :=
  match buildAxes [(js "x", js "X", position.x), (js "y", js "Y", position.y),
      (js "z", js "Z", position.z)] with
  | .error e => .error e
  | .ok [] => .error (.grblStatusError (js "GRBL_INVALID_POSITION")
      (js "At least one axis (x/y/z) in millimeters is required."))
  | .ok (axis :: axes) =>
    .ok (js "G21 G90 G94 " ++ code ++ js " " ++ axis ++ axes.flatMap (js " " ++ ·))

inductive GrblCall
  | status
  | home
  | rapidMove (position : GrblPosition)
  | feedMove (position : GrblPosition) (feedMmPerMin : JsString)
  | parserState

namespace GrblCall

/-- What a call writes, or the error with which it rejects at once. -/
def text : GrblCall → Except GrblFailure JsString
  | status => .ok (js "?")
  | home => .ok (js "$H\n")
  | rapidMove position => (buildMove (js "G0") position).map (· ++ js "\n")
  | feedMove position feedMmPerMin =>
    if ¬ isFinite feedMmPerMin ∨ isNonPositive feedMmPerMin then
      .error (.grblStatusError (js "GRBL_INVALID_FEED")
        (js "Feed rate must be a positive number of mm/min, received " ++ feedMmPerMin ++ js "."))
    else (buildMove (js "G1") position).map fun move => move ++ js " F" ++ feedMmPerMin ++ js "\n"
  | parserState => .ok (js "$G\n")

/-- The default of `timeoutMs`. -/
def defaultTimeoutMs : GrblCall → Nat
  | status | parserState => 5000
  | home | rapidMove _ => 30000
  | feedMove _ _ => 60000

theorem ofLine_of_buildMove {code : JsString} {position : GrblPosition} {e : GrblFailure}
    (h : buildMove code position = .error e) : e.ofLine = false := by
  have haxes : ∀ axes e, buildAxes axes = .error e → e.ofLine = false := by
    intro axes
    induction axes with
    | nil => nofun
    | cons axis axes ih =>
      intro e he
      obtain ⟨axis, letter, value⟩ := axis
      cases value with
      | none => exact ih e he
      | some value =>
        rw [buildAxes] at he
        split at he
        · cases haxes : buildAxes axes with
          | error e' =>
            rw [haxes] at he
            obtain rfl := Except.error.inj he
            exact ih _ haxes
          | ok axes' =>
            rw [haxes] at he
            cases he
        · obtain rfl := Except.error.inj he
          rfl
  rw [buildMove] at h
  split at h
  · next e' he =>
    obtain rfl := Except.error.inj h
    exact haxes _ _ he
  · obtain rfl := Except.error.inj h
    rfl
  · cases h

theorem ofLine_of_text {call : GrblCall} {e : GrblFailure} (h : call.text = .error e) :
    e.ofLine = false := by
  have hmove : ∀ code position (f : JsString → JsString), (buildMove code position).map f = .error e →
      e.ofLine = false := by
    intro code position f hf
    cases hmove : buildMove code position with
    | error e' =>
      rw [hmove] at hf
      obtain rfl := Except.error.inj hf
      exact ofLine_of_buildMove hmove
    | ok move =>
      rw [hmove] at hf
      cases hf
  cases call with
  | status => cases h
  | home => cases h
  | rapidMove position => exact hmove _ _ _ h
  | feedMove position feedMmPerMin =>
    rw [text] at h
    split at h
    · obtain rfl := Except.error.inj h
      rfl
    · exact hmove _ _ _ h
  | parserState => cases h

end GrblCall

/-! ## Requests -/

/-- `GrblMachineStatus`, without the positions. -/
structure GrblMachineStatus where
  state : JsString
  raw : JsString
  deriving DecidableEq

/-- `parseStatusLine`, without the positions. -/
def parseStatusLine (line : JsString) : GrblMachineStatus where
  state := ((line.drop 1).dropLast).takeWhile (· ≠ 124)
  raw := line

inductive GrblResult
  | done
  | status (status : GrblMachineStatus)
  | parserState (text : JsString)
  deriving DecidableEq

structure GrblRequest where
  call : GrblCall
  timeoutMs : Nat
  text : JsString := []
  /-- The line `parserState` took before it waits for its `ok`. -/
  report : Option JsString := none
  outcome : Option (Except GrblFailure GrblResult) := none

namespace GrblRequest

/-- The predicate of the `waitForLine` that runs. -/
def predicate (r : GrblRequest) (candidate : JsString) : Bool :=
  match r.call, r.report with
  | .status, _ => (js "<").isPrefixOf candidate && (js ">").isSuffixOf candidate
  | .parserState, none => (js "[GC:").isPrefixOf candidate
  | _, _ => candidate = js "ok" || (js "error:").isPrefixOf candidate

def fail (e : GrblFailure) (r : GrblRequest) : GrblRequest := { r with outcome := some (.error e) }

/-- `expectOk`, with what the task returns after it. -/
def expectOk (result : GrblResult) (line : JsString) (r : GrblRequest) : GrblRequest :=
  if (js "error:").isPrefixOf line then
    r.fail (errorOf line fun code => js "GRBL error " ++ numberText code)
  else { r with outcome := some (.ok result) }

/-- A task goes on with the line that `waitForLine` returned. -/
def accept (line : JsString) (r : GrblRequest) : GrblRequest :=
  match r.call, r.report with
  | .status, _ => { r with outcome := some (.ok (.status (parseStatusLine line))) }
  | .parserState, none => { r with report := some line }
  | .parserState, some report => r.expectOk (.parserState (report.drop 4).dropLast) line
  | _, _ => r.expectOk .done line

/-- A line in the loop of `waitForLine`. -/
def hear (line : JsString) (r : GrblRequest) : GrblRequest :=
  if (js "ALARM:").isPrefixOf line then r.fail (.grblStatusError (js "GRBL_ALARM") line)
  else if (js "error:").isPrefixOf line && !r.predicate line then r.fail (errorOf line fun _ => line)
  else if line ≠ [] && r.predicate line then r.accept line
  else r

/-- Whether a line ends the `waitForLine` that runs. -/
def heeds (r : GrblRequest) (line : JsString) : Bool :=
  (js "ALARM:").isPrefixOf line || (js "error:").isPrefixOf line || (line ≠ [] && r.predicate line)

variable {r : GrblRequest} {line : JsString}

theorem hear_of_not_heeds (h : r.heeds line = false) : r.hear line = r := by
  simp only [heeds, Bool.or_eq_false_iff] at h
  obtain ⟨⟨halarm, herror⟩, haccept⟩ := h
  rw [hear, if_neg (by simp [halarm]), if_neg (by simp [herror]), if_neg (by rw [haccept]; nofun)]

@[simp] theorem call_fail (e : GrblFailure) : (r.fail e).call = r.call := rfl

@[simp] theorem call_expectOk (result : GrblResult) : (r.expectOk result line).call = r.call := by
  rw [expectOk]
  split <;> rfl

@[simp] theorem call_accept : (r.accept line).call = r.call := by
  rw [accept]
  split
  · rfl
  · rfl
  · exact call_expectOk _
  · exact call_expectOk _

@[simp] theorem call_hear : (r.hear line).call = r.call := by
  rw [hear]
  split
  · rfl
  · split
    · rfl
    · split
      · exact call_accept
      · rfl

end GrblRequest

/-! ## The client -/

/-- `GrblClient`, with the requests made on it and the texts it wrote to the transport. -/
structure GrblClient where
  started : Bool := false
  closed : Bool := false
  reading : Bool := false
  lineBuffer : List UInt8 := []
  queue : List Nat := []
  current : Option Nat := none
  /-- Whether the transport has taken the text of the task under way. -/
  written : Bool := false
  requests : List GrblRequest := []
  /-- What was written to the transport, and for which request. -/
  sent : List (Option Nat × List UInt8) := []

inductive GrblEvent
  | opened
  | openFailed
  | request (call : GrblCall) (timeoutMs : Option Nat)
  | begin
  | written
  | writeFailed (e : Thrown)
  | read
  | expire (closing : Option Thrown)
  | observeClosed
  | feedHold
  | softReset
  | streamEnded
  | close

namespace GrblClient

/-- A task goes on; when it ends, the next may begin. -/
def update (c : GrblClient) (number : Nat) (f : GrblRequest → GrblRequest) : GrblClient :=
  { c with
    requests := c.requests.modify number f
    current := match c.requests[number]? with
      | some r => if (f r).outcome.isSome then none else c.current
      | none => c.current }

/-- A request is made; one with a text waits in the queue. -/
def request (c : GrblClient) (call : GrblCall) (timeoutMs : Nat) : GrblClient :=
  match call.text with
  | .ok text => { c with
      requests := c.requests ++ [{ call, timeoutMs, text }]
      queue := c.queue ++ [c.requests.length] }
  | .error e => { c with
      requests := c.requests ++ [{ call, timeoutMs, outcome := some (.error e) }] }

/-- A task up to where it waits for the transport. -/
def beginTask (c : GrblClient) (number : Nat) (r : GrblRequest) : GrblClient :=
  if c.closed then
    c.update number (.fail (.grblStatusError (js "GRBL_CLOSED") (js "GRBL transport is closed.")))
  else { c with
    current := some number
    written := false
    sent := c.sent ++ [(some number, encodeUtf8 r.text)] }

/-- The task under way, when its text is written. -/
def waiting? (c : GrblClient) : Option (Nat × GrblRequest) :=
  match c.current, c.written with
  | some number, true => match c.requests[number]? with
    | some r => some (number, r)
    | none => none
  | _, _ => none

/-- A chunk of `consume`. -/
def consume (c : GrblClient) (chunk : List UInt8) : GrblClient :=
  let lineBuffer := c.lineBuffer ++ chunk
  if lineBuffer.length > 65536 then { c with lineBuffer, closed := true, reading := false }
  else { c with lineBuffer }

/-- What a request rejects with that waited for too long. -/
def timeoutOf (r : GrblRequest) : GrblFailure :=
  .grblStatusError (js "GRBL_TIMEOUT")
    (js "No matching GRBL response within " ++ decimal r.timeoutMs ++ js "ms.")

def step (c : GrblClient) : GrblEvent → Option GrblClient
  | .opened =>
    if c.started then none
    else some ({ c with started := true, reading := true }.request .status GrblCall.status.defaultTimeoutMs)
  | .openFailed => if c.started then none else some { c with started := true }
  | .request call timeoutMs => some (c.request call (timeoutMs.getD call.defaultTimeoutMs))
  | .begin => match c.current, c.queue with
    | none, number :: queue => match c.requests[number]? with
      | some r => some ({ c with queue := queue }.beginTask number r)
      | none => none
    | _, _ => none
  | .written => match c.current, c.written with
    | some _, false => some { c with written := true }
    | _, _ => none
  | .writeFailed e => match c.current, c.written with
    | some number, false => some (c.update number (.fail (.thrown e)))
    | _, _ => none
  | .read => match c.waiting?, nextLine? c.lineBuffer with
    | some (number, _), some (line, rest) =>
      some ({ c with lineBuffer := rest }.update number (.hear (lineText (line ++ [10]))))
    | _, _ => none
  | .expire closing => match c.waiting?, nextLine? c.lineBuffer with
    | some (number, r), none =>
      let e := match closing with
        | some e => .thrown e
        | none => timeoutOf r
      some ({ c with closed := true }.update number (.fail e))
    | _, _ => none
  | .observeClosed => match c.waiting?, nextLine? c.lineBuffer with
    | some (number, _), none =>
      if c.closed then
        some (c.update number (.fail (.grblStatusError (js "GRBL_CLOSED")
          (js "GRBL transport closed while waiting for a response."))))
      else none
    | _, _ => none
  | .feedHold => some { c with sent := c.sent ++ [(none, [33])] }
  | .softReset => some { c with sent := c.sent ++ [(none, [0x18])] }
  | .streamEnded => if c.reading then some { c with reading := false, closed := true } else none
  | .close => some { c with closed := true }

def machine : Machine GrblClient GrblEvent := ⟨step⟩

/-! ## What a client keeps -/

/-- The requests whose text was written, in order. -/
def senders (c : GrblClient) : List Nat := c.sent.filterMap Prod.fst

/-- Tasks run one at a time: the one under way has not ended, those that are queued have not begun, the
others whose texts were written have ended, and no text is written twice. -/
structure Orderly (c : GrblClient) : Prop where
  current : ∀ n, c.current = some n → n ∉ c.queue ∧ ∃ r, c.requests[n]? = some r ∧ r.outcome = none
  queued : ∀ n ∈ c.queue, n ∉ c.senders ∧ ∃ r, c.requests[n]? = some r ∧ r.outcome = none
  nodup : c.queue.Nodup
  distinct : c.senders.Nodup
  known : ∀ n ∈ c.senders, n < c.requests.length
  ended : ∀ n ∈ c.senders, c.current ≠ some n →
    ∃ r, c.requests[n]? = some r ∧ r.outcome.isSome = true

/-- What a step other than a line does to the requests: it makes one, or one of them fails on its own. -/
inductive Change (requests : List GrblRequest) : List GrblRequest → Prop
  | same : Change requests requests
  | made (call : GrblCall) (timeoutMs : Nat) (text : JsString) :
    Change requests (requests ++ [⟨call, timeoutMs, text, none, none⟩])
  | refused (call : GrblCall) (timeoutMs : Nat) (e : GrblFailure) (he : e.ofLine = false) :
    Change requests (requests ++ [⟨call, timeoutMs, [], none, some (.error e)⟩])
  | failed (n : Nat) (e : GrblFailure) (he : e.ofLine = false) :
    Change requests (requests.modify n (.fail e))

variable {c c' : GrblClient}

/-- The task under way is the same after an update, or there is none. -/
theorem current_update {n : Nat} {f : GrblRequest → GrblRequest} {m : Nat}
    (h : (c.update n f).current = some m) :
    c.current = some m ∧ ∀ r, c.requests[n]? = some r → (f r).outcome = none := by
  rw [update] at h
  dsimp only at h
  cases hr : c.requests[n]? with
  | none =>
    rw [hr] at h
    refine ⟨h, fun r hr => ?_⟩
    cases hr
  | some r =>
    rw [hr] at h
    dsimp only at h
    split at h
    · cases h
    · next hnone =>
      refine ⟨h, fun r' hr' => ?_⟩
      rw [← Option.some.inj hr']
      simpa using hnone

/-- The task under way goes on or ends, or one that was to begin ends. -/
theorem Orderly.update (h : c.Orderly) {n : Nat} (hn : n ∉ c.queue)
    (hsole : c.current = some n ∨ c.current = none ∧ n ∉ c.senders) (f : GrblRequest → GrblRequest) :
    (c.update n f).Orderly := by
  constructor
  · intro m hm
    obtain ⟨hcur, hgoes⟩ := current_update hm
    obtain ⟨hqueue, r, hr, hnone⟩ := h.current m hcur
    refine ⟨hqueue, ?_⟩
    by_cases hk : n = m
    · subst hk
      exact ⟨f r, getElem?_modify_self f hr, hgoes r hr⟩
    · exact ⟨r, (getElem?_modify_of_ne f hk).trans hr, hnone⟩
  · intro m hm
    obtain ⟨hsent, r, hr, hnone⟩ := h.queued m hm
    have hk : n ≠ m := fun heq => hn (heq ▸ hm)
    exact ⟨hsent, r, (getElem?_modify_of_ne f hk).trans hr, hnone⟩
  · exact h.nodup
  · exact h.distinct
  · intro m hm
    have hlength : (c.update n f).requests.length = c.requests.length :=
      List.length_modify f c.requests n
    rw [hlength]
    exact h.known m hm
  · intro m hm hcur
    by_cases hk : n = m
    · subst hk
      rcases hsole with hcurrent | ⟨-, hnot⟩
      · obtain ⟨-, r, hr, -⟩ := h.current n hcurrent
        refine ⟨f r, getElem?_modify_self f hr, ?_⟩
        by_contra hgoes
        exact hcur (by simp [GrblClient.update, hr, hgoes, hcurrent])
      · exact absurd hm hnot
    · have hother : c.current ≠ some m := by
        rcases hsole with hcurrent | ⟨hidle, -⟩
        · rw [hcurrent]
          exact fun heq => hk (Option.some.inj heq)
        · rw [hidle]
          nofun
      obtain ⟨r, hr, hend⟩ := h.ended m hm hother
      exact ⟨r, (getElem?_modify_of_ne f hk).trans hr, hend⟩

theorem Orderly.request (h : c.Orderly) (call : GrblCall) (timeoutMs : Nat) :
    (c.request call timeoutMs).Orderly := by
  have hcurrent : ∀ request : GrblRequest, ∀ n, c.current = some n →
      n ∉ c.queue ∧ n ≠ c.requests.length ∧
        ∃ r, (c.requests ++ [request])[n]? = some r ∧ r.outcome = none := by
    intro request n hn
    obtain ⟨hnot, r, hr, hnone⟩ := h.current n hn
    exact ⟨hnot, by rintro rfl; simp at hr, r, getElem?_append_of_eq_some _ hr, hnone⟩
  have hqueued : ∀ request : GrblRequest, ∀ n ∈ c.queue, n ∉ c.senders ∧
      ∃ r, (c.requests ++ [request])[n]? = some r ∧ r.outcome = none := by
    intro request n hn
    obtain ⟨hsent, r, hr, hnone⟩ := h.queued n hn
    exact ⟨hsent, r, getElem?_append_of_eq_some _ hr, hnone⟩
  have hknown : ∀ request : GrblRequest, ∀ n ∈ c.senders, n < (c.requests ++ [request]).length := by
    intro request n hn
    rw [List.length_append]
    exact Nat.lt_add_right _ (h.known n hn)
  have hended : ∀ request : GrblRequest, ∀ n ∈ c.senders, c.current ≠ some n →
      ∃ r, (c.requests ++ [request])[n]? = some r ∧ r.outcome.isSome = true := by
    intro request n hn hcur
    obtain ⟨r, hr, hend⟩ := h.ended n hn hcur
    exact ⟨r, getElem?_append_of_eq_some _ hr, hend⟩
  rw [GrblClient.request]
  split
  · next text _ =>
    constructor
    · intro n hn
      obtain ⟨hnot, hne, hr⟩ := hcurrent ⟨call, timeoutMs, text, none, none⟩ n hn
      exact ⟨by simp [hnot, hne], hr⟩
    · intro n hn
      rcases List.mem_append.mp hn with hn | hn
      · exact hqueued _ n hn
      · obtain rfl := List.mem_singleton.mp hn
        exact ⟨fun hmem => absurd (h.known _ hmem) (by omega), ⟨call, timeoutMs, text, none, none⟩,
          by simp, rfl⟩
    · refine List.nodup_append.mpr ⟨h.nodup, by simp, fun m hm k hk heq => ?_⟩
      obtain ⟨-, r, hr, -⟩ := h.queued m hm
      rw [heq, List.mem_singleton.mp hk] at hr
      simp at hr
    · exact h.distinct
    · exact hknown _
    · exact hended _
  · next e _ =>
    constructor
    · intro n hn
      obtain ⟨hnot, -, hr⟩ := hcurrent ⟨call, timeoutMs, [], none, some (.error e)⟩ n hn
      exact ⟨hnot, hr⟩
    · exact hqueued _
    · exact h.nodup
    · exact h.distinct
    · exact hknown _
    · exact hended _

theorem Orderly.pop (h : c.Orderly) {n : Nat} {queue : List Nat} (hqueue : c.queue = n :: queue) :
    Orderly { c with queue := queue } ∧ n ∉ queue := by
  have hnodup := h.nodup
  rw [hqueue, List.nodup_cons] at hnodup
  have hmem : ∀ m ∈ queue, m ∈ c.queue := by
    intro m hm
    rw [hqueue]
    exact List.mem_cons_of_mem n hm
  refine ⟨⟨fun m hm => ?_, fun m hm => h.queued m (hmem m hm), hnodup.2, h.distinct, h.known,
    h.ended⟩, hnodup.1⟩
  exact ⟨fun hin => (h.current m hm).1 (hmem m hin), (h.current m hm).2⟩

theorem Orderly.beginTask (h : c.Orderly) (hidle : c.current = none) {n : Nat} {r : GrblRequest}
    (hn : n ∉ c.queue) (hfresh : n ∉ c.senders) (hr : c.requests[n]? = some r)
    (hnone : r.outcome = none) : (c.beginTask n r).Orderly := by
  rw [GrblClient.beginTask]
  split
  · exact h.update hn (.inr ⟨hidle, hfresh⟩) _
  · have hsenders : senders { c with
        current := some n, written := false
        sent := c.sent ++ [(some n, encodeUtf8 r.text)] } = c.senders ++ [n] := by
      simp [senders]
    constructor
    · intro m hm
      obtain rfl := Option.some.inj hm
      exact ⟨hn, r, hr, hnone⟩
    · intro m hm
      rw [hsenders, List.mem_append, List.mem_singleton, not_or]
      exact ⟨⟨(h.queued m hm).1, fun heq => hn (heq ▸ hm)⟩, (h.queued m hm).2⟩
    · exact h.nodup
    · rw [hsenders]
      exact List.nodup_append.mpr ⟨h.distinct, by simp, fun m hm k hk heq =>
        hfresh (by rwa [heq, List.mem_singleton.mp hk] at hm)⟩
    · intro m hm
      rw [hsenders] at hm
      rcases List.mem_append.mp hm with hm | hm
      · exact h.known m hm
      · obtain rfl := List.mem_singleton.mp hm
        exact (List.getElem?_eq_some_iff.mp hr).1
    · intro m hm hcur
      rw [hsenders] at hm
      rcases List.mem_append.mp hm with hm | hm
      · exact h.ended m hm (by rw [hidle]; nofun)
      · exact absurd (congrArg some (List.mem_singleton.mp hm).symm) hcur

theorem eq_of_waiting? {n : Nat} {r : GrblRequest} (h : c.waiting? = some (n, r)) :
    c.current = some n ∧ c.requests[n]? = some r := by
  rw [waiting?] at h
  split at h
  · next hcur _ =>
    split at h
    · next hr =>
      obtain ⟨rfl, rfl⟩ := Prod.mk.inj (Option.some.inj h)
      exact ⟨hcur, hr⟩
    · cases h
  · cases h

/-- **A step leaves a client orderly.** -/
theorem Orderly.step {event : GrblEvent} (h : c.Orderly) (hstep : c.step event = some c') :
    c'.Orderly := by
  have hsend : ∀ payload, Orderly { c with sent := c.sent ++ [(none, payload)] } := by
    intro payload
    have hsenders : senders { c with sent := c.sent ++ [(none, payload)] } = c.senders := by
      simp [senders]
    exact ⟨h.current, by rw [hsenders]; exact h.queued, h.nodup, by rw [hsenders]; exact h.distinct,
      by rw [hsenders]; exact h.known, by rw [hsenders]; exact h.ended⟩
  have hflags : ∀ started closed reading written,
      Orderly { c with started, closed, reading, written } := fun _ _ _ _ =>
    ⟨h.current, h.queued, h.nodup, h.distinct, h.known, h.ended⟩
  cases event <;> simp only [GrblClient.step] at hstep
  case opened =>
    split at hstep
    · cases hstep
    · obtain rfl := Option.some.inj hstep
      exact (hflags true c.closed true c.written).request _ _
  case openFailed =>
    split at hstep
    · cases hstep
    · obtain rfl := Option.some.inj hstep
      exact hflags true c.closed c.reading c.written
  case request call timeoutMs =>
    obtain rfl := Option.some.inj hstep
    exact h.request _ _
  case begin =>
    split at hstep
    · next number queue hidle hqueue =>
      split at hstep
      · next r hr =>
        obtain rfl := Option.some.inj hstep
        obtain ⟨hpop, hn⟩ := h.pop hqueue
        obtain ⟨hfresh, r', hr', hnone⟩ := h.queued number (by rw [hqueue]; exact List.mem_cons_self)
        obtain rfl := Option.some.inj (hr.symm.trans hr')
        exact hpop.beginTask hidle hn hfresh hr hnone
      · cases hstep
    · cases hstep
  case written =>
    split at hstep
    · obtain rfl := Option.some.inj hstep
      exact hflags c.started c.closed c.reading true
    · cases hstep
  case writeFailed e =>
    split at hstep
    · next hcur _ =>
      obtain rfl := Option.some.inj hstep
      exact h.update (h.current _ hcur).1 (.inl hcur) _
    · cases hstep
  case read =>
    split at hstep
    · next line rest hwaits _ =>
      obtain rfl := Option.some.inj hstep
      have hbuffer : Orderly { c with lineBuffer := rest } :=
        ⟨h.current, h.queued, h.nodup, h.distinct, h.known, h.ended⟩
      have hcur := (eq_of_waiting? hwaits).1
      exact hbuffer.update (h.current _ hcur).1 (.inl hcur) _
    · cases hstep
  case expire closing =>
    split at hstep
    · next hwaits _ =>
      obtain rfl := Option.some.inj hstep
      have hcur := (eq_of_waiting? hwaits).1
      exact (hflags c.started true c.reading c.written).update (h.current _ hcur).1 (.inl hcur) _
    · cases hstep
  case observeClosed =>
    split at hstep
    · next hwaits _ =>
      split at hstep
      · obtain rfl := Option.some.inj hstep
        have hcur := (eq_of_waiting? hwaits).1
        exact h.update (h.current _ hcur).1 (.inl hcur) _
      · cases hstep
    · cases hstep
  case feedHold =>
    obtain rfl := Option.some.inj hstep
    exact hsend _
  case softReset =>
    obtain rfl := Option.some.inj hstep
    exact hsend _
  case streamEnded =>
    split at hstep
    · obtain rfl := Option.some.inj hstep
      exact hflags c.started true false c.written
    · cases hstep
  case close =>
    obtain rfl := Option.some.inj hstep
    exact hflags c.started true c.reading c.written

/-- **What a step other than a line does** to the requests, the buffer and the texts that were sent. -/
theorem requests_step {event : GrblEvent} (hevent : event ≠ .read) (hstep : c.step event = some c') :
    Change c.requests c'.requests ∧ c'.lineBuffer = c.lineBuffer ∧ ∃ more, c'.sent = c.sent ++ more := by
  have hrequest : ∀ (c : GrblClient) call timeoutMs,
      Change c.requests (c.request call timeoutMs).requests ∧
        (c.request call timeoutMs).lineBuffer = c.lineBuffer ∧
        ∃ more, (c.request call timeoutMs).sent = c.sent ++ more := by
    intro c call timeoutMs
    rw [GrblClient.request]
    split
    · exact ⟨.made _ _ _, rfl, [], (List.append_nil _).symm⟩
    · next e he => exact ⟨.refused _ _ e (GrblCall.ofLine_of_text he), rfl, [], (List.append_nil _).symm⟩
  have hfail : ∀ (c : GrblClient) n e, e.ofLine = false →
      Change c.requests (c.update n (.fail e)).requests ∧
        (c.update n (.fail e)).lineBuffer = c.lineBuffer ∧
        ∃ more, (c.update n (.fail e)).sent = c.sent ++ more :=
    fun c n e he => ⟨.failed n e he, rfl, [], (List.append_nil _).symm⟩
  have hclosed : ∀ message, (GrblFailure.grblStatusError (js "GRBL_CLOSED") message).ofLine = false :=
    fun _ => rfl
  have hsame : ∃ more, c.sent = c.sent ++ more := ⟨[], (List.append_nil _).symm⟩
  cases event <;> simp only [GrblClient.step] at hstep
  case opened =>
    split at hstep
    · cases hstep
    · obtain rfl := Option.some.inj hstep
      exact hrequest { c with started := true, reading := true } _ _
  case openFailed =>
    split at hstep
    · cases hstep
    · obtain rfl := Option.some.inj hstep
      exact ⟨.same, rfl, hsame⟩
  case request call timeoutMs =>
    obtain rfl := Option.some.inj hstep
    exact hrequest _ _ _
  case begin =>
    split at hstep
    · split at hstep
      · obtain rfl := Option.some.inj hstep
        rw [GrblClient.beginTask]
        split
        · exact hfail _ _ _ (hclosed _)
        · exact ⟨.same, rfl, _, rfl⟩
      · cases hstep
    · cases hstep
  case written =>
    split at hstep
    · obtain rfl := Option.some.inj hstep
      exact ⟨.same, rfl, hsame⟩
    · cases hstep
  case writeFailed e =>
    split at hstep
    · obtain rfl := Option.some.inj hstep
      exact hfail _ _ _ rfl
    · cases hstep
  case read => exact absurd rfl hevent
  case expire closing =>
    split at hstep
    · obtain rfl := Option.some.inj hstep
      refine hfail { c with closed := true } _ _ ?_
      cases closing with
      | none => rfl
      | some e => rfl
    · cases hstep
  case observeClosed =>
    split at hstep
    · split at hstep
      · obtain rfl := Option.some.inj hstep
        exact hfail _ _ _ (hclosed _)
      · cases hstep
    · cases hstep
  case feedHold =>
    obtain rfl := Option.some.inj hstep
    exact ⟨.same, rfl, _, rfl⟩
  case softReset =>
    obtain rfl := Option.some.inj hstep
    exact ⟨.same, rfl, _, rfl⟩
  case streamEnded =>
    split at hstep
    · obtain rfl := Option.some.inj hstep
      exact ⟨.same, rfl, hsame⟩
    · cases hstep
  case close =>
    obtain rfl := Option.some.inj hstep
    exact ⟨.same, rfl, hsame⟩

end GrblClient

end Pinout.Grbl
