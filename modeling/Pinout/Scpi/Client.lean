import Pinout.Foundation.Entries
import Pinout.Foundation.Machine
import Pinout.Scpi.Parser

/-! # The SCPI client

`ScpiClient` (`packages/protocols-scpi/src/client.ts`): commands and queries are queued behind one another,
a query waits in `pending` for the next line the instrument sends, and is taken out of it when it times
out. What happens to a client between two points where it waits is one *event*; events come in any order.
The number of a request is its place in the order in which requests were made. -/

namespace Pinout.Scpi

open Foundation Protocol

/-- `command(text)`, or `query(text, { timeoutMs })`. -/
inductive ScpiRequestKind
  | command
  | query (timeoutMs : Option Nat)
  deriving DecidableEq

structure ScpiRequest where
  text : JsString
  kind : ScpiRequestKind
  written : Bool := false
  response : Option (Except Thrown JsString) := none
  outcome : Option (Except Thrown (Option JsString)) := none

namespace ScpiRequest

/-- A task goes on: a command when its text is written, a query when there is a response as well. -/
def finish (r : ScpiRequest) : ScpiRequest :=
  match r.outcome, r.written, r.kind, r.response with
  | none, true, .command, _ => { r with outcome := some (.ok none) }
  | none, true, .query _, some (.ok line) => { r with outcome := some (.ok (some line)) }
  | none, true, .query _, some (.error e) => { r with outcome := some (.error e) }
  | _, _, _, _ => r

def write (r : ScpiRequest) : ScpiRequest := finish { r with written := true }

/-- The promise of a response is settled; what comes later does not count. -/
def respond (response : Except Thrown JsString) (r : ScpiRequest) : ScpiRequest :=
  match r.response with
  | some _ => r
  | none => finish { r with response := some response }

def fail (e : Thrown) (r : ScpiRequest) : ScpiRequest := { r with outcome := some (.error e) }

/-- Whether a request no longer waits for a response. -/
def ended (r : ScpiRequest) : Bool := r.response.isSome || r.outcome.isSome

section Steps

variable {r : ScpiRequest} {e : Thrown} {response : Except Thrown JsString}

@[simp] theorem kind_finish : r.finish.kind = r.kind := by
  rw [finish]
  split <;> rfl

@[simp] theorem response_finish : r.finish.response = r.response := by
  rw [finish]
  split <;> rfl

theorem ended_finish (h : r.ended = true) : r.finish.ended = true := by
  rw [finish]
  split <;> simp_all [ended]

@[simp] theorem kind_write : r.write.kind = r.kind := kind_finish

@[simp] theorem kind_fail : (r.fail e).kind = r.kind := rfl

@[simp] theorem kind_respond : (r.respond response).kind = r.kind := by
  rw [respond]
  split
  · rfl
  · exact kind_finish

@[simp] theorem ended_fail : (r.fail e).ended = true := by simp [fail, ended]

@[simp] theorem ended_respond : (r.respond response).ended = true := by
  rw [respond]
  split
  · next h => simp [ended, h]
  · exact ended_finish (by simp [ended])

theorem ended_write_of_command (h : r.kind = .command) : r.write.ended = true := by
  rw [write, finish]
  cases r.outcome <;> simp [h, ended]

theorem ended_write (h : r.ended = true) : r.write.ended = true := ended_finish h

theorem write_of_waiting (hkind : r.kind ≠ .command) (h : r.ended = false) :
    r.write = { r with written := true } := by
  simp only [ended, Bool.or_eq_false_iff, Option.isSome_eq_false_iff, Option.isNone_iff_eq_none] at h
  rw [write, finish]
  cases hk : r.kind with
  | command => exact absurd hk hkind
  | query timeoutMs => simp [h.1, h.2]

end Steps

end ScpiRequest

/-- `ScpiClient`, with the requests made on it, the texts it wrote to the transport, and the lines that
went to `onUnsolicited`. -/
structure ScpiClient where
  defaultTimeoutMs : Nat := 5000
  terminator : JsString := [lineFeed]
  opened : Bool := false
  closed : Bool := false
  reading : Bool := false
  queue : List Nat := []
  current : Option Nat := none
  pending : List Nat := []
  decoder : TextDecoder := {}
  buffer : JsString := []
  requests : List ScpiRequest := []
  /-- What was written to the transport, and for which request. -/
  sent : List (Nat × List UInt8) := []
  unsolicited : List JsString := []

inductive ScpiEvent
  | opened
  | request (text : JsString) (kind : ScpiRequestKind)
  | begin
  | written
  | writeFailed (e : Thrown)
  | timeout (number : Nat)
  | streamEnded
  | close
  | failPending (message : JsString)

namespace ScpiClient

def isOpen (c : ScpiClient) : Bool := c.opened && !c.closed

/-- A task goes on; when it ends, the next may begin. -/
def update (c : ScpiClient) (number : Nat) (f : ScpiRequest → ScpiRequest) : ScpiClient :=
  { c with
    requests := c.requests.modify number f
    current := match c.requests[number]? with
      | some r => if (f r).outcome.isSome ∧ c.current = some number then none else c.current
      | none => c.current }

/-- `write`. -/
def payload (c : ScpiClient) (command : JsString) : List UInt8 :=
  encodeUtf8 (if c.terminator <:+ command then command else command ++ c.terminator)

/-- A task up to where it waits for the transport. -/
def beginTask (c : ScpiClient) (number : Nat) (r : ScpiRequest) : ScpiClient :=
  if ¬ c.isOpen then c.update number (.fail (closedError (js "The SCPI transport is closed.")))
  else match parseScpiCommand r.text with
    | .error e => c.update number (.fail e)
    | .ok parsed => match r.kind with
      | .command =>
        if parsed.query then
          c.update number (.fail (usageError
            (js "'" ++ trim r.text ++ js "' is a query; use query() to read its response.")))
        else
          { c with current := some number, sent := c.sent ++ [(number, c.payload r.text)] }
      | .query _ =>
        if ¬ parsed.query then
          c.update number (.fail (usageError
            (js "'" ++ trim r.text ++ js "' is not a query; use command().")))
        else
          { c with
            current := some number
            pending := c.pending ++ [number]
            sent := c.sent ++ [(number, c.payload r.text)] }

/-- What a query rejects with when its timer fires. -/
def timeoutOf (c : ScpiClient) (r : ScpiRequest) : Thrown :=
  let timeoutMs := match r.kind with
    | .query (some timeoutMs) => timeoutMs
    | _ => c.defaultTimeoutMs
  timeoutError (js "No response within " ++ decimal timeoutMs ++ js " ms to '" ++ trim r.text ++ js "'.")

def dispatchLine (c : ScpiClient) (line : JsString) : ScpiClient :=
  match c.pending with
  | [] => { c with unsolicited := c.unsolicited ++ [line] }
  | number :: pending => { c with pending := pending }.update number (.respond (.ok line))

theorem dispatchLine_of_idle {c : ScpiClient} (h : c.pending = []) (line : JsString) :
    c.dispatchLine line = { c with unsolicited := c.unsolicited ++ [line] } := by
  rw [dispatchLine]
  split
  · rfl
  · next heq =>
    rw [h] at heq
    cases heq

theorem dispatchLine_of_waiting {c : ScpiClient} {n : Nat} (h : c.pending = [n]) (line : JsString) :
    c.dispatchLine line = { c with pending := [] }.update n (.respond (.ok line)) := by
  rw [dispatchLine]
  split
  · next heq =>
    rw [h] at heq
    cases heq
  · next heq =>
    rw [h] at heq
    cases heq
    rfl

/-- A line of the loop of `readLoop`. -/
def readLine (c : ScpiClient) (raw : JsString) : ScpiClient :=
  let line := stripCarriageReturn raw
  if line.isEmpty then c else c.dispatchLine line

def linesOf (c : ScpiClient) (chunk : List UInt8) : List JsString :=
  (cutLines lineFeed (c.buffer ++ (c.decoder.decode chunk).2)).1

/-- The client with what a chunk leaves in its buffer. -/
def rebuffer (c : ScpiClient) (chunk : List UInt8) : ScpiClient :=
  { c with
    decoder := (c.decoder.decode chunk).1
    buffer := (cutLines lineFeed (c.buffer ++ (c.decoder.decode chunk).2)).2 }

/-- A chunk of `readLoop`. -/
def readChunk (c : ScpiClient) (chunk : List UInt8) : ScpiClient :=
  (c.linesOf chunk).foldl readLine (c.rebuffer chunk)

def failPending (c : ScpiClient) (e : Thrown) : ScpiClient :=
  { c.pending.foldl (fun c number => c.update number (.respond (.error e))) c with pending := [] }

def step (c : ScpiClient) : ScpiEvent → Option ScpiClient
  | .opened => if c.opened then none else some { c with opened := true, closed := false, reading := true }
  | .request text kind =>
    some { c with
      requests := c.requests ++ [{ text, kind }]
      queue := c.queue ++ [c.requests.length] }
  | .begin => match c.current, c.queue with
    | none, number :: queue => match c.requests[number]? with
      | some r => some ({ c with queue := queue }.beginTask number r)
      | none => none
    | _, _ => none
  | .written => match c.current with
    | some number => match c.requests[number]? with
      | some r => if r.written then none else some (c.update number .write)
      | none => none
    | none => none
  | .writeFailed e => match c.current with
    | some number => match c.requests[number]? with
      | some r =>
        if r.written then none
        else some ({ c with pending := c.pending.filter (· ≠ number) }.update number (.fail e))
      | none => none
    | none => none
  | .timeout number =>
    if number ∈ c.pending then match c.requests[number]? with
      | some r => some ({ c with pending := c.pending.filter (· ≠ number) }.update number
          (.respond (.error (c.timeoutOf r))))
      | none => none
    else none
  | .streamEnded => if c.reading then some { c with reading := false, closed := true } else none
  | .close => if c.opened then some { c with closed := true } else some c
  | .failPending message => if c.closed then some (c.failPending (closedError message)) else none

def machine : Machine ScpiClient ScpiEvent := ⟨step⟩

/-! ## What a client keeps -/

/-- Tasks run one at a time: the query that waits is the task under way, and has not ended; those that
are queued have not begun; and every query whose text was sent has ended or waits. -/
structure Orderly (c : ScpiClient) : Prop where
  waiting : ∀ n ∈ c.pending, c.pending = [n] ∧ c.current = some n ∧
    ∃ r, c.requests[n]? = some r ∧ r.ended = false ∧ r.kind ≠ .command
  queued : ∀ n ∈ c.queue, c.current ≠ some n ∧ ∃ r, c.requests[n]? = some r ∧ r.ended = false
  nodup : c.queue.Nodup
  current : ∀ n, c.current = some n → ∃ r, c.requests[n]? = some r
  sent : ∀ e ∈ c.sent, ∃ r, c.requests[e.1]? = some r ∧
    (r.kind ≠ .command → r.ended = true ∨ e.1 ∈ c.pending)

/-- The task under way is the same after an update, or there is none. -/
theorem current_update (c : ScpiClient) (n : Nat) (f : ScpiRequest → ScpiRequest) :
    (c.update n f).current = c.current ∨ (c.update n f).current = none ∧ c.current = some n := by
  rw [update]
  cases c.requests[n]? with
  | none => exact .inl rfl
  | some r =>
    by_cases h : (f r).outcome.isSome ∧ c.current = some n
    · exact .inr ⟨by simp only [if_pos h], h.2⟩
    · exact .inl (by simp only [if_neg h])

theorem Orderly.pending_of_idle {c : ScpiClient} (h : c.Orderly) (hidle : c.current = none) :
    c.pending = [] := by
  refine List.eq_nil_iff_forall_not_mem.mpr fun n hn => ?_
  have hcurrent := (h.waiting n hn).2.1
  rw [hidle] at hcurrent
  cases hcurrent

theorem Orderly.notMem_queue {c : ScpiClient} (h : c.Orderly) {n : Nat} (hn : c.current = some n) :
    n ∉ c.queue := fun hmem => (h.queued n hmem).1 hn

/-- **A request that ends** leaves the client orderly. -/
theorem Orderly.update {c : ScpiClient} (h : c.Orderly) {n : Nat} {f : ScpiRequest → ScpiRequest}
    (hn : n ∉ c.queue) (hf : ∀ r, c.requests[n]? = some r → (f r).kind = r.kind ∧ (f r).ended = true) :
    ({ c with pending := c.pending.filter (· ≠ n) }.update n f).Orderly := by
  have hother : ∀ m, m ≠ n → (c.requests.modify n f)[m]? = c.requests[m]? :=
    fun m hm => getElem?_modify_of_ne f fun heq => hm heq.symm
  have hcurrent := current_update { c with pending := c.pending.filter (· ≠ n) } n f
  constructor
  · intro m hm
    obtain ⟨hm, hne⟩ := List.mem_filter.mp hm
    have hne : m ≠ n := of_decide_eq_true hne
    obtain ⟨hpending, hcur, r, hr, hwaits⟩ := h.waiting m hm
    refine ⟨?_, ?_, r, (hother m hne).trans hr, hwaits⟩
    · show c.pending.filter (· ≠ n) = [m]
      simp [hpending, hne]
    · rcases hcurrent with hsame | ⟨-, hcur'⟩
      · exact hsame.trans hcur
      · exact absurd (Option.some.inj (hcur.symm.trans hcur')) hne
  · intro m hm
    obtain ⟨hcur, r, hr, hended⟩ := h.queued m hm
    have hne : m ≠ n := fun heq => hn (heq ▸ hm)
    refine ⟨?_, r, (hother m hne).trans hr, hended⟩
    rcases hcurrent with hsame | ⟨hnone, -⟩
    · rwa [hsame]
    · rw [hnone]
      nofun
  · exact h.nodup
  · intro m hm
    have hcur : c.current = some m := by
      rcases hcurrent with hsame | ⟨hnone, -⟩
      · exact hsame.symm.trans hm
      · rw [hnone] at hm
        cases hm
    obtain ⟨r, hr⟩ := h.current m hcur
    by_cases hne : m = n
    · subst hne
      exact ⟨f r, getElem?_modify_self f hr⟩
    · exact ⟨r, (hother m hne).trans hr⟩
  · intro e he
    obtain ⟨r, hr, hended⟩ := h.sent e he
    by_cases hne : e.1 = n
    · obtain ⟨hkind, hend⟩ := hf r (hne ▸ hr)
      refine ⟨f r, ?_, fun _ => .inl hend⟩
      rw [hne] at hr ⊢
      exact getElem?_modify_self f hr
    · refine ⟨r, (hother e.1 hne).trans hr, fun hkind => (hended hkind).imp_right fun hmem => ?_⟩
      exact List.mem_filter.mpr ⟨hmem, decide_eq_true hne⟩

theorem Orderly.write {c : ScpiClient} (h : c.Orderly) {n : Nat} {r : ScpiRequest}
    (hn : c.current = some n) (hr : c.requests[n]? = some r) : (c.update n .write).Orderly := by
  by_cases hwaits : r.kind ≠ .command ∧ r.ended = false
  · -- a query that waits for its response goes on doing so
    obtain ⟨hkind, hended⟩ := hwaits
    have hwrite := ScpiRequest.write_of_waiting hkind hended
    have houtcome : r.outcome = none := by
      simp only [ScpiRequest.ended, Bool.or_eq_false_iff, Option.isSome_eq_false_iff,
        Option.isNone_iff_eq_none] at hended
      exact hended.2
    have hcur : (c.update n .write).current = some n := by
      simp only [ScpiClient.update, hr, hwrite, houtcome, Option.isSome_none, Bool.false_eq_true,
        false_and, if_false, hn]
    have hself : (c.requests.modify n .write)[n]? = some { r with written := true } := by
      rw [getElem?_modify_self _ hr, hwrite]
    constructor
    · intro m hm
      obtain ⟨hpending, hm', -⟩ := h.waiting m hm
      obtain rfl := Option.some.inj (hn.symm.trans hm')
      exact ⟨hpending, hcur, _, hself, hended, hkind⟩
    · intro m hm
      have hne : n ≠ m := fun heq => h.notMem_queue hn (heq ▸ hm)
      obtain ⟨-, r', hr', hended'⟩ := h.queued m hm
      refine ⟨?_, r', (getElem?_modify_of_ne _ hne).trans hr', hended'⟩
      rw [hcur]
      exact fun heq => hne (Option.some.inj heq)
    · exact h.nodup
    · intro m hm
      obtain rfl := Option.some.inj (hcur.symm.trans hm)
      exact ⟨_, hself⟩
    · intro e he
      obtain ⟨r', hr', hsent⟩ := h.sent e he
      by_cases hne : n = e.1
      · subst hne
        obtain rfl := Option.some.inj (hr.symm.trans hr')
        exact ⟨_, hself, hsent⟩
      · exact ⟨r', (getElem?_modify_of_ne _ hne).trans hr', hsent⟩
  · -- otherwise it ends, if it has not ended before
    have hend : r.write.ended = true := by
      by_cases hkind : r.kind = .command
      · exact ScpiRequest.ended_write_of_command hkind
      · refine ScpiRequest.ended_write ?_
        by_contra hended
        exact hwaits ⟨hkind, by simpa using hended⟩
    have hnot : n ∉ c.pending := by
      intro hmem
      obtain ⟨-, -, r', hr', hended, hkind⟩ := h.waiting n hmem
      obtain rfl := Option.some.inj (hr.symm.trans hr')
      exact hwaits ⟨hkind, hended⟩
    have hfilter : c.pending.filter (· ≠ n) = c.pending :=
      List.filter_eq_self.mpr fun m hm => decide_eq_true fun heq => hnot (heq ▸ hm)
    have hupdate := h.update (n := n) (f := .write) (h.notMem_queue hn) fun r' hr' => by
      obtain rfl := Option.some.inj (hr.symm.trans hr')
      exact ⟨ScpiRequest.kind_write, hend⟩
    rwa [hfilter] at hupdate

theorem Orderly.request {c : ScpiClient} (h : c.Orderly) (text : JsString) (kind : ScpiRequestKind) :
    Orderly { c with
      requests := c.requests ++ [{ text, kind }]
      queue := c.queue ++ [c.requests.length] } := by
  have hold : ∀ {m r}, c.requests[m]? = some r →
      (c.requests ++ [(⟨text, kind, false, none, none⟩ : ScpiRequest)])[m]? = some r :=
    fun hr => getElem?_append_of_eq_some _ hr
  constructor
  · intro m hm
    obtain ⟨hpending, hcur, r, hr, hwaits⟩ := h.waiting m hm
    exact ⟨hpending, hcur, r, hold hr, hwaits⟩
  · intro m hm
    rcases List.mem_append.mp hm with hm | hm
    · obtain ⟨hcur, r, hr, hended⟩ := h.queued m hm
      exact ⟨hcur, r, hold hr, hended⟩
    · obtain rfl := List.mem_singleton.mp hm
      refine ⟨fun hcur => ?_, ⟨text, kind, false, none, none⟩, by simp, rfl⟩
      obtain ⟨r, hr⟩ := h.current _ hcur
      simp at hr
  · refine List.nodup_append.mpr ⟨h.nodup, by simp, fun m hm k hk heq => ?_⟩
    obtain ⟨-, r, hr, -⟩ := h.queued m hm
    obtain rfl := List.mem_singleton.mp hk
    rw [heq] at hr
    simp at hr
  · intro m hm
    obtain ⟨r, hr⟩ := h.current m hm
    exact ⟨r, hold hr⟩
  · intro e he
    obtain ⟨r, hr, hsent⟩ := h.sent e he
    exact ⟨r, hold hr, hsent⟩

theorem Orderly.pop {c : ScpiClient} (h : c.Orderly) {n : Nat} {queue : List Nat}
    (hqueue : c.queue = n :: queue) : Orderly { c with queue := queue } ∧ n ∉ queue := by
  have hnodup := h.nodup
  rw [hqueue, List.nodup_cons] at hnodup
  refine ⟨⟨h.waiting, fun m hm => h.queued m ?_, hnodup.2, h.current, h.sent⟩, hnodup.1⟩
  rw [hqueue]
  exact List.mem_cons_of_mem n hm

theorem Orderly.send {c : ScpiClient} (h : c.Orderly) {n : Nat} {r : ScpiRequest}
    (hidle : c.current = none) (hn : n ∉ c.queue) (hr : c.requests[n]? = some r)
    (hended : r.ended = false) (payload : List UInt8) {pending : List Nat}
    (hpending : pending = if r.kind = .command then c.pending else c.pending ++ [n]) :
    Orderly { c with
      current := some n
      pending := pending
      sent := c.sent ++ [(n, payload)] } := by
  rw [h.pending_of_idle hidle, List.nil_append] at hpending
  have hnone : ∀ m ∈ pending, m = n ∧ r.kind ≠ .command := by
    intro m hm
    rw [hpending] at hm
    split at hm
    · cases hm
    · next hkind => exact ⟨List.mem_singleton.mp hm, hkind⟩
  constructor
  · intro m hm
    obtain ⟨rfl, hkind⟩ := hnone m hm
    refine ⟨?_, rfl, r, hr, hended, hkind⟩
    show pending = [m]
    rw [hpending, if_neg hkind]
  · intro m hm
    obtain ⟨-, hqueued⟩ := h.queued m hm
    exact ⟨fun heq => hn (Option.some.inj heq ▸ hm), hqueued⟩
  · exact h.nodup
  · intro m hm
    obtain rfl := Option.some.inj hm
    exact ⟨r, hr⟩
  · intro e he
    rcases List.mem_append.mp he with he | he
    · obtain ⟨r', hr', hsent⟩ := h.sent e he
      refine ⟨r', hr', fun hkind => .inl ?_⟩
      rcases hsent hkind with hend | hmem
      · exact hend
      · rw [h.pending_of_idle hidle] at hmem
        cases hmem
    · obtain rfl := List.mem_singleton.mp he
      refine ⟨r, hr, fun hkind => .inr ?_⟩
      show n ∈ pending
      rw [hpending, if_neg hkind]
      exact List.mem_singleton.mpr rfl

theorem Orderly.beginTask {c : ScpiClient} (h : c.Orderly) {n : Nat} {r : ScpiRequest}
    (hidle : c.current = none) (hn : n ∉ c.queue) (hr : c.requests[n]? = some r)
    (hended : r.ended = false) : (c.beginTask n r).Orderly := by
  have hfail : ∀ e, (c.update n (.fail e)).Orderly := by
    intro e
    have hupdate := h.update (n := n) (f := .fail e) hn
      fun r _ => ⟨ScpiRequest.kind_fail, ScpiRequest.ended_fail⟩
    rwa [h.pending_of_idle hidle, List.filter_nil, ← h.pending_of_idle hidle] at hupdate
  rw [ScpiClient.beginTask]
  split
  · exact hfail _
  · split
    · exact hfail _
    · split
      · next hkind =>
        split
        · exact hfail _
        · exact h.send hidle hn hr hended _ (by rw [if_pos hkind])
      · next hkind =>
        split
        · exact hfail _
        · exact h.send hidle hn hr hended _ (by rw [if_neg (by rw [hkind]; nofun)])

theorem Orderly.pending_cases {c : ScpiClient} (h : c.Orderly) :
    c.pending = [] ∨ ∃ n, c.pending = [n] ∧ n ∉ c.queue := by
  cases hpending : c.pending with
  | nil => exact .inl rfl
  | cons n pending =>
    obtain ⟨hone, hcur, -⟩ := h.waiting n (by rw [hpending]; exact List.mem_cons_self)
    rw [hpending] at hone
    exact .inr ⟨n, hone, h.notMem_queue hcur⟩

theorem Orderly.respond {c : ScpiClient} (h : c.Orderly) {n : Nat} (hpending : c.pending = [n])
    (hn : n ∉ c.queue) (response : Except Thrown JsString) :
    ({ c with pending := [] }.update n (.respond response)).Orderly := by
  have hupdate := h.update (f := .respond response) hn
    fun r _ => ⟨ScpiRequest.kind_respond, ScpiRequest.ended_respond⟩
  have hfilter : c.pending.filter (· ≠ n) = [] := by simp [hpending]
  rwa [hfilter] at hupdate

theorem Orderly.failPending_eq {c : ScpiClient} (h : c.Orderly) (e : Thrown) :
    c.failPending e = c ∨ ∃ n, c.pending = [n] ∧ n ∉ c.queue ∧
      c.failPending e = { c with pending := [] }.update n (.respond (.error e)) := by
  rcases h.pending_cases with hpending | ⟨n, hpending, hn⟩
  · left
    rw [failPending, hpending, List.foldl_nil, ← hpending]
  · right
    refine ⟨n, hpending, hn, ?_⟩
    rw [failPending, hpending]
    rfl

/-- **A step leaves a client orderly.** -/
theorem Orderly.step {c c' : ScpiClient} {event : ScpiEvent} (h : c.Orderly)
    (hstep : c.step event = some c') : c'.Orderly := by
  have hflags : ∀ opened closed reading, Orderly { c with opened, closed, reading } :=
    fun _ _ _ => ⟨h.waiting, h.queued, h.nodup, h.current, h.sent⟩
  cases event <;> simp only [ScpiClient.step] at hstep
  case opened =>
    split at hstep
    · cases hstep
    · obtain rfl := Option.some.inj hstep
      exact hflags _ _ _
  case request text kind =>
    obtain rfl := Option.some.inj hstep
    exact h.request text kind
  case begin =>
    split at hstep
    · next number queue hidle hqueue =>
      split at hstep
      · next r hr =>
        obtain rfl := Option.some.inj hstep
        obtain ⟨hpop, hn⟩ := h.pop hqueue
        obtain ⟨-, r', hr', hended⟩ := h.queued number (by rw [hqueue]; exact List.mem_cons_self)
        obtain rfl := Option.some.inj (hr.symm.trans hr')
        exact hpop.beginTask hidle hn hr hended
      · cases hstep
    · cases hstep
  case written =>
    split at hstep
    · next number hcur =>
      split at hstep
      · next r hr =>
        split at hstep
        · cases hstep
        · obtain rfl := Option.some.inj hstep
          exact h.write hcur hr
      · cases hstep
    · cases hstep
  case writeFailed e =>
    split at hstep
    · next number hcur =>
      split at hstep
      · next r hr =>
        split at hstep
        · cases hstep
        · obtain rfl := Option.some.inj hstep
          exact h.update (h.notMem_queue hcur) fun r _ => ⟨ScpiRequest.kind_fail, ScpiRequest.ended_fail⟩
      · cases hstep
    · cases hstep
  case timeout number =>
    split at hstep
    · next hmem =>
      split at hstep
      · obtain rfl := Option.some.inj hstep
        exact h.update (h.notMem_queue (h.waiting number hmem).2.1)
          fun r _ => ⟨ScpiRequest.kind_respond, ScpiRequest.ended_respond⟩
      · cases hstep
    · cases hstep
  case streamEnded =>
    split at hstep
    · obtain rfl := Option.some.inj hstep
      exact hflags _ _ _
    · cases hstep
  case close =>
    split at hstep <;> obtain rfl := Option.some.inj hstep
    · exact hflags _ _ _
    · exact h
  case failPending message =>
    split at hstep
    · obtain rfl := Option.some.inj hstep
      rcases h.failPending_eq (closedError message) with heq | ⟨n, hpending, hn, heq⟩
      · rwa [heq]
      · rw [heq]
        exact h.respond hpending hn _
    · cases hstep

/-- What a step other than a line does to one of the requests. -/
inductive Change : (ScpiRequest → ScpiRequest) → Prop
  | write : Change .write
  | fail (e : Thrown) : Change (.fail e)
  | respond (e : Thrown) : Change (.respond (.error e))

/-- **What a step does to the requests**: it makes one, or changes one; and the texts that were sent stay
sent. -/
theorem requests_step {c c' : ScpiClient} {event : ScpiEvent} (h : c.Orderly)
    (hstep : c.step event = some c') :
    (c'.requests = c.requests ∨
      (∃ text kind, c'.requests = c.requests ++ [⟨text, kind, false, none, none⟩]) ∨
      ∃ n f, Change f ∧ c'.requests = c.requests.modify n f) ∧
    (c'.decoder = c.decoder ∧ c'.buffer = c.buffer) ∧ ∀ e ∈ c.sent, e ∈ c'.sent := by
  cases event <;> simp only [ScpiClient.step] at hstep
  case opened =>
    split at hstep
    · cases hstep
    · obtain rfl := Option.some.inj hstep
      exact ⟨.inl rfl, ⟨rfl, rfl⟩, fun _ => id⟩
  case request text kind =>
    obtain rfl := Option.some.inj hstep
    exact ⟨.inr (.inl ⟨text, kind, rfl⟩), ⟨rfl, rfl⟩, fun _ => id⟩
  case begin =>
    split at hstep
    · next number queue hidle hqueue =>
      split at hstep
      · next r hr =>
        obtain rfl := Option.some.inj hstep
        have hfail : ∀ e, Change (.fail e) := .fail
        rw [ScpiClient.beginTask]
        split
        · exact ⟨.inr (.inr ⟨number, _, hfail _, rfl⟩), ⟨rfl, rfl⟩, fun _ => id⟩
        · split
          · exact ⟨.inr (.inr ⟨number, _, hfail _, rfl⟩), ⟨rfl, rfl⟩, fun _ => id⟩
          · split
            all_goals
              split
              · exact ⟨.inr (.inr ⟨number, _, hfail _, rfl⟩), ⟨rfl, rfl⟩, fun _ => id⟩
              · exact ⟨.inl rfl, ⟨rfl, rfl⟩, fun e he => List.mem_append_left _ he⟩
      · cases hstep
    · cases hstep
  case written =>
    split at hstep
    · next number hcur =>
      split at hstep
      · split at hstep
        · cases hstep
        · obtain rfl := Option.some.inj hstep
          exact ⟨.inr (.inr ⟨number, _, .write, rfl⟩), ⟨rfl, rfl⟩, fun _ => id⟩
      · cases hstep
    · cases hstep
  case writeFailed e =>
    split at hstep
    · next number hcur =>
      split at hstep
      · split at hstep
        · cases hstep
        · obtain rfl := Option.some.inj hstep
          exact ⟨.inr (.inr ⟨number, _, .fail e, rfl⟩), ⟨rfl, rfl⟩, fun _ => id⟩
      · cases hstep
    · cases hstep
  case timeout number =>
    split at hstep
    · split at hstep
      · obtain rfl := Option.some.inj hstep
        exact ⟨.inr (.inr ⟨number, _, .respond _, rfl⟩), ⟨rfl, rfl⟩, fun _ => id⟩
      · cases hstep
    · cases hstep
  case streamEnded =>
    split at hstep
    · obtain rfl := Option.some.inj hstep
      exact ⟨.inl rfl, ⟨rfl, rfl⟩, fun _ => id⟩
    · cases hstep
  case close =>
    split at hstep <;> obtain rfl := Option.some.inj hstep <;>
      exact ⟨.inl rfl, ⟨rfl, rfl⟩, fun _ => id⟩
  case failPending message =>
    split at hstep
    · obtain rfl := Option.some.inj hstep
      rcases h.failPending_eq (closedError message) with heq | ⟨n, -, -, heq⟩ <;> rw [heq]
      · exact ⟨.inl rfl, ⟨rfl, rfl⟩, fun _ => id⟩
      · exact ⟨.inr (.inr ⟨n, _, .respond _, rfl⟩), ⟨rfl, rfl⟩, fun _ => id⟩
    · cases hstep

end ScpiClient

end Pinout.Scpi
