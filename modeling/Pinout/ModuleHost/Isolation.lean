import Pinout.ModuleHost.Supervision
import Mathlib.Data.List.Perm.Basic
import Mathlib.Data.List.Count

/-! # The isolation of crashes

A line of a worker is trusted as a message once its version and its kind have been read. Runs in which the
messages that matter have the payload their kind asks for, and only the worker a request was sent to answers
it, are isolated: no line makes the host throw, and every invoke settles once, with what was answered to it. -/

namespace Pinout.ModuleHost

open Foundation Protocol

/-! ## What messages say -/

/-- Whether the payload of a message can be read. -/
def payloadReadable (message : JsonObject) : Bool :=
  match message.get? (js "payload") with
  | none | some .null => false
  | some _ => true

/-- `payload.result` of a `ModuleIpcResult`. -/
def resultOf? (message : JsonObject) : Option JsonObject :=
  match Json.fields? (message.get? (js "payload")) with
  | some payload => Json.fields? (JsonObject.get? payload (js "result"))
  | none => none

/-- A line that is a result, with the id of a request and what it returns. -/
def IsResult (parse : JsString → Option Json) (text id : JsString) (result : Option Json) : Prop :=
  ∃ message fields, decodeMessage parse text = some message ∧ kindOf message = js "result" ∧
    message.get? (js "id") = some (.str id) ∧ resultOf? message = some fields ∧ result = some (.obj fields)

theorem exists_readPayload {message : JsonObject} (h : payloadReadable message = true) (name : JsString) :
    ∃ value, readPayload message name = .ok value := by
  rw [payloadReadable] at h
  rw [readPayload]
  split at h
  · cases h
  · cases h
  · next value hnull hvalue =>
    rw [hvalue]
    cases value with
    | null => exact absurd rfl hnull
    | obj fields => exact ⟨_, rfl⟩
    | bool b => exact ⟨_, rfl⟩
    | num q => exact ⟨_, rfl⟩
    | str text => exact ⟨_, rfl⟩
    | arr items => exact ⟨_, rfl⟩

theorem readPayload_of_resultOf {message fields : JsonObject} (h : resultOf? message = some fields) :
    readPayload message (js "result") = .ok (some (.obj fields)) := by
  rw [resultOf?] at h
  split at h
  · next payload hpayload =>
    have hmessage : message.get? (js "payload") = some (.obj payload) := by
      revert hpayload
      cases message.get? (js "payload") with
      | none => exact nofun
      | some value =>
        cases value with
        | obj fields => exact fun h => by rw [Option.some.inj h]
        | null | bool | num | str | arr => exact nofun
    have hresult : JsonObject.get? payload (js "result") = some (.obj fields) := by
      revert h
      cases JsonObject.get? payload (js "result") with
      | none => exact nofun
      | some value =>
        cases value with
        | obj fields => exact fun h => by rw [Option.some.inj h]
        | null | bool | num | str | arr => exact nofun
    rw [readPayload, hmessage]
    exact congrArg _ hresult
  · cases h

theorem ne_resolved_of_errorOf {message : JsonObject} {outcome : Outcome} (h : errorOf message = .ok outcome)
    (result : Option Json) : outcome ≠ .resolved result := by
  rw [errorOf] at h
  split at h
  · split at h
    · rw [← Except.ok.inj h]
      exact nofun
    · cases h
  all_goals cases h

/-! ## Requests -/

def waitedFor (pending : List (JsString × PendingInvoke)) : List Nat := pending.map (·.2.call)

/-- Every call is waited for, or has settled, and only once. -/
def Balanced (pending : List (JsString × PendingInvoke)) (invocations : List Invocation) : Prop :=
  Entries (fun k call => call.outcomes.length + (waitedFor pending).count k = 1) invocations

variable {pending : List (JsString × PendingInvoke)} {invocations : List Invocation}

theorem Balanced.settle {id : JsString} {waiter : PendingInvoke}
    (h : Balanced ((id, waiter) :: pending) invocations) (outcome : Outcome) :
    Balanced pending (settle invocations waiter.call outcome) := by
  intro k call hcall
  rcases getElem?_modify_eq_some hcall with ⟨hk, hold⟩ | ⟨rfl, before, hold, rfl⟩
  · have hcount := h k call hold
    rwa [waitedFor, List.map_cons, List.count_cons_of_ne hk] at hcount
  · have hcount := h _ before hold
    rw [waitedFor, List.map_cons, List.count_cons_self] at hcount
    rw [List.length_append, List.length_singleton, ← hcount, waitedFor]
    omega

theorem Balanced.settleAll (h : Balanced pending invocations) (error : Thrown) :
    Balanced [] (settleAll error pending invocations) := by
  induction pending generalizing invocations with
  | nil => exact h
  | cons entry pending ih => exact ih (h.settle (.rejected error))

theorem Balanced.perm {pending' : List (JsString × PendingInvoke)} (h : Balanced pending invocations)
    (hperm : pending.Perm pending') : Balanced pending' invocations := by
  intro k call hcall
  rw [waitedFor, ← (hperm.map _).count_eq]
  exact h k call hcall

theorem perm_entries_erase {m : InsertionMap JsString PendingInvoke} {id : JsString} {waiter : PendingInvoke}
    (h : m.get? id = some waiter) : m.entries.Perm ((id, waiter) :: (m.erase id).entries) := by
  have hmem := InsertionMap.get?_eq_some_iff.mp h
  have hnot : (id, waiter) ∉ (m.erase id).entries := fun hin => by
    have hgone := InsertionMap.get?_eq_some_iff.mpr hin
    rw [InsertionMap.get?_erase_self] at hgone
    cases hgone
  refine (List.perm_ext_iff_of_nodup m.nodup.of_map
    (List.nodup_cons.mpr ⟨hnot, (m.erase id).nodup.of_map⟩)).mpr fun entry => ?_
  rw [List.mem_cons]
  constructor
  · intro hentry
    by_cases hid : entry.1 = id
    · exact .inl (Prod.ext hid (InsertionMap.eq_of_mem (by rw [← hid]; exact hentry) hmem))
    · exact .inr (List.mem_filter.mpr ⟨hentry, by simpa using hid⟩)
  · rintro (rfl | hentry)
    · exact hmem
    · exact (List.mem_filter.mp hentry).1

/-! ## What a run keeps -/

/-- What a process remembers of its requests, and what it has read. -/
structure Requests where
  pending : InsertionMap JsString PendingInvoke
  invocations : List Invocation
  requestSequence : Nat
  lines : List (Nat × JsString)
  thrown : List Thrown

section Tracked

variable (parse : JsString → Option Json)

/-- The worker a call was sent to has answered it with a result. -/
def Answered (lines : List (Nat × JsString)) (call : Invocation) (result : Option Json) : Prop :=
  ∃ id worker text, call.requestId = some id ∧ call.worker = some worker ∧ (worker, text) ∈ lines ∧
    IsResult parse text id result

def ResolvedSound (lines : List (Nat × JsString)) (call : Invocation) : Prop :=
  ∀ result, .resolved result ∈ call.outcomes → Answered parse lines call result

/-- What holds of the requests between two events. -/
structure Tracked (r : Requests) : Prop where
  balanced : Balanced r.pending.entries r.invocations
  pending : ∀ id waiter, r.pending.get? id = some waiter →
    (∃ n ≤ r.requestSequence, id = requestIdOf n) ∧
      ∃ call, r.invocations[waiter.call]? = some call ∧ call.requestId = some id ∧ call.worker.isSome = true
  resolved : Entries (fun _ => ResolvedSound parse r.lines) r.invocations
  thrown : r.thrown = []

end Tracked

variable {parse : JsString → Option Json} {lines : List (Nat × JsString)} {r : Requests}

theorem ResolvedSound.mono {call : Invocation} (h : ResolvedSound parse lines call)
    (more : List (Nat × JsString)) : ResolvedSound parse (lines ++ more) call := by
  intro result hresult
  obtain ⟨id, worker, text, hid, hworker, hline, hisResult⟩ := h result hresult
  exact ⟨id, worker, text, hid, hworker, List.mem_append_left _ hline, hisResult⟩

theorem ResolvedSound.settle {call : Invocation} (h : ResolvedSound parse lines call) {outcome : Outcome}
    (houtcome : ∀ result, outcome = .resolved result → Answered parse lines call result) :
    ResolvedSound parse lines { call with outcomes := call.outcomes ++ [outcome] } := by
  intro result hresult
  rcases List.mem_append.mp hresult with hold | hnew
  · exact h result hold
  · exact houtcome result (List.mem_singleton.mp hnew).symm

/-- **A request is settled.** -/
theorem Tracked.settle (h : Tracked parse r) {id : JsString} {waiter : PendingInvoke}
    (hwaiter : r.pending.get? id = some waiter) {outcome : Outcome}
    (houtcome : ∀ result, outcome = .resolved result →
      ∀ call, r.invocations[waiter.call]? = some call → Answered parse r.lines call result) :
    Tracked parse { r with
      pending := r.pending.erase id, invocations := settle r.invocations waiter.call outcome } := by
  refine ⟨(h.balanced.perm (perm_entries_erase hwaiter)).settle outcome, fun other waiter' hother => ?_,
    fun k call hcall => ?_, h.thrown⟩
  · have hne : other ≠ id := by
      rintro rfl
      rw [InsertionMap.get?_erase_self] at hother
      cases hother
    rw [InsertionMap.get?_erase_of_ne _ hne] at hother
    obtain ⟨hid, call, hcall, hrequest, hworker⟩ := h.pending other waiter' hother
    refine ⟨hid, ?_⟩
    by_cases hk : waiter.call = waiter'.call
    · rw [← hk] at hcall ⊢
      exact ⟨_, getElem?_modify_self _ hcall, hrequest, hworker⟩
    · exact ⟨call, (getElem?_modify_of_ne _ hk).trans hcall, hrequest, hworker⟩
  · rcases getElem?_modify_eq_some hcall with ⟨-, hold⟩ | ⟨rfl, before, hold, rfl⟩
    · exact h.resolved k call hold
    · exact (h.resolved _ before hold).settle fun result hresult => houtcome result hresult before hold

/-- **All requests are rejected.** -/
theorem Tracked.rejectAll (h : Tracked parse r) (error : Thrown) :
    Tracked parse { r with
      pending := .empty, invocations := settleAll error r.pending.entries r.invocations } := by
  have hresolved : ∀ (pending : List (JsString × PendingInvoke)) (invocations : List Invocation),
      Entries (fun _ => ResolvedSound parse r.lines) invocations →
        Entries (fun _ => ResolvedSound parse r.lines) (settleAll error pending invocations) := by
    intro pending
    induction pending with
    | nil => exact fun _ h => h
    | cons entry pending ih =>
      exact fun invocations h => ih _ (h.modify fun call hcall => hcall.settle nofun)
  refine ⟨h.balanced.settleAll error, fun id waiter hwaiter => ?_, hresolved _ _ h.resolved, h.thrown⟩
  rw [InsertionMap.get?_empty] at hwaiter
  cases hwaiter

theorem Tracked.count_eq_zero (h : Tracked parse r) :
    (waitedFor r.pending.entries).count r.invocations.length = 0 := by
  refine List.count_eq_zero_of_not_mem fun hmem => ?_
  obtain ⟨⟨id, waiter⟩, hentry, hcall⟩ := List.mem_map.mp hmem
  obtain ⟨-, call, hfound, -⟩ := h.pending id waiter (InsertionMap.get?_eq_some_iff.mpr hentry)
  rw [show waiter.call = r.invocations.length from hcall] at hfound
  exact absurd (List.getElem?_eq_some_iff.mp hfound).1 (Nat.lt_irrefl _)

theorem Tracked.pending_append (h : Tracked parse r) (call : Invocation) (sequence : Nat) {id : JsString}
    {waiter : PendingInvoke} (hwaiter : r.pending.get? id = some waiter) (hle : r.requestSequence ≤ sequence) :
    (∃ n ≤ sequence, id = requestIdOf n) ∧
      ∃ found, (r.invocations ++ [call])[waiter.call]? = some found ∧ found.requestId = some id ∧
        found.worker.isSome = true := by
  obtain ⟨⟨n, hn, hid⟩, found, hfound, hrequest⟩ := h.pending id waiter hwaiter
  exact ⟨⟨n, hn.trans hle, hid⟩, found, getElem?_append_of_eq_some _ hfound, hrequest⟩

theorem Tracked.refused (h : Tracked parse r) (error : Thrown) :
    Tracked parse { r with invocations := r.invocations ++ [{ outcomes := [.rejected error] }] } := by
  refine ⟨h.balanced.append ?_, fun id waiter hwaiter => h.pending_append _ _ hwaiter le_rfl,
    h.resolved.append fun result hresult => ?_, h.thrown⟩
  · rw [h.count_eq_zero]
    rfl
  · cases List.mem_singleton.mp hresult

theorem requestIdOf_inj {m n : Nat} (h : requestIdOf m = requestIdOf n) : m = n := by
  have hdecimal := List.append_cancel_left h
  rw [← parseDecimal_decimal m, hdecimal, parseDecimal_decimal]

/-- **A request is sent.** -/
theorem Tracked.sent (h : Tracked parse r) (waiter : PendingInvoke) (hcall : waiter.call = r.invocations.length)
    (worker : Nat) :
    Tracked parse { r with
      requestSequence := r.requestSequence + 1
      pending := r.pending.insert (requestIdOf (r.requestSequence + 1)) waiter
      invocations := r.invocations ++
        [{ requestId := some (requestIdOf (r.requestSequence + 1)), worker := some worker, outcomes := [] }] } := by
  have hnew : r.pending.get? (requestIdOf (r.requestSequence + 1)) = none := by
    by_contra hne
    obtain ⟨waiter', hwaiter'⟩ := Option.ne_none_iff_exists'.mp hne
    obtain ⟨⟨n, hn, hid⟩, -⟩ := h.pending _ waiter' hwaiter'
    have := requestIdOf_inj hid
    omega
  constructor
  case balanced =>
    show Balanced (r.pending.insert _ waiter).entries _
    rw [InsertionMap.entries_insert_of_not_mem hnew]
    intro k call hk
    rw [waitedFor, List.map_append, List.count_append]
    rcases getElem?_append_singleton_eq_some hk with hold | ⟨rfl, rfl⟩
    · have hlt := (List.getElem?_eq_some_iff.mp hold).1
      have hne : waiter.call ≠ k := by rw [hcall]; omega
      rw [List.map_singleton, List.count_singleton, if_neg (by simpa using hne)]
      exact h.balanced k call hold
    · have hzero := h.count_eq_zero
      rw [waitedFor] at hzero
      rw [hzero]
      simp [hcall]
  case pending =>
    intro id waiter' hwaiter'
    have hwaiter' : (r.pending.insert (requestIdOf (r.requestSequence + 1)) waiter).get? id = some waiter' :=
      hwaiter'
    by_cases hid : id = requestIdOf (r.requestSequence + 1)
    · subst hid
      rw [InsertionMap.get?_insert_self] at hwaiter'
      obtain rfl := Option.some.inj hwaiter'
      refine ⟨⟨_, le_rfl, rfl⟩, ?_⟩
      rw [hcall]
      exact ⟨_, List.getElem?_concat_length, rfl, rfl⟩
    · rw [InsertionMap.get?_insert_of_ne _ _ hid] at hwaiter'
      exact h.pending_append _ _ hwaiter' (Nat.le_succ _)
  case resolved => exact h.resolved.append fun result hresult => absurd hresult List.not_mem_nil
  case thrown => exact h.thrown

theorem Tracked.read (h : Tracked parse r) (line : Nat × JsString) :
    Tracked parse { r with lines := r.lines ++ [line] } :=
  ⟨h.balanced, h.pending, fun k call hcall => (h.resolved k call hcall).mono [line], h.thrown⟩

namespace ModuleProcess

variable (spec : ModuleSpawnSpec) (parse : JsString → Option Json)

def requests (s : ModuleProcess) : Requests :=
  ⟨s.pending, s.invocations, s.requestSequence, s.lines, s.thrown⟩

/-- Handling a line never throws; every invoke has settled once, or a timer still waits for it; and it is
resolved only with the result of a line that carries its request's id, of the worker it was sent to. -/
structure Isolated (s : ModuleProcess) : Prop where
  thrown : s.thrown = []
  once : ∀ (k : Nat) (call : Invocation), s.invocations[k]? = some call →
    call.outcomes.length = 1 ∨ call.outcomes = [] ∧
      ∃ id waiter, call.requestId = some id ∧ s.pending.get? id = some waiter ∧ waiter.call = k
  resolved : ∀ (k : Nat) (call : Invocation), s.invocations[k]? = some call →
    ∀ result, .resolved result ∈ call.outcomes → Answered parse s.lines call result

/-- A message that is about to be used has the payload its kind asks for, and a result comes from the worker
that was asked. -/
def Formed (s : ModuleProcess) : ProcessEvent → Prop
  | .line worker text emit => ∀ message ∈ decodeMessage parse text,
    (kindOf message = js "ready" → payloadReadable message = true) ∧
    (kindOf message = js "result" → ∀ waiter ∈ s.waiterOf message, (resultOf? message).isSome = true ∧
      ∀ call ∈ s.invocations[waiter.2.call]?, call.worker = some worker) ∧
    (kindOf message = js "error" → ∀ waiter ∈ s.waiterOf message, (errorOf message).isOk = true) ∧
    (kindOf message = js "event" → s.eventListeners ≠ 0 →
      payloadReadable message = true ∧ emit.isNone = true)
  | _ => True

variable {spec parse} {s s' : ModuleProcess}

theorem isolated_of_tracked (h : Tracked parse s.requests) : s.Isolated parse := by
  refine ⟨h.thrown, fun k call hcall => ?_, h.resolved⟩
  have hcount := h.balanced k call hcall
  by_cases hwaited : (waitedFor s.pending.entries).count k = 0
  · left
    have hcount : call.outcomes.length + (waitedFor s.pending.entries).count k = 1 := hcount
    omega
  · right
    have hnil : call.outcomes.length = 0 := by
      have hcount : call.outcomes.length + (waitedFor s.pending.entries).count k = 1 := hcount
      omega
    refine ⟨List.eq_nil_of_length_eq_zero hnil, ?_⟩
    obtain ⟨⟨id, waiter⟩, hentry, hk⟩ := List.mem_map.mp (List.count_pos_iff.mp (Nat.pos_of_ne_zero hwaited))
    have hwaiter := InsertionMap.get?_eq_some_iff.mpr hentry
    obtain ⟨-, found, hfound, hid, -⟩ := h.pending id waiter hwaiter
    rw [show waiter.call = k from hk] at hfound
    obtain rfl := Option.some.inj (hcall.symm.trans hfound)
    exact ⟨id, waiter, hid, hwaiter, hk⟩

@[simp] theorem requests_setState (s : ModuleProcess) (state : ModuleProcessState) :
    (s.setState spec state).requests = s.requests := by
  rw [setState]
  split <;> rfl

@[simp] theorem requests_spawnChild (s : ModuleProcess) (respawned : Bool) :
    (s.spawnChild spec respawned).requests = s.requests := by
  rw [spawnChild, requests_setState]
  rfl

@[simp] theorem requests_scheduleRestart (s : ModuleProcess) :
    (s.scheduleRestart spec).requests = s.requests := by
  rw [scheduleRestart]
  split
  · rfl
  · split <;> rw [requests_setState] <;> rfl

@[simp] theorem requests_endShutdowns (s : ModuleProcess) (worker : Nat) :
    (s.endShutdowns spec worker).requests = s.requests := by
  rw [endShutdowns]
  split
  · rw [requests_setState]
    rfl
  · rfl

theorem get?_of_waiterOf {message : JsonObject} {id : JsString} {waiter : PendingInvoke}
    (h : s.waiterOf message = some (id, waiter)) :
    message.get? (js "id") = some (.str id) ∧ s.pending.get? id = some waiter := by
  rw [waiterOf] at h
  split at h
  · next id' hid =>
    obtain ⟨waiter', hwaiter, heq⟩ := Option.map_eq_some_iff.mp h
    obtain ⟨rfl, rfl⟩ := Prod.mk.inj heq
    refine ⟨?_, hwaiter⟩
    revert hid
    cases message.get? (js "id") with
    | none => rintro ⟨⟩
    | some value =>
      cases value with
      | str text => exact fun h => by rw [Option.some.inj h]
      | null | bool | num | arr | obj => rintro ⟨⟩
  · cases h

/-- **A message is handled**, and nothing is thrown. -/
theorem tracked_onWorkerMessage (spec : ModuleSpawnSpec) (emit : Option Thrown)
    (h : Tracked parse s.requests) {worker : Nat} {text : JsString} {message : JsonObject} (hline : (worker, text) ∈ s.lines)
    (hmessage : decodeMessage parse text = some message)
    (hready : kindOf message = js "ready" → payloadReadable message = true)
    (hresult : kindOf message = js "result" → ∀ waiter ∈ s.waiterOf message,
      (resultOf? message).isSome = true ∧ ∀ call ∈ s.invocations[waiter.2.call]?, call.worker = some worker)
    (herror : kindOf message = js "error" → ∀ waiter ∈ s.waiterOf message, (errorOf message).isOk = true)
    (hevent : kindOf message = js "event" → s.eventListeners ≠ 0 →
      payloadReadable message = true ∧ emit.isNone = true) :
    Tracked parse (s.onWorkerMessage spec message emit).1.requests ∧
      (s.onWorkerMessage spec message emit).2 = none := by
  rw [onWorkerMessage]
  split
  · next hkind =>
    obtain ⟨capabilities, hread⟩ := exists_readPayload (hready hkind) (js "capabilities")
    rw [hread]
    exact ⟨by rw [requests_setState]; exact h, rfl⟩
  · split
    · next hkind =>
      rw [onResult]
      split
      · exact ⟨h, rfl⟩
      · next id waiter hwaiter =>
        obtain ⟨hsome, hasked⟩ := hresult hkind _ hwaiter
        obtain ⟨fields, hfields⟩ := Option.isSome_iff_exists.mp hsome
        obtain ⟨hid, hpending⟩ := get?_of_waiterOf hwaiter
        rw [readPayload_of_resultOf hfields]
        refine ⟨h.settle hpending fun result hresolved call hcall => ?_, rfl⟩
        obtain ⟨-, found, hfound, hrequest, -⟩ := h.pending id waiter hpending
        obtain rfl := Option.some.inj (hcall.symm.trans hfound)
        exact ⟨id, worker, text, hrequest, hasked call hcall, hline, message, fields, hmessage, hkind, hid,
          hfields, (Outcome.resolved.inj hresolved).symm⟩
    · split
      · next hkind =>
        rw [onError]
        split
        · exact ⟨h, rfl⟩
        · next id waiter hwaiter =>
          have hok := herror hkind _ hwaiter
          obtain ⟨-, hpending⟩ := get?_of_waiterOf hwaiter
          cases houtcome : errorOf message with
          | error e => rw [houtcome] at hok; cases hok
          | ok outcome =>
            exact ⟨h.settle hpending fun result hresolved =>
              absurd hresolved (ne_resolved_of_errorOf houtcome result), rfl⟩
      · split
        · next hkind =>
          split
          · exact ⟨h, rfl⟩
          · next hlisteners =>
            obtain ⟨hreadable, hemit⟩ := hevent hkind hlisteners
            obtain ⟨event, hread⟩ := exists_readPayload hreadable (js "event")
            rw [hread]
            exact ⟨h, Option.isNone_iff_eq_none.mp hemit⟩
        · split <;> exact ⟨h, rfl⟩

/-- **A formed event** keeps the requests tracked. -/
theorem tracked_step (h : Tracked parse s.requests) {event : ProcessEvent} (hformed : s.Formed parse event)
    (hstep : s.step spec parse event = some s') : Tracked parse s'.requests := by
  cases event <;> simp only [step] at hstep
  case start =>
    obtain rfl := Option.some.inj hstep
    rw [start, requests_spawnChild]
    exact h
  case initWritten worker error =>
    split at hstep
    · next w hw =>
      split at hstep
      · cases hstep
      · obtain rfl := Option.some.inj hstep
        rw [onInitWritten]
        dsimp only
        split
        · split
          · rw [requests_scheduleRestart]
            exact h
          · exact h
        · exact h
    · cases hstep
  case line worker text emit =>
    split at hstep
    · split at hstep
      · obtain rfl := Option.some.inj hstep
        have hread := h.read (worker, text)
        rw [onLine]
        dsimp only
        split
        · exact hread
        · next message hmessage =>
          obtain ⟨hready, hresult, herror, hevent⟩ := hformed message hmessage
          obtain ⟨htracked, hthrown⟩ := tracked_onWorkerMessage spec emit
            (s := { s with
              lines := s.lines ++ [(worker, text)]
              workers := s.workers.modify worker fun w => { w with heard := s.now } })
            hread (List.mem_append_right _ (List.mem_singleton.mpr rfl)) hmessage hready hresult herror hevent
          refine ⟨htracked.balanced, htracked.pending, htracked.resolved, ?_⟩
          rw [hthrown]
          exact (List.append_nil _).trans htracked.thrown
      · cases hstep
    · cases hstep
  case exit worker reason =>
    split at hstep
    · split at hstep
      · obtain rfl := Option.some.inj hstep
        rw [onExit, requests_endShutdowns]
        have hrejected : Tracked parse (s.exited spec worker reason).requests :=
          h.rejectAll (spec.crashedError reason)
        split
        · rwa [requests_setState]
        · rwa [requests_scheduleRestart]
      · cases hstep
    · cases hstep
  case restartDue timer =>
    split at hstep
    · split at hstep
      · obtain rfl := Option.some.inj hstep
        split
        · exact h
        · rw [requests_spawnChild]
          exact h
      · cases hstep
    · cases hstep
  case watchdogDue =>
    split at hstep
    · split at hstep
      · obtain rfl := Option.some.inj hstep
        have hrejected := h.rejectAll (spec.crashedError (js "heartbeat timeout"))
        rw [onWatchdog]
        dsimp only
        split
        · exact h
        · split <;> exact hrejected
      · cases hstep
    · cases hstep
  case invoke capability timeoutMs =>
    obtain rfl := Option.some.inj hstep
    rw [invoke]
    split
    · exact h.refused _
    · split
      · exact h.sent _ rfl _
      · exact h.refused _
  case invokeDue requestId =>
    split at hstep
    · next waiter hwaiter =>
      split at hstep
      · obtain rfl := Option.some.inj hstep
        exact h.settle hwaiter (by rintro _ ⟨⟩)
      · cases hstep
    · cases hstep
  case shutdown =>
    obtain rfl := Option.some.inj hstep
    rw [shutdown]
    dsimp only
    split
    · exact h
    · exact h.rejectAll (spec.deadError (js "host shutting down"))
  case shutdownDue call =>
    split at hstep
    · split at hstep
      · obtain rfl := Option.some.inj hstep
        rw [onShutdownDue, requests_setState]
        exact h
      · cases hstep
    · cases hstep
  case onEvent =>
    obtain rfl := Option.some.inj hstep
    exact h
  case offEvent =>
    obtain rfl := Option.some.inj hstep
    exact h
  case elapse ms =>
    split at hstep
    · obtain rfl := Option.some.inj hstep
      exact h
    · cases hstep

/-- **Crashes are isolated** in every run whose messages are formed. -/
theorem isolated_of_formed {events : List ProcessEvent} (hrun : (machine spec parse).run {} events = some s)
    (hformed : (machine spec parse).Guarded (Formed parse) {} events) : s.Isolated parse := by
  have hstart : Tracked parse (requests {}) := by
    refine ⟨Entries.nil, fun id waiter hwaiter => ?_, Entries.nil, rfl⟩
    rw [show (requests {}).pending.get? id = none from InsertionMap.get?_empty id] at hwaiter
    cases hwaiter
  exact isolated_of_tracked ((machine spec parse).run_guarded_invariant (I := fun s => Tracked parse s.requests)
    (fun s event s' h hformed hstep => tracked_step h hformed hstep) hstart hformed hrun)

instance (event : ProcessEvent) : Decidable (s.Formed parse event) :=
  match event with
  | .line _ _ _ => by
    dsimp only [Formed]
    infer_instance
  | .start | .initWritten _ _ | .exit _ _ | .restartDue _ | .watchdogDue | .invoke _ _ | .invokeDue _ | .shutdown
  | .shutdownDue _ | .onEvent | .offEvent | .elapse _ => isTrue trivial

/-! ## A result without a payload -/

def resultLine : JsString :=
  js "\x7b\"v\":1,\"id\":\"inv_1\",\"kind\":\"result\",\"payload\":\x7b\"result\":\x7b\x7d\x7d\x7d"

def bareLine : JsString := js "\x7b\"v\":1,\"id\":\"inv_1\",\"kind\":\"result\"\x7d"

/-- `JSON.parse`, of the lines of this worker. -/
def parseAnswers (text : JsString) : Option Json :=
  let bare := [(js "v", .num 1), (js "id", .str (js "inv_1")), (js "kind", .str (js "result"))]
  if text = resultLine then some (.obj (bare ++ [(js "payload", .obj [(js "result", .obj [])])]))
  else if text = bareLine then some (.obj bare)
  else parseReady text

def asking (line : JsString) : List ProcessEvent :=
  [.start, .initWritten 0 none, .line 0 readyLine none, .invoke (js "ping") 10000, .line 0 line none]

/-- The worker answers. -/
theorem isolated_of_formed_asking :
    ∃ s, (machine ⟨js "m", 1000, {}⟩ parseAnswers).run {} (asking resultLine) = some s ∧
      s.invocations.map (·.outcomes.length) = [1] ∧ s.Isolated parseAnswers := by
  obtain ⟨s, hs, hview⟩ := Option.map_eq_some_iff.mp
    (show ((machine ⟨js "m", 1000, {}⟩ parseAnswers).run {} (asking resultLine)).map
      (fun s => s.invocations.map (·.outcomes.length)) = some [1] by decide +kernel)
  exact ⟨s, hs, hview, isolated_of_formed hs (by decide +kernel)⟩

/-- The worker answers without a payload: the host throws, and the call never settles. -/
theorem not_isolated :
    ∃ s, (machine ⟨js "m", 1000, {}⟩ parseAnswers).run {} (asking bareLine) = some s ∧
      ¬ s.Isolated parseAnswers := by
  obtain ⟨s, hs, hview⟩ := Option.map_eq_some_iff.mp
    (show ((machine ⟨js "m", 1000, {}⟩ parseAnswers).run {} (asking bareLine)).map
      (fun s => s.thrown.length) = some 1 by decide +kernel)
  refine ⟨s, hs, fun h => ?_⟩
  rw [h.thrown] at hview
  cases hview

end ModuleProcess

end Pinout.ModuleHost
