import Pinout.Protocol.Correlation

/-! # Resilience

What the read loop does with a line that is no response to a pending request. A line that cannot be
parsed, a request, or a response with an unknown id is passed over. An event is handled outside of the
`try` of the loop: when the check of a `ready` event or a listener throws, the loop ends and every
pending request is rejected. So the requests in flight survive a list of lines exactly when no event
among them throws (`resilient_iff_quiet`). -/

namespace Pinout.Protocol

open Foundation

namespace Session

section

variable (numText : ℚ → JsString) (parse : JsString → Option Json)

def Answers (id line : JsString) : Prop :=
  (∃ result, parseLine numText parse line = .ok (some (.success id result))) ∨
    ∃ code message, parseLine numText parse line = .ok (some (.failure id code message))

/-- If the line is an event, its handling does not throw: a `ready` event has a valid identity, and no
listener throws. -/
def Quiet (line : JsString) (reaction : Option Thrown) : Prop :=
  ∀ name payload, parseLine numText parse line = .ok (some (.event name payload)) →
    (name = js "ready" → ∃ info, parseDeviceInfo numText payload = .ok info) ∧ reaction = none

/-- A line of the device, with what a listener throws if it is an event. -/
def received (e : JsString × Option Thrown) : Action := .line e.1 e.2

/-- What the lines leave as it is: the read loop, and the requests that none of them answers. -/
structure Undisturbed (lines : List (JsString × Option Thrown)) (s t : Session) : Prop where
  reading : t.readers = s.readers
  pending : ∀ id, (∀ e ∈ lines, ¬ Answers numText parse id e.1) →
    t.pending.get? id = s.pending.get? id
  /-- The promise of a request that no line answers is not settled by them. -/
  promises : ∀ id p, s.pending.get? id = some p → (∀ e ∈ lines, ¬ Answers numText parse id e.1) →
    t.promises[p.number]? = s.promises[p.number]?
  /-- A later success response resolves a request that no line answers. -/
  resolves : ∀ id p, s.pending.get? id = some p → (∀ e ∈ lines, ¬ Answers numText parse id e.1) →
    s.promises[p.number]? = some none → ∀ line reaction result,
      parseLine numText parse line = .ok (some (.success id result)) →
      ∃ u, (machine numText parse).step t (.line line reaction) = some u ∧
        u.promises[p.number]? = some (some (.resolved result))

/-- The session takes all the lines, and they leave the requests alone that they do not answer. -/
def Resilient (s : Session) (lines : List (JsString × Option Thrown)) : Prop :=
  ∃ t, (machine numText parse).run s (lines.map received) = some t ∧
    Undisturbed numText parse lines s t

end

variable {numText : ℚ → JsString} {parse : JsString → Option Json} {s t : Session}

/-! ## One line -/

/-- An event is handled without a throw when a `ready` event has a valid identity, and no listener
throws. -/
theorem handleEvent_eq_none_iff (s : Session) (name : JsString) (payload : JsonObject)
    (reaction : Option Thrown) :
    (s.handleEvent numText name payload reaction).2 = none ↔
      (name = js "ready" → ∃ info, parseDeviceInfo numText payload = .ok info) ∧
        reaction = none := by
  unfold handleEvent
  by_cases hname : name = js "ready"
  · rw [if_pos hname]
    cases hinfo : parseDeviceInfo numText payload with
    | error error => simp [hname]
    | ok info => simp
  · simp [hname]

variable (numText) in
theorem handleEvent_fst (s : Session) (name : JsString) (payload : JsonObject)
    (reaction : Option Thrown) :
    ∃ info, (s.handleEvent numText name payload reaction).1 = { s with deviceInfo := info } := by
  unfold handleEvent
  split
  · split
    · exact ⟨s.deviceInfo, rfl⟩
    · next info _ => exact ⟨some info, rfl⟩
  · exact ⟨s.deviceInfo, rfl⟩

/-- A quiet line is passed over, sets the device information, or is a response. -/
theorem handleLine_of_quiet {line : JsString} {reaction : Option Thrown}
    (h : Quiet numText parse line reaction) (s : Session) :
    (∃ info, s.handleLine numText parse line reaction = { s with deviceInfo := info }) ∨
      ∃ id outcome, Answers numText parse id line ∧
        s.handleLine numText parse line reaction = s.handleResponse id outcome := by
  unfold handleLine
  split
  · exact Or.inl ⟨s.deviceInfo, rfl⟩
  · exact Or.inl ⟨s.deviceInfo, rfl⟩
  · next name payload hparse =>
    have hnone := (handleEvent_eq_none_iff s name payload reaction).mpr (h name payload hparse)
    obtain ⟨info, hfst⟩ := handleEvent_fst numText s name payload reaction
    split
    · next hresult =>
      rw [hresult] at hfst
      exact Or.inl ⟨info, hfst⟩
    · next hresult =>
      rw [hresult] at hnone
      cases hnone
  · next id result hparse => exact Or.inr ⟨id, _, Or.inl ⟨result, hparse⟩, rfl⟩
  · next id code message hparse => exact Or.inr ⟨id, _, Or.inr ⟨code, message, hparse⟩, rfl⟩
  · exact Or.inl ⟨s.deviceInfo, rfl⟩

theorem handleLine_of_not_quiet {line : JsString} {reaction : Option Thrown}
    (h : ¬ Quiet numText parse line reaction) (s : Session) :
    ∃ info error, s.handleLine numText parse line reaction =
      { s with deviceInfo := info }.endLoop (some error) := by
  unfold Quiet at h
  push Not at h
  obtain ⟨name, payload, hparse, hthrows⟩ := h
  have hsome : (s.handleEvent numText name payload reaction).2 ≠ none := by
    rw [Ne, handleEvent_eq_none_iff]
    rintro ⟨hready, hreaction⟩
    exact hthrows hready hreaction
  obtain ⟨info, hfst⟩ := handleEvent_fst numText s name payload reaction
  obtain ⟨error, herror⟩ := Option.ne_none_iff_exists'.mp hsome
  refine ⟨info, error, ?_⟩
  have hresult : s.handleEvent numText name payload reaction = ({ s with deviceInfo := info }, some error) :=
    Prod.ext hfst herror
  unfold handleLine
  rw [hparse]
  dsimp only
  rw [hresult]

theorem readers_endLoop (s : Session) (error : Option Thrown) :
    (s.endLoop error).readers = s.readers - 1 := by
  unfold endLoop
  cases error with
  | none => exact (rejectEach_rest _ _ _).2.2
  | some error =>
    rw [rejectAll, (rejectEach_rest _ _ _).2.2]
    show (s.rejectAll _).readers - 1 = _
    rw [rejectAll, (rejectEach_rest _ _ _).2.2]

theorem readers_handleResponse (s : Session) (id : JsString) (outcome : Settlement) :
    (s.handleResponse id outcome).readers = s.readers := by
  unfold handleResponse
  split
  · rfl
  · exact (settle_rest _ _ _).2.2.2.2.2

theorem handleResponse_other (howns : s.Owns) {id other : JsString} (hne : other ≠ id)
    (outcome : Settlement) :
    (s.handleResponse id outcome).pending.get? other = s.pending.get? other ∧
      ∀ q, s.pending.get? other = some q →
        (s.handleResponse id outcome).promises[q.number]? = s.promises[q.number]? := by
  unfold handleResponse
  split
  · exact ⟨rfl, fun _ _ => rfl⟩
  · next p hp =>
    constructor
    · rw [(settle_rest _ _ _).1]
      exact InsertionMap.get?_erase_of_ne s.pending hne
    · intro q hq
      rw [getElem?_settle, if_neg]
      · rfl
      · intro hnumber
        refine hne ?_
        rw [howns other q hq, howns id p hp, hnumber]

/-- **One line.** A quiet line leaves the read loop as it is, and the requests that it does not
answer. -/
theorem handleLine_undisturbed (howns : s.Owns) {line : JsString} {reaction : Option Thrown}
    (h : Quiet numText parse line reaction) :
    (s.handleLine numText parse line reaction).readers = s.readers ∧
      ∀ id, ¬ Answers numText parse id line →
        (s.handleLine numText parse line reaction).pending.get? id = s.pending.get? id ∧
          ∀ p, s.pending.get? id = some p →
            (s.handleLine numText parse line reaction).promises[p.number]? =
              s.promises[p.number]? := by
  rcases handleLine_of_quiet h s with ⟨info, hline⟩ | ⟨id, outcome, hanswers, hline⟩
  · rw [hline]
    exact ⟨rfl, fun _ _ => ⟨rfl, fun _ _ => rfl⟩⟩
  · rw [hline]
    refine ⟨readers_handleResponse s id outcome, fun other hother => ?_⟩
    refine handleResponse_other howns ?_ outcome
    rintro rfl
    exact hother hanswers

theorem handleLine_resolves {id : JsString} {p : PendingRequest} (hp : s.pending.get? id = some p)
    (hnone : s.promises[p.number]? = some none) {line : JsString} {result : JsonObject}
    (hline : parseLine numText parse line = .ok (some (.success id result)))
    (reaction : Option Thrown) :
    (s.handleLine numText parse line reaction).promises[p.number]? =
      some (some (.resolved result)) := by
  unfold handleLine
  rw [hline]
  show (s.handleResponse id (.resolved result)).promises[p.number]? = _
  rw [handleResponse, hp]
  show ((s.finishPending id).settle p.number _).promises[p.number]? = _
  rw [getElem?_settle, if_pos rfl]
  show Option.map _ s.promises[p.number]? = _
  rw [hnone]
  rfl

/-! ## A list of lines -/

variable (numText parse) in
theorem step_line (hreading : 0 < s.readers) (line : JsString) (reaction : Option Thrown) :
    (machine numText parse).step s (.line line reaction) =
      some (s.handleLine numText parse line reaction) :=
  if_pos hreading

/-- Quiet lines are taken, and leave the requests alone that they do not answer. -/
theorem resilient_of_quiet (howns : s.Owns) (hreading : 0 < s.readers)
    {lines : List (JsString × Option Thrown)} (h : ∀ e ∈ lines, Quiet numText parse e.1 e.2) :
    Resilient numText parse s lines := by
  induction lines generalizing s with
  | nil =>
    refine ⟨s, rfl, rfl, fun _ _ => rfl, fun _ _ _ _ => rfl, ?_⟩
    intro id p hp _ hnone line reaction result hline
    exact ⟨_, step_line numText parse hreading line reaction, handleLine_resolves hp hnone hline reaction⟩
  | cons e lines ih =>
    obtain ⟨hreaders, hfirst⟩ :=
      handleLine_undisturbed howns (h e List.mem_cons_self)
    have hstep := step_line numText parse hreading e.1 e.2
    have hreading' : 0 < (s.handleLine numText parse e.1 e.2).readers := by
      rw [hreaders]
      exact hreading
    obtain ⟨t, hrun, hrest⟩ := ih (howns.step hstep) hreading'
      fun e' he' => h e' (List.mem_cons_of_mem e he')
    refine ⟨t, (Machine.run_cons_eq_some _).mpr ⟨_, hstep, hrun⟩, ?_, ?_, ?_, ?_⟩
    · rw [hrest.reading, hreaders]
    · intro id hid
      rw [hrest.pending id fun e' he' => hid e' (List.mem_cons_of_mem e he')]
      exact (hfirst id (hid e List.mem_cons_self)).1
    · intro id p hp hid
      obtain ⟨hpending, hpromises⟩ := hfirst id (hid e List.mem_cons_self)
      rw [hrest.promises id p (hpending.trans hp) fun e' he' => hid e' (List.mem_cons_of_mem e he')]
      exact hpromises p hp
    · intro id p hp hid hnone
      obtain ⟨hpending, hpromises⟩ := hfirst id (hid e List.mem_cons_self)
      exact hrest.resolves id p (hpending.trans hp)
        (fun e' he' => hid e' (List.mem_cons_of_mem e he')) ((hpromises p hp).trans hnone)

/-- Lines do not start read loops, and one that is not quiet ends one. -/
theorem readers_run {lines : List (JsString × Option Thrown)}
    (hrun : (machine numText parse).run s (lines.map received) = some t) :
    t.readers ≤ s.readers ∧
      ((∃ e ∈ lines, ¬ Quiet numText parse e.1 e.2) → t.readers < s.readers) := by
  induction lines generalizing s with
  | nil =>
    obtain rfl := Option.some.inj hrun
    refine ⟨le_rfl, ?_⟩
    rintro ⟨e, he, -⟩
    cases he
  | cons e lines ih =>
    obtain ⟨m, hm, hrest⟩ := (Machine.run_cons_eq_some _).mp hrun
    obtain ⟨hle, hlt⟩ := ih hrest
    replace hm : (if 0 < s.readers then some (s.handleLine numText parse e.1 e.2) else none) =
      some m := hm
    split at hm
    · next hreading =>
      obtain rfl := Option.some.inj hm
      by_cases hquiet : Quiet numText parse e.1 e.2
      · have hreaders : (s.handleLine numText parse e.1 e.2).readers = s.readers := by
          rcases handleLine_of_quiet hquiet s with ⟨info, hline⟩ | ⟨id, outcome, -, hline⟩
          · rw [hline]
          · rw [hline, readers_handleResponse]
        rw [hreaders] at hle hlt
        refine ⟨hle, ?_⟩
        rintro ⟨e', he', hnot⟩
        rcases List.mem_cons.mp he' with rfl | he'
        · exact absurd hquiet hnot
        · exact hlt ⟨e', he', hnot⟩
      · obtain ⟨info, error, hline⟩ := handleLine_of_not_quiet hquiet s
        have hreaders : (s.handleLine numText parse e.1 e.2).readers = s.readers - 1 := by
          rw [hline, readers_endLoop]
        rw [hreaders] at hle
        exact ⟨by omega, fun _ => by omega⟩
    · cases hm

/-- In every state of a run from a new session, pending requests are under their own ids. -/
theorem owns_run {sessionId : JsString} {timeoutMs : ℚ} {connectSignal : Option Nat}
    {actions : List Action}
    (hrun : (machine numText parse).run (Session.new sessionId timeoutMs connectSignal) actions =
      some s) : s.Owns :=
  Machine.run_invariant (fun _ _ _ howns hstep => howns.step hstep)
    (Correlated.new sessionId timeoutMs connectSignal).own hrun

/-- **Resilience.** In every reachable state of a session with a read loop, a list of lines leaves the
loop running and the requests in flight alone that it does not answer, and these can still be
resolved — if and only if no line of it is a `ready` event without a valid identity, or an event at
which a listener throws. -/
theorem resilient_iff_quiet {sessionId : JsString} {timeoutMs : ℚ} {connectSignal : Option Nat}
    {actions : List Action}
    (hrun : (machine numText parse).run (Session.new sessionId timeoutMs connectSignal) actions =
      some s) (hreading : 0 < s.readers) (lines : List (JsString × Option Thrown)) :
    Resilient numText parse s lines ↔ ∀ e ∈ lines, Quiet numText parse e.1 e.2 := by
  constructor
  · rintro ⟨t, hlines, hundisturbed⟩ e he
    by_contra hnot
    exact absurd hundisturbed.reading ((readers_run hlines).2 ⟨e, he, hnot⟩).ne
  · exact resilient_of_quiet (owns_run hrun) hreading

/-- Boot noise and an incomplete frame, while a request is in flight. -/
theorem resilient_iff_quiet_noise :
    ∃ s, (machine (fun _ => []) fun _ => none).run (Session.new (js "s") 5000 none)
        [.opened, .request (js "sys.hello") (.record []) {} (.ok ())] = some s ∧
      Resilient (fun _ => []) (fun _ => none) s [(js "ets Jul 29 2019", none), (js "\x7b", none)] := by
  have hnoise : parseLine (fun _ => []) (fun _ => none) (js "ets Jul 29 2019") = .ok none := rfl
  have hframe : parseLine (fun _ => []) (fun _ => none) (js "\x7b") =
      .error (protocolError (js "Device sent invalid JSON: \x7b")) := rfl
  obtain ⟨s, hrun, hreading⟩ : ∃ s, (machine (fun _ => []) fun _ => none).run
      (Session.new (js "s") 5000 none)
      [.opened, .request (js "sys.hello") (.record []) {} (.ok ())] = some s ∧ 0 < s.readers :=
    ⟨_, rfl, Nat.one_pos⟩
  refine ⟨s, hrun, (resilient_iff_quiet hrun hreading _).mpr ?_⟩
  intro e he
  rcases List.mem_cons.mp he with rfl | he
  · intro name payload hevent
    rw [hnoise] at hevent
    cases hevent
  · obtain rfl := List.mem_singleton.mp he
    intro name payload hevent
    rw [hframe] at hevent
    cases hevent

/-- The text of a `ready` event without an identity. -/
def emptyReady : JsString := js "\x7b\"v\":1,\"event\":\"ready\",\"payload\":\x7b\x7d\x7d"

/-- **A `ready` event without an identity.** With any `JSON.parse` that reads the event, it ends the read
loop of a session with a request in flight. -/
theorem not_resilient_emptyReady :
    ¬ ∃ (numText : ℚ → JsString) (parse : JsString → Option Json),
      parse emptyReady = some (.obj [(js "v", .num 1), (js "event", .str (js "ready")),
        (js "payload", .obj [])]) ∧
      ∀ sessionId timeoutMs connectSignal actions s,
        (machine numText parse).run (Session.new sessionId timeoutMs connectSignal) actions = some s →
        0 < s.readers → ∀ lines, Resilient numText parse s lines := by
  rintro ⟨numText, parse, hparse, hresilient⟩
  obtain ⟨t, hrun, hundisturbed⟩ := hresilient (js "s") 5000 none
    [.opened, .request (js "sys.hello") (.record []) {} (.ok ())] _ rfl Nat.one_pos
    [(emptyReady, none)]
  have hevent : parseLine numText parse emptyReady = .ok (some (.event (js "ready") [])) := by
    have htrim : trim (stripCarriageReturn emptyReady) = emptyReady := by decide +kernel
    have hhead : emptyReady.head? = some 123 := by decide +kernel
    rw [parseLine, decodeLine, htrim, hhead, hparse]
    rfl
  refine absurd hundisturbed.reading ((readers_run hrun).2 ⟨_, List.mem_singleton_self _, ?_⟩).ne
  intro hquiet
  obtain ⟨info, hinfo⟩ := (hquiet _ _ hevent).1 rfl
  cases hinfo

end Session

end Pinout.Protocol
