import Pinout.Protocol.Session

/-! # Request correlation

Which promises are settled, and by what. Every action but the arrival of a success response leaves the
settled promises alone and only rejects (`OnlyRejects`); and in every state the pending requests are
those whose promises are not settled (`Tracks`), except that a request at which `JSON.stringify` or
`transport.write` throws at once is rejected and stays pending. So the correlation holds along a run
exactly when no request is of that kind (`settles_iff_sends`). -/

namespace Pinout.Protocol

open Foundation

namespace Session

variable {numText : ℚ → JsString} {parse : JsString → Option Json} {s t u : Session} {a : Action}

/-! ## Ids -/

theorem requestId_inj {sessionId : JsString} {n m : Nat}
    (h : requestId sessionId n = requestId sessionId m) : n = m := by
  have hdecimal : decimal n = decimal m := List.append_cancel_left h
  have hnumber := congrArg parseDecimal hdecimal
  rwa [parseDecimal_decimal, parseDecimal_decimal] at hnumber

/-! ## Settling a promise -/

/-- The promises after one of them was settled: that one has the outcome it had, or else the new one. -/
theorem getElem?_settle (s : Session) (n m : Nat) (outcome : Settlement) :
    (s.settle n outcome).promises[m]? =
      if m = n then s.promises[n]?.map fun x => some (x.getD outcome) else s.promises[m]? := by
  unfold settle
  split
  · next hnone =>
    have hlt : n < s.promises.length := (List.getElem?_eq_some_iff.mp hnone).1
    show (s.promises.set n (some outcome))[m]? = _
    rw [List.getElem?_set]
    by_cases hm : n = m
    · subst hm
      rw [if_pos rfl, if_pos hlt, if_pos rfl, hnone]
      rfl
    · rw [if_neg hm, if_neg fun h => hm h.symm]
  · next hother =>
    split
    · next hm =>
      subst hm
      rcases hx : s.promises[m]? with _ | _ | x
      · rfl
      · exact absurd hx hother
      · rfl
    · rfl

theorem settle_rest (s : Session) (n : Nat) (outcome : Settlement) :
    (s.settle n outcome).pending = s.pending ∧ (s.settle n outcome).sessionId = s.sessionId ∧
      (s.settle n outcome).nextRequestId = s.nextRequestId ∧
      (s.settle n outcome).promises.length = s.promises.length ∧
      (s.settle n outcome).closed = s.closed ∧ (s.settle n outcome).readers = s.readers := by
  unfold settle
  split
  · exact ⟨rfl, rfl, rfl, List.length_set, rfl, rfl⟩
  · exact ⟨rfl, rfl, rfl, rfl, rfl, rfl⟩

/-! ## Actions that only reject -/

def Owns (s : Session) : Prop :=
  ∀ id p, s.pending.get? id = some p → id = requestId s.sessionId p.number

/-- Settled promises stay as they are, those settled in between were rejected, and a request that has
become pending is under its own id. -/
structure OnlyRejects (s t : Session) : Prop where
  sessionId : t.sessionId = s.sessionId
  kept : ∀ (n : Nat) (x : Settlement), s.promises[n]? = some (some x) →
    t.promises[n]? = some (some x)
  rejected : ∀ (n : Nat) (x : Settlement), t.promises[n]? = some (some x) →
    s.promises[n]? = some (some x) ∨ ∃ error, x = .rejected error
  own : ∀ id p, t.pending.get? id = some p →
    s.pending.get? id = some p ∨ id = requestId s.sessionId p.number

theorem onlyRejects_of_eq (hid : t.sessionId = s.sessionId) (h : t.promises = s.promises)
    (hpending : t.pending = s.pending) : OnlyRejects s t := by
  refine ⟨hid, fun n x hx => ?_, fun n x hx => Or.inl ?_, fun id p hp => Or.inl ?_⟩
  · rwa [h]
  · rwa [h] at hx
  · rwa [hpending] at hp

theorem OnlyRejects.trans (h : OnlyRejects s t) (h' : OnlyRejects t u) : OnlyRejects s u := by
  refine ⟨h'.sessionId.trans h.sessionId, fun n x hx => h'.kept n x (h.kept n x hx),
    fun n x hx => ?_, fun id p hp => ?_⟩
  · rcases h'.rejected n x hx with hx | hx
    · exact h.rejected n x hx
    · exact Or.inr hx
  · rcases h'.own id p hp with hp | hp
    · exact h.own id p hp
    · rw [h.sessionId] at hp
      exact Or.inr hp

/-- What comes before touches neither the promises nor the pending requests. -/
theorem OnlyRejects.after (h : OnlyRejects t u) (hid : t.sessionId = s.sessionId)
    (heq : t.promises = s.promises) (hpending : t.pending = s.pending) : OnlyRejects s u :=
  (onlyRejects_of_eq hid heq hpending).trans h

/-- A session that only rejects keeps the pending requests under their own ids. -/
theorem OnlyRejects.owns (h : OnlyRejects s t) (howns : s.Owns) : t.Owns := by
  intro id p hp
  rw [h.sessionId]
  rcases h.own id p hp with hold | hown
  · exact howns id p hold
  · exact hown

theorem onlyRejects_settle (s : Session) (n : Nat) (error : Thrown) :
    OnlyRejects s (s.settle n (.rejected error)) := by
  obtain ⟨hpending, hid, -, -, -, -⟩ := settle_rest s n (.rejected error)
  refine ⟨hid, fun m x hx => ?_, fun m x hx => ?_, fun id p hp => Or.inl ?_⟩
  · rw [getElem?_settle]
    split
    · next hm =>
      subst hm
      rw [hx]
      rfl
    · exact hx
  · rw [getElem?_settle] at hx
    split at hx
    · next hm =>
      subst hm
      rcases hold : s.promises[m]? with _ | _ | y
      · rw [hold] at hx
        cases hx
      · rw [hold] at hx
        exact Or.inr ⟨error, (Option.some.inj (Option.some.inj hx)).symm⟩
      · rw [hold] at hx
        exact Or.inl hx
    · exact Or.inl hx
  · rwa [hpending] at hp

theorem onlyRejects_finishPending (s : Session) (id : JsString) :
    OnlyRejects s (s.finishPending id) := by
  refine ⟨rfl, fun _ _ hx => hx, fun _ _ hx => Or.inl hx, fun id' p hp => Or.inl ?_⟩
  replace hp : (s.pending.erase id).get? id' = some p := hp
  rw [InsertionMap.get?_erase] at hp
  split at hp
  · cases hp
  · exact hp

theorem onlyRejects_finish (s : Session) (id : JsString) (n : Nat) (error : Thrown) :
    OnlyRejects s ((s.finishPending id).settle n (.rejected error)) :=
  (onlyRejects_finishPending s id).trans (onlyRejects_settle (s.finishPending id) n error)

theorem onlyRejects_rejectEach (s : Session) (error : PendingRequest → Thrown)
    (entries : List (JsString × PendingRequest)) : OnlyRejects s (s.rejectEach error entries) := by
  induction entries generalizing s with
  | nil => exact onlyRejects_of_eq rfl rfl rfl
  | cons e entries ih => exact (onlyRejects_finish s e.1 e.2.number (error e.2)).trans (ih _)

/-- A promise that is not settled is added, and its request is pending. -/
theorem onlyRejects_register (s : Session) {p : PendingRequest} (hp : p.number = s.nextRequestId) :
    OnlyRejects s (s.register p) := by
  have hadded : ∀ n, (s.register p).promises[n]? =
      if n = s.promises.length then some none else s.promises[n]? := by
    intro n
    show (s.promises ++ [none])[n]? = _
    rcases lt_trichotomy n s.promises.length with hn | rfl | hn
    · rw [List.getElem?_append_left hn, if_neg hn.ne]
    · rw [List.getElem?_concat_length, if_pos rfl]
    · rw [if_neg hn.ne', List.getElem?_eq_none hn.le, List.getElem?_eq_none]
      rw [List.length_append, List.length_singleton]
      exact hn
  refine ⟨rfl, fun n x hx => ?_, fun n x hx => ?_, fun id q hq => ?_⟩
  · rw [hadded, if_neg]
    · exact hx
    · rintro rfl
      rw [List.getElem?_eq_none le_rfl] at hx
      cases hx
  · rw [hadded] at hx
    split at hx
    · cases hx
    · exact Or.inl hx
  · replace hq : (s.pending.insert (requestId s.sessionId s.nextRequestId) p).get? id = some q := hq
    rw [InsertionMap.get?_insert] at hq
    split at hq
    · next hid =>
      obtain rfl := Option.some.inj hq
      rw [hp]
      exact Or.inr hid
    · exact Or.inl hq

theorem onlyRejects_send (s : Session) (n : Nat) (action : JsString) (payload : Payload)
    (write : Except Thrown Unit) : OnlyRejects s (s.send numText n action payload write) := by
  unfold send
  split
  · exact onlyRejects_settle s n _
  · split
    · exact (onlyRejects_settle _ n _).after rfl rfl rfl
    · exact onlyRejects_of_eq rfl rfl rfl

theorem onlyRejects_endLoop (s : Session) (error : Option Thrown) :
    OnlyRejects s (s.endLoop error) := by
  unfold endLoop
  cases error with
  | none => exact (onlyRejects_rejectEach _ _ _).after rfl rfl rfl
  | some error =>
    refine (onlyRejects_rejectEach s (fun _ => if isError error then error
      else transportError (js "Transport readable stream failed.")) s.pending.entries).trans ?_
    exact (onlyRejects_rejectEach _ _ _).after rfl rfl rfl

theorem onlyRejects_handleResponse (s : Session) (id : JsString) (error : Thrown) :
    OnlyRejects s (s.handleResponse id (.rejected error)) := by
  unfold handleResponse
  split
  · exact onlyRejects_of_eq rfl rfl rfl
  · exact onlyRejects_finish s id _ error

/-- What a step does to the promises: it only rejects, unless it is the arrival of a success response
to a pending request. -/
theorem step_cases (hstep : (machine numText parse).step s a = some t) :
    OnlyRejects s t ∨ ∃ line reaction id result p, a = .line line reaction ∧
      parseLine numText parse line = .ok (some (.success id result)) ∧
      s.pending.get? id = some p ∧
      t = (s.finishPending id).settle p.number (.resolved result) := by
  cases a with
  | opened =>
    obtain rfl := Option.some.inj hstep
    exact Or.inl (onlyRejects_of_eq rfl rfl rfl)
  | request action payload options write =>
    obtain rfl := Option.some.inj hstep
    refine Or.inl ?_
    unfold request
    split
    · exact onlyRejects_of_eq rfl rfl rfl
    · split
      · exact onlyRejects_of_eq rfl rfl rfl
      · exact (onlyRejects_register s rfl).trans (onlyRejects_send _ _ action payload write)
  | line line reaction =>
    replace hstep : (if 0 < s.readers then some (s.handleLine numText parse line reaction)
      else none) = some t := hstep
    split at hstep
    · obtain rfl := Option.some.inj hstep
      unfold handleLine
      split
      · exact Or.inl (onlyRejects_of_eq rfl rfl rfl)
      · exact Or.inl (onlyRejects_of_eq rfl rfl rfl)
      · next name payload _ =>
        refine Or.inl ?_
        have hevent : OnlyRejects s (s.handleEvent numText name payload reaction).1 := by
          unfold handleEvent
          split
          · split
            · exact onlyRejects_of_eq rfl rfl rfl
            · exact onlyRejects_of_eq rfl rfl rfl
          · exact onlyRejects_of_eq rfl rfl rfl
        split
        · next hresult =>
          rw [hresult] at hevent
          exact hevent
        · next hresult =>
          rw [hresult] at hevent
          exact hevent.trans (onlyRejects_endLoop _ _)
      · next id result hparse =>
        unfold handleResponse
        split
        · exact Or.inl (onlyRejects_of_eq rfl rfl rfl)
        · next p hp => exact Or.inr ⟨line, reaction, id, result, p, rfl, hparse, hp, rfl⟩
      · exact Or.inl (onlyRejects_handleResponse s _ _)
      · exact Or.inl (onlyRejects_of_eq rfl rfl rfl)
    · cases hstep
  | timeout number =>
    replace hstep : s.timeout numText number = some t := hstep
    unfold timeout at hstep
    split at hstep
    · cases hstep
    · obtain rfl := Option.some.inj hstep
      exact Or.inl (onlyRejects_finish s _ number _)
  | abort signal =>
    obtain rfl := Option.some.inj hstep
    refine Or.inl ?_
    unfold abort
    split
    · exact onlyRejects_of_eq rfl rfl rfl
    · exact (onlyRejects_rejectEach _ _ _).after rfl rfl rfl
  | written number =>
    replace hstep : (if number ∈ s.writing then
      some { s with writing := s.writing.erase number } else none) = some t := hstep
    split at hstep
    · obtain rfl := Option.some.inj hstep
      exact Or.inl (onlyRejects_of_eq rfl rfl rfl)
    · cases hstep
  | writeFailed number error =>
    replace hstep : (if number ∈ s.writing then some (s.writeFailed number error) else none) =
      some t := hstep
    split at hstep
    · obtain rfl := Option.some.inj hstep
      unfold writeFailed
      exact Or.inl ((onlyRejects_finish _ _ number _).after rfl rfl rfl)
    · cases hstep
  | close =>
    obtain rfl := Option.some.inj hstep
    refine Or.inl ?_
    unfold close
    split
    · exact onlyRejects_of_eq rfl rfl rfl
    · exact (onlyRejects_rejectEach _ _ _).after rfl rfl rfl
  | streamEnds error =>
    replace hstep : (if 0 < s.readers then some (s.endLoop error) else none) = some t := hstep
    split at hstep
    · obtain rfl := Option.some.inj hstep
      exact Or.inl (onlyRejects_endLoop s error)
    · cases hstep

/-! ## The pending requests -/

/-- The pending requests are those whose promises are not settled. -/
structure Tracks (s : Session) : Prop where
  count : s.nextRequestId = s.promises.length
  own : s.Owns
  /-- A request is pending as long as its promise is not settled. -/
  pending : ∀ n : Nat, s.promises[n]? = some none ↔
    ∃ p, s.pending.get? (requestId s.sessionId n) = some p

theorem Tracks.congr (h : Tracks s) (hid : t.sessionId = s.sessionId)
    (hnext : t.nextRequestId = s.nextRequestId) (hpromises : t.promises = s.promises)
    (hpending : t.pending = s.pending) : Tracks t := by
  refine ⟨?_, ?_, ?_⟩
  · rw [hnext, hpromises]
    exact h.count
  · unfold Owns
    rw [hpending, hid]
    exact h.own
  · rw [hpromises, hpending, hid]
    exact h.pending

/-- Finishing a request, whether it is pending or not, and settling its promise. -/
theorem Tracks.finish (h : Tracks s) (n : Nat) (outcome : Settlement) :
    Tracks ((s.finishPending (requestId s.sessionId n)).settle n outcome) := by
  obtain ⟨hpending, hid, hnext, hlength, -, -⟩ :=
    settle_rest (s.finishPending (requestId s.sessionId n)) n outcome
  have herase : ∀ id, (s.finishPending (requestId s.sessionId n)).pending.get? id =
      if id = requestId s.sessionId n then none else s.pending.get? id :=
    fun id => InsertionMap.get?_erase s.pending _ id
  refine ⟨?_, fun id p hp => ?_, fun m => ?_⟩
  · rw [hnext, hlength]
    exact h.count
  · rw [hpending, herase] at hp
    rw [hid]
    split at hp
    · cases hp
    · exact h.own id p hp
  · rw [getElem?_settle, hpending, hid]
    show (if m = n then s.promises[n]?.map _ else s.promises[m]?) = some none ↔ ∃ p,
      (s.finishPending (requestId s.sessionId n)).pending.get? (requestId s.sessionId m) = some p
    rw [herase]
    by_cases hm : m = n
    · subst hm
      rw [if_pos rfl, if_pos rfl]
      cases s.promises[m]? <;> simp
    · rw [if_neg hm, if_neg fun heq => hm (requestId_inj heq)]
      exact h.pending m

theorem Tracks.rejectEach (h : Tracks s) (error : PendingRequest → Thrown)
    {entries : List (JsString × PendingRequest)}
    (hown : ∀ e ∈ entries, e.1 = requestId s.sessionId e.2.number) :
    Tracks (s.rejectEach error entries) := by
  induction entries generalizing s with
  | nil => exact h
  | cons e entries ih =>
    have he := hown e List.mem_cons_self
    have hfirst := h.finish e.2.number (.rejected (error e.2))
    rw [← he] at hfirst
    refine ih hfirst fun e' he' => ?_
    rw [(settle_rest _ _ _).2.1]
    exact hown e' (List.mem_cons_of_mem e he')

theorem get?_rejectEach (s : Session) (error : PendingRequest → Thrown)
    (entries : List (JsString × PendingRequest)) (id : JsString) :
    (s.rejectEach error entries).pending.get? id =
      if id ∈ entries.map Prod.fst then none else s.pending.get? id := by
  induction entries generalizing s with
  | nil => rfl
  | cons e entries ih =>
    have hstep : ((s.finishPending e.1).settle e.2.number (.rejected (error e.2))).pending.get? id =
        if id = e.1 then none else s.pending.get? id := by
      rw [(settle_rest _ _ _).1]
      exact InsertionMap.get?_erase s.pending e.1 id
    show (Session.rejectEach _ error entries).pending.get? id = _
    rw [ih, hstep, List.map_cons]
    by_cases hmem : id ∈ entries.map Prod.fst
    · rw [if_pos hmem, if_pos (List.mem_cons_of_mem _ hmem)]
    · rw [if_neg hmem]
      simp [hmem]

theorem rejectEach_rest (s : Session) (error : PendingRequest → Thrown)
    (entries : List (JsString × PendingRequest)) :
    (s.rejectEach error entries).sessionId = s.sessionId ∧
      (s.rejectEach error entries).closed = s.closed ∧
      (s.rejectEach error entries).readers = s.readers := by
  induction entries generalizing s with
  | nil => exact ⟨rfl, rfl, rfl⟩
  | cons e entries ih =>
    obtain ⟨hid, hclosed, hreaders⟩ :=
      ih ((s.finishPending e.1).settle e.2.number (.rejected (error e.2)))
    obtain ⟨-, hid', -, -, hclosed', hreaders'⟩ :=
      settle_rest (s.finishPending e.1) e.2.number (.rejected (error e.2))
    exact ⟨hid.trans hid', hclosed.trans hclosed', hreaders.trans hreaders'⟩

theorem get?_rejectAll (s : Session) (error : Thrown) (id : JsString) :
    (s.rejectAll error).pending.get? id = none := by
  rw [rejectAll, get?_rejectEach]
  split
  · rfl
  · next hnot =>
    rw [InsertionMap.get?_eq_none_iff]
    exact fun v hv => hnot (List.mem_map_of_mem hv)

theorem Tracks.rejectAll (h : Tracks s) (error : Thrown) : Tracks (s.rejectAll error) :=
  h.rejectEach _ fun e he => h.own e.1 e.2 (InsertionMap.get?_eq_some_iff.mpr he)

/-- The pending requests are tracked, and nothing is pending in a closed session. -/
structure Correlated (s : Session) : Prop extends Tracks s where
  shut : s.closed = true → ∀ id, s.pending.get? id = none

def new (sessionId : JsString) (timeoutMs : ℚ) (connectSignal : Option Nat) : Session :=
  { sessionId := sessionId, timeoutMs := timeoutMs, connectSignal := connectSignal }

theorem Correlated.new (sessionId : JsString) (timeoutMs : ℚ) (connectSignal : Option Nat) :
    Correlated (new sessionId timeoutMs connectSignal) where
  count := rfl
  own _ _ hp := by cases hp
  pending n := by
    constructor
    · intro h
      cases h
    · rintro ⟨p, hp⟩
      cases hp
  shut _ _ := rfl

/-- The session takes the request on: it is open, and the signal of the request has not been aborted. -/
def Accepts (s : Session) (options : RequestOptions) : Prop :=
  s.isOpen = true ∧ s.closed = false ∧ ∀ signal ∈ s.signalOf options, signal ∉ s.aborted

/-- The guard: a request that is taken on has a payload that can be printed, and the call of
`transport.write` returns a promise. -/
def Sends (s : Session) : Action → Prop
  | .request _ payload options write =>
    s.Accepts options → (∃ fields, payload = .record fields) ∧ write = .ok ()
  | _ => True

theorem request_of_accepts {options : RequestOptions} (h : s.Accepts options) (action : JsString)
    (payload : Payload) (write : Except Thrown Unit) :
    s.request numText action payload options write =
      (s.register {
        number := s.nextRequestId
        action := action
        timeoutMs := options.timeoutMs.getD s.timeoutMs
        signal := s.signalOf options }).send numText s.nextRequestId action payload write := by
  obtain ⟨hopen, hclosed, hsignal⟩ := h
  unfold request
  rw [if_neg, if_neg]
  · rintro ⟨signal, hmem, haborted⟩
    exact hsignal signal hmem haborted
  · rintro (hshut | hshut)
    · rw [hopen] at hshut
      cases hshut
    · rw [hclosed] at hshut
      cases hshut

variable (numText) in
theorem request_of_not_accepts {options : RequestOptions} (h : ¬ s.Accepts options)
    (action : JsString) (payload : Payload) (write : Except Thrown Unit) :
    ∃ error, s.request numText action payload options write =
      { s with refused := s.refused ++ [error] } := by
  unfold request
  split
  · exact ⟨_, rfl⟩
  · next hopen =>
    split
    · exact ⟨_, rfl⟩
    · next hsignal =>
      refine absurd ⟨?_, ?_, fun signal hmem haborted => hsignal ⟨signal, hmem, haborted⟩⟩ h
      · by_contra hnot
        exact hopen (Or.inl (Bool.not_eq_true _ ▸ hnot))
      · by_contra hnot
        exact hopen (Or.inr (Bool.not_eq_false _ ▸ hnot))

/-- A registered request is pending, and its promise is not settled. -/
theorem Tracks.register (h : Tracks s) {p : PendingRequest} (hp : p.number = s.nextRequestId) :
    Tracks (s.register p) where
  count := by
    show s.nextRequestId + 1 = (s.promises ++ [none]).length
    rw [List.length_append, List.length_singleton, h.count]
  own id q hq := by
    replace hq : (s.pending.insert (requestId s.sessionId s.nextRequestId) p).get? id = some q := hq
    rw [InsertionMap.get?_insert] at hq
    split at hq
    · next hid =>
      obtain rfl := Option.some.inj hq
      rw [hid, hp]
      rfl
    · exact h.own id q hq
  pending n := by
    show (s.promises ++ [none])[n]? = some none ↔ ∃ q,
      (s.pending.insert (requestId s.sessionId s.nextRequestId) p).get? (requestId s.sessionId n) =
        some q
    rw [InsertionMap.get?_insert]
    by_cases hn : n = s.promises.length
    · rw [hn, List.getElem?_concat_length, h.count, if_pos rfl]
      exact iff_of_true rfl ⟨p, rfl⟩
    · rw [if_neg fun heq => hn ((requestId_inj heq).trans h.count), ← h.pending n]
      rcases lt_or_gt_of_ne hn with hlt | hgt
      · rw [List.getElem?_append_left hlt]
      · rw [List.getElem?_eq_none hgt.le, List.getElem?_eq_none]
        rw [List.length_append, List.length_singleton]
        exact hgt

theorem Correlated.endLoop (h : Correlated s) (error : Option Thrown) :
    Correlated (s.endLoop error) := by
  have hfailed : ∀ t : Session, Tracks t →
      Correlated ({ t with readers := t.readers - 1 }.rejectAll
        (disconnectedError (js "Transport closed."))) := by
    intro t ht
    have hreaders : Tracks { t with readers := t.readers - 1 } := ht.congr rfl rfl rfl rfl
    exact ⟨hreaders.rejectAll _, fun _ id => get?_rejectAll _ _ id⟩
  unfold Session.endLoop
  cases error with
  | none => exact hfailed s h.toTracks
  | some error => exact hfailed _ (h.toTracks.rejectAll _)

theorem Correlated.handleResponse (h : Correlated s) (id : JsString) (outcome : Settlement) :
    Correlated (s.handleResponse id outcome) := by
  unfold Session.handleResponse
  split
  · exact h
  · next p hp =>
    have hid := h.own id p hp
    have hfinish := h.toTracks.finish p.number outcome
    rw [← hid] at hfinish
    refine ⟨hfinish, fun hclosed => ?_⟩
    rw [(settle_rest _ _ _).2.2.2.2.1] at hclosed
    have hnone := h.shut hclosed id
    rw [hp] at hnone
    cases hnone

/-- Finishing a request and settling its promise keeps a session correlated. -/
theorem Correlated.finish (h : Correlated s) (n : Nat) (outcome : Settlement) :
    Correlated ((s.finishPending (requestId s.sessionId n)).settle n outcome) := by
  refine ⟨h.toTracks.finish n outcome, fun hclosed id => ?_⟩
  rw [(settle_rest _ _ _).2.2.2.2.1] at hclosed
  rw [(settle_rest _ _ _).1]
  show (s.pending.erase _).get? id = none
  rw [InsertionMap.get?_erase]
  split
  · rfl
  · exact h.shut hclosed id

theorem Correlated.congr (h : Correlated s) (hid : t.sessionId = s.sessionId)
    (hnext : t.nextRequestId = s.nextRequestId) (hpromises : t.promises = s.promises)
    (hpending : t.pending = s.pending) (hclosed : t.closed = s.closed) : Correlated t := by
  refine ⟨h.toTracks.congr hid hnext hpromises hpending, ?_⟩
  rw [hclosed, hpending]
  exact h.shut

/-- **Every guarded action keeps a session correlated.** -/
theorem Correlated.step (h : Correlated s) (hguard : s.Sends a)
    (hstep : (machine numText parse).step s a = some t) : Correlated t := by
  cases a with
  | opened =>
    obtain rfl := Option.some.inj hstep
    exact h.congr rfl rfl rfl rfl rfl
  | request action payload options write =>
    obtain rfl := Option.some.inj hstep
    by_cases haccepts : s.Accepts options
    · obtain ⟨⟨fields, rfl⟩, rfl⟩ := hguard haccepts
      rw [request_of_accepts haccepts]
      refine ⟨(h.toTracks.register rfl).congr rfl rfl rfl rfl, fun hclosed => ?_⟩
      have hopen : s.closed = true := hclosed
      rw [haccepts.2.1] at hopen
      cases hopen
    · obtain ⟨error, hrefused⟩ := request_of_not_accepts numText haccepts action payload write
      rw [hrefused]
      exact h.congr rfl rfl rfl rfl rfl
  | line line reaction =>
    replace hstep : (if 0 < s.readers then some (s.handleLine numText parse line reaction)
      else none) = some t := hstep
    split at hstep
    · obtain rfl := Option.some.inj hstep
      unfold handleLine
      split
      · exact h
      · exact h
      · next name payload _ =>
        have hevent : Correlated (s.handleEvent numText name payload reaction).1 := by
          unfold handleEvent
          split
          · split
            · exact h
            · exact h.congr rfl rfl rfl rfl rfl
          · exact h
        split
        · next hresult =>
          rw [hresult] at hevent
          exact hevent
        · next hresult =>
          rw [hresult] at hevent
          exact hevent.endLoop _
      · exact h.handleResponse _ _
      · exact h.handleResponse _ _
      · exact h
    · cases hstep
  | timeout number =>
    replace hstep : s.timeout numText number = some t := hstep
    unfold timeout at hstep
    split at hstep
    · cases hstep
    · obtain rfl := Option.some.inj hstep
      exact h.finish number _
  | abort signal =>
    obtain rfl := Option.some.inj hstep
    unfold abort
    split
    · exact h
    · have haborted : Tracks { s with aborted := signal :: s.aborted } :=
        h.toTracks.congr rfl rfl rfl rfl
      refine ⟨haborted.rejectEach _ fun e he => ?_, fun hclosed id => ?_⟩
      · exact h.own e.1 e.2 (InsertionMap.get?_eq_some_iff.mpr (List.mem_of_mem_filter he))
      · rw [(rejectEach_rest _ _ _).2.1] at hclosed
        rw [get?_rejectEach]
        split
        · rfl
        · exact h.shut hclosed id
  | written number =>
    replace hstep : (if number ∈ s.writing then
      some { s with writing := s.writing.erase number } else none) = some t := hstep
    split at hstep
    · obtain rfl := Option.some.inj hstep
      exact h.congr rfl rfl rfl rfl rfl
    · cases hstep
  | writeFailed number error =>
    replace hstep : (if number ∈ s.writing then some (s.writeFailed number error) else none) =
      some t := hstep
    split at hstep
    · obtain rfl := Option.some.inj hstep
      have hwriting : Correlated { s with writing := s.writing.erase number } :=
        h.congr rfl rfl rfl rfl rfl
      exact hwriting.finish number _
    · cases hstep
  | close =>
    obtain rfl := Option.some.inj hstep
    unfold close
    split
    · exact h
    · have hclosing : Tracks { s with closed := true, isOpen := false } :=
        h.toTracks.congr rfl rfl rfl rfl
      exact ⟨hclosing.rejectAll _, fun _ id => get?_rejectAll _ _ id⟩
  | streamEnds error =>
    replace hstep : (if 0 < s.readers then some (s.endLoop error) else none) = some t := hstep
    split at hstep
    · obtain rfl := Option.some.inj hstep
      exact h.endLoop error
    · cases hstep

/-! ## Calls of `request` -/

/-- The calls of `request` so far: those that were registered, and those that were refused. -/
def calls (s : Session) : Nat := s.promises.length + s.refused.length

theorem calls_settle (s : Session) (n : Nat) (outcome : Settlement) :
    (s.settle n outcome).calls = s.calls := by
  unfold settle calls
  split
  · rw [List.length_set]
  · rfl

theorem calls_rejectEach (s : Session) (error : PendingRequest → Thrown)
    (entries : List (JsString × PendingRequest)) :
    (s.rejectEach error entries).calls = s.calls := by
  induction entries generalizing s with
  | nil => rfl
  | cons e entries ih =>
    exact (ih ((s.finishPending e.1).settle e.2.number (.rejected (error e.2)))).trans
      (calls_settle (s.finishPending e.1) e.2.number _)

theorem calls_endLoop (s : Session) (error : Option Thrown) : (s.endLoop error).calls = s.calls := by
  unfold endLoop
  cases error with
  | none => exact calls_rejectEach _ _ _
  | some error => exact (calls_rejectEach _ _ _).trans (calls_rejectEach _ _ _)

theorem calls_handleResponse (s : Session) (id : JsString) (outcome : Settlement) :
    (s.handleResponse id outcome).calls = s.calls := by
  unfold handleResponse
  split
  · rfl
  · exact calls_settle _ _ _

theorem calls_send (s : Session) (n : Nat) (action : JsString) (payload : Payload)
    (write : Except Thrown Unit) : (s.send numText n action payload write).calls = s.calls := by
  unfold send
  split
  · exact calls_settle _ _ _
  · split
    · exact calls_settle _ _ _
    · rfl

theorem calls_request (s : Session) (action : JsString) (payload : Payload)
    (options : RequestOptions) (write : Except Thrown Unit) :
    (s.request numText action payload options write).calls = s.calls + 1 := by
  by_cases haccepts : s.Accepts options
  · rw [request_of_accepts haccepts]
    rw [calls_send]
    show (s.promises ++ [none]).length + s.refused.length = _
    rw [List.length_append, List.length_singleton, calls]
    omega
  · obtain ⟨error, hrefused⟩ := request_of_not_accepts numText haccepts action payload write
    rw [hrefused]
    show s.promises.length + (s.refused ++ [error]).length = _
    rw [List.length_append, List.length_singleton, calls]
    omega

/-- Whether an action is a call of `request`. -/
def Action.isRequest : Action → Bool
  | .request _ _ _ _ => true
  | _ => false

theorem calls_step (hstep : (machine numText parse).step s a = some t) :
    t.calls = s.calls + if a.isRequest then 1 else 0 := by
  cases a with
  | opened =>
    obtain rfl := Option.some.inj hstep
    rfl
  | request action payload options write =>
    obtain rfl := Option.some.inj hstep
    exact calls_request s action payload options write
  | line line reaction =>
    replace hstep : (if 0 < s.readers then some (s.handleLine numText parse line reaction)
      else none) = some t := hstep
    split at hstep
    · obtain rfl := Option.some.inj hstep
      show (s.handleLine numText parse line reaction).calls = s.calls
      unfold handleLine
      split
      · rfl
      · rfl
      · next name payload _ =>
        have hevent : (s.handleEvent numText name payload reaction).1.calls = s.calls := by
          unfold handleEvent
          split
          · split <;> rfl
          · rfl
        split
        · next hresult =>
          rwa [hresult] at hevent
        · next hresult =>
          rw [hresult] at hevent
          exact (calls_endLoop _ _).trans hevent
      · exact calls_handleResponse s _ _
      · exact calls_handleResponse s _ _
      · rfl
    · cases hstep
  | timeout number =>
    replace hstep : s.timeout numText number = some t := hstep
    unfold timeout at hstep
    split at hstep
    · cases hstep
    · obtain rfl := Option.some.inj hstep
      exact calls_settle _ _ _
  | abort signal =>
    obtain rfl := Option.some.inj hstep
    show (s.abort signal).calls = s.calls
    unfold abort
    split
    · rfl
    · exact calls_rejectEach _ _ _
  | written number =>
    replace hstep : (if number ∈ s.writing then
      some { s with writing := s.writing.erase number } else none) = some t := hstep
    split at hstep
    · obtain rfl := Option.some.inj hstep
      rfl
    · cases hstep
  | writeFailed number error =>
    replace hstep : (if number ∈ s.writing then some (s.writeFailed number error) else none) =
      some t := hstep
    split at hstep
    · obtain rfl := Option.some.inj hstep
      exact calls_settle _ _ _
    · cases hstep
  | close =>
    obtain rfl := Option.some.inj hstep
    show s.close.calls = s.calls
    unfold close
    split
    · rfl
    · exact calls_rejectEach _ _ _
  | streamEnds error =>
    replace hstep : (if 0 < s.readers then some (s.endLoop error) else none) = some t := hstep
    split at hstep
    · obtain rfl := Option.some.inj hstep
      exact calls_endLoop s error
    · cases hstep

/-! ## Runs -/

theorem calls_run {actions : List Action} (hrun : (machine numText parse).run s actions = some t) :
    t.calls = s.calls + actions.countP Action.isRequest := by
  induction actions generalizing s with
  | nil =>
    obtain rfl := Option.some.inj hrun
    rfl
  | cons a actions ih =>
    obtain ⟨m, hm, hrest⟩ := (Machine.run_cons_eq_some _).mp hrun
    rw [ih hrest, calls_step hm, List.countP_cons]
    omega

theorem step_kept (hstep : (machine numText parse).step s a = some t) {n : Nat} {x : Settlement}
    (hx : s.promises[n]? = some (some x)) : t.promises[n]? = some (some x) := by
  rcases step_cases hstep with hrejects | ⟨line, reaction, id, result, p, -, -, -, rfl⟩
  · exact hrejects.kept n x hx
  · rw [getElem?_settle]
    split
    · next hn =>
      subst hn
      show Option.map _ s.promises[p.number]? = _
      rw [hx]
      rfl
    · exact hx

theorem run_kept {actions : List Action} (hrun : (machine numText parse).run s actions = some t)
    {n : Nat} {x : Settlement} (hx : s.promises[n]? = some (some x)) :
    t.promises[n]? = some (some x) :=
  Machine.run_invariant (I := fun s => s.promises[n]? = some (some x))
    (fun _ _ _ hx hstep => step_kept hstep hx) hx hrun

theorem step_sessionId (hstep : (machine numText parse).step s a = some t) :
    t.sessionId = s.sessionId := by
  rcases step_cases hstep with hrejects | ⟨line, reaction, id, result, p, -, -, -, rfl⟩
  · exact hrejects.sessionId
  · exact (settle_rest _ _ _).2.1

/-- In every step, pending requests stay under their own ids. -/
theorem Owns.step (h : s.Owns) (hstep : (machine numText parse).step s a = some t) : t.Owns := by
  rcases step_cases hstep with hrejects | ⟨line, reaction, id, result, p, -, -, -, rfl⟩
  · exact hrejects.owns h
  · obtain ⟨hpending, hid, -, -, -, -⟩ :=
      settle_rest (s.finishPending id) p.number (.resolved result)
    unfold Owns
    rw [hpending, hid]
    exact (onlyRejects_finishPending s id).owns h

/-- A step resolves a promise only by a response with the id of its request, while it is not
settled. -/
theorem step_resolves (howns : s.Owns) (hstep : (machine numText parse).step s a = some t) {n : Nat}
    {result : JsonObject} (hx : t.promises[n]? = some (some (.resolved result))) :
    s.promises[n]? = some (some (.resolved result)) ∨
      s.promises[n]? = some none ∧ ∃ line reaction, a = .line line reaction ∧
        parseLine numText parse line = .ok (some (.success (requestId s.sessionId n) result)) := by
  rcases step_cases hstep with hrejects | ⟨line, reaction, id, result', p, rfl, hline, hp, rfl⟩
  · rcases hrejects.rejected n _ hx with hold | ⟨error, herror⟩
    · exact Or.inl hold
    · cases herror
  · rw [howns id p hp] at hline
    rw [getElem?_settle] at hx
    split at hx
    · next hn =>
      subst hn
      replace hx : Option.map _ s.promises[p.number]? = _ := hx
      rcases hold : s.promises[p.number]? with _ | _ | y
      · rw [hold] at hx
        cases hx
      · rw [hold] at hx
        obtain rfl := Settlement.resolved.inj (Option.some.inj (Option.some.inj hx))
        exact Or.inr ⟨rfl, line, reaction, rfl, hline⟩
      · rw [hold] at hx
        exact Or.inl hx
    · exact Or.inl hx

/-- Over a run, a promise is resolved only by a response with the id of its request that arrived while
it was not settled. -/
theorem run_resolves (howns : s.Owns) {actions : List Action}
    (hrun : (machine numText parse).run s actions = some t) {n : Nat} {result : JsonObject}
    (hx : t.promises[n]? = some (some (.resolved result))) :
    s.promises[n]? = some (some (.resolved result)) ∨
      ∃ before line reaction after m, actions = before ++ .line line reaction :: after ∧
        (machine numText parse).run s before = some m ∧ m.promises[n]? = some none ∧
        parseLine numText parse line = .ok (some (.success (requestId s.sessionId n) result)) := by
  induction actions generalizing s with
  | nil =>
    obtain rfl := Option.some.inj hrun
    exact Or.inl hx
  | cons a actions ih =>
    obtain ⟨m, hm, hrest⟩ := (Machine.run_cons_eq_some _).mp hrun
    rcases ih (howns.step hm) hrest with hmid | ⟨before, line, reaction, after, u, rfl, hu, hnone, hline⟩
    · rcases step_resolves howns hm hmid with hold | ⟨hnone, line, reaction, rfl, hline⟩
      · exact Or.inl hold
      · exact Or.inr ⟨[], line, reaction, actions, s, rfl, rfl, hnone, hline⟩
    · rw [step_sessionId hm] at hline
      exact Or.inr ⟨a :: before, line, reaction, after, u, rfl,
        (Machine.run_cons_eq_some _).mpr ⟨m, hm, hu⟩, hnone, hline⟩

/-! ## Correlation -/

/-- What correlation asks of the state `s` that the actions lead to from `start`. -/
structure Settles (numText : ℚ → JsString) (parse : JsString → Option Json) (start : Session)
    (actions : List Action) (s : Session) : Prop where
  answered : s.promises.length + s.refused.length = actions.countP Action.isRequest
  /-- A promise that was settled once has not been settled otherwise since. -/
  once : ∀ before after m (n : Nat) x, actions = before ++ after →
    (machine numText parse).run start before = some m → m.promises[n]? = some (some x) →
    s.promises[n]? = some (some x)
  /-- A promise that is not settled has a timer that settles it. -/
  settles : ∀ n : Nat, s.promises[n]? = some none →
    ∃ t x, (machine numText parse).step s (.timeout n) = some t ∧ t.promises[n]? = some (some x)
  /-- A promise is resolved only with the result of a success response with the id of its request,
  which arrived while the promise was not settled. -/
  resolves : ∀ (n : Nat) result, s.promises[n]? = some (some (.resolved result)) →
    ∃ before line reaction after m, actions = before ++ .line line reaction :: after ∧
      (machine numText parse).run start before = some m ∧ m.promises[n]? = some none ∧
      parseLine numText parse line = .ok (some (.success (requestId start.sessionId n) result))
  /-- The pending requests are those whose promises are not settled. -/
  pending : ∀ n : Nat, s.promises[n]? = some none ↔
    ∃ p, s.pending.get? (requestId s.sessionId n) = some p
  own : ∀ id p, s.pending.get? id = some p → id = requestId s.sessionId p.number
  shut : s.closed = true → ∀ id, s.pending.get? id = none

/-- In a correlated session, the timer of a request that is not settled is live. -/
theorem Correlated.settles (h : Correlated s) {n : Nat} (hn : s.promises[n]? = some none) :
    ∃ t x, (machine numText parse).step s (.timeout n) = some t ∧
      t.promises[n]? = some (some x) := by
  obtain ⟨p, hp⟩ := (h.pending n).mp hn
  obtain ⟨error, herror⟩ : ∃ error, (machine numText parse).step s (.timeout n) =
      some ((s.finishPending (requestId s.sessionId n)).settle n (.rejected error)) := by
    refine ⟨timeoutError (js "Timed out waiting for '" ++ p.action ++ js "' (" ++
      numText p.timeoutMs ++ js "ms)."), ?_⟩
    show s.timeout numText n = _
    rw [timeout, hp]
  refine ⟨_, .rejected error, herror, ?_⟩
  rw [getElem?_settle, if_pos rfl]
  show Option.map _ s.promises[n]? = _
  rw [hn]
  rfl

theorem Correlated.run {sessionId : JsString} {timeoutMs : ℚ} {connectSignal : Option Nat}
    {actions : List Action} (hguard : (machine numText parse).Guarded Sends
      (Session.new sessionId timeoutMs connectSignal) actions)
    (hrun : (machine numText parse).run (Session.new sessionId timeoutMs connectSignal) actions =
      some s) : Correlated s :=
  Machine.run_guarded_invariant (fun _ _ _ h hsends hstep => h.step hsends hstep)
    (Correlated.new sessionId timeoutMs connectSignal) hguard hrun

theorem Correlated.settlesAll {sessionId : JsString} {timeoutMs : ℚ} {connectSignal : Option Nat}
    {actions : List Action} (h : Correlated s)
    (hrun : (machine numText parse).run (Session.new sessionId timeoutMs connectSignal) actions =
      some s) :
    Settles numText parse (Session.new sessionId timeoutMs connectSignal) actions s where
  answered := by
    have hcalls := calls_run hrun
    rw [show (Session.new sessionId timeoutMs connectSignal).calls = 0 from rfl, Nat.zero_add]
      at hcalls
    exact hcalls
  once before after m n x hactions hm hx := by
    rw [hactions] at hrun
    obtain ⟨m', hm', hrest⟩ := (Machine.run_append_eq_some _).mp hrun
    obtain rfl := Option.some.inj (hm.symm.trans hm')
    exact run_kept hrest hx
  settles n hn := h.settles hn
  resolves n result hx := by
    have hnew := (Correlated.new sessionId timeoutMs connectSignal).own
    rcases run_resolves hnew hrun hx with hold | hlater
    · cases hold
    · exact hlater
  pending := h.pending
  own := h.own
  shut := h.shut

variable (numText) in
/-- Sending throws unless the payload can be printed and `transport.write` returns a promise; the
promise of the request is rejected then, and that is all. -/
theorem send_throws {payload : Payload} {write : Except Thrown Unit}
    (h : ¬ ((∃ fields, payload = .record fields) ∧ write = .ok ())) (s : Session) (n : Nat)
    (action : JsString) :
    ∃ error outbox, s.send numText n action payload write =
      { s with outbox := outbox }.settle n (.rejected error) := by
  cases payload with
  | unprintable error => exact ⟨error, s.outbox, rfl⟩
  | record fields =>
    cases write with
    | error error => exact ⟨error, _, rfl⟩
    | ok value => exact absurd ⟨⟨fields, rfl⟩, rfl⟩ h

variable (numText parse) in
/-- A request that is taken on but not sent is settled, and stays pending. -/
theorem exists_stale_of_not_sends (h : Tracks s) (hguard : ¬ s.Sends a) :
    ∃ t, (machine numText parse).step s a = some t ∧ ∃ n : Nat,
      t.promises[n]? ≠ some none ∧ ∃ p, t.pending.get? (requestId t.sessionId n) = some p := by
  cases a with
  | request action payload options write =>
    obtain ⟨haccepts, hnot⟩ := Classical.not_imp.mp hguard
    refine ⟨s.request numText action payload options write, rfl, s.nextRequestId, ?_⟩
    rw [request_of_accepts haccepts]
    generalize hp : (⟨s.nextRequestId, action, options.timeoutMs.getD s.timeoutMs,
      s.signalOf options⟩ : PendingRequest) = p
    obtain ⟨error, outbox, hsend⟩ := send_throws numText hnot (s.register p) s.nextRequestId action
    rw [hsend]
    obtain ⟨hpending, hid, -, -, -, -⟩ :=
      settle_rest { s.register p with outbox := outbox } s.nextRequestId (.rejected error)
    constructor
    · rw [getElem?_settle, if_pos rfl]
      show Option.map (fun x => some (Option.getD x (.rejected error)))
        (s.promises ++ [none])[s.nextRequestId]? ≠ some none
      rw [h.count, List.getElem?_concat_length]
      intro hsettled
      cases hsettled
    · rw [hpending, hid]
      exact ⟨p, InsertionMap.get?_insert_self s.pending _ p⟩
  | _ => exact absurd trivial hguard

/-- **Request correlation.** In every state that a list of actions leads a new session to, each request
is settled exactly once, resolves only with its own response, and is pending as long as it is not
settled — if and only if every request that was taken on had a payload that can be printed and a
`transport.write` that did not throw at once. -/
theorem settles_iff_sends (sessionId : JsString) (timeoutMs : ℚ) (connectSignal : Option Nat)
    (actions : List Action) :
    (∀ before after s, actions = before ++ after →
        (machine numText parse).run (Session.new sessionId timeoutMs connectSignal) before = some s →
        Settles numText parse (Session.new sessionId timeoutMs connectSignal) before s) ↔
      (machine numText parse).Guarded Sends (Session.new sessionId timeoutMs connectSignal)
        actions := by
  constructor
  · intro hsettles
    by_contra hnot
    obtain ⟨before, a, after, m, rfl, hm, hguard, hthrows⟩ := Machine.exists_guard_failure hnot
    obtain ⟨t, hstep, n, hsettled, hpending⟩ := exists_stale_of_not_sends numText parse
      (Correlated.run hguard hm).toTracks hthrows
    have hrun : (machine numText parse).run (Session.new sessionId timeoutMs connectSignal)
        (before ++ [a]) = some t := by
      rw [Machine.run_append_eq_some]
      exact ⟨m, hm, by rw [Machine.run_singleton, hstep]⟩
    have hactions : before ++ a :: after = (before ++ [a]) ++ after := by
      rw [List.append_assoc, List.singleton_append]
    exact hsettled (((hsettles _ after t hactions hrun).pending n).mpr hpending)
  · intro hguard before after s hactions hrun
    rw [hactions] at hguard
    exact (Correlated.run (Machine.Guarded.of_append hguard hrun).1 hrun).settlesAll hrun

/-- **A payload that cannot be printed.** `JSON.stringify` throws at a payload with a `BigInt` in it.
The promise of the request is rejected, and the request stays pending. -/
theorem not_settles_unprintable :
    ¬ ∃ (numText : ℚ → JsString) (parse : JsString → Option Json), ∀ sessionId timeoutMs
      connectSignal actions before after s, actions = before ++ after →
        (machine numText parse).run (Session.new sessionId timeoutMs connectSignal) before = some s →
        Settles numText parse (Session.new sessionId timeoutMs connectSignal) before s := by
  rintro ⟨numText, parse, hsettles⟩
  let unprintable : Thrown := .error (js "TypeError") none (js "Do not know how to serialize a BigInt")
  let actions : List Action :=
    [.opened, .request (js "gpio.write") (.unprintable unprintable) {} (.ok ())]
  have hend := hsettles (js "s") 5000 none actions actions [] _ (List.append_nil _).symm rfl
  have hunsettled := (hend.pending 0).mpr ⟨⟨0, js "gpio.write", 5000, none⟩, rfl⟩
  cases hunsettled

end Session

end Pinout.Protocol
