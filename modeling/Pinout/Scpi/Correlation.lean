import Pinout.Foundation.Entries
import Pinout.Scpi.Client

/-! # SCPI answers and the queries they are given to

A client and an instrument that answers every query once, in the order in which the texts reach it, and
never a command; its answers arrive in parts of any size, at any time. A query that times out leaves its
place in `pending`, but not the answer that is still to come. Runs in which no such answer arrives while
another query waits resolve every query with its own answer. -/

namespace Pinout.Scpi

open Foundation Protocol

/-! ## The instrument -/

/-- An answer: a line with some text, which ends with a line feed, or a carriage return and a line feed. -/
structure Answer where
  text : JsString
  withReturn : Bool
  wellFormed : WellFormed text
  nonempty : text ≠ []
  oneLine : lineFeed ∉ text
  noReturn : text.getLast? ≠ some carriageReturn
  noMark : text.head? ≠ some 0xFEFF

namespace Answer

def raw (a : Answer) : JsString := if a.withReturn then a.text ++ [carriageReturn] else a.text

def bytes (a : Answer) : List UInt8 := encodeUtf8 (a.raw ++ [lineFeed])

theorem lineFeed_notMem_raw (a : Answer) : lineFeed ∉ a.raw := by
  rw [raw]
  split
  · intro h
    rcases List.mem_append.mp h with h | h
    · exact a.oneLine h
    · cases List.mem_singleton.mp h
  · exact a.oneLine

@[simp] theorem stripCarriageReturn_raw (a : Answer) : stripCarriageReturn a.raw = a.text := by
  rw [raw, stripCarriageReturn]
  split
  · simp
  · exact if_neg a.noReturn

/-- A decoder that is between two code points reads an answer. -/
theorem decode_bytes (a : Answer) {d : TextDecoder} (hd : d.state = {}) :
    (d.decode a.bytes).2 = a.raw ++ [lineFeed] ∧ (d.decode a.bytes).1.state = {} := by
  have hascii : ∀ s : JsString, (∀ u ∈ s, u.toNat < 0xD800) → WellFormed s :=
    fun s h => wellFormed_of_forall_lt h
  have hraw : WellFormed a.raw := by
    rw [raw]
    split
    · exact a.wellFormed.append (hascii _ (by decide))
    · exact a.wellFormed
  have hhead : (a.raw ++ [lineFeed]).head? = a.text.head? := by
    obtain ⟨u, text, htext⟩ := List.exists_cons_of_ne_nil a.nonempty
    rw [raw, htext]
    split <;> rfl
  refine TextDecoder.decode_encodeUtf8_of_ready hd (hraw.append (hascii _ (by decide))) ?_
  rw [hhead]
  exact a.noMark

end Answer

structure Bench where
  client : ScpiClient
  /-- How many of the texts that were written have reached the instrument, or are lost. -/
  received : Nat := 0
  answered : List Nat := []
  output : List UInt8 := []
  heard : Nat := 0

/-- What happens at a bench. A text can only be lost when it could not be written. -/
inductive BenchEvent
  | client (event : ScpiEvent)
  | receive
  | lose
  | arrive (length : Nat)

namespace Bench

variable (answer : Nat → Answer)

def hear (s : Bench) (raw : JsString) : Bench :=
  { s with client := s.client.readLine raw, heard := s.heard + 1 }

def rebuffer (s : Bench) (length : Nat) : Bench :=
  { s with
    client := s.client.rebuffer (s.output.take length)
    output := s.output.drop length }

def linesOf (s : Bench) (length : Nat) : List JsString := s.client.linesOf (s.output.take length)

def nextSent (s : Bench) : Option (Nat × ScpiRequest) :=
  match s.client.sent[s.received]? with
  | some (number, _) => match s.client.requests[number]? with
    | some r => some (number, r)
    | none => none
  | none => none

def step (s : Bench) : BenchEvent → Option Bench
  | .client event => match s.client.step event with
    | some client => some { s with client }
    | none => none
  | .receive => match s.nextSent with
    | some (number, r) =>
      if r.kind = .command then some { s with received := s.received + 1 }
      else some { s with
        received := s.received + 1
        answered := s.answered ++ [number]
        output := s.output ++ (answer number).bytes }
    | none => none
  | .lose => match s.nextSent with
    | some (_, r) => match r.written, r.outcome with
      | false, some (.error _) => some { s with received := s.received + 1 }
      | _, _ => none
    | none => none
  | .arrive length =>
    if s.client.reading then some ((s.linesOf length).foldl hear (s.rebuffer length)) else none

def machine : Machine Bench BenchEvent := ⟨step answer⟩

/-- The loop over the lines of a chunk, as a machine. -/
def lineMachine : Machine Bench JsString := ⟨fun s raw => some (s.hear raw)⟩

/-- Every query that resolved did so with the instrument's answer to it. -/
def Correlated (s : Bench) : Prop :=
  ∀ (number : Nat) (r : ScpiRequest) (line : JsString), s.client.requests[number]? = some r →
    r.outcome = some (.ok (some line)) → line = (answer number).text

/-- No query waits when the next answer is one whose query has ended. -/
def onTime (s : Bench) : Bool :=
  match s.answered[s.heard]? with
  | none => true
  | some number => match s.client.requests[number]? with
    | none => true
    | some r => !r.ended || s.client.pending.isEmpty

/-- No answer arrives while a query waits, when the query it answers has ended. -/
def OnTime (s : Bench) : BenchEvent → Prop
  | .arrive length =>
    lineMachine.Guarded (fun s _ => s.onTime = true) (s.rebuffer length) (s.linesOf length)
  | _ => True

instance (s : Bench) : ∀ event, Decidable (s.OnTime event)
  | .arrive length => inferInstanceAs (Decidable (lineMachine.Guarded _ (s.rebuffer length) _))
  | .client _ | .receive | .lose => isTrue trivial

/-! ## What a run keeps -/

/-- A request took nothing but the answer to it, and resolved with nothing but what it took. -/
def Good (n : Nat) (r : ScpiRequest) : Prop :=
  (∀ line, r.response = some (.ok line) → line = (answer n).text) ∧
    ∀ line, r.outcome = some (.ok (some line)) → r.response = some (.ok line)

variable {answer}

theorem Good.finish {n : Nat} {r : ScpiRequest} (h : Good answer n r) : Good answer n r.finish := by
  refine ⟨fun line hline => h.1 line (ScpiRequest.response_finish.symm.trans hline),
    fun line hline => ?_⟩
  rw [ScpiRequest.response_finish]
  rw [ScpiRequest.finish] at hline
  split at hline
  · cases hline
  · next line' _ _ _ hresponse =>
    obtain rfl := Option.some.inj (Except.ok.inj (Option.some.inj hline))
    exact hresponse
  · cases hline
  · exact h.2 line hline

theorem Good.respond {n : Nat} {r : ScpiRequest} (h : Good answer n r)
    {response : Except Thrown JsString} (hresponse : ∀ line, response = .ok line → line = (answer n).text) :
    Good answer n (r.respond response) := by
  rw [ScpiRequest.respond]
  split
  · exact h
  · next hnone =>
    refine Good.finish ⟨fun line hline => hresponse line (Option.some.inj hline), fun line hline => ?_⟩
    have hold := h.2 line hline
    rw [hnone] at hold
    cases hold

theorem Good.change {n : Nat} {r : ScpiRequest} {f : ScpiRequest → ScpiRequest}
    (hf : ScpiClient.Change f) (h : Good answer n r) : Good answer n (f r) := by
  cases hf with
  | write => exact Good.finish h
  | fail e => exact ⟨h.1, nofun⟩
  | respond e => exact h.respond nofun

theorem kind_change {f : ScpiRequest → ScpiRequest} (hf : ScpiClient.Change f) (r : ScpiRequest) :
    (f r).kind = r.kind := by
  cases hf with
  | write => exact ScpiRequest.kind_write
  | fail e => rfl
  | respond e => exact ScpiRequest.kind_respond

theorem kind_step {c c' : ScpiClient} {event : ScpiEvent} (h : c.Orderly)
    (hstep : c.step event = some c') {n : Nat} {r : ScpiRequest} (hr : c.requests[n]? = some r) :
    ∃ r', c'.requests[n]? = some r' ∧ r'.kind = r.kind := by
  obtain ⟨hrequests, -⟩ := ScpiClient.requests_step h hstep
  rcases hrequests with heq | ⟨text, kind, heq⟩ | ⟨k, f, hf, heq⟩ <;> rw [heq]
  · exact ⟨r, hr, rfl⟩
  · exact ⟨r, getElem?_append_of_eq_some _ hr, rfl⟩
  · by_cases hk : k = n
    · subst hk
      exact ⟨f r, getElem?_modify_self f hr, kind_change hf r⟩
    · exact ⟨r, (getElem?_modify_of_ne f hk).trans hr, rfl⟩

theorem good_step {c c' : ScpiClient} {event : ScpiEvent} (h : c.Orderly)
    (hstep : c.step event = some c') (hgood : Entries (Good answer) c.requests) :
    Entries (Good answer) c'.requests := by
  obtain ⟨hrequests, -⟩ := ScpiClient.requests_step h hstep
  rcases hrequests with heq | ⟨text, kind, heq⟩ | ⟨n, f, hf, heq⟩ <;> rw [heq]
  · exact hgood
  · exact hgood.append ⟨nofun, nofun⟩
  · exact hgood.modify fun r hr => hr.change hf

variable (answer) in
structure Settled (s : Bench) : Prop where
  orderly : s.client.Orderly
  good : Entries (Good answer) s.client.requests
  asked : ∀ n ∈ s.answered, (∃ e ∈ s.client.sent, e.1 = n) ∧
    ∃ r, s.client.requests[n]? = some r ∧ r.kind ≠ .command

/-- **A line on time** goes to the query it answers, or to none. -/
theorem Settled.hear {s : Bench} (h : Settled answer s) {n : Nat} {raw : JsString}
    (hn : s.answered[s.heard]? = some n) (hraw : raw = (answer n).raw) (htime : s.onTime = true) :
    Settled answer (s.hear raw) := by
  have hline : s.client.readLine raw = s.client.dispatchLine (answer n).text := by
    have hne : (answer n).text.isEmpty = false := by simpa using (answer n).nonempty
    rw [ScpiClient.readLine, hraw, Answer.stripCarriageReturn_raw, hne]
    rfl
  obtain ⟨⟨e, he, hsent⟩, r, hr, hkind⟩ := h.asked n (List.mem_of_getElem? hn)
  rw [Bench.hear, hline]
  rcases h.orderly.pending_cases with hpending | ⟨p, hpending, hp⟩
  · rw [ScpiClient.dispatchLine_of_idle hpending]
    exact ⟨⟨h.orderly.waiting, h.orderly.queued, h.orderly.nodup, h.orderly.current, h.orderly.sent⟩,
      h.good, h.asked⟩
  · -- the query that waits is the one that is answered, since that one has not ended
    have hwaits : n = p := by
      obtain ⟨r', hr', hended⟩ := h.orderly.sent e he
      rw [hsent] at hr' hended
      obtain rfl := Option.some.inj (hr.symm.trans hr')
      rw [onTime, hn] at htime
      simp only [hr, hpending, List.isEmpty_cons, Bool.or_false, Bool.not_eq_true'] at htime
      rcases hended hkind with hended | hmem
      · rw [htime] at hended
        cases hended
      · rw [hpending] at hmem
        exact List.mem_singleton.mp hmem
    subst hwaits
    rw [ScpiClient.dispatchLine_of_waiting hpending]
    refine ⟨h.orderly.respond hpending hp _, ?_, fun m hm => ?_⟩
    · exact h.good.modify fun r hr => hr.respond fun line hline => (Except.ok.inj hline).symm
    · obtain ⟨hsent, r', hr', hkind'⟩ := h.asked m hm
      refine ⟨hsent, ?_⟩
      by_cases hm : n = m
      · subst hm
        exact ⟨_, getElem?_modify_self _ hr', by rwa [ScpiRequest.kind_respond]⟩
      · exact ⟨r', (getElem?_modify_of_ne _ hm).trans hr', hkind'⟩

theorem fields_hear (s : Bench) (raw : JsString) :
    (s.hear raw).answered = s.answered ∧ (s.hear raw).output = s.output ∧
      (s.hear raw).client.decoder = s.client.decoder ∧
      (s.hear raw).client.buffer = s.client.buffer := by
  rw [hear, ScpiClient.readLine]
  split
  · exact ⟨rfl, rfl, rfl, rfl⟩
  · rw [ScpiClient.dispatchLine]
    split <;> exact ⟨rfl, rfl, rfl, rfl⟩

/-- **The lines of a chunk**, when each is on time. -/
theorem Settled.foldl_hear {s : Bench} (h : Settled answer s) {lines : List JsString}
    (hlines : ∀ (i : Nat) raw, lines[i]? = some raw →
      ∃ n, s.answered[s.heard + i]? = some n ∧ raw = (answer n).raw)
    (htime : lineMachine.Guarded (fun s _ => s.onTime = true) s lines) :
    Settled answer (lines.foldl Bench.hear s) ∧
      (lines.foldl Bench.hear s).answered = s.answered ∧
      (lines.foldl Bench.hear s).output = s.output ∧
      (lines.foldl Bench.hear s).client.decoder = s.client.decoder ∧
      (lines.foldl Bench.hear s).client.buffer = s.client.buffer ∧
      (lines.foldl Bench.hear s).heard = s.heard + lines.length := by
  induction lines generalizing s with
  | nil => exact ⟨h, rfl, rfl, rfl, rfl, rfl⟩
  | cons raw lines ih =>
    obtain ⟨hguard, hrest⟩ := htime.of_cons rfl
    obtain ⟨n, hn, hraw⟩ := hlines 0 raw rfl
    obtain ⟨hanswered, houtput, hdecoder, hbuffer⟩ := fields_hear s raw
    have hlines' : ∀ (i : Nat) raw', lines[i]? = some raw' →
        ∃ n, (s.hear raw).answered[(s.hear raw).heard + i]? = some n ∧ raw' = (answer n).raw := by
      intro i raw' hi
      have hindex : s.heard + (i + 1) = s.heard + 1 + i := by omega
      have hnext := hlines (i + 1) raw' hi
      rwa [hindex, ← hanswered] at hnext
    obtain ⟨hsettled, ha, ho, hd, hb, hheard⟩ := ih (h.hear hn hraw hguard) hlines' hrest
    refine ⟨hsettled, ha.trans hanswered, ho.trans houtput, hd.trans hdecoder, hb.trans hbuffer, ?_⟩
    rw [List.foldl_cons, hheard, List.length_cons]
    show s.heard + 1 + lines.length = s.heard + (lines.length + 1)
    omega

variable (answer) in
/-- The stream of answers as far as it has arrived: the client has read the first of them. -/
def InStream (s : Bench) : Prop :=
  ∃ bytes text, bytes ++ s.output = s.answered.flatMap (fun n => (answer n).bytes) ∧
    ({} : TextDecoder).decode bytes = (s.client.decoder, text) ∧
    (cutLines lineFeed text).2 = s.client.buffer ∧ (cutLines lineFeed text).1.length = s.heard

theorem decode_answers {numbers : List Nat} {d : TextDecoder} (hd : d.state = {}) :
    (d.decode (numbers.flatMap fun n => (answer n).bytes)).2 =
      (numbers.map fun n => (answer n).raw).flatMap (fun raw => raw ++ [lineFeed]) := by
  induction numbers generalizing d with
  | nil => rfl
  | cons n numbers ih =>
    obtain ⟨htext, hstate⟩ := (answer n).decode_bytes hd
    rw [List.flatMap_cons, TextDecoder.decode_append, ih hstate, htext]
    rfl

/-- **The lines that a chunk completes** are the next answers. -/
theorem linesOf_spec {s : Bench} (h : InStream answer s) (length : Nat) :
    (∀ (i : Nat) raw, (s.linesOf length)[i]? = some raw →
      ∃ n, s.answered[s.heard + i]? = some n ∧ raw = (answer n).raw) ∧
    ∃ bytes text, bytes ++ (s.rebuffer length).output =
        s.answered.flatMap (fun n => (answer n).bytes) ∧
      ({} : TextDecoder).decode bytes = ((s.rebuffer length).client.decoder, text) ∧
      (cutLines lineFeed text).2 = (s.rebuffer length).client.buffer ∧
      (cutLines lineFeed text).1.length = s.heard + (s.linesOf length).length := by
  obtain ⟨bytes, text, hbytes, hdecode, hbuffer, hheard⟩ := h
  have hall : (bytes ++ s.output.take length) ++ s.output.drop length =
      s.answered.flatMap fun n => (answer n).bytes := by
    rw [List.append_assoc, List.take_append_drop, hbytes]
  have hdecode' : ({} : TextDecoder).decode (bytes ++ s.output.take length) =
      ((s.client.decoder.decode (s.output.take length)).1,
        text ++ (s.client.decoder.decode (s.output.take length)).2) := by
    rw [TextDecoder.decode_append, hdecode]
  have hcut : cutLines lineFeed (text ++ (s.client.decoder.decode (s.output.take length)).2) = _ :=
    cutLines_append text _
  rw [hbuffer] at hcut
  have hlines : s.linesOf length =
      (cutLines lineFeed (s.client.buffer ++ (s.client.decoder.decode (s.output.take length)).2)).1 := rfl
  rw [← hlines] at hcut
  refine ⟨fun i raw hi => ?_, _, _, hall, hdecode', by rw [hcut]; rfl, ?_⟩
  · -- all lines so far are the first of the answers
    have hisPrefix : (cutLines lineFeed (text ++
        (s.client.decoder.decode (s.output.take length)).2)).1 <+:
          s.answered.map fun n => (answer n).raw := by
      refine cutLines_isPrefix
        (m := ((({} : TextDecoder).decode (bytes ++ s.output.take length)).1.decode
          (s.output.drop length)).2) (fun line hline => ?_) ?_
      · obtain ⟨n, -, rfl⟩ := List.mem_map.mp hline
        exact (answer n).lineFeed_notMem_raw
      · rw [← decode_answers (d := {}) rfl, ← hall,
          TextDecoder.decode_append {} (bytes ++ s.output.take length), hdecode']
    have hget : (cutLines lineFeed (text ++
        (s.client.decoder.decode (s.output.take length)).2)).1[s.heard + i]? = some raw := by
      rw [congrArg Prod.fst hcut, List.getElem?_append_right (by omega), hheard, Nat.add_sub_cancel_left]
      exact hi
    obtain ⟨rest, hrest⟩ := hisPrefix
    have hget := getElem?_append_of_eq_some rest hget
    rw [hrest, List.getElem?_map] at hget
    obtain ⟨n, hn, hraw⟩ := Option.map_eq_some_iff.mp hget
    exact ⟨n, hn, hraw.symm⟩
  · rw [congrArg Prod.fst hcut, List.length_append, hheard]

theorem Settled.arrive {s : Bench} (h : Settled answer s) (hstream : InStream answer s) {length : Nat}
    (htime : s.OnTime (.arrive length)) :
    Settled answer ((s.linesOf length).foldl Bench.hear (s.rebuffer length)) ∧
      InStream answer ((s.linesOf length).foldl Bench.hear (s.rebuffer length)) := by
  obtain ⟨hlines, bytes, text, hbytes, hdecode, hbuffer, hheard⟩ := linesOf_spec hstream length
  have hrebuffer : Settled answer (s.rebuffer length) :=
    ⟨⟨h.orderly.waiting, h.orderly.queued, h.orderly.nodup, h.orderly.current, h.orderly.sent⟩, h.good,
      h.asked⟩
  obtain ⟨hsettled, ha, ho, hd, hb, hcount⟩ := hrebuffer.foldl_hear hlines htime
  refine ⟨hsettled, bytes, text, ?_, ?_, ?_, ?_⟩
  · rw [ho, hbytes, ha]
    rfl
  · rw [hdecode, hd]
  · rw [hbuffer, hb]
  · rw [hheard, hcount]
    rfl

/-- **A step on time** keeps the bench settled, and the answers in their stream. -/
theorem Settled.step {s s' : Bench} {event : BenchEvent} (h : Settled answer s)
    (hstream : InStream answer s) (htime : s.OnTime event) (hstep : step answer s event = some s') :
    Settled answer s' ∧ InStream answer s' := by
  cases event <;> simp only [Bench.step] at hstep
  case client event =>
    split at hstep
    · next client hclient =>
      obtain rfl := Option.some.inj hstep
      obtain ⟨-, ⟨hdecoder, hbuffer⟩, hsent⟩ := ScpiClient.requests_step h.orderly hclient
      refine ⟨⟨h.orderly.step hclient, good_step h.orderly hclient h.good, fun n hn => ?_⟩, ?_⟩
      · obtain ⟨⟨e, he, rfl⟩, r, hr, hkind⟩ := h.asked n hn
        obtain ⟨r', hr', hsame⟩ := kind_step h.orderly hclient hr
        exact ⟨⟨e, hsent e he, rfl⟩, r', hr', by rwa [hsame]⟩
      · obtain ⟨bytes, text, hbytes, hdecode, hrest, hheard⟩ := hstream
        exact ⟨bytes, text, hbytes, by rw [hdecode, hdecoder], by rw [hrest, hbuffer], hheard⟩
    · cases hstep
  case receive =>
    split at hstep
    · next number r hnext =>
      split at hstep
      · obtain rfl := Option.some.inj hstep
        exact ⟨⟨h.orderly, h.good, h.asked⟩, hstream⟩
      · next hkind =>
        obtain rfl := Option.some.inj hstep
        refine ⟨⟨h.orderly, h.good, fun n hn => ?_⟩, ?_⟩
        · rcases List.mem_append.mp hn with hn | hn
          · exact h.asked n hn
          · obtain rfl := List.mem_singleton.mp hn
            rw [nextSent] at hnext
            split at hnext
            · next k payload hsent =>
              split at hnext
              · next r' hr =>
                obtain ⟨rfl, rfl⟩ := Prod.mk.inj (Option.some.inj hnext)
                exact ⟨⟨_, List.mem_of_getElem? hsent, rfl⟩, r', hr, hkind⟩
              · cases hnext
            · cases hnext
        · obtain ⟨bytes, text, hbytes, hrest⟩ := hstream
          refine ⟨bytes, text, ?_, hrest⟩
          show bytes ++ (s.output ++ (answer number).bytes) = _
          rw [← List.append_assoc, hbytes, List.flatMap_append, List.flatMap_singleton]
    · cases hstep
  case lose =>
    split at hstep
    · split at hstep
      · obtain rfl := Option.some.inj hstep
        exact ⟨⟨h.orderly, h.good, h.asked⟩, hstream⟩
      · cases hstep
    · cases hstep
  case arrive length =>
    split at hstep
    · obtain rfl := Option.some.inj hstep
      exact h.arrive hstream htime
    · cases hstep

variable (answer) in
/-- **Queries are given their own answers** in runs in which no answer to a query that has ended arrives
while another query waits. -/
theorem correlated_of_onTime (defaultTimeoutMs : Nat) (terminator : JsString) {s : Bench}
    {events : List BenchEvent}
    (hrun : (machine answer).run ⟨{ defaultTimeoutMs, terminator }, 0, [], [], 0⟩ events = some s)
    (htime : (machine answer).Guarded OnTime ⟨{ defaultTimeoutMs, terminator }, 0, [], [], 0⟩ events) :
    s.Correlated answer := by
  have hstart : Settled answer ⟨{ defaultTimeoutMs, terminator }, 0, [], [], 0⟩ :=
    ⟨⟨nofun, nofun, List.nodup_nil, nofun, nofun⟩, Entries.nil, nofun⟩
  have hs : Settled answer s ∧ InStream answer s := by
    refine Machine.run_guarded_invariant (I := fun s => Settled answer s ∧ InStream answer s) ?_
      ⟨hstart, [], [], rfl, rfl, rfl, rfl⟩ htime hrun
    exact fun s event s' hs htime hstep => hs.1.step hs.2 htime hstep
  intro number r line hr hline
  obtain ⟨hresponse, houtcome⟩ := hs.1.good number r hr
  exact hresponse line (houtcome line hline)

/-! ## Two readings -/

def reading (digit : Bool) : Answer where
  text := js (if digit then "1" else "2")
  withReturn := false
  wellFormed := wellFormed_of_forall_lt (by cases digit <;> decide)
  nonempty := by cases digit <;> decide
  oneLine := by cases digit <;> decide
  noReturn := by cases digit <;> decide
  noMark := by cases digit <;> decide

/-- The first reading is `1`, the others are `2`. -/
def readings (number : Nat) : Answer := reading (number = 0)

def resolved (s : Bench) (number : Nat) : Option (Option JsString) :=
  s.client.requests[number]?.bind fun r => r.outcome.bind Except.toOption

theorem exists_of_resolved {s : Bench} {number : Nat} {line : JsString}
    (h : s.resolved number = some (some line)) :
    ∃ r, s.client.requests[number]? = some r ∧ r.outcome = some (.ok (some line)) := by
  obtain ⟨r, hr, h⟩ := Option.bind_eq_some_iff.mp h
  obtain ⟨outcome, houtcome, h⟩ := Option.bind_eq_some_iff.mp h
  refine ⟨r, hr, houtcome.trans (congrArg some ?_)⟩
  cases outcome with
  | error e => cases h
  | ok value => exact congrArg Except.ok (Option.some.inj h)

/-- The first reading, on time. -/
theorem correlated_of_onTime_reading :
    ∃ s, (machine readings).run ⟨{ defaultTimeoutMs := 5000, terminator := [lineFeed] }, 0, [], [], 0⟩
        [.client .opened, .client (.request (js "MEAS:VOLT?") (.query none)), .client .begin, .receive,
          .client .written, .arrive 1, .arrive 1] = some s ∧
      s.resolved 0 = some (some (js "1")) ∧ s.Correlated readings := by
  obtain ⟨s, hs, hview⟩ := Option.map_eq_some_iff.mp (show ((machine readings).run
    ⟨{ defaultTimeoutMs := 5000, terminator := [lineFeed] }, 0, [], [], 0⟩
      [.client .opened, .client (.request (js "MEAS:VOLT?") (.query none)), .client .begin, .receive,
        .client .written, .arrive 1, .arrive 1]).map (·.resolved 0) = some (some (some (js "1"))) by
    decide +kernel)
  exact ⟨s, hs, hview, correlated_of_onTime readings 5000 [lineFeed] hs (by decide +kernel)⟩

/-- The first query times out, and its answer resolves the second. -/
theorem not_correlated :
    ∃ s, (machine readings).run ⟨{ defaultTimeoutMs := 5000, terminator := [lineFeed] }, 0, [], [], 0⟩
        [.client .opened, .client (.request (js "MEAS:VOLT?") (.query none)),
          .client (.request (js "MEAS:CURR?") (.query none)), .client .begin, .client .written, .receive,
          .client (.timeout 0), .client .begin, .client .written, .receive, .arrive 2] = some s ∧
      ¬ s.Correlated readings := by
  obtain ⟨s, hs, hview⟩ := Option.map_eq_some_iff.mp (show ((machine readings).run
    ⟨{ defaultTimeoutMs := 5000, terminator := [lineFeed] }, 0, [], [], 0⟩
      [.client .opened, .client (.request (js "MEAS:VOLT?") (.query none)),
        .client (.request (js "MEAS:CURR?") (.query none)), .client .begin, .client .written, .receive,
        .client (.timeout 0), .client .begin, .client .written, .receive, .arrive 2]).map
      (·.resolved 1) = some (some (some (js "1"))) by decide +kernel)
  refine ⟨s, hs, fun h => ?_⟩
  obtain ⟨r, hr, houtcome⟩ := exists_of_resolved hview
  exact absurd (h 1 r _ hr houtcome) (by decide)

end Bench

end Pinout.Scpi
