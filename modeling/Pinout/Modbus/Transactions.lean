import Pinout.Modbus.TcpClient

/-! # Transaction ids of the TCP client

The client counts its requests modulo 65536 and takes the count as a transaction id, whether or not an
earlier request with that id still waits. As long as fewer than 65536 requests are sent while one waits,
the table of pending requests is the list of requests that wait (`Matched`), and a response settles the
request it answers, unless a later request with its id has taken its place. The frames themselves do not
depend on how the stream is cut. -/

namespace Pinout.Modbus

open Foundation

namespace ModbusTcpClient

/-! ## Requests that wait and responses that answer them -/

/-- What the promise of a response was settled with. -/
def responseOf (c : ModbusTcpClient) (number : Nat) : Option (Except Thrown (List UInt8)) :=
  c.calls[number]?.bind Exchange.response

/-- A call was made and its promise of a response is not settled. -/
def Waiting (c : ModbusTcpClient) (number : Nat) : Prop :=
  number < c.calls.length ∧ c.responseOf number = none

instance (c : ModbusTcpClient) (number : Nat) : Decidable (c.Waiting number) :=
  inferInstanceAs (Decidable (_ ∧ _))

/-- The request that was sent in the `k`-th place is the one of a call that waits. -/
def Outstanding (c : ModbusTcpClient) (k number : Nat) : Prop :=
  ∃ r, c.sent[k]? = some r ∧ r.number = number ∧ c.Waiting number

/-- An event, and for each frame that a chunk completes the place of the request it answers. -/
structure Delivery where
  event : TcpEvent
  answers : List Nat := []

/-- A response to a request has the transaction id of the request. -/
def answersTo (c : ModbusTcpClient) (frame : MbapFrame) (k : Nat) : Bool :=
  (c.sent[k]?.map SentRequest.transactionId) = some frame.transactionId

/-- The loop of `onData` over responses and the places of the requests they answer. -/
def answerMachine : Machine ModbusTcpClient (MbapFrame × Nat) :=
  ⟨fun c p => if c.answersTo p.1 p.2 then some (c.handleFrame p.1) else none⟩

/-- One event, in which every frame answers a request. -/
def deliver (c : ModbusTcpClient) (d : Delivery) : Option ModbusTcpClient :=
  match d.event with
  | .chunk bytes =>
    if d.answers.length = (c.framesOf bytes).length then
      answerMachine.run (c.rebuffer bytes) ((c.framesOf bytes).zip d.answers)
    else none
  | event => c.step event

/-- The client as a machine over events whose frames answer requests. -/
def deliveryMachine : Machine ModbusTcpClient Delivery := ⟨deliver⟩

theorem of_answerMachine_step {c c' : ModbusTcpClient} {p : MbapFrame × Nat}
    (h : answerMachine.step c p = some c') :
    c.answersTo p.1 p.2 = true ∧ c.handleFrame p.1 = c' := by
  simp only [answerMachine] at h
  split at h
  · next hanswers => exact ⟨hanswers, Option.some.inj h⟩
  · cases h

/-! ## What is claimed of a step -/

/-- A response settles the request it answers when that waits, and no other. -/
def FrameSettles (c : ModbusTcpClient) (p : MbapFrame × Nat) : Prop :=
  ∀ r, c.sent[p.2]? = some r → ∀ number, (c.handleFrame p.1).responseOf number =
    if number = r.number ∧ c.Waiting number then some (.ok p.1.pdu)
    else c.responseOf number

/-- A request that is sent gets an id that no waiting request has, and each response settles the request
it answers. -/
def Settles (c : ModbusTcpClient) (d : Delivery) : Prop :=
  match d.event with
  | .request call => ∀ new, (c.request call).sent = c.sent ++ [new] →
      ∀ r ∈ c.sent, c.Waiting r.number → r.transactionId ≠ new.transactionId
  | .chunk bytes => answerMachine.Guarded FrameSettles (c.rebuffer bytes)
      ((c.framesOf bytes).zip d.answers)
  | _ => True

/-! ## When it holds -/

/-- No request waits that was sent a multiple of 65536 requests after the one that is answered. -/
def FrameTimely (c : ModbusTcpClient) (p : MbapFrame × Nat) : Prop :=
  ∀ later number, c.Outstanding later number → p.2 < later → later % 65536 ≠ p.2 % 65536

/-- When a request is sent, fewer than 65536 were sent since any that waits, and when a response comes no
later request with its id waits. -/
def Timely (c : ModbusTcpClient) (d : Delivery) : Prop :=
  match d.event with
  | .request call => (c.request call).sent ≠ c.sent →
      ∀ earlier number, c.Outstanding earlier number → c.sent.length < earlier + 65536
  | .chunk bytes => answerMachine.Guarded FrameTimely (c.rebuffer bytes)
      ((c.framesOf bytes).zip d.answers)
  | _ => True

/-! ## Settling a call -/

section Settling

variable {c : ModbusTcpClient}

theorem responseOf_settle (number : Nat) (response : Except Thrown (List UInt8)) (n : Nat) :
    (c.settle number response).responseOf n =
      if n = number ∧ c.Waiting n then some response else c.responseOf n := by
  by_cases hn : n = number
  · subst hn
    rw [responseOf, settle]
    by_cases hin : n < c.calls.length
    · have hcall := List.getElem?_eq_getElem hin
      rw [getElem?_modify_self _ hcall, Option.bind_some, Exchange.respond]
      have hresponse : c.responseOf n = c.calls[n].response := by
        rw [responseOf, hcall, Option.bind_some]
      cases hsettled : c.calls[n].response with
      | none =>
        rw [if_pos ⟨rfl, hin, hresponse.trans hsettled⟩]
        exact Exchange.response_finish
      | some settled =>
        have hnot : ¬ c.Waiting n := fun h => by
          rw [Waiting, hresponse, hsettled] at h
          cases h.2
        rw [if_neg fun h => hnot h.2, hresponse, hsettled]
    · rw [if_neg fun h => hin h.2.1, responseOf, List.getElem?_modify,
        List.getElem?_eq_none (Nat.not_lt.mp hin)]
      rfl
  · rw [if_neg fun h => hn h.1, responseOf, responseOf, settle, getElem?_modify_of_ne _ (Ne.symm hn)]

/-- A call that is settled waits no more, the others go on. -/
theorem waiting_settle (number : Nat) (response : Except Thrown (List UInt8)) (n : Nat) :
    (c.settle number response).Waiting n ↔ c.Waiting n ∧ n ≠ number := by
  have hlength : (c.settle number response).calls.length = c.calls.length := List.length_modify ..
  rw [Waiting, hlength, responseOf_settle]
  by_cases hn : n = number
  · by_cases hwaiting : c.Waiting n
    · simp [hn, hn ▸ hwaiting]
    · rw [if_neg fun h => hwaiting h.2]
      exact ⟨fun h => absurd h hwaiting, fun h => absurd h.1 hwaiting⟩
  · rw [if_neg fun h => hn h.1]
    exact ⟨fun h => ⟨h, hn⟩, fun h => h.1⟩

end Settling

/-! ## Requests and the table of those that wait -/

/-- **The table of pending requests is the list of requests that wait**, and none of them is old. -/
structure Matched (c : ModbusTcpClient) : Prop where
  next : c.nextTransactionId = c.sent.length % 65536
  sent : ∀ (k : Nat) (r : SentRequest), c.sent[k]? = some r → r.transactionId = k % 65536 ∧ r.number < c.calls.length
  distinct : ∀ (j k : Nat) (r s : SentRequest), c.sent[j]? = some r → c.sent[k]? = some s →
    r.number = s.number → j = k
  pending : ∀ id number, c.pending.get? id = some number ↔
    ∃ k, c.Outstanding k number ∧ k % 65536 = id
  timed : ∀ number id, (number, id) ∈ c.timers → ∃ k, c.Outstanding k number ∧ k % 65536 = id
  recent : ∀ k number, c.Outstanding k number → c.sent.length ≤ k + 65536

theorem Matched.init (unitId : UInt8) (timeoutMs : JsString) :
    Matched { unitId, timeoutMs } where
  next := rfl
  sent := nofun
  distinct := nofun
  pending _ _ := ⟨nofun, fun ⟨_, ⟨_, hr, _⟩, _⟩ => nomatch hr⟩
  timed := nofun
  recent := fun _ _ ⟨_, hr, _⟩ => nomatch hr

section Matching

variable {c : ModbusTcpClient}

theorem Matched.unique (h : c.Matched) {j k m n : Nat} (hj : c.Outstanding j m)
    (hk : c.Outstanding k n) (hid : j % 65536 = k % 65536) : j = k ∧ m = n := by
  have hm := (h.pending _ m).mpr ⟨j, hj, hid⟩
  have hn := (h.pending _ n).mpr ⟨k, hk, rfl⟩
  obtain rfl := Option.some.inj (hm.symm.trans hn)
  obtain ⟨r, hr, hrn, -⟩ := hj
  obtain ⟨s, hs, hsn, -⟩ := hk
  exact ⟨h.distinct j k r s hr hs (hrn.trans hsn.symm), rfl⟩

/-- A change that leaves the requests, the table and the responses as they are. -/
theorem Matched.of_eq {c' : ModbusTcpClient} (h : c.Matched)
    (hnext : c'.nextTransactionId = c.nextTransactionId) (hsent : c'.sent = c.sent)
    (hpending : c'.pending = c.pending) (htimers : c'.timers = c.timers)
    (hlength : c.calls.length ≤ c'.calls.length)
    (hresponse : ∀ n, n < c.calls.length → c'.responseOf n = c.responseOf n) : c'.Matched := by
  have hwaiting : ∀ k number, c'.Outstanding k number ↔ c.Outstanding k number := by
    intro k number
    rw [Outstanding, Outstanding, hsent]
    refine exists_congr fun r => and_congr_right fun hr => and_congr_right fun hnumber => ?_
    have hlt : number < c.calls.length := hnumber ▸ (h.sent k r hr).2
    rw [Waiting, Waiting, hresponse number hlt]
    exact and_congr_left fun _ => ⟨fun _ => hlt, fun _ => Nat.lt_of_lt_of_le hlt hlength⟩
  refine ⟨?_, ?_, ?_, ?_, ?_, ?_⟩
  · rw [hnext, hsent]
    exact h.next
  · intro k r hr
    rw [hsent] at hr
    obtain ⟨hid, hlt⟩ := h.sent k r hr
    exact ⟨hid, Nat.lt_of_lt_of_le hlt hlength⟩
  · rw [hsent]
    exact h.distinct
  · simp only [hpending, hwaiting]
    exact h.pending
  · simp only [htimers, hwaiting]
    exact h.timed
  · simp only [hsent, hwaiting]
    exact h.recent

/-- A request that waits is taken off the table when it is settled. -/
theorem Matched.settle (h : c.Matched) {k number : Nat} (hk : c.Outstanding k number)
    (response : Except Thrown (List UInt8)) :
    ({ c with pending := c.pending.erase (k % 65536) }.settle number response).Matched := by
  have hwaiting : ∀ j n, ({ c with pending := c.pending.erase (k % 65536) }.settle number
      response).Outstanding j n ↔ c.Outstanding j n ∧ n ≠ number := by
    intro j n
    constructor
    · rintro ⟨r, hr, hn, hwaits⟩
      obtain ⟨hwaits, hne⟩ := (waiting_settle number response n).mp hwaits
      exact ⟨⟨r, hr, hn, hwaits⟩, hne⟩
    · rintro ⟨⟨r, hr, hn, hwaits⟩, hne⟩
      exact ⟨r, hr, hn, (waiting_settle number response n).mpr ⟨hwaits, hne⟩⟩
  refine ⟨h.next, fun j r hr => ?_, h.distinct, fun id n => ?_, fun n id hmem => ?_, fun j n hj => ?_⟩
  · obtain ⟨hid, hlt⟩ := h.sent j r hr
    exact ⟨hid, by rwa [ModbusTcpClient.settle, List.length_modify]⟩
  · simp only [hwaiting]
    rw [ModbusTcpClient.settle, InsertionMap.get?_erase]
    constructor
    · intro hget
      split at hget
      · cases hget
      · next hid =>
        obtain ⟨j, hj, hjid⟩ := (h.pending id n).mp hget
        refine ⟨j, ⟨hj, ?_⟩, hjid⟩
        rintro rfl
        obtain ⟨r, hr, hrn, -⟩ := hj
        obtain ⟨s, hs, hsn, -⟩ := hk
        obtain rfl := h.distinct j k r s hr hs (hrn.trans hsn.symm)
        exact hid hjid.symm
    · rintro ⟨j, ⟨hj, hne⟩, rfl⟩
      rw [if_neg fun hid => hne (h.unique hj hk hid).2]
      exact (h.pending _ n).mpr ⟨j, hj, rfl⟩
  · simp only [ModbusTcpClient.settle, List.mem_filter, decide_eq_true_eq] at hmem
    obtain ⟨j, hj, hid⟩ := h.timed n id hmem.1
    exact ⟨j, (hwaiting j n).mpr ⟨hj, hmem.2⟩, hid⟩
  · exact h.recent j n ((hwaiting j n).mp hj).1

/-! ### Responses -/

/-- A frame settles a request that waits with its id, when there is one. -/
theorem Matched.handleFrame_cases (h : c.Matched) (frame : MbapFrame) :
    ((∀ k number, c.Outstanding k number → k % 65536 ≠ frame.transactionId) ∧
      c.handleFrame frame = c) ∨
    ∃ k number, c.Outstanding k number ∧ k % 65536 = frame.transactionId ∧
      c.handleFrame frame =
        { c with pending := c.pending.erase (k % 65536) }.settle number (.ok frame.pdu) := by
  rw [handleFrame]
  cases hget : c.pending.get? frame.transactionId with
  | none =>
    refine .inl ⟨fun k number hk hid => ?_, rfl⟩
    rw [(h.pending _ number).mpr ⟨k, hk, hid⟩] at hget
    cases hget
  | some number =>
    obtain ⟨k, hk, hid⟩ := (h.pending _ number).mp hget
    exact .inr ⟨k, number, hk, hid, by rw [hid]⟩

theorem Matched.handleFrame (h : c.Matched) (frame : MbapFrame) : (c.handleFrame frame).Matched := by
  rcases h.handleFrame_cases frame with ⟨-, hsame⟩ | ⟨k, number, hk, -, hsettle⟩
  · rw [hsame]
    exact h
  · rw [hsettle]
    exact h.settle hk _

/-- A response has the transaction id of the request it answers, which is its place. -/
theorem Matched.of_answersTo (h : c.Matched) {frame : MbapFrame} {k : Nat}
    (hanswers : c.answersTo frame k = true) :
    ∃ r, c.sent[k]? = some r ∧ k % 65536 = frame.transactionId := by
  simp only [answersTo, decide_eq_true_eq, Option.map_eq_some_iff] at hanswers
  obtain ⟨r, hr, hid⟩ := hanswers
  exact ⟨r, hr, (h.sent k r hr).1.symm.trans hid⟩

/-- **A response settles the request it answers**, and no other, exactly when no later request waits with
its id. -/
theorem Matched.frameTimely_iff (h : c.Matched) {p : MbapFrame × Nat}
    (hanswers : c.answersTo p.1 p.2 = true) : c.FrameTimely p ↔ c.FrameSettles p := by
  obtain ⟨r, hr, hid⟩ := h.of_answersTo hanswers
  rcases h.handleFrame_cases p.1 with ⟨hnone, hsame⟩ | ⟨j, n, hj, hjid, hsettle⟩
  · -- nothing waits with this id, and nothing is settled
    constructor
    · intro _ r' hr' number
      obtain rfl := Option.some.inj (hr.symm.trans hr')
      rw [hsame, if_neg]
      rintro ⟨rfl, hwaiting⟩
      exact hnone p.2 r.number ⟨r, hr, rfl, hwaiting⟩ hid
    · intro _ later number hlater _ hsameId
      exact hnone later number hlater (hsameId.trans hid)
  · have hresponses : ∀ number, (c.handleFrame p.1).responseOf number =
        if number = n ∧ c.Waiting number then some (.ok p.1.pdu) else c.responseOf number := by
      intro number
      rw [hsettle]
      exact responseOf_settle n _ number
    obtain ⟨s, hs, hsn, hwaiting⟩ := id hj
    by_cases hk : j = p.2
    · -- the request that is answered waits
      constructor
      · intro _ r' hr' number
        rw [← hk, hs] at hr'
        obtain rfl := Option.some.inj hr'
        rw [hresponses, hsn]
      · intro _ later number hlater hlt hsameId
        have hsamePlace := (h.unique hlater hj (hsameId.trans (hid.trans hjid.symm))).1
        omega
    · -- another request waits in its place
      constructor
      · intro htimely
        refine absurd (hjid.trans hid.symm) (htimely j n hj ?_)
        have hrecent := h.recent j n hj
        have hsentk : p.2 < c.sent.length := (List.getElem?_eq_some_iff.mp hr).1
        omega
      · intro hsettles
        have hn := hsettles r hr n
        rw [hresponses, if_pos ⟨rfl, hwaiting⟩, if_neg, hwaiting.2] at hn
        · cases hn
        · rintro ⟨heq, -⟩
          exact hk (h.distinct j p.2 s r hs hr (hsn.trans heq))

/-! ### Requests -/

def send (c : ModbusTcpClient) (call : ModbusCall) (pdu : List UInt8) : ModbusTcpClient :=
  { c with
    nextTransactionId := (c.nextTransactionId + 1) % 65536
    pending := c.pending.insert c.nextTransactionId c.calls.length
    timers := c.timers ++ [(c.calls.length, c.nextTransactionId)]
    calls := c.calls ++ [⟨call, false, none, none⟩]
    sent := c.sent ++
      [⟨c.calls.length, c.nextTransactionId, encodeMbap c.nextTransactionId c.unitId pdu⟩] }

theorem request_cases (c : ModbusTcpClient) (call : ModbusCall) :
    (∃ error, c.request call = c.refuse call error) ∨ ∃ pdu, c.request call = c.send call pdu := by
  rw [request]
  split
  · exact .inl ⟨_, rfl⟩
  · split
    · exact .inl ⟨_, rfl⟩
    · exact .inr ⟨_, rfl⟩

theorem responseOf_append {calls : List Exchange} {e : Exchange} {n : Nat} (h : n < calls.length) :
    (calls ++ [e])[n]?.bind Exchange.response = calls[n]?.bind Exchange.response := by
  rw [List.getElem?_append_left h]

theorem Matched.refuse (h : c.Matched) (call : ModbusCall) (error : Thrown) :
    (c.refuse call error).Matched := by
  refine h.of_eq rfl rfl rfl rfl ?_ fun n hn => responseOf_append hn
  rw [ModbusTcpClient.refuse, List.length_append]
  exact Nat.le_add_right _ _

/-- **Which requests wait** after one more is sent. -/
theorem Matched.outstanding_send (h : c.Matched) (call : ModbusCall) (pdu : List UInt8)
    (k number : Nat) : (c.send call pdu).Outstanding k number ↔
      c.Outstanding k number ∨ (k = c.sent.length ∧ number = c.calls.length) := by
  have hlength : (c.send call pdu).calls.length = c.calls.length + 1 := by
    rw [send, List.length_append, List.length_singleton]
  constructor
  · rintro ⟨r, hr, rfl, hlt, hnone⟩
    rcases getElem?_append_singleton_eq_some hr with hold | ⟨hk, rfl⟩
    · have hin := (h.sent k r hold).2
      refine .inl ⟨r, hold, rfl, hin, ?_⟩
      rw [responseOf, send, responseOf_append hin] at hnone
      exact hnone
    · exact .inr ⟨hk, rfl⟩
  · rintro (⟨r, hr, rfl, hlt, hnone⟩ | ⟨rfl, rfl⟩)
    · refine ⟨r, getElem?_append_of_eq_some _ hr, rfl, ?_, ?_⟩
      · omega
      · rw [responseOf, send, responseOf_append hlt]
        exact hnone
    · refine ⟨_, List.getElem?_concat_length, rfl, by omega, ?_⟩
      rw [responseOf, send, List.getElem?_concat_length]
      rfl

/-- **A request that is sent in time** keeps the table right: its id is free. -/
theorem Matched.send (h : c.Matched) (call : ModbusCall) (pdu : List UInt8)
    (htimely : ∀ k number, c.Outstanding k number → c.sent.length < k + 65536) :
    (c.send call pdu).Matched := by
  have hout := h.outstanding_send call pdu
  have hplace : ∀ k number, c.Outstanding k number → k < c.sent.length := by
    rintro k number ⟨r, hr, -⟩
    exact (List.getElem?_eq_some_iff.mp hr).1
  have hlength : (c.send call pdu).sent.length = c.sent.length + 1 := by
    rw [ModbusTcpClient.send, List.length_append, List.length_singleton]
  refine ⟨?_, fun k r hr => ?_, fun j k r s hr hs heq => ?_, fun id n => ?_, fun n id hmem => ?_,
    fun k n hk => ?_⟩
  · have hnext := h.next
    rw [hlength, ModbusTcpClient.send]
    simp only
    omega
  · have hmore : (c.send call pdu).calls.length = c.calls.length + 1 := by
      rw [ModbusTcpClient.send, List.length_append, List.length_singleton]
    rcases getElem?_append_singleton_eq_some hr with hold | ⟨rfl, rfl⟩
    · obtain ⟨hid, hlt⟩ := h.sent k r hold
      exact ⟨hid, by omega⟩
    · exact ⟨h.next, hmore ▸ Nat.lt_succ_self c.calls.length⟩
  · rcases getElem?_append_singleton_eq_some hr with hr | ⟨hj, rfl⟩ <;>
      rcases getElem?_append_singleton_eq_some hs with hs | ⟨hk, rfl⟩
    · exact h.distinct j k r s hr hs heq
    · exact absurd heq (Nat.ne_of_lt (h.sent j r hr).2)
    · exact absurd heq.symm (Nat.ne_of_lt (h.sent k s hs).2)
    · exact hj.trans hk.symm
  · simp only [hout]
    rw [ModbusTcpClient.send, InsertionMap.get?_insert]
    split
    · next hid =>
      subst hid
      constructor
      · intro hn
        exact ⟨c.sent.length, .inr ⟨rfl, (Option.some.inj hn).symm⟩, h.next.symm⟩
      · rintro ⟨k, hk | ⟨rfl, rfl⟩, hkid⟩
        · -- an earlier request that waits has another id
          have hold := hplace k n hk
          have hnew := htimely k n hk
          have hnext := h.next
          omega
        · rfl
    · next hid =>
      rw [h.pending]
      constructor
      · rintro ⟨k, hk, hkid⟩
        exact ⟨k, .inl hk, hkid⟩
      · rintro ⟨k, hk | ⟨rfl, rfl⟩, hkid⟩
        · exact ⟨k, hk, hkid⟩
        · exact absurd (hkid.symm.trans h.next.symm) hid
  · simp only [hout]
    rcases List.mem_append.mp hmem with hold | hnew
    · obtain ⟨k, hk, hid⟩ := h.timed n id hold
      exact ⟨k, .inl hk, hid⟩
    · obtain ⟨rfl, rfl⟩ := Prod.mk.inj (List.mem_singleton.mp hnew)
      exact ⟨c.sent.length, .inr ⟨rfl, rfl⟩, h.next.symm⟩
  · rw [hlength]
    rcases (hout k n).mp hk with hold | ⟨rfl, -⟩
    · exact htimely k n hold
    · omega

/-- **A request is sent in time** exactly when its id is free. -/
theorem Matched.request_iff (h : c.Matched) (call : ModbusCall) (answers : List Nat) :
    c.Timely ⟨.request call, answers⟩ ↔ c.Settles ⟨.request call, answers⟩ := by
  simp only [Timely, Settles]
  rcases request_cases c call with ⟨error, hrefuse⟩ | ⟨pdu, hsend⟩
  · have hsame : (c.request call).sent = c.sent := by rw [hrefuse, ModbusTcpClient.refuse]
    simp only [hsame, ne_eq, not_true_eq_false, false_imp_iff, true_iff]
    intro new hnew
    exact absurd (List.self_eq_append_right.mp hnew) (List.cons_ne_nil _ _)
  · have hmore : (c.request call).sent = c.sent ++
        [⟨c.calls.length, c.nextTransactionId, encodeMbap c.nextTransactionId c.unitId pdu⟩] := by
      rw [hsend, ModbusTcpClient.send]
    rw [hmore]
    constructor
    · intro htimely new hnew r hr hwaiting
      have htimely := htimely (by simp)
      obtain rfl := List.singleton_inj.mp (List.append_cancel_left hnew)
      obtain ⟨k, hk⟩ := List.mem_iff_getElem?.mp hr
      have hlt := htimely k r.number ⟨r, hk, rfl, hwaiting⟩
      have hin := (List.getElem?_eq_some_iff.mp hk).1
      show r.transactionId ≠ c.nextTransactionId
      rw [(h.sent k r hk).1, h.next]
      omega
    · rintro hfree - k number ⟨r, hr, rfl, hwaiting⟩
      have hne : r.transactionId ≠ c.nextTransactionId :=
        hfree _ rfl r (List.mem_of_getElem? hr) hwaiting
      have hrecent := h.recent k r.number ⟨r, hr, rfl, hwaiting⟩
      have hin := (List.getElem?_eq_some_iff.mp hr).1
      rw [(h.sent k r hr).1, h.next] at hne
      omega

/-! ### Everything else -/

theorem Matched.modify (h : c.Matched) (number : Nat) {f : Exchange → Exchange}
    (hf : ∀ e, (f e).response = e.response) :
    ({ c with calls := c.calls.modify number f } : ModbusTcpClient).Matched := by
  refine h.of_eq rfl rfl rfl rfl (Nat.le_of_eq (List.length_modify ..).symm) fun n _ => ?_
  rw [responseOf, responseOf, List.getElem?_modify]
  cases c.calls[n]? with
  | none => rfl
  | some e =>
    by_cases hn : number = n
    · simp [hn, hf]
    · simp [hn]

theorem foldl_settle (error : Thrown) (numbers : List Nat) :
    let c' := numbers.foldl (fun c number => c.settle number (.error error)) c
    c'.sent = c.sent ∧ c'.nextTransactionId = c.nextTransactionId ∧
      c'.calls.length = c.calls.length ∧ (∀ n, c'.Waiting n ↔ c.Waiting n ∧ n ∉ numbers) ∧
      ∀ timer ∈ c'.timers, timer ∈ c.timers ∧ timer.1 ∉ numbers := by
  induction numbers generalizing c with
  | nil => simp
  | cons number numbers ih =>
    obtain ⟨hsent, hnext, hlength, hwaiting, htimers⟩ := ih (c := c.settle number (.error error))
    refine ⟨hsent, hnext, hlength.trans (List.length_modify ..), fun n => ?_, fun timer ht => ?_⟩
    · rw [List.foldl_cons, hwaiting, waiting_settle, List.mem_cons, not_or, and_assoc]
    · obtain ⟨hold, hnot⟩ := htimers timer ht
      obtain ⟨hold, hne⟩ := List.mem_filter.mp hold
      refine ⟨hold, fun hmem => ?_⟩
      rcases List.mem_cons.mp hmem with heq | hlater
      · exact of_decide_eq_true hne heq
      · exact hnot hlater

/-- **When everything fails**, nothing waits any more. -/
theorem Matched.failAll (h : c.Matched) (error : Thrown) : (c.failAll error).Matched := by
  obtain ⟨hsent, hnext, hlength, hwaiting, htimers⟩ :=
    foldl_settle (c := c) error (c.pending.entries.map Prod.snd)
  have hpending : ∀ k number, c.Outstanding k number →
      number ∈ c.pending.entries.map Prod.snd := by
    intro k number hk
    have hget := (h.pending _ number).mpr ⟨k, hk, rfl⟩
    exact List.mem_map.mpr ⟨_, InsertionMap.get?_eq_some_iff.mp hget, rfl⟩
  have hnone : ∀ k number, ¬ (c.failAll error).Outstanding k number := by
    rintro k number ⟨r, hr, hn, hwaits⟩
    obtain ⟨hwaits, hnot⟩ := (hwaiting number).mp hwaits
    rw [ModbusTcpClient.failAll, hsent] at hr
    exact hnot (hpending k number ⟨r, hr, hn, hwaits⟩)
  refine ⟨?_, fun k r hr => ?_, ?_, fun id n => ?_, fun n id hmem => ?_, fun k n hk => ?_⟩
  · rw [ModbusTcpClient.failAll, hnext, hsent]
    exact h.next
  · rw [ModbusTcpClient.failAll, hsent] at hr
    obtain ⟨hid, hlt⟩ := h.sent k r hr
    exact ⟨hid, hlength ▸ hlt⟩
  · rw [ModbusTcpClient.failAll, hsent]
    exact h.distinct
  · exact ⟨nofun, fun ⟨k, hk, _⟩ => absurd hk (hnone k n)⟩
  · obtain ⟨hold, hnot⟩ := htimers _ hmem
    obtain ⟨k, hk, -⟩ := h.timed n id hold
    exact absurd (hpending k n hk) hnot
  · exact absurd hk (hnone k n)

/-- **A step that is timely** keeps the table right. -/
theorem Matched.deliver (h : c.Matched) {c' : ModbusTcpClient} {d : Delivery}
    (htimely : c.Timely d) (hstep : c.deliver d = some c') : c'.Matched := by
  obtain ⟨event, answers⟩ := d
  cases event <;> simp only [ModbusTcpClient.deliver, step] at hstep
  case request call =>
    obtain rfl := Option.some.inj hstep
    rcases request_cases c call with ⟨error, hrefuse⟩ | ⟨pdu, hsend⟩
    · rw [hrefuse]
      exact h.refuse call error
    · have hsent : (c.request call).sent ≠ c.sent := by
        rw [hsend, ModbusTcpClient.send]
        simp
      rw [hsend]
      exact h.send call pdu (htimely hsent)
  case written number =>
    split at hstep
    · obtain rfl := Option.some.inj hstep
      exact h.modify number fun _ => Exchange.response_write
    · cases hstep
  case writeFailed number error =>
    split at hstep
    · obtain rfl := Option.some.inj hstep
      exact h.modify number fun _ => rfl
    · cases hstep
  case chunk bytes =>
    split at hstep
    · refine Machine.run_invariant (I := Matched) (fun m p m' hm hp => ?_) ?_ hstep
      · obtain ⟨-, rfl⟩ := of_answerMachine_step hp
        exact hm.handleFrame p.1
      · exact h.of_eq rfl rfl rfl rfl (Nat.le_refl _) fun _ _ => rfl
    · cases hstep
  case timeout number transactionId =>
    split at hstep
    · next htimer =>
      obtain rfl := Option.some.inj hstep
      obtain ⟨k, hk, rfl⟩ := h.timed number transactionId htimer
      exact h.settle hk _
    · cases hstep
  case socketFailed error =>
    obtain rfl := Option.some.inj hstep
    exact h.failAll error
  case socketClosed =>
    obtain rfl := Option.some.inj hstep
    exact h.failAll _
  case close =>
    obtain rfl := Option.some.inj hstep
    exact (h.failAll _).of_eq rfl rfl rfl rfl (Nat.le_refl _) fun _ _ => rfl

/-- **What is claimed of a step** holds exactly when the step is timely. -/
theorem Matched.timely_iff (h : c.Matched) {c' : ModbusTcpClient} {d : Delivery}
    (hstep : c.deliver d = some c') : c.Timely d ↔ c.Settles d := by
  obtain ⟨event, answers⟩ := d
  cases event with
  | request call => exact h.request_iff call answers
  | chunk bytes =>
    simp only [ModbusTcpClient.deliver] at hstep
    split at hstep
    · refine Machine.guarded_congr (I := Matched) (fun m p m' hm hp => ?_) (fun m p m' hm hp => ?_)
        (h.of_eq rfl rfl rfl rfl (Nat.le_refl _) fun _ _ => rfl) hstep
      · obtain ⟨-, rfl⟩ := of_answerMachine_step hp
        exact hm.handleFrame p.1
      · exact hm.frameTimely_iff (of_answerMachine_step hp).1
    · cases hstep
  | written _ | writeFailed _ _ | timeout _ _ | socketFailed _ | socketClosed | close => exact Iff.rfl

end Matching

/-! ## Frames and chunks -/

def bytesIn (events : List TcpEvent) : List UInt8 :=
  events.flatMap fun event => match event with
    | .chunk bytes => bytes
    | _ => []

def framesAt (c : ModbusTcpClient) : TcpEvent → List MbapFrame
  | .chunk bytes => c.framesOf bytes
  | _ => []

def framesIn (c : ModbusTcpClient) : List TcpEvent → List MbapFrame
  | [] => []
  | event :: events => c.framesAt event ++ match c.step event with
    | some c' => framesIn c' events
    | none => []

/-- What the loop of `onData` and `failAll` leave of the buffer. -/
theorem buffer_onData (c : ModbusTcpClient) (bytes : List UInt8) :
    (c.onData bytes).buffer = (mbapDecoder.drain (c.buffer ++ bytes)).rest := by
  refine Machine.run_invariant (I := fun m => m.buffer = (mbapDecoder.drain (c.buffer ++ bytes)).rest)
    (fun m frame m' hm hstep => ?_) rfl (run_onData c bytes)
  obtain rfl := Option.some.inj hstep
  rw [handleFrame]
  split <;> exact hm

theorem buffer_failAll (c : ModbusTcpClient) (error : Thrown) : (c.failAll error).buffer = c.buffer :=
  failAll_induction (P := fun m => m.buffer = c.buffer) error rfl (fun _ _ h => h) fun _ h => h

theorem buffer_step {c c' : ModbusTcpClient} {event : TcpEvent} (h : c.step event = some c')
    (hchunk : ∀ bytes, event ≠ .chunk bytes) : c'.buffer = c.buffer := by
  cases event <;> simp only [step] at h
  case request call =>
    obtain rfl := Option.some.inj h
    rcases request_cases c call with ⟨error, hrefuse⟩ | ⟨pdu, hsend⟩
    · rw [hrefuse, refuse]
    · rw [hsend, send]
  case chunk bytes => exact absurd rfl (hchunk bytes)
  case socketFailed | socketClosed | close =>
    obtain rfl := Option.some.inj h
    exact buffer_failAll c _
  all_goals
    split at h
    · obtain rfl := Option.some.inj h
      rfl
    · cases h

/-- **The frames do not depend on the chunks**: those that a run completes are those of all its bytes
behind the ones that were left. -/
theorem framesIn_eq {c c' : ModbusTcpClient} {events : List TcpEvent}
    (hrun : machine.run c events = some c') (hbuffer : mbapDecoder.decode c.buffer = .incomplete) :
    c.framesIn events = (mbapDecoder.drain (c.buffer ++ bytesIn events)).packets := by
  induction events generalizing c with
  | nil =>
    rw [framesIn, bytesIn, List.flatMap_nil, List.append_nil, mbapDecoder.drain_of_incomplete hbuffer]
  | cons event events ih =>
    obtain ⟨m, hm, hrest⟩ := machine.run_cons_eq_some.mp hrun
    have hstep : c.step event = some m := hm
    simp only [framesIn, hstep]
    cases event with
    | chunk bytes =>
      obtain rfl := Option.some.inj hstep
      have hnever : (mbapDecoder.drain (c.buffer ++ bytes)).failure = none := by
        have hdecode := mbapDecoder.decode_rest (c.buffer ++ bytes)
        cases hfailure : (mbapDecoder.drain (c.buffer ++ bytes)).failure with
        | none => rfl
        | some e =>
          rw [hfailure] at hdecode
          exact absurd hdecode (tryDecodeMbap_ne_failed _ e)
      have hleft : mbapDecoder.decode (c.onData bytes).buffer = .incomplete := by
        rw [buffer_onData, mbapDecoder.decode_rest, hnever]
      have hmore : bytesIn (.chunk bytes :: events) = bytes ++ bytesIn events := rfl
      rw [ih hrest hleft, hmore, ← List.append_assoc, mbapDecoder.drain_append (c.buffer ++ bytes),
        PacketDecoder.extend, hnever, buffer_onData]
      rfl
    | request _ | written _ | writeFailed _ _ | timeout _ _ | socketFailed _ | socketClosed | close =>
      have hkept : m.buffer = c.buffer := buffer_step hstep (by rintro _ ⟨⟩)
      have hmore := ih hrest (by rw [hkept]; exact hbuffer)
      rw [hkept] at hmore
      exact hmore

/-! ## Runs -/

/-- **Transactions.** In every run whose frames answer requests: every request that is sent gets an id that no
waiting request has, and every response settles the request it answers, exactly when every request is sent
before 65536 others were sent behind one that waits, and no response comes when a later request waits with
its id. In every run at all, the frames are those of the bytes that arrived, however they were cut. -/
theorem transactions_iff {unitId : UInt8} {timeoutMs : JsString} {deliveries : List Delivery}
    {c : ModbusTcpClient} (hrun : deliveryMachine.run { unitId, timeoutMs } deliveries = some c) :
    (deliveryMachine.Guarded Settles { unitId, timeoutMs } deliveries ↔
      deliveryMachine.Guarded Timely { unitId, timeoutMs } deliveries) ∧
    ∀ (events : List TcpEvent) (m : ModbusTcpClient),
      machine.run { unitId, timeoutMs } events = some m →
        framesIn { unitId, timeoutMs } events = (mbapDecoder.drain (bytesIn events)).packets := by
  constructor
  · refine (Machine.guarded_iff (I := Matched) (fun m d m' hm htimely hstep => ?_)
      (fun m d m' hm hstep => ?_) (Matched.init unitId timeoutMs) hrun).symm
    · exact hm.deliver htimely hstep
    · exact hm.timely_iff hstep
  · intro events m hrun
    exact framesIn_eq hrun rfl

def registerRead : List Delivery :=
  [⟨.request (.readHoldingRegisters 5 1), []⟩, ⟨.chunk (encodeMbap 0 1 [0x03, 0x02, 0x00, 0x07]), [0]⟩]

/-- Its response settles it. -/
theorem transactions_iff_registerRead :
    deliveryMachine.Guarded Settles { unitId := 1, timeoutMs := js "5000" } registerRead := by
  refine (@transactions_iff 1 (js "5000") registerRead _ rfl).1.mpr ?_
  rw [registerRead]
  apply Machine.Guarded.cons
  · rfl
  · rintro - earlier number ⟨r, hr, -⟩
    cases hr
  · refine Machine.Guarded.cons (by exact rfl) ?_ (Machine.guarded_nil _)
    show answerMachine.Guarded FrameTimely _ [(⟨0, 0, 1, [0x03, 0x02, 0x00, 0x07]⟩, 0)]
    refine Machine.Guarded.cons (by exact rfl) ?_ (Machine.guarded_nil _)
    rintro later number ⟨r, hr, -⟩ hlater
    have hin : later < 1 := (List.getElem?_eq_some_iff.mp hr).1
    omega

/-! ### Too many requests -/

def readOneCoil : Delivery := ⟨.request (.readCoils 0 1), []⟩

/-- **Requests that nobody answers** are all sent, and the first of them waits. -/
theorem exists_flood (unitId : UInt8) (timeoutMs : JsString) (n : Nat) :
    ∃ c, deliveryMachine.run { unitId, timeoutMs } (List.replicate n readOneCoil) = some c ∧
      c.sent.length = n ∧ c.nextTransactionId = n % 65536 ∧ (c.closed = false ∧ c.connected = true) ∧
      ∀ r, c.sent[0]? = some r → r.transactionId = 0 ∧ c.Waiting r.number := by
  induction n with
  | zero => exact ⟨_, rfl, rfl, rfl, ⟨rfl, rfl⟩, nofun⟩
  | succ n ih =>
    obtain ⟨c, hrun, hlength, hnext, ⟨hclosed, hconnected⟩, hfirst⟩ := ih
    have hpdu : (ModbusCall.readCoils 0 1).request = .ok (0x01 :: (word 0 ++ word 1)) := rfl
    have hstep : deliveryMachine.step c readOneCoil =
        some (c.send (.readCoils 0 1) (0x01 :: (word 0 ++ word 1))) := by
      have hopen : ¬ (c.closed = true ∨ ¬ c.connected = true) := by simp [hclosed, hconnected]
      show some (c.request (.readCoils 0 1)) = _
      rw [request, hpdu]
      simp only [if_neg hopen]
      rfl
    refine ⟨c.send (.readCoils 0 1) (0x01 :: (word 0 ++ word 1)), ?_, ?_, ?_, ⟨hclosed, hconnected⟩,
      fun r hr => ?_⟩
    · rw [List.replicate_succ']
      exact deliveryMachine.run_append_eq_some.mpr ⟨c, hrun, hstep⟩
    · rw [send, List.length_append, hlength, List.length_singleton]
    · rw [send]
      simp only [hnext]
      omega
    · have hlonger : (c.send (.readCoils 0 1) (0x01 :: (word 0 ++ word 1))).calls.length =
          c.calls.length + 1 := by
        rw [send, List.length_append, List.length_singleton]
      rcases getElem?_append_singleton_eq_some hr with hold | ⟨hzero, rfl⟩
      · obtain ⟨hid, hlt, hnone⟩ := hfirst r hold
        refine ⟨hid, by omega, ?_⟩
        rw [responseOf, send, responseOf_append hlt]
        exact hnone
      · refine ⟨?_, hlonger ▸ Nat.lt_succ_self c.calls.length, ?_⟩
        · show c.nextTransactionId = 0
          rw [hnext, ← hlength, ← hzero]
        · rw [responseOf, send, List.getElem?_concat_length]
          rfl

/-- **The first of 65537 requests that nobody answers** still waits when its id is given away. -/
theorem not_settles_flood :
    ∃ c, deliveryMachine.run { unitId := 1, timeoutMs := js "5000" }
        (List.replicate 65537 readOneCoil) = some c ∧
      ¬ deliveryMachine.Guarded Settles { unitId := 1, timeoutMs := js "5000" }
        (List.replicate 65537 readOneCoil) := by
  obtain ⟨c, hrun, -⟩ := exists_flood 1 (js "5000") 65537
  refine ⟨c, hrun, fun hsettles => ?_⟩
  obtain ⟨m, hm, hlength, hnext, ⟨hclosed, hconnected⟩, hfirst⟩ := exists_flood 1 (js "5000") 65536
  rw [List.replicate_succ' (n := 65536)] at hsettles
  obtain ⟨-, hlast, -⟩ := hsettles.of_append hm
  have hin : 0 < m.sent.length := by omega
  obtain ⟨hid, hwaiting⟩ := hfirst m.sent[0] (List.getElem?_eq_getElem hin)
  have hopen : ¬ (m.closed = true ∨ ¬ m.connected = true) := by simp [hclosed, hconnected]
  refine hlast ⟨m.calls.length, m.nextTransactionId,
    encodeMbap m.nextTransactionId m.unitId (0x01 :: (word 0 ++ word 1))⟩ ?_ m.sent[0]
    (List.getElem_mem hin) hwaiting ?_
  · have hpdu : (ModbusCall.readCoils 0 1).request = .ok (0x01 :: (word 0 ++ word 1)) := rfl
    rw [request, hpdu]
    simp only [if_neg hopen]
  · show (m.sent[0]).transactionId = m.nextTransactionId
    rw [hid, hnext]

end ModbusTcpClient

end Pinout.Modbus
