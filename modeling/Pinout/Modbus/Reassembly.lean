import Pinout.Modbus.RtuClient

/-! # Chunks and frames over a serial line

Two RTU clients side by side: one receives the chunks the transport yields, the other receives each frame
as one chunk, at the moment its last byte arrives. Frames have no length prefix, and the client does not
reassemble them, so the two stay the same exactly as long as a request in flight is met by a chunk that is
one whole frame. -/

namespace Pinout.Modbus

open Foundation

/-- The frames that are complete when so many bytes of them have arrived, those that are not, and how
many bytes of these have arrived. -/
def complete : List (List UInt8) → Nat → List (List UInt8) × List (List UInt8) × Nat
  | [], arrived => ([], [], arrived)
  | frame :: frames, arrived =>
    if frame.length ≤ arrived then
      let rest := complete frames (arrived - frame.length)
      (frame :: rest.1, rest.2)
    else ([], frame :: frames, arrived)

/-- A client that receives chunks beside one that receives frames. -/
structure SideBySide where
  chunked : ModbusRtuClient
  framed : ModbusRtuClient
  frames : List (List UInt8)
  arrived : Nat

namespace SideBySide

def completed (s : SideBySide) (bytes : List UInt8) : List (List UInt8) :=
  (complete s.frames (s.arrived + bytes.length)).1

def step (s : SideBySide) (event : RtuEvent) : Option SideBySide :=
  match event with
  | .chunk bytes answers =>
    let left := (complete s.frames (s.arrived + bytes.length)).2
    match s.chunked.step (.chunk bytes answers),
        ModbusRtuClient.machine.run s.framed ((s.completed bytes).map fun frame => .chunk frame answers) with
    | some chunked, some framed => some ⟨chunked, framed, left.1, left.2⟩
    | _, _ => none
  | event => match s.chunked.step event, s.framed.step event with
    | some chunked, some framed => some { s with chunked, framed }
    | _, _ => none

def machine : Machine SideBySide RtuEvent := ⟨step⟩

/-- A request in flight is met by the frame that is complete first. -/
def Whole (s : SideBySide) : RtuEvent → Prop
  | .chunk bytes _ => s.chunked.inflight.isSome → (s.completed bytes).head? = some bytes
  | _ => True

instance (s : SideBySide) : ∀ event, Decidable (s.Whole event)
  | .chunk bytes _ =>
    inferInstanceAs (Decidable (s.chunked.inflight.isSome → (s.completed bytes).head? = some bytes))
  | .request _ | .written _ | .writeFailed _ _ | .timeout | .streamFailed _ | .streamEnded | .close =>
    isTrue trivial

end SideBySide

namespace ModbusRtuClient

/-- The request in flight is one that has no response. -/
def Valid (c : ModbusRtuClient) : Prop :=
  ∀ number, c.inflight = some number → ∃ e, c.calls[number]? = some e ∧ e.response = none

theorem inflight_settle (c : ModbusRtuClient) (response : Except Thrown (List UInt8)) :
    (c.settle response).inflight = none := by
  rw [settle]
  split
  · next h => exact h
  · rfl

theorem Valid.settle (c : ModbusRtuClient) (response : Except Thrown (List UInt8)) :
    (c.settle response).Valid := by
  intro number h
  rw [inflight_settle] at h
  cases h

/-- A step keeps the request in flight without a response. -/
theorem Valid.step {c c' : ModbusRtuClient} {event : RtuEvent} (hc : c.Valid)
    (h : c.step event = some c') : c'.Valid := by
  have hmodify : ∀ (k : Nat) (f : Exchange → Exchange), (∀ e, (f e).response = e.response) →
      Valid { c with calls := c.calls.modify k f } := by
    intro k f hf number hinflight
    obtain ⟨e, he, hresponse⟩ := hc number hinflight
    by_cases hk : k = number
    · exact ⟨f e, by simp [hk, he], (hf e).trans hresponse⟩
    · exact ⟨e, by simp [hk, he], hresponse⟩
  have happend : ∀ e, Valid { c with calls := c.calls ++ [e] } := by
    intro e number hinflight
    obtain ⟨e', he', hresponse⟩ := hc number hinflight
    exact ⟨e', (List.getElem?_append_left (List.getElem?_eq_some_iff.mp he').1).trans he', hresponse⟩
  cases event <;> simp only [ModbusRtuClient.step] at h
  case request call =>
    obtain rfl := Option.some.inj h
    rw [request]
    split
    · exact happend _
    · split
      · exact happend _
      · split
        · exact happend _
        · intro number hinflight
          obtain rfl := Option.some.inj hinflight
          exact ⟨⟨call, false, none, none⟩, by simp, rfl⟩
  case close =>
    obtain rfl := Option.some.inj h
    exact Valid.settle c _
  case written number =>
    split at h
    · obtain rfl := Option.some.inj h
      exact hmodify number _ fun e => Exchange.response_write
    · cases h
  case writeFailed number error =>
    split at h
    · obtain rfl := Option.some.inj h
      exact hmodify number _ fun e => rfl
    · cases h
  case streamEnded =>
    split at h
    · obtain rfl := Option.some.inj h
      exact hc
    · cases h
  case chunk | timeout | streamFailed =>
    split at h
    · obtain rfl := Option.some.inj h
      exact Valid.settle c _
    · cases h

theorem run_chunks_of_idle {c c' : ModbusRtuClient} {frames : List (List UInt8)} {answers : Option Nat}
    (hidle : c.inflight = none)
    (h : machine.run c (frames.map fun frame => .chunk frame answers) = some c') : c' = c := by
  induction frames with
  | nil => exact (Option.some.inj h).symm
  | cons frame frames ih =>
    obtain ⟨m, hm, hrest⟩ := machine.run_cons_eq_some.mp h
    have hstep : m = c := by
      simp only [machine, ModbusRtuClient.step, settle, hidle] at hm
      split at hm
      · exact (Option.some.inj hm).symm
      · cases hm
    rw [hstep] at hrest
    exact ih hrest

/-- Two responses to the request in flight leave the same client only when they are the same. -/
theorem settle_inj {c : ModbusRtuClient} {number : Nat} {bytes bytes' : List UInt8} (hc : c.Valid)
    (hinflight : c.inflight = some number) :
    c.settle (.ok bytes) = c.settle (.ok bytes') ↔ bytes = bytes' := by
  constructor
  · intro h
    obtain ⟨e, he, hnone⟩ := hc number hinflight
    have hget : ∀ bytes, (c.settle (.ok bytes)).calls[number]? =
        some (Exchange.respond c.decode (.ok bytes) e) := by
      intro bytes
      simp [settle, hinflight, he]
    have hresponse : ∀ bytes, (Exchange.respond c.decode (.ok bytes) e).response =
        some (.ok bytes) := by
      intro bytes
      rw [Exchange.respond, hnone]
      exact Exchange.response_finish
    have hsame := (hget bytes).symm.trans ((congrArg (fun c => c.calls[number]?) h).trans (hget bytes'))
    have hsame := congrArg Exchange.response (Option.some.inj hsame)
    rw [hresponse, hresponse] at hsame
    exact Except.ok.inj (Option.some.inj hsame)
  · rintro rfl
    rfl

end ModbusRtuClient

namespace SideBySide

/-- What frames leave of a client in which a request is in flight: the first is its response. -/
theorem run_chunks_cons {c c' : ModbusRtuClient} {frame : List UInt8} {frames : List (List UInt8)}
    {answers : Option Nat} (h : ModbusRtuClient.machine.run c
      ((frame :: frames).map fun frame => .chunk frame answers) = some c') :
    c' = c.settle (.ok frame) := by
  obtain ⟨m, hm, hrest⟩ := ModbusRtuClient.machine.run_cons_eq_some.mp h
  simp only [ModbusRtuClient.machine, ModbusRtuClient.step] at hm
  split at hm
  · obtain rfl := Option.some.inj hm
    exact ModbusRtuClient.run_chunks_of_idle (ModbusRtuClient.inflight_settle c _) hrest
  · cases hm

/-- **A chunk at two clients that are the same** leaves them the same exactly when it is a whole frame,
if a request is in flight. -/
theorem chunk_same_iff {s s' : SideBySide} {bytes : List UInt8} {answers : Option Nat}
    (hsame : s.chunked = s.framed) (hvalid : s.chunked.Valid)
    (h : s.step (.chunk bytes answers) = some s') :
    s'.chunked = s'.framed ↔ s.Whole (.chunk bytes answers) := by
  simp only [step] at h
  split at h
  · next chunked framed hchunked hframed =>
    obtain rfl := Option.some.inj h
    have hsettle : chunked = s.chunked.settle (.ok bytes) := by
      simp only [ModbusRtuClient.step] at hchunked
      split at hchunked
      · exact (Option.some.inj hchunked).symm
      · cases hchunked
    rw [← hsame] at hframed
    simp only [Whole]
    cases hinflight : s.chunked.inflight with
    | none =>
      have hframed := ModbusRtuClient.run_chunks_of_idle hinflight hframed
      have hidle : s.chunked.settle (.ok bytes) = s.chunked := by
        rw [ModbusRtuClient.settle, hinflight]
      rw [hsettle, hframed, hidle]
      exact ⟨by rintro - ⟨⟩, fun _ => rfl⟩
    | some number =>
      cases hdone : s.completed bytes with
      | nil =>
        rw [hdone] at hframed
        obtain rfl := Option.some.inj hframed
        constructor
        · intro heq
          have hnone := ModbusRtuClient.inflight_settle s.chunked (.ok bytes)
          rw [← hsettle, heq, hinflight] at hnone
          cases hnone
        · intro hwhole
          cases hwhole rfl
      | cons frame frames =>
        rw [hdone] at hframed
        rw [hsettle, run_chunks_cons hframed, ModbusRtuClient.settle_inj hvalid hinflight]
        exact ⟨fun heq _ => congrArg some heq.symm, fun hwhole => (Option.some.inj (hwhole rfl)).symm⟩
  · cases h

/-- **One event at two clients that are the same** leaves them the same exactly when a request in flight
is met by a whole frame. -/
theorem step_same_iff {s s' : SideBySide} {event : RtuEvent} (hsame : s.chunked = s.framed)
    (hvalid : s.chunked.Valid) (h : s.step event = some s') :
    s'.chunked = s'.framed ↔ s.Whole event := by
  cases event
  case chunk bytes answers => exact chunk_same_iff hsame hvalid h
  all_goals
    simp only [step] at h
    split at h
    · next chunked framed hchunked hframed =>
      obtain rfl := Option.some.inj h
      rw [hsame] at hchunked
      exact ⟨fun _ => trivial, fun _ => Option.some.inj (hchunked.symm.trans hframed)⟩
    · cases h

/-- The client that receives chunks takes a step of its own. -/
theorem chunked_step {s s' : SideBySide} {event : RtuEvent} (h : s.step event = some s') :
    s.chunked.step event = some s'.chunked := by
  cases event
  all_goals
    simp only [step] at h
    split at h
    · next hchunked _ =>
      obtain rfl := Option.some.inj h
      exact hchunked
    · cases h

/-- **Reception does not depend on chunks exactly in runs of whole frames.** A client that receives
chunks and one that receives frames stay the same, whatever else happens, if and only if every request in
flight is met by a chunk that is the frame complete at that moment. -/
theorem same_iff_whole (slaveAddress : Int) (timeoutMs : JsString) (frames : List (List UInt8))
    (events : List RtuEvent) {start : ModbusRtuClient} {t : SideBySide}
    (hnew : ModbusRtuClient.new slaveAddress timeoutMs = .ok start)
    (hrun : machine.run ⟨start, start, frames, 0⟩ events = some t) :
    (∀ before after m, events = before ++ after → machine.run ⟨start, start, frames, 0⟩ before = some m →
        m.chunked = m.framed) ↔
      machine.Guarded Whole ⟨start, start, frames, 0⟩ events := by
  have hstart : start.Valid := by
    rw [ModbusRtuClient.new] at hnew
    split at hnew
    · cases hnew
    · obtain rfl := Except.ok.inj hnew
      exact nofun
  have hvalid : ∀ {before m}, machine.run ⟨start, start, frames, 0⟩ before = some m →
      m.chunked.Valid := by
    intro before m hm
    refine Machine.run_invariant (I := fun m => m.chunked.Valid) ?_ hstart hm
    exact fun m event m' hm hstep => hm.step (chunked_step hstep)
  constructor
  · intro hsame
    by_contra hnot
    obtain ⟨before, event, after, m, m', rfl, hm, -, hwhole, hstep⟩ :=
      Machine.exists_of_not_guarded hrun hnot
    have hm' : machine.run ⟨start, start, frames, 0⟩ (before ++ [event]) = some m' := by
      rw [machine.run_append_eq_some]
      exact ⟨m, hm, by rwa [machine.run_singleton]⟩
    have hbefore := hsame before (event :: after) m rfl hm
    have hafter := hsame (before ++ [event]) after m' (by simp) hm'
    exact hwhole ((step_same_iff hbefore (hvalid hm) hstep).mp hafter)
  · rintro hguarded before after m rfl hm
    refine (Machine.run_guarded_invariant (I := fun m => m.chunked = m.framed ∧ m.chunked.Valid)
      ?_ ⟨rfl, hstart⟩ (hguarded.of_append hm).1 hm).1
    rintro m event m' ⟨hsame, hv⟩ hwhole hstep
    exact ⟨(step_same_iff hsame hv hstep).mpr hwhole, hv.step (chunked_step hstep)⟩

def registerAnswer : List UInt8 := encodeRtu 1 [0x03, 0x02, 0x00, 0x07]

/-- A register is read in one chunk. -/
theorem same_iff_whole_register : ∃ start t, ModbusRtuClient.new 1 (js "5000") = .ok start ∧
    machine.run ⟨start, start, [registerAnswer], 0⟩
      [.request (.readHoldingRegisters 0 1), .written 0, .chunk registerAnswer (some 0)] = some t ∧
    (t.chunked.calls.map fun e => e.outcome.any Except.isOk) = [true] ∧ t.chunked = t.framed := by
  refine ⟨_, _, rfl, rfl, ?_, ?_⟩
  · decide +kernel
  · exact (same_iff_whole 1 (js "5000") [registerAnswer]
      [.request (.readHoldingRegisters 0 1), .written 0, .chunk registerAnswer (some 0)] rfl rfl).mpr
      (by decide +kernel) _ [] _ (List.append_nil _).symm rfl

/-- The same answer in two chunks is no answer. -/
theorem not_same : ∃ start t, ModbusRtuClient.new 1 (js "5000") = .ok start ∧
    machine.run ⟨start, start, [registerAnswer], 0⟩
      [.request (.readHoldingRegisters 0 1), .written 0, .chunk (registerAnswer.take 3) (some 0),
        .chunk (registerAnswer.drop 3) (some 0)] = some t ∧
    (t.framed.calls.map fun e => e.outcome.any Except.isOk) = [true] ∧
    (t.chunked.calls.map fun e => e.outcome.any Except.isOk) = [false] := by
  refine ⟨_, _, rfl, rfl, ?_, ?_⟩
  · decide +kernel
  · decide +kernel

end SideBySide

end Pinout.Modbus
