import Pinout.Foundation.History
import Pinout.Halt.Coordinator

/-! # Stickiness of the halt coordinator

What `docs/spec/safety.md` asks of the coordinator is a **latch** over its history: a requested
emergency stop stays outstanding until it has been cleared and, after that, explicitly resumed; a
halt stays outstanding until it has been resumed. The code spreads the latch over the state name and
two flags. `clearFault` is the one operation that lets go of the state name without looking at the
rest, and the coordinator is sticky exactly in the histories in which it never does so while
something is outstanding. -/

namespace Pinout.Halt

open Foundation

/-! ## What is outstanding -/

/-- A `halt` call. -/
def Entry.IsHalt (e : Entry) : Prop := ∃ reason actor, e.call = .halt reason actor

/-- A `requestEstop` call. -/
def Entry.IsRequestEstop (e : Entry) : Prop := ∃ reason actor, e.call = .requestEstop reason actor

/-- A `clearEstop` call. -/
def Entry.IsClearEstop (e : Entry) : Prop := ∃ actor, e.call = .clearEstop actor

/-- A `clearFault` call. -/
def Entry.IsClearFault (e : Entry) : Prop := ∃ actor, e.call = .clearFault actor

/-- A `resume` call that does not throw. -/
def Entry.IsResumed (e : Entry) : Prop :=
  ∃ reason actor, e.call = .resume reason actor ∧ e.before.resumeError = none

/-- The history holds a halt that no successful resume has followed. -/
def HaltOutstanding (history : List Entry) : Prop :=
  Since Entry.IsHalt (fun after => ∀ e ∈ after, ¬ e.IsResumed) history

/-- The history holds a clear that a successful resume has followed. -/
def ClearedAndResumed (history : List Entry) : Prop :=
  Since Entry.IsClearEstop (fun after => ∃ e ∈ after, e.IsResumed) history

/-- The history holds an estop request that no clear and later resume have followed. -/
def EstopOutstanding (history : List Entry) : Prop :=
  Since Entry.IsRequestEstop (fun after => ¬ ClearedAndResumed after) history

/-- What the coordinator owes its callers at the end of a history: with a flag set, an estop
outstanding or a halt outstanding, the gate denies. -/
structure Sticky (history : List Entry) : Prop where
  flags : (lastState {} history).estopRequested = true ∨ (lastState {} history).faulted = true →
    (lastState {} history).gate.allowed = false
  estop : EstopOutstanding history → (lastState {} history).gate.allowed = false
  halt : HaltOutstanding history → (lastState {} history).gate.allowed = false

/-- The newest entry of `history ++ [e]` lets go of the state name: it clears a fault in `FAULTED`,
while an estop or a halt is outstanding. -/
def ReleasesOutstanding (history : List Entry) (e : Entry) : Prop :=
  e.IsClearFault ∧ e.before.currentState = .faulted ∧
    (EstopOutstanding history ∨ HaltOutstanding history)

/-! ## The latch as a state -/

inductive EstopLatch
  | released
  | requested
  | cleared
  deriving DecidableEq

/-- The latch: what is outstanding after a history. -/
structure Latch where
  estop : EstopLatch := .released
  halted : Bool := false
  deriving DecidableEq

/-- The calls the latch listens to; `resumed` is whether the call is a resume that did not throw. -/
def Latch.advance (l : Latch) (e : Entry) : Latch :=
  match e.call with
  | .halt _ _ => { l with halted := true }
  | .requestEstop _ _ => { l with estop := .requested }
  | .clearEstop _ => { l with estop := if l.estop = .released then .released else .cleared }
  | .resume _ _ =>
    if e.before.resumeError = none then
      { estop := if l.estop = .requested then .requested else .released, halted := false }
    else l
  | _ => l

def latch (history : List Entry) : Latch := history.foldl Latch.advance {}

@[simp] theorem latch_nil : latch [] = {} := rfl

@[simp] theorem latch_concat (history : List Entry) (e : Entry) :
    latch (history ++ [e]) = (latch history).advance e := by
  simp [latch]

theorem haltOutstanding_iff (history : List Entry) :
    HaltOutstanding history ↔ (latch history).halted = true := by
  induction history using List.reverseRecOn with
  | nil => simp [HaltOutstanding]
  | append_singleton history e ih =>
    unfold HaltOutstanding at ih ⊢
    rw [since_concat, latch_concat]
    by_cases hr : e.IsResumed
    · -- A successful resume ends every pattern that goes through it.
      have hlost : ¬ Since Entry.IsHalt (fun after => ∀ x ∈ after ++ [e], ¬ x.IsResumed) history :=
        not_since_of_forall fun after h => h e (by simp) hr
      obtain ⟨reason, actor, hcall, hok⟩ := hr
      simp only [hlost, Entry.IsHalt, Latch.advance, hcall, if_pos hok]
      simp
    · have hkept : Since Entry.IsHalt (fun after => ∀ x ∈ after ++ [e], ¬ x.IsResumed) history ↔
          Since Entry.IsHalt (fun after => ∀ x ∈ after, ¬ x.IsResumed) history :=
        since_congr fun after => by simp [or_imp, forall_and, hr]
      rw [hkept, ih]
      cases hcall : e.call with
      | halt reason actor => simp [Latch.advance, hcall, Entry.IsHalt]
      | resume reason actor =>
        have hok : e.before.resumeError ≠ none := fun h => hr ⟨reason, actor, hcall, h⟩
        simp [Latch.advance, hcall, hok, Entry.IsHalt]
      | _ => simp [Latch.advance, hcall, Entry.IsHalt]

/-- An estop is requested and not cleared exactly when the latch says so. -/
theorem estopUncleared_iff (history : List Entry) :
    Since Entry.IsRequestEstop (fun after => ∀ e ∈ after, ¬ e.IsClearEstop) history ↔
      (latch history).estop = .requested := by
  induction history using List.reverseRecOn with
  | nil => simp
  | append_singleton history e ih =>
    rw [since_concat, latch_concat]
    by_cases hc : e.IsClearEstop
    · have hlost : ¬ Since Entry.IsRequestEstop
          (fun after => ∀ x ∈ after ++ [e], ¬ x.IsClearEstop) history :=
        not_since_of_forall fun after h => h e (by simp) hc
      obtain ⟨actor, hcall⟩ := hc
      simp only [hlost, Latch.advance, hcall, Entry.IsRequestEstop]
      split <;> simp
    · have hkept : Since Entry.IsRequestEstop
          (fun after => ∀ x ∈ after ++ [e], ¬ x.IsClearEstop) history ↔
          Since Entry.IsRequestEstop (fun after => ∀ x ∈ after, ¬ x.IsClearEstop) history :=
        since_congr fun after => by simp [or_imp, forall_and, hc]
      rw [hkept, ih]
      cases hcall : e.call with
      | clearEstop actor => exact absurd ⟨actor, hcall⟩ hc
      | resume reason actor =>
        simp only [Latch.advance, hcall, Entry.IsRequestEstop]
        split <;> cases (latch history).estop <;> simp
      | _ => simp [Latch.advance, hcall, Entry.IsRequestEstop]

/-- A clear followed by a resume is complete at the newest entry, or was complete before. -/
theorem clearedAndResumed_concat (after : List Entry) (e : Entry) :
    ClearedAndResumed (after ++ [e]) ↔
      ClearedAndResumed after ∨ (e.IsResumed ∧ ∃ x ∈ after, x.IsClearEstop) := by
  unfold ClearedAndResumed
  rw [since_concat]
  by_cases hr : e.IsResumed
  · have hafter : Since Entry.IsClearEstop (fun rest => ∃ x ∈ rest ++ [e], x.IsResumed) after ↔
        ∃ x ∈ after, x.IsClearEstop := by
      rw [← since_true_iff]
      exact since_congr fun rest => ⟨fun _ => trivial, fun _ => ⟨e, by simp, hr⟩⟩
    simp only [hafter, hr, true_and, List.not_mem_nil, false_and, exists_false, and_false, false_or]
    constructor
    · exact Or.inr
    · rintro (h | h)
      · exact h.exists_mem
      · exact h
  · have hafter : Since Entry.IsClearEstop (fun rest => ∃ x ∈ rest ++ [e], x.IsResumed) after ↔
        Since Entry.IsClearEstop (fun rest => ∃ x ∈ rest, x.IsResumed) after :=
      since_congr fun rest => by simp [or_and_right, exists_or, hr]
    simp only [hafter, hr, false_and, or_false, List.not_mem_nil, exists_false, and_false, false_or]

/-- An estop is outstanding exactly when the latch has not released it. -/
theorem estopOutstanding_iff (history : List Entry) :
    EstopOutstanding history ↔ (latch history).estop ≠ .released := by
  induction history using List.reverseRecOn with
  | nil => simp [EstopOutstanding]
  | append_singleton history e ih =>
    unfold EstopOutstanding at ih ⊢
    rw [since_concat, latch_concat]
    by_cases hr : e.IsResumed
    · -- After a successful resume an estop stays outstanding only when it is still uncleared.
      have hkept : Since Entry.IsRequestEstop
          (fun after => ¬ ClearedAndResumed (after ++ [e])) history ↔
          Since Entry.IsRequestEstop (fun after => ∀ x ∈ after, ¬ x.IsClearEstop) history := by
        refine since_congr fun after => ?_
        rw [clearedAndResumed_concat]
        constructor
        · intro h x hx hc
          exact h (Or.inr ⟨hr, x, hx, hc⟩)
        · rintro h (hcr | ⟨-, x, hx, hc⟩)
          · obtain ⟨x, hx, hc⟩ := hcr.exists_mem
            exact h x hx hc
          · exact h x hx hc
      rw [hkept, estopUncleared_iff]
      obtain ⟨reason, actor, hcall, hok⟩ := hr
      simp [Latch.advance, hcall, hok, Entry.IsRequestEstop]
    · have hkept : Since Entry.IsRequestEstop
          (fun after => ¬ ClearedAndResumed (after ++ [e])) history ↔
          Since Entry.IsRequestEstop (fun after => ¬ ClearedAndResumed after) history :=
        since_congr fun after => by simp [clearedAndResumed_concat, hr]
      rw [hkept, ih]
      have hnil : ¬ ClearedAndResumed [] := not_since_nil
      cases hcall : e.call with
      | clearEstop actor =>
        simp only [Latch.advance, hcall, Entry.IsRequestEstop]
        split <;> simp_all
      | resume reason actor =>
        have hok : e.before.resumeError ≠ none := fun h => hr ⟨reason, actor, hcall, h⟩
        simp [Latch.advance, hcall, hok, Entry.IsRequestEstop]
      | requestEstop reason actor => simp [Latch.advance, hcall, Entry.IsRequestEstop, hnil]
      | _ => simp [Latch.advance, hcall, Entry.IsRequestEstop]

/-! ## The coordinator follows the latch -/

/-- The coordinator is in one of its three stopped states. -/
def HaltCoordinator.Stopped (c : HaltCoordinator) : Prop :=
  c.currentState ≠ .normal ∧ c.currentState ≠ .restricted

/-- A stopped coordinator stays stopped, unless a resume succeeds or a fault is cleared in
`FAULTED`. -/
theorem Entry.stopped_after {e : Entry} (h : e.before.Stopped) (hresume : ¬ e.IsResumed)
    (hclear : e.IsClearFault → e.before.currentState ≠ .faulted) : e.after.Stopped := by
  obtain ⟨c, call⟩ := e
  unfold HaltCoordinator.Stopped Entry.after at *
  rw [c.apply_currentState call]
  cases call with
  | resume reason actor =>
    have hthrew : c.resumeError ≠ none := fun hok => hresume ⟨reason, actor, rfl, hok⟩
    simpa [hthrew] using h
  | clearFault actor =>
    have hname : c.currentState ≠ .faulted := hclear ⟨actor, rfl⟩
    simpa [hname] using h
  | restrict reason actor => simpa [h.1] using h
  | clearEstop actor =>
    -- `ESTOP_REQUESTED` moves to `HALTED`, every other stopped name stays.
    dsimp only
    split
    · simp
    · exact h
  | _ => simp

/-- The state name `FAULTED` is never entered or kept without the flag. -/
theorem faulted_apply {c : HaltCoordinator} (call : Call)
    (hc : c.currentState = .faulted → c.faulted = true)
    (h : (c.apply call).currentState = .faulted) : (c.apply call).faulted = true := by
  rw [c.apply_currentState call] at h
  rw [c.apply_faulted call]
  cases call with
  | fault reason actor => rfl
  | halt reason actor => exact SafetyStateName.noConfusion h
  | requestEstop reason actor => exact SafetyStateName.noConfusion h
  | clearFault actor =>
    -- In `FAULTED` the flag is set, so the name moves on to `NORMAL`.
    dsimp only at h
    split at h
    · exact SafetyStateName.noConfusion h
    · next hnot => exact absurd ⟨hc h, h⟩ hnot
  | _ =>
    dsimp only at h
    split at h
    · exact SafetyStateName.noConfusion h
    · exact hc h

/-- The coordinator `c` and the latch `l` agree: the estop flag is the uncleared part of the latch,
and whatever is outstanding or flagged keeps the state name stopped. -/
structure Closed (l : Latch) (c : HaltCoordinator) : Prop where
  estopRequested : c.estopRequested = true ↔ l.estop = .requested
  faulted : c.currentState = .faulted → c.faulted = true
  stopped_of_faulted : c.faulted = true → c.Stopped
  stopped_of_estop : l.estop ≠ .released → c.Stopped
  stopped_of_halt : l.halted = true → c.Stopped

namespace Closed

theorem initial : Closed {} {} where
  estopRequested := by decide
  faulted := by decide
  stopped_of_faulted := nofun
  stopped_of_estop := by simp
  stopped_of_halt := nofun

/-- A resume that an uncleared estop or an uncleared fault precedes throws. -/
theorem resumeError_ne_none {l : Latch} {c : HaltCoordinator} (h : Closed l c)
    (hset : l.estop = .requested ∨ c.faulted = true) : c.resumeError ≠ none := by
  intro hnone
  obtain ⟨hestop, hfaulted⟩ := HaltCoordinator.resumeError_eq_none_iff.mp hnone
  rcases hset with hreq | hf
  · rw [h.estopRequested.mpr hreq] at hestop
    exact Bool.noConfusion hestop
  · rw [hf] at hfaulted
    exact Bool.noConfusion hfaulted

/-- A call keeps the agreement unless it is a `clearFault` in `FAULTED` that lets go of something
outstanding. -/
theorem advance {l : Latch} {e : Entry} (h : Closed l e.before)
    (hkeep : e.IsClearFault → e.before.currentState = .faulted →
      l.estop = .released ∧ l.halted = false) :
    Closed (l.advance e) e.after := by
  obtain ⟨c, call⟩ := e
  have hstate := c.apply_currentState call
  constructor
  · show (c.apply call).estopRequested = true ↔ _
    rw [c.apply_estopRequested call]
    have hreq : c.estopRequested = true ↔ l.estop = .requested := h.estopRequested
    cases call with
    | clearEstop actor => cases hl : l.estop <;> simp [Latch.advance, hl]
    | resume reason actor =>
      dsimp only [Latch.advance]
      split
      · cases hl : l.estop <;> simp_all
      · exact hreq
    | requestEstop reason actor => simp [Latch.advance]
    | _ => exact hreq
  · exact faulted_apply call h.faulted
  · intro hf
    rw [Entry.after, c.apply_faulted call] at hf
    cases call with
    | fault reason actor => simp [HaltCoordinator.Stopped, Entry.after, hstate]
    | clearFault actor => exact Bool.noConfusion hf
    | _ =>
      refine Entry.stopped_after (h.stopped_of_faulted hf) ?_ (by simp [Entry.IsClearFault])
      rintro ⟨_, _, -, hok⟩
      exact h.resumeError_ne_none (Or.inr hf) hok
  · intro hl
    cases call with
    | requestEstop reason actor => simp [HaltCoordinator.Stopped, Entry.after, hstate]
    | resume reason actor =>
      have hold : l.estop ≠ .released := by
        intro hr
        simp only [Latch.advance] at hl
        split at hl <;> simp [hr] at hl
      refine Entry.stopped_after (h.stopped_of_estop hold) ?_ (by simp [Entry.IsClearFault])
      -- Only an uncleared request survives a resume, and then the resume threw.
      rintro ⟨_, _, -, hok⟩
      have hreq : l.estop = .requested := by
        by_contra hne
        simp [Latch.advance, hok, hne] at hl
      exact h.resumeError_ne_none (Or.inl hreq) hok
    | clearEstop actor =>
      have hold : l.estop ≠ .released := fun hr => by simp [Latch.advance, hr] at hl
      exact Entry.stopped_after (h.stopped_of_estop hold) (by simp [Entry.IsResumed])
        (by simp [Entry.IsClearFault])
    | clearFault actor =>
      refine Entry.stopped_after (h.stopped_of_estop hl) (by simp [Entry.IsResumed]) ?_
      exact fun hclear hf => hl (hkeep hclear hf).1
    | _ =>
      exact Entry.stopped_after (h.stopped_of_estop hl) (by simp [Entry.IsResumed])
        (by simp [Entry.IsClearFault])
  · intro hl
    cases call with
    | halt reason actor => simp [HaltCoordinator.Stopped, Entry.after, hstate]
    | resume reason actor =>
      have hthrew : c.resumeError ≠ none := fun hok => by simp [Latch.advance, hok] at hl
      have hold : l.halted = true := by simpa [Latch.advance, hthrew] using hl
      refine Entry.stopped_after (h.stopped_of_halt hold) ?_ (by simp [Entry.IsClearFault])
      rintro ⟨_, _, -, hok⟩
      exact hthrew hok
    | clearFault actor =>
      refine Entry.stopped_after (h.stopped_of_halt hl) (by simp [Entry.IsResumed]) ?_
      intro hclear hf
      have hnone : l.halted = false := (hkeep hclear hf).2
      have hhalted : l.halted = true := hl
      simp [hnone] at hhalted
    | _ =>
      exact Entry.stopped_after (h.stopped_of_halt hl) (by simp [Entry.IsResumed])
        (by simp [Entry.IsClearFault])

/-- What an agreeing coordinator owes: the gate denies whenever something is flagged or
outstanding. -/
theorem sticky {history : List Entry} (h : Closed (latch history) (lastState {} history)) :
    Sticky history := by
  constructor
  · rintro (hestop | hfaulted)
    · have hreq := h.estopRequested.mp hestop
      exact HaltCoordinator.gate_allowed_eq_false_iff.mpr (h.stopped_of_estop (by simp [hreq]))
    · exact HaltCoordinator.gate_allowed_eq_false_iff.mpr (h.stopped_of_faulted hfaulted)
  · intro hout
    exact HaltCoordinator.gate_allowed_eq_false_iff.mpr
      (h.stopped_of_estop ((estopOutstanding_iff history).mp hout))
  · intro hout
    exact HaltCoordinator.gate_allowed_eq_false_iff.mpr
      (h.stopped_of_halt ((haltOutstanding_iff history).mp hout))

end Closed

/-- The newest entry of a history was made in the state the rest of it left. -/
theorem IsHistory.concat {c : HaltCoordinator} {history : List Entry} {e : Entry}
    (h : IsHistory c (history ++ [e])) : IsHistory c history ∧ e.before = lastState c history := by
  obtain ⟨hrest, hlast⟩ := isHistory_append.mp h
  exact ⟨hrest, hlast.1⟩

/-- **Run lemma.** A history that never lets go of anything outstanding keeps the coordinator in
agreement with the latch. -/
theorem closed_of_history {history : List Entry} (h : IsHistory {} history)
    (hkeep : ∀ p e, p ++ [e] <+: history → ¬ ReleasesOutstanding p e) :
    Closed (latch history) (lastState {} history) := by
  induction history using List.reverseRecOn with
  | nil => exact Closed.initial
  | append_singleton history e ih =>
    obtain ⟨hrest, hbefore⟩ := h.concat
    have hclosed := ih hrest fun p e' hp => hkeep p e' (hp.trans (List.prefix_append _ _))
    rw [latch_concat, lastState_concat]
    rw [← hbefore] at hclosed
    refine hclosed.advance fun hclear hfaulted => ?_
    have hnot := hkeep history e (List.prefix_refl _)
    have hnone : ¬ (EstopOutstanding history ∨ HaltOutstanding history) :=
      fun hout => hnot ⟨hclear, hfaulted, hout⟩
    rw [estopOutstanding_iff, haltOutstanding_iff, not_or, not_not] at hnone
    exact ⟨hnone.1, by simpa using hnone.2⟩

/-- In every history the state name `FAULTED` comes with the flag. -/
theorem faulted_of_history {history : List Entry} (h : IsHistory {} history) :
    (lastState {} history).currentState = .faulted → (lastState {} history).faulted = true := by
  induction history using List.reverseRecOn with
  | nil => simp
  | append_singleton history e ih =>
    obtain ⟨hrest, hbefore⟩ := h.concat
    rw [lastState_concat, Entry.after]
    exact faulted_apply e.call (hbefore ▸ ih hrest)

theorem gate_after_clearFault {e : Entry} (hclear : e.IsClearFault)
    (hstate : e.before.currentState = .faulted) (hflag : e.before.faulted = true) :
    e.after.gate.allowed = true := by
  obtain ⟨actor, hcall⟩ := hclear
  have hnormal : e.after.currentState = .normal := by
    rw [Entry.after, HaltCoordinator.apply_currentState, hcall]
    simp [hstate, hflag]
  unfold HaltCoordinator.gate
  rw [hnormal]

theorem latch_advance_clearFault {l : Latch} {e : Entry} (hclear : e.IsClearFault) :
    l.advance e = l := by
  obtain ⟨actor, hcall⟩ := hclear
  simp [Latch.advance, hcall]

/-- **When the coordinator is sticky.** Whatever is called, and whatever the listeners call back, the
gate denies throughout while a flag is set or an estop or a halt is outstanding, if and only if no
fault is cleared in `FAULTED` while an estop or a halt is outstanding. -/
theorem sticky_iff (calls : List CallTree) :
    (∀ p, p <+: callbackStates {} calls → Sticky p) ↔
      ∀ p e, p ++ [e] <+: callbackStates {} calls → ¬ ReleasesOutstanding p e := by
  have hhistory := isHistory_callbackStates {} calls
  constructor
  · rintro hsticky p e hp ⟨hclear, hstate, hout⟩
    obtain ⟨rest, hrest⟩ := hp
    rw [← hrest] at hhistory
    obtain ⟨hp, hbefore⟩ := (isHistory_append.mp hhistory).1.concat
    have hflag : e.before.faulted = true := by
      rw [hbefore] at hstate ⊢
      exact faulted_of_history hp hstate
    have hopen : (lastState {} (p ++ [e])).gate.allowed = true := by
      rw [lastState_concat]
      exact gate_after_clearFault hclear hstate hflag
    have hafter := hsticky (p ++ [e]) ⟨rest, hrest⟩
    -- The latch does not move, so what was outstanding still is, behind an open gate.
    have hclosed : (lastState {} (p ++ [e])).gate.allowed = false := by
      rcases hout with hestop | hhalt
      · refine hafter.estop ((estopOutstanding_iff _).mpr ?_)
        rw [latch_concat, latch_advance_clearFault hclear]
        exact (estopOutstanding_iff p).mp hestop
      · refine hafter.halt ((haltOutstanding_iff _).mpr ?_)
        rw [latch_concat, latch_advance_clearFault hclear]
        exact (haltOutstanding_iff p).mp hhalt
    rw [hopen] at hclosed
    exact Bool.noConfusion hclosed
  · intro hkeep p hp
    obtain ⟨rest, hrest⟩ := hp
    rw [← hrest] at hhistory
    refine (closed_of_history (isHistory_append.mp hhistory).1 fun q e hq => ?_).sticky
    exact hkeep q e (hq.trans ⟨rest, hrest⟩)

/-- An emergency stop, a fault, and the fault cleared: the estop flag is still set and the gate is
open. -/
theorem not_sticky_clearFault :
    ¬ ∀ calls p, p <+: callbackStates {} calls → Sticky p := by
  intro h
  have hsticky := h [.node (.requestEstop (js "smoke") none) [], .node (.fault (js "overheat") none) [],
    .node (.clearFault none) []] _ (List.prefix_refl _)
  exact absurd (hsticky.flags (by decide)) (by decide)

end Pinout.Halt
