import Pinout.Libgpiod.Sound

/-! # Safe state wins

Whether `safeState()` attempts every output, whether outputs stay at their safe level once it has resolved,
and whether `close()` leaves a child alive. A call that is under way is not waited for, and a failed attempt
ends `safeState()`: so this is a matter of what else goes on. -/

namespace Pinout.Libgpiod

open Foundation

def GpioCall.touches (call : GpioCall) (line : Nat) : Bool :=
  match call.action with
  | .write l | .safeState (some l) => l = line
  | .safeState none | .close => true

def CallPhase.isWaiting : CallPhase → Bool
  | waitForPulse _ => true
  | running | working _ _ | once _ | closing _ | settled _ => false

/-- The work of a call on a line that it has attempted is done. -/
def CallPhase.done (line : Nat) : CallPhase → Prop
  | running => True
  | working job _ => job.line ≠ line
  | settled resolved => resolved = true
  | once _ | waitForPulse _ | closing _ => False

namespace LibgpiodBackend

variable {b : LibgpiodBackend} {t line : Nat} {call : GpioCall}

/-- The line is held at a level by the child on record. -/
def HeldAt (b : LibgpiodBackend) (line : Nat) (raw : Bool) : Prop :=
  ∃ c child, b.holder line = some c ∧ b.children[c]? = some child ∧ child.alive = true ∧ child.raw = raw

/-- No call after the one at `t` works on a line. -/
def Last (b : LibgpiodBackend) (t line : Nat) : Prop :=
  ∀ (j : Nat) other, b.calls[j]? = some other → t < j → other.touches line = false

structure SafeStateWins (b : LibgpiodBackend) : Prop where
  /-- When `safeState()` has settled, it has attempted the safe level of every output. -/
  attempted : ∀ call ∈ b.calls, call.action = .safeState none → call.phase.isSettled →
    ∀ line, isOutput b.config line → line ∈ call.attempted
  /-- Once `safeState()` has resolved and the writes before it have settled, an output with a safe level of
  low or high is held at it by the one child on record, until a later call works on it. -/
  held : ∀ (t : Nat) call, b.calls[t]? = some call → call.action = .safeState none →
    call.phase = .settled true →
    (∀ (j : Nat) other l, b.calls[j]? = some other → j < t → other.action = .write l → other.phase.isSettled) →
    ∀ line raw, safeRawAt b.config line = some raw → b.Last t line →
      ∃ c child, b.holder line = some c ∧ b.children[c]? = some child ∧ child.alive ∧ child.raw = raw ∧
        ∀ (c' : Nat) child', b.children[c']? = some child' → child'.alive → child'.line = line → c' = c
  /-- Once `close()` has resolved and the calls before it have settled, no child is alive. -/
  gone : ∀ (t : Nat) call, b.calls[t]? = some call → call.action = .close → call.phase.isSettled →
    (∀ (j : Nat) other, b.calls[j]? = some other → j < t → other.phase.isSettled) →
    ∀ child ∈ b.children, child.alive = false

/-- Whether the child of a call that ends its grace window is alive; and a pulse that was cancelled while it
started finds no hook of another on record. -/
def startedInTime (b : LibgpiodBackend) : Option CallPhase → Bool
  | some (.working ⟨line, _, .starting c⟩ after) =>
    (b.children[c]?).any (·.alive) && (after ≠ .pulseStart true || b.cancelPulse line = none)
  | _ => true

/-- Whether no output is left to attempt for a call. -/
def noneLeft (b : LibgpiodBackend) : Option CallPhase → Bool
  | some (.working _ (.safeState rest)) => rest.all fun line => !isOutput b.config line
  | _ => true

/-- Whether a child holds its line at the safe level of the line. -/
def holdsSafeLevel (b : LibgpiodBackend) (c : Nat) : Bool :=
  (b.children[c]?).any fun child =>
    b.holder child.line = some c && safeRawAt b.config child.line = some child.raw

/-- The condition: `safeState()` begins while no other is under way, and its attempts fail only when no
output is left; a child that ends before its grace window is noticed before it; a pulse that was cancelled
while it started finds no hook of another on record; the holder of a line at its safe level does not end on
its own; and `close()` finds no call under way but pulses. -/
def Orderly (b : LibgpiodBackend) : GpioEvent → Prop
  | .safeState none => ∀ call ∈ b.calls, call.action = .safeState none → call.phase.isSettled
  | .graceElapsed t => b.startedInTime (b.phaseOf t)
  | .startFailed t => b.noneLeft (b.phaseOf t)
  | .died c => b.holdsSafeLevel c = false
  | .close => ∀ call ∈ b.calls, call.phase.isSettled ∨ call.phase.isWaiting
  | _ => True

/-- The condition can be evaluated. -/
instance (event : GpioEvent) : Decidable (b.Orderly event) :=
  match event with
  | .safeState none => inferInstanceAs (Decidable (∀ call ∈ b.calls,
      call.action = .safeState none → call.phase.isSettled))
  | .graceElapsed t => inferInstanceAs (Decidable (b.startedInTime (b.phaseOf t) = true))
  | .startFailed t => inferInstanceAs (Decidable (b.noneLeft (b.phaseOf t) = true))
  | .died c => inferInstanceAs (Decidable (b.holdsSafeLevel c = false))
  | .close => inferInstanceAs (Decidable (∀ call ∈ b.calls, call.phase.isSettled ∨ call.phase.isWaiting))
  | .write _ _ _ | .safeState (some _) | .released _ | .onceDone _ _ | .pulseElapsed _ | .closeDone _
  | .noticed _ => isTrue trivial

/-! ## Lines that are held -/

/-- A line with a safe level that the last `safeState()` attempted: no pulse before it is pending there, and the
line is held when the attempt is done. -/
def Wins (b : LibgpiodBackend) : Prop :=
  ∀ (t : Nat) call line raw, b.calls[t]? = some call → call.action = .safeState none →
    safeRawAt b.config line = some raw → line ∈ call.attempted → b.Last t line →
    (∀ (j : Nat) other, b.calls[j]? = some other → j < t → ¬ other.phase.pending line) ∧
      (call.phase.done line → b.HeldAt line raw)

theorem Wins.change (h : b.Wins) (ht : b.calls[t]? = some call) {f : GpioCall → GpioCall}
    {holder hooks : Nat → Option Nat} {children : List GpiosetChild} (haction : (f call).action = call.action)
    (hpending : ∀ l, (f call).phase.pending l →
      call.phase.pending l ∨ ∀ (j : Nat) other, b.calls[j]? = some other → j ≤ t)
    (hself : call.action = .safeState none → ∀ line raw, safeRawAt b.config line = some raw →
      line ∈ (f call).attempted → b.Last t line →
      (∀ (j : Nat) other, b.calls[j]? = some other → j < t → ¬ other.phase.pending line) ∧
        ((f call).phase.done line → HeldAt { b with holder, children } line raw))
    (hheld : ∀ (i : Nat) other line raw, i ≠ t → b.calls[i]? = some other → other.action = .safeState none →
      safeRawAt b.config line = some raw → line ∈ other.attempted → b.Last i line →
      b.HeldAt line raw → HeldAt { b with holder, children } line raw) :
    Wins { b with holder, cancelPulse := hooks, children, calls := b.calls.modify t f } := by
  intro i other line raw hi hfull hraw hline hlast
  have hself' : (b.calls.modify t f)[t]? = some (f call) := getElem?_modify_self f ht
  -- later calls were there before, and did not work on the line
  have hlast' : b.Last i line := by
    intro j q hj hlt
    by_cases hne : t = j
    · subst hne
      rw [ht] at hj
      obtain rfl := Option.some.inj hj
      have := hlast t (f call) hself' hlt
      rw [GpioCall.touches, haction] at this
      exact this
    · exact hlast j q ((getElem?_modify_of_ne f hne).trans hj) hlt
  -- a pulse that is pending was so before
  have hquiet : (∀ (j : Nat) q, b.calls[j]? = some q → j < i → ¬ q.phase.pending line) →
      ∀ (j : Nat) q, (b.calls.modify t f)[j]? = some q → j < i → ¬ q.phase.pending line := by
    intro hold j q hj hlt hp
    rcases getElem?_modify_eq_some hj with ⟨-, hkept⟩ | ⟨rfl, q', hkept, rfl⟩
    · exact hold j q hkept hlt hp
    · rw [ht] at hkept
      obtain rfl := Option.some.inj hkept
      rcases hpending line hp with hp | hend
      · exact hold t call ht hlt hp
      · have hbound : i < b.calls.length := by
          have := (List.getElem?_eq_some_iff.mp hi).1
          rwa [List.length_modify] at this
        have := hend i _ (List.getElem?_eq_getElem hbound)
        omega
  rcases getElem?_modify_eq_some hi with ⟨hne, hkept⟩ | ⟨rfl, q, hkept, rfl⟩
  · obtain ⟨hold, hdone⟩ := h i other line raw hkept hfull hraw hline hlast'
    exact ⟨hquiet hold, fun hd => hheld i other line raw hne.symm hkept hfull hraw hline hlast' (hdone hd)⟩
  · rw [ht] at hkept
    obtain rfl := Option.some.inj hkept
    obtain ⟨hold, hdone⟩ := hself (haction ▸ hfull) line raw hraw hline hlast'
    exact ⟨hquiet hold, hdone⟩

theorem Wins.cancel (h : b.Wins) (hs : b.Sound) (line : Nat) : (b.cancel line).Wins := by
  rw [LibgpiodBackend.cancel]
  split
  · next t _ =>
    cases ht : b.calls[t]? with
    | none =>
      have hcalls : b.calls.modify t GpioCall.cancelled = b.calls := List.modify_eq_self (List.getElem?_eq_none_iff.mp ht)
      rw [hcalls]
      exact h
    | some call =>
      refine h.change ht call.cancelled_action (fun l hl => absurd hl (call.not_pending_cancelled l)) ?_
        fun _ _ _ _ _ _ _ _ _ _ hheld => hheld
      intro hfull l raw hraw hl hlast
      have heq := GpioCall.cancelled_of_safeState (hs.described call (List.mem_of_getElem? ht)) hfull
      rw [heq] at hl ⊢
      exact h t call l raw ht hfull hraw hl hlast
  · exact h

theorem Wins.begin (h : b.Wins) (action : CallAction) : (b.begin action).Wins := by
  intro i other line raw hi hfull hraw hline hlast
  rcases getElem?_append_singleton_eq_some hi with hkept | ⟨-, rfl⟩
  · obtain ⟨hold, hdone⟩ := h i other line raw hkept hfull hraw hline fun j q hj hlt =>
      hlast j q (getElem?_append_of_eq_some _ hj) hlt
    refine ⟨fun j q hj hlt => ?_, hdone⟩
    rcases getElem?_append_singleton_eq_some hj with hj | ⟨-, rfl⟩
    · exact hold j q hj hlt
    · exact id
  · cases hline

/-- A call starts to work on a line, no pulse being pending on it, and no later `safeState()` having attempted
it. -/
theorem Wins.startJob (h : b.Wins) (holder : Nat → Option Nat) (ht : b.calls[t]? = some call)
    {goal : Option Bool} {child : Option Nat} {after : AfterJob} (hholder : ∀ l, l ≠ line → holder l = b.holder l)
    (hrunning : call.action = .safeState none → call.phase = .running)
    (hpulse : after = .pulseStart false → ∀ (j : Nat) other, b.calls[j]? = some other → j ≤ t)
    (hquiet : call.action = .safeState none → ∀ other ∈ b.calls, ¬ other.phase.pending line)
    (htouches : call.touches line = true)
    (hlater : ∀ (i : Nat) other raw, b.calls[i]? = some other → t < i → other.action = .safeState none →
      safeRawAt b.config line = some raw → line ∈ other.attempted → b.Last i line → False) :
    (startJob { b with holder } t line goal child after).Wins := by
  refine h.change (f := fun call => atWork call line goal child after) ht rfl (fun l hl => .inr ?_) ?_ ?_
  · unfold CallPhase.pending at hl
    split at hl
    · next hphase => cases hphase
    · next hphase =>
      cases hphase
      exact hpulse rfl
    · exact absurd hl id
  · intro hfull l raw hraw hl hlast
    by_cases heq : l = line
    · subst heq
      exact ⟨fun j other hj _ => hquiet hfull other (List.mem_of_getElem? hj), fun hd => absurd rfl hd⟩
    · have hmem : l ∈ call.attempted := by
        rcases List.mem_append.mp hl with hl | hl
        · exact hl
        · revert hl
          cases after <;> simp [attempts, heq]
      obtain ⟨hold, hdone⟩ := h t call l raw ht hfull hraw hmem hlast
      refine ⟨hold, fun _ => ?_⟩
      obtain ⟨c, child, hc, hrest⟩ := hdone (by rw [hrunning hfull]; trivial)
      exact ⟨c, child, (hholder l heq).trans hc, hrest⟩
  · intro i other l raw hne hi hfull hraw hl hlast ⟨c, child, hc, hrest⟩
    by_cases heq : l = line
    · subst heq
      exfalso
      rcases Nat.lt_or_gt_of_ne hne with hlt | hlt
      · have hnot := hlast t call ht hlt
        rw [htouches] at hnot
        cases hnot
      · exact hlater i other raw hi hlt hfull hraw hl hlast
    · exact ⟨c, child, (hholder l heq).trans hc, hrest⟩

theorem Wins.applySafeLevel (h : b.Wins) (ht : b.calls[t]? = some call) {after : AfterJob}
    (hrunning : call.action = .safeState none → call.phase = .running) (hafter : after ≠ .pulseStart false)
    (hquiet : call.action = .safeState none → ∀ other ∈ b.calls, ¬ other.phase.pending line)
    (htouches : call.touches line = true)
    (hlater : ∀ (i : Nat) other raw, b.calls[i]? = some other → t < i → other.action = .safeState none →
      safeRawAt b.config line = some raw → line ∈ other.attempted → b.Last i line → False) :
    (b.applySafeLevel t line after).Wins := by
  have hstart : ∀ goal child, (b.startJob t line goal child after).Wins := fun goal child =>
    h.startJob b.holder ht (fun _ _ => rfl) hrunning (fun heq => absurd heq hafter) hquiet htouches
      hlater
  have hrelease : ∀ goal, (b.releaseHolder t line goal after).Wins := fun goal =>
    h.startJob _ ht (fun _ hne => Function.update_of_ne hne _ _) hrunning (fun heq => absurd heq hafter) hquiet
      htouches hlater
  rw [LibgpiodBackend.applySafeLevel]
  split
  · split
    · exact hstart _ _
    · split
      · exact hrelease _
      · exact hstart _ _
      · exact hrelease _
      · exact hrelease _
  · exact hstart _ _

theorem Wins.spawn (h : b.Wins) (ht : b.calls[t]? = some call) {raw : Bool} {phase : CallPhase}
    (hpending : ∀ l, phase.pending l → call.phase.pending l)
    (hdone : call.action = .safeState none → ∀ l, phase.done l → call.phase.done l) :
    ((b.spawn line raw).setPhase t phase).Wins := by
  have hheld : ∀ {l raw'}, b.HeldAt l raw' →
      HeldAt { b with children := b.children ++ [{ line, raw, alive := !b.owned line }] } l raw' := by
    rintro l raw' ⟨c, child, hc, hchild, hrest⟩
    exact ⟨c, child, hc, getElem?_append_of_eq_some _ hchild, hrest⟩
  refine h.change (f := fun call => { call with phase }) ht rfl (fun l hl => .inl (hpending l hl)) ?_
    fun _ _ _ _ _ _ _ _ _ _ hh => hheld hh
  intro hfull l raw' hraw hl hlast
  obtain ⟨hold, hd⟩ := h t call l raw' ht hfull hraw hl hlast
  exact ⟨hold, fun hnew => hheld (hd (hdone hfull l hnew))⟩

/-- A child goes on record whose grace window ended while it was alive. -/
theorem Wins.record (h : b.Wins) (hs : b.Sound) (ht : b.calls[t]? = some call) {goal : Option Bool} {c : Nat}
    {after : AfterJob} {child : GpiosetChild} (hphase : call.phase = .working ⟨line, goal, .starting c⟩ after)
    (hc : b.children[c]? = some child) (halive : child.alive = true) {phase : CallPhase}
    (hooks : Nat → Option Nat) (hpending : ∀ l, phase.pending l → call.phase.pending l) :
    Wins ({ b with holder := Function.update b.holder line (some c), cancelPulse := hooks }.setPhase t phase) := by
  obtain ⟨⟨child', hc', hline, hgoal⟩, hfresh⟩ := hs.starting t call _ c ht ⟨rfl, after, hphase⟩
  rw [hc] at hc'
  obtain rfl := Option.some.inj hc'
  have hother : ∀ {l raw}, l ≠ line → b.HeldAt l raw →
      HeldAt { b with holder := Function.update b.holder line (some c) } l raw := by
    rintro l raw hne ⟨c', child', hc', hrest⟩
    exact ⟨c', child', (Function.update_of_ne hne _ _).trans hc', hrest⟩
  refine h.change (f := fun call => { call with phase }) ht rfl (fun l hl => .inl (hpending l hl)) ?_ ?_
  · intro hfull l raw hraw hl hlast
    obtain ⟨hold, hd⟩ := h t call l raw ht hfull hraw hl hlast
    refine ⟨hold, fun _ => ?_⟩
    by_cases heq : l = line
    · subst heq
      -- the child drives the level of safe state
      refine ⟨c, child, Function.update_self _ _ _, hc, halive, ?_⟩
      have hdescribed := hs.described call (List.mem_of_getElem? ht)
      rw [GpioCall.Described, hphase] at hdescribed
      cases after with
      | safeState rest =>
        obtain ⟨-, _, _, _, _, _, hlevel⟩ := hdescribed
        have := (hlevel raw hraw).symm.trans hgoal
        exact (Option.some.inj this).symm
      | write => cases hfull.symm.trans hdescribed.2.1
      | pulseStart flag => cases hfull.symm.trans hdescribed.2.1
      | pulseComplete => cases hfull.symm.trans hdescribed.2
    · exact hother heq (hd (by rw [hphase]; exact fun hl => heq hl.symm))
  · intro i other l raw _ _ _ _ _ _ hheld
    by_cases heq : l = line
    · subst heq
      obtain ⟨c', child', hc', hchild', halive', -⟩ := hheld
      obtain ⟨-, child'', hchild'', hline'⟩ := hs.recorded l c' hc'
      rw [hchild'] at hchild''
      obtain rfl := Option.some.inj hchild''
      obtain rfl := hs.exclusive c' c child' child hchild' hc halive' halive (hline'.trans hline.symm)
      exact absurd hc' hfresh
    · exact hother heq hheld

theorem Wins.setPhase (h : b.Wins) (hooks : Nat → Option Nat) (ht : b.calls[t]? = some call)
    {phase : CallPhase} (hkind : phase = .running ∨ ∃ resolved, phase = .settled resolved)
    (hdone : call.action = .safeState none → ∀ l raw, safeRawAt b.config l = some raw → phase.done l →
      call.phase.done l) :
    Wins ({ b with cancelPulse := hooks }.setPhase t phase) := by
  refine h.change (f := fun call => { call with phase }) ht rfl (fun l hl => ?_) ?_
    fun _ _ _ _ _ _ _ _ _ _ hh => hh
  · rcases hkind with rfl | ⟨_, rfl⟩ <;> exact absurd hl id
  · intro hfull l raw hraw hl hlast
    obtain ⟨hold, hd⟩ := h t call l raw ht hfull hraw hl hlast
    exact ⟨hold, fun hnew => hd (hdone hfull l raw hraw hnew)⟩

/-- Holders and children change that hold no line at its safe level. -/
theorem Wins.mono (h : b.Wins) (holder : Nat → Option Nat) {children : List GpiosetChild}
    (hheld : ∀ line raw, safeRawAt b.config line = some raw → b.HeldAt line raw →
      HeldAt { b with holder, children } line raw) : Wins { b with holder, children } := by
  intro i other line raw hi hfull hraw hline hlast
  obtain ⟨hold, hdone⟩ := h i other line raw hi hfull hraw hline hlast
  exact ⟨hold, fun hd => hheld line raw hraw (hdone hd)⟩

/-! ## What calls do -/

theorem mem_orderForSafeState {config : List ValidatedLibgpiodLine} :
    line ∈ orderForSafeState config ↔ line < config.length := by
  rw [orderForSafeState, List.mem_insertionSort, List.mem_range]

theorem lt_of_isOutput {config : List ValidatedLibgpiodLine} (h : isOutput config line = true) :
    line < config.length := by
  rw [isOutput] at h
  cases hline : config[line]? with
  | none =>
    rw [hline] at h
    cases h
  | some _ => exact (List.getElem?_eq_some_iff.mp hline).1

theorem isOutput_of_safeRawAt {config : List ValidatedLibgpiodLine} {raw : Bool}
    (h : safeRawAt config line = some raw) : isOutput config line = true := by
  obtain ⟨declared, hline, hraw⟩ := Option.bind_eq_some_iff.mp h
  rw [isOutput, hline, Option.any_some]
  rw [ValidatedLibgpiodLine.safeRaw] at hraw
  split at hraw
  · cases hraw
  · next hdirection =>
    refine decide_eq_true ?_
    cases hd : declared.direction with
    | input => exact absurd hd hdirection
    | output => rfl

/-- A call that a hook does not cancel stays as it is when one is called. -/
theorem getElem?_cancel (ht : b.calls[t]? = some call) (hcall : call.cancelled = call) (line : Nat) :
    (b.cancel line).calls[t]? = some call := by
  rw [LibgpiodBackend.cancel]
  split
  · next t' _ =>
    by_cases hne : t' = t
    · subst hne
      have := getElem?_modify_self GpioCall.cancelled ht
      rwa [hcall] at this
    · exact (getElem?_modify_of_ne _ hne).trans ht
  · exact ht

@[simp] theorem config_cancel (b : LibgpiodBackend) (line : Nat) : (b.cancel line).config = b.config := by
  rw [LibgpiodBackend.cancel]
  split <;> rfl

@[simp] theorem closed_cancel (b : LibgpiodBackend) (line : Nat) : (b.cancel line).closed = b.closed := by
  rw [LibgpiodBackend.cancel]
  split <;> rfl

@[simp] theorem holder_cancel (b : LibgpiodBackend) (line : Nat) : (b.cancel line).holder = b.holder := by
  rw [LibgpiodBackend.cancel]
  split <;> rfl

@[simp] theorem children_cancel (b : LibgpiodBackend) (line : Nat) : (b.cancel line).children = b.children := by
  rw [LibgpiodBackend.cancel]
  split <;> rfl

@[simp] theorem length_calls_cancel (b : LibgpiodBackend) (line : Nat) :
    (b.cancel line).calls.length = b.calls.length := by
  rw [LibgpiodBackend.cancel]
  split
  · exact List.length_modify _ _ _
  · rfl

theorem le_of_length (hlength : b.calls.length = t + 1) : ∀ (j : Nat) other, b.calls[j]? = some other → j ≤ t := by
  intro j other hj
  have := (List.getElem?_eq_some_iff.mp hj).1
  omega

def Safe (b : LibgpiodBackend) : Prop := b.Sound ∧ b.Wins

theorem Safe.safeNext (hsafe : b.Safe) (ht : b.calls[t]? = some call) (hphase : call.phase = .running)
    {target : Option Nat} (haction : call.action = .safeState target) {rest : List Nat}
    (hlines : call.attempted ++ rest = safeStateLines b.config target)
    (hdeclared : ∀ line ∈ rest, line < b.config.length)
    (hlast : rest ≠ [] → target ≠ none → b.calls.length = t + 1) :
    (b.safeNext t rest).Safe := by
  obtain ⟨hs, h⟩ := hsafe
  have hopen := hs.closed_eq_false ht (by rw [hphase]; rfl)
  cases rest with
  | nil =>
    rw [List.append_nil] at hlines
    constructor
    · refine hs.setPhase ht (by rw [hphase]; rfl) (fun target' htarget line hline _ => ?_) (fun c _ _ _ hw => ?_)
        (.inr ⟨true, rfl⟩)
      · obtain rfl := CallAction.safeState.inj (haction.symm.trans htarget)
        rwa [← hlines] at hline
      · rw [hphase] at hw
        exact hw
    · refine h.setPhase b.cancelPulse ht (.inr ⟨true, rfl⟩) fun _ l _ _ _ => ?_
      rw [hphase]
      trivial
  | cons line rest =>
    have hcall := GpioCall.cancelled_of_safeState (hs.described call (List.mem_of_getElem? ht)) haction
    have ht' := getElem?_cancel ht hcall line
    have hs' := hs.cancel hopen line
    have hfree : Free call := ⟨by rw [hphase]; rfl, fun c hw => by rw [hphase] at hw; exact hw⟩
    constructor
    · refine hs'.applySafeLevel ht' hfree (fun goal child hgoal => ?_) nofun
      rw [config_cancel] at hgoal ⊢
      exact ⟨hdeclared, target, call.attempted, haction, rfl,
        by rw [← hlines]; exact List.append_assoc _ _ _, hgoal⟩
    · refine (h.cancel hs line).applySafeLevel ht' (fun _ => hphase) nofun
        (fun _ => hs.not_pending_cancel line) ?_ ?_
      · cases target with
        | none => rw [GpioCall.touches, haction]
        | some l =>
          have hl : line = l := by
            have : line ∈ safeStateLines b.config (some l) := hlines ▸ List.mem_append_right _ List.mem_cons_self
            exact List.mem_singleton.mp this
          rw [GpioCall.touches, haction]
          exact decide_eq_true hl.symm
      · intro i other raw hi hlt hfull _ _ _
        by_cases htarget : target = none
        · subst htarget
          have := hs'.single t i call other ht' hi hlt haction hfull
          rw [hphase] at this
          cases this
        · have := le_of_length (hlast nofun htarget) i
          have hi := (List.getElem?_eq_some_iff.mp hi).1
          rw [length_calls_cancel, hlast nofun htarget] at hi
          omega

theorem rest_eq_nil {done rest : List Nat} {config : List ValidatedLibgpiodLine} {target : Option Nat}
    (h : done ++ [line] ++ rest = safeStateLines config target) (htarget : target ≠ none) : rest = [] := by
  cases target with
  | none => exact absurd rfl htarget
  | some l =>
    have hlength := congrArg List.length h
    rw [List.length_append, List.length_append, safeStateLines, List.length_singleton, List.length_singleton]
      at hlength
    exact List.length_eq_zero_iff.mp (by omega)

theorem Safe.graceElapsed (hsafe : b.Safe) (ht : b.calls[t]? = some call) {goal : Option Bool} {c : Nat}
    {after : AfterJob} (hphase : call.phase = .working ⟨line, goal, .starting c⟩ after) {child : GpiosetChild}
    (hc : b.children[c]? = some child) (halive : child.alive = true)
    (hhook : after = .pulseStart true → b.cancelPulse line = none) :
    Safe ({ b with holder := Function.update b.holder line (some c) }.goOn t line after) := by
  obtain ⟨hs, h⟩ := hsafe
  have hdescribed := hs.described call (List.mem_of_getElem? ht)
  rw [GpioCall.Described, hphase] at hdescribed
  -- a write settles
  have hwrite : call.action = .write line →
      Safe ({ b with holder := Function.update b.holder line (some c) }.setPhase t (.settled true)) := by
    intro haction
    refine ⟨hs.record ht hphase hc halive ?_ (.inr (.inl rfl)),
      h.record hs ht hphase hc halive b.cancelPulse fun _ hl => absurd hl id⟩
    intro target htarget
    cases haction.symm.trans htarget
  cases after with
  | write => exact hwrite hdescribed.2.1
  | pulseComplete => exact hwrite hdescribed.2
  | pulseStart flag =>
    cases flag with
    | true =>
      have hsame : Function.update b.cancelPulse line none = b.cancelPulse := by
        rw [← hhook rfl, Function.update_eq_self]
      rw [goOn]
      dsimp only
      rw [hsame]
      exact hwrite hdescribed.2.1
    | false =>
      have hpending : call.phase.pending line := by
        rw [hphase]
        rfl
      have hsame : Function.update b.cancelPulse line (some t) = b.cancelPulse := by
        rw [← hs.hooked t call line ht hpending, Function.update_eq_self]
      rw [goOn, hook]
      dsimp only
      rw [hsame]
      refine ⟨hs.record ht hphase hc halive ⟨hdescribed.1, hdescribed.2.1⟩ (.inr (.inr ⟨rfl, hpending⟩)),
        h.record hs ht hphase hc halive b.cancelPulse ?_⟩
      rintro l rfl
      exact hpending
  | safeState rest =>
    obtain ⟨hdeclared, target, done, haction, hattempted, hlines, -⟩ := hdescribed
    have hsound : Sound ({ b with holder := Function.update b.holder line (some c) }.setPhase t .running) :=
      hs.record ht hphase hc halive trivial (.inl rfl)
    rw [goOn]
    refine Safe.safeNext
      ⟨hsound, h.record hs ht hphase hc halive b.cancelPulse fun _ hl => absurd hl id⟩
      (getElem?_modify_self _ ht) rfl haction hlines (fun l hl => hdeclared l (List.mem_cons_of_mem _ hl)) ?_
    intro hrest htarget
    exact absurd (rest_eq_nil (hattempted ▸ hlines) htarget) hrest

theorem Safe.freed (hsafe : b.Safe) (ht : b.calls[t]? = some call) {child : Option Nat} {after : AfterJob}
    (hphase : call.phase = .working ⟨line, none, .releasing child⟩ after)
    (hnoticed : child.all b.isNoticed = true) : (b.goOn t line after).Safe := by
  obtain ⟨hs, h⟩ := hsafe
  have hdescribed := hs.described call (List.mem_of_getElem? ht)
  rw [GpioCall.Described, hphase] at hdescribed
  have hover : call.phase.isOver = false := by
    rw [hphase]
    rfl
  have hwatches : ∀ (c : Nat) q, b.children[c]? = some q → q.alive → ¬ call.phase.watches c := by
    intro c q hc halive hw
    rw [hphase] at hw
    rcases hw with hw | hw
    · obtain rfl := LineWait.releasing.inj hw
      rw [Option.all_some] at hnoticed
      rw [hs.not_alive hnoticed hc] at halive
      cases halive
    · cases hw
  cases after with
  | write => exact absurd rfl hdescribed.2.2
  | pulseStart flag => exact absurd rfl hdescribed.2.2
  | pulseComplete =>
    refine ⟨hs.setPhase ht (CallPhase.isSettled_eq_false hover) (fun target htarget => ?_) hwatches (.inr ⟨true, rfl⟩),
      h.setPhase b.cancelPulse ht (.inr ⟨true, rfl⟩) fun hfull => ?_⟩
    · cases hdescribed.2.symm.trans htarget
    · cases hdescribed.2.symm.trans hfull
  | safeState rest =>
    obtain ⟨hdeclared, target, done, haction, hattempted, hlines, hlevel⟩ := hdescribed
    have hsound : (b.setPhase t .running).Sound :=
      hs.setPhase ht (CallPhase.isSettled_eq_false hover) trivial hwatches (.inl ⟨rfl, hover⟩)
    rw [goOn]
    refine Safe.safeNext
      ⟨hsound, h.setPhase b.cancelPulse ht (.inl rfl) fun _ l raw hraw _ => ?_⟩
      (getElem?_modify_self _ ht) rfl haction hlines (fun l hl => hdeclared l (List.mem_cons_of_mem _ hl)) ?_
    · -- a line that has a safe level is driven to it
      rw [hphase]
      rintro rfl
      cases hlevel raw hraw
    · intro hrest htarget
      exact absurd (rest_eq_nil (hattempted ▸ hlines) htarget) hrest

theorem Safe.spawned (hsafe : b.Safe) (ht : b.calls[t]? = some call) {child : Option Nat} {after : AfterJob}
    {raw : Bool} (hphase : call.phase = .working ⟨line, some raw, .releasing child⟩ after)
    (hnoticed : child.all b.isNoticed = true) :
    ((b.spawn line raw).setPhase t (.working ⟨line, some raw, .starting b.children.length⟩ after)).Safe := by
  obtain ⟨hs, h⟩ := hsafe
  have hdescribed := hs.described call (List.mem_of_getElem? ht)
  rw [GpioCall.Described, hphase] at hdescribed
  constructor
  · refine hs.spawn ht (by rw [hphase]; rfl) ?_ (.inr rfl) ?_ (.inr ⟨after, rfl, fun heq => ?_⟩)
    · cases after <;> exact hdescribed
    · intro c q hc halive hw
      rw [hphase] at hw
      rcases hw with hw | hw
      · obtain rfl := LineWait.releasing.inj hw
        rw [Option.all_some] at hnoticed
        rw [hs.not_alive hnoticed hc] at halive
        cases halive
      · cases hw
    · rw [hphase, heq]
      rfl
  · refine h.spawn ht (fun l hl => ?_) fun _ l hl => ?_
    · rw [hphase]
      unfold CallPhase.pending at hl ⊢
      cases after with
      | pulseStart flag => cases flag <;> exact hl
      | write | pulseComplete | safeState rest => exact hl
    · rw [hphase]
      exact hl

theorem Safe.invokeWrite (hsafe : b.Safe) (hopen : b.closed = false) (hline : line < b.config.length) (raw : Bool)
    (mode : WriteMode) : (b.invokeWrite line raw mode).Safe := by
  obtain ⟨hs, h⟩ := hsafe
  have hsb : (b.begin (.write line)).Sound := hs.begin hopen nofun nofun
  have hs' := hsb.cancel hopen line
  have h' := (h.begin (.write line)).cancel hsb line
  have ht := getElem?_cancel (getElem?_begin b (.write line)) rfl line
  have hnone := hsb.not_pending_cancel line
  have hfree : Free { action := .write line, phase := .running } := ⟨rfl, fun _ hw => hw⟩
  have hend := le_of_length (t := b.calls.length) (b := (b.begin (.write line)).cancel line) (by
    rw [length_calls_cancel]
    exact List.length_append)
  have hconfig : ((b.begin (.write line)).cancel line).config = b.config := config_cancel _ _
  have hlater : ∀ (i : Nat) other raw, ((b.begin (.write line)).cancel line).calls[i]? = some other →
      b.calls.length < i → other.action = .safeState none →
      safeRawAt ((b.begin (.write line)).cancel line).config line = some raw → line ∈ other.attempted →
      ((b.begin (.write line)).cancel line).Last i line → False :=
    fun i other _ hi hlt _ _ _ _ => absurd (hend i other hi) (by omega)
  unfold LibgpiodBackend.invokeWrite
  cases mode with
  | once =>
    refine ⟨hs'.spawn ht rfl ⟨line, rfl⟩ rfl (fun c _ _ _ hw => absurd hw id) (.inl ⟨_, rfl⟩), ?_⟩
    exact h'.spawn ht (fun l hl => absurd hl id) fun hfull => by cases hfull
  | pulse =>
    have hhook := hs'.rehook hnone (some b.calls.length)
    refine ⟨hhook.releaseHolder ht hfree ⟨by rw [← hconfig] at hline; exact hline, rfl, nofun⟩ fun _ => ?_, ?_⟩
    · exact Function.update_self _ _ _
    · exact Wins.startJob (b := ((b.begin (.write line)).cancel line).hook line b.calls.length) h' _ ht
        (fun _ hne => Function.update_of_ne hne _ _) (fun hfull => by cases hfull) (fun _ => hend)
        (fun hfull => by cases hfull) (decide_eq_true rfl) hlater
  | hold =>
    refine ⟨hs'.releaseHolder ht hfree ⟨by rw [← hconfig] at hline; exact hline, rfl, nofun⟩ nofun, ?_⟩
    exact h'.startJob _ ht (fun _ hne => Function.update_of_ne hne _ _) (fun hfull => by cases hfull) nofun
      (fun hfull => by cases hfull) (decide_eq_true rfl) hlater

theorem Safe.invokeSafeState (hsafe : b.Safe) (hopen : b.closed = false) {target : Option Nat}
    (hdeclared : ∀ line, target = some line → line < b.config.length)
    (hsingle : target = none → ∀ call ∈ b.calls, call.action = .safeState none → call.phase.isSettled) :
    (b.invokeSafeState target).Safe := by
  obtain ⟨hs, h⟩ := hsafe
  have hbegun : (b.begin (.safeState target)).Sound :=
    hs.begin hopen nofun fun hfull => hsingle (CallAction.safeState.inj hfull)
  refine Safe.safeNext ⟨hbegun, h.begin _⟩ (getElem?_begin b (.safeState target)) rfl rfl (List.nil_append _)
    (fun line hline => ?_) fun _ _ => ?_
  · cases target with
    | none => exact mem_orderForSafeState.mp hline
    | some l =>
      obtain rfl := List.mem_singleton.mp hline
      exact hdeclared line rfl
  · exact List.length_append

theorem Safe.pulseElapsed (hsafe : b.Safe) (ht : b.calls[t]? = some call) (hphase : call.phase = .waitForPulse line) :
    Safe (({ b with cancelPulse := Function.update b.cancelPulse line none }.setPhase t .running).applySafeLevel
      t line .pulseComplete) := by
  obtain ⟨hs, h⟩ := hsafe
  have hdescribed := hs.described call (List.mem_of_getElem? ht)
  rw [GpioCall.Described, hphase] at hdescribed
  have hpending : call.phase.pending line := by
    rw [hphase]
    rfl
  have hover : call.phase.isOver = false := by
    rw [hphase]
    rfl
  have hrun : (b.setPhase t .running).Sound :=
    hs.setPhase ht (CallPhase.isSettled_eq_false hover) trivial
      (fun c _ _ _ hw => by rw [hphase] at hw; exact hw) (.inl ⟨rfl, hover⟩)
  have hwins : Wins ({ b with cancelPulse := Function.update b.cancelPulse line none }.setPhase t .running) :=
    h.setPhase _ ht (.inl rfl) fun hfull => by cases hdescribed.2.symm.trans hfull
  have ht' : (b.setPhase t .running).calls[t]? = some { call with phase := .running } := getElem?_modify_self _ ht
  -- no other pulse is pending on the line, for its hook was that of this one
  have hnone : ∀ other ∈ (b.setPhase t .running).calls, ¬ other.phase.pending line := by
    intro other hother hp
    obtain ⟨j, hj⟩ := List.getElem?_of_mem hother
    rcases getElem?_modify_eq_some hj with ⟨hne, hkept⟩ | ⟨-, _, _, rfl⟩
    · have hmine := hs.hooked t call line ht hpending
      rw [hs.hooked j other line hkept hp] at hmine
      exact hne (Option.some.inj hmine).symm
    · exact hp
  constructor
  · exact (hrun.rehook hnone none).applySafeLevel ht' ⟨rfl, fun _ hw => hw⟩ (fun _ _ _ => hdescribed) (by rintro ⟨⟩)
  · refine hwins.applySafeLevel ht' (fun _ => rfl) (by rintro ⟨⟩) (fun _ => hnone) ?_ ?_
    · rw [GpioCall.touches, hdescribed.2]
      exact decide_eq_true rfl
    · intro i other raw hi hlt hfull hraw hl hlast
      have hi' : b.calls[i]? = some other := (getElem?_modify_of_ne _ (Nat.ne_of_lt hlt)).symm.trans hi
      refine (h i other line raw hi' hfull hraw hl fun j q hj hltj => ?_).1 t call ht hlt hpending
      exact hlast j q ((getElem?_modify_of_ne _ (by omega)).trans hj) hltj

/-! ## Closing -/

/-- After `close` has begun no `safeState()` is the last call on a line. -/
theorem wins_close {b' : LibgpiodBackend} {phase : CallPhase}
    (hcalls : b'.calls = b.calls ++ [{ action := .close, phase }]) : b'.Wins := by
  intro i other line raw hi hfull _ _ hlast
  rw [hcalls] at hi
  rcases getElem?_append_singleton_eq_some hi with hkept | ⟨-, rfl⟩
  · have hnew : b'.calls[b.calls.length]? = some { action := .close, phase } := by
      rw [hcalls]
      exact List.getElem?_concat_length
    have htouches := hlast _ _ hnew (List.getElem?_eq_some_iff.mp hkept).1
    cases htouches
  · cases hfull

theorem Safe.closeAgain (hsafe : b.Safe) (hclosed : b.closed = true) :
    Safe { b with calls := b.calls ++ [{ action := .close, phase := .settled true }] } := by
  obtain ⟨hs, h⟩ := hsafe
  refine ⟨?_, wins_close rfl⟩
  have hcases : ∀ {j : Nat} {other}, (b.calls ++ [{ action := .close, phase := .settled true }])[j]? = some other →
      b.calls[j]? = some other ∨ j = b.calls.length ∧ other = { action := .close, phase := .settled true } :=
    fun hj => getElem?_append_singleton_eq_some hj
  have hmem : ∀ {other}, other ∈ b.calls ++ [{ action := .close, phase := .settled true }] →
      other ∈ b.calls ∨ other = { action := .close, phase := .settled true } := by
    intro other hother
    exact (List.mem_append.mp hother).imp id List.mem_singleton.mp
  refine
    { exclusive := hs.exclusive, noticed := hs.noticed, recorded := hs.recorded, starting := ?_, started := ?_
      hooked := ?_, tracked := ?_, described := ?_, stopped := ?_, closing := ?_, unclosed := ?_, single := ?_ }
  · intro j other job c hj hjob
    rcases hcases hj with hj | ⟨-, rfl⟩
    · exact hs.starting j other job c hj hjob
    · obtain ⟨-, _, hphase⟩ := hjob
      cases hphase
  · intro j j' other other' job job' c hj hj' hjob hjob'
    rcases hcases hj with hj | ⟨-, rfl⟩
    · rcases hcases hj' with hj' | ⟨-, rfl⟩
      · exact hs.started j j' other other' job job' c hj hj' hjob hjob'
      · obtain ⟨-, _, hphase⟩ := hjob'
        cases hphase
    · obtain ⟨-, _, hphase⟩ := hjob
      cases hphase
  · intro j other l hj hl
    rcases hcases hj with hj | ⟨-, rfl⟩
    · exact hs.hooked j other l hj hl
    · exact absurd hl id
  · intro c child hc halive
    refine (hs.tracked c child hc halive).imp_right ?_
    rintro ⟨other, hother, hw⟩
    exact ⟨other, List.mem_append_left _ hother, hw⟩
  · intro other hother
    rcases hmem hother with hother | rfl
    · exact hs.described other hother
    · intro target htarget
      cases htarget
  · intro _
    refine ⟨fun other hother => ?_, (hs.stopped hclosed).2⟩
    rcases hmem hother with hother | rfl
    · exact (hs.stopped hclosed).1 other hother
    · rfl
  · intro j other children hj hphase j' other' hj' hclose
    rcases hcases hj with hj | ⟨-, rfl⟩
    · rcases hcases hj' with hj' | ⟨rfl, -⟩
      · exact hs.closing j other children hj hphase j' other' hj' hclose
      · exact Nat.le_of_lt (List.getElem?_eq_some_iff.mp hj).1
    · cases hphase
  · intro other hother hclose
    exact hclosed
  · intro j j' other other' hj hj' hlt hfull hfull'
    rcases hcases hj with hj | ⟨-, rfl⟩
    · rcases hcases hj' with hj' | ⟨-, rfl⟩
      · exact hs.single j j' other other' hj hj' hlt hfull hfull'
      · cases hfull'
    · cases hfull

/-- What calling hooks leaves when every call has settled but pulses that wait. -/
structure Cancelled (b b' : LibgpiodBackend) (lines : List Nat) : Prop where
  safe : b'.Safe
  opened : b'.closed = false
  config : b'.config = b.config
  calls : ∀ call ∈ b'.calls, call.phase.isSettled ∨ call.phase.isWaiting
  quiet : ∀ line ∈ lines, ∀ call ∈ b'.calls, ¬ call.phase.pending line

theorem Cancelled.cancel {b' : LibgpiodBackend} {lines : List Nat} (h : Cancelled b b' lines) (line : Nat) :
    Cancelled b (b'.cancel line) (line :: lines) := by
  have hmem : ∀ call ∈ (b'.cancel line).calls, call ∈ b'.calls ∨ ∃ q ∈ b'.calls, call = q.cancelled := by
    intro call hcall
    obtain ⟨j, hj⟩ := List.getElem?_of_mem hcall
    rw [LibgpiodBackend.cancel] at hj
    split at hj
    · rcases getElem?_modify_eq_some hj with ⟨-, hkept⟩ | ⟨-, q, hq, rfl⟩
      · exact .inl (List.mem_of_getElem? hkept)
      · exact .inr ⟨q, List.mem_of_getElem? hq, rfl⟩
    · exact .inl (List.mem_of_getElem? hj)
  refine
    { safe := ⟨h.safe.1.cancel h.opened line, h.safe.2.cancel h.safe.1 line⟩
      opened := (closed_cancel b' line).trans h.opened
      config := (config_cancel b' line).trans h.config
      calls := fun call hcall => ?_, quiet := fun l hl call hcall => ?_ }
  · rcases hmem call hcall with hold | ⟨q, hq, rfl⟩
    · exact h.calls call hold
    · rcases h.calls q hq with hsettled | hwait
      · exact .inl (q.isSettled_cancelled hsettled)
      · left
        cases hphase : q.phase with
        | waitForPulse l =>
          rw [GpioCall.cancelled, hphase]
          rfl
        | running | working _ _ | once _ | closing _ | settled _ =>
          rw [hphase] at hwait
          cases hwait
  · rcases List.mem_cons.mp hl with rfl | hl
    · exact h.safe.1.not_pending_cancel l call hcall
    · rcases hmem call hcall with hold | ⟨q, -, rfl⟩
      · exact h.quiet l hl call hold
      · exact q.not_pending_cancelled l

theorem Cancelled.foldl (ls : List Nat) : ∀ {b' : LibgpiodBackend} {lines : List Nat}, Cancelled b b' lines →
    ∃ lines', (∀ line ∈ ls, line ∈ lines') ∧ Cancelled b (ls.foldl LibgpiodBackend.cancel b') lines' := by
  suffices hall : ∀ {b' : LibgpiodBackend} {lines : List Nat}, Cancelled b b' lines →
      ∃ lines', (∀ line ∈ lines, line ∈ lines') ∧ (∀ line ∈ ls, line ∈ lines') ∧
        Cancelled b (ls.foldl LibgpiodBackend.cancel b') lines' by
    intro b' lines h
    obtain ⟨lines', -, hls, hrest⟩ := hall h
    exact ⟨lines', hls, hrest⟩
  induction ls with
  | nil => exact fun h => ⟨_, fun _ hl => hl, nofun, h⟩
  | cons line ls ih =>
    intro b' lines h
    obtain ⟨lines', hold, hls, hrest⟩ := ih (h.cancel line)
    refine ⟨lines', fun l hl => hold l (List.mem_cons_of_mem _ hl), fun l hl => ?_, hrest⟩
    rcases List.mem_cons.mp hl with rfl | hl
    · exact hold l List.mem_cons_self
    · exact hls l hl

theorem Safe.invokeClose (hsafe : b.Safe) (hopen : b.closed = false)
    (hcalls : ∀ call ∈ b.calls, call.phase.isSettled ∨ call.phase.isWaiting) : b.invokeClose.Safe := by
  have hstart : Cancelled b b [] := ⟨hsafe, hopen, rfl, hcalls, List.forall_mem_nil _⟩
  obtain ⟨lines, hlines, hcancelled⟩ := hstart.foldl (List.range b.config.length)
  rw [LibgpiodBackend.invokeClose]
  set b' := (List.range b.config.length).foldl LibgpiodBackend.cancel b
  refine ⟨?_, wins_close rfl⟩
  obtain ⟨⟨hs, -⟩, hopen', hconfig, hcalls', hquiet⟩ := hcancelled
  -- the pulses that waited were cancelled
  have hphase : ∀ call ∈ b'.calls, ∃ resolved, call.phase = .settled resolved := by
    intro call hcall
    have hdone := hcalls' call hcall
    cases hp : call.phase with
    | settled resolved => exact ⟨resolved, rfl⟩
    | waitForPulse line =>
      have hdescribed := hs.described call hcall
      rw [GpioCall.Described, hp] at hdescribed
      have hline : line ∈ lines := hlines line (List.mem_range.mpr (hconfig ▸ hdescribed.1))
      exact absurd (by rw [hp]; rfl) (hquiet line hline call hcall)
    | running | working _ _ | once _ | closing _ =>
      rw [hp] at hdone
      rcases hdone with hdone | hdone <;> cases hdone
  let closer : GpioCall :=
    { action := .close, phase := .closing ((List.range b.config.length).filterMap b'.holder) }
  have hcases : ∀ {j : Nat} {other}, (b'.calls ++ [closer])[j]? = some other →
      b'.calls[j]? = some other ∨ j = b'.calls.length ∧ other = closer :=
    fun hj => getElem?_append_singleton_eq_some hj
  have hmem : ∀ {other}, other ∈ b'.calls ++ [closer] → other ∈ b'.calls ∨ other = closer :=
    fun hother => (List.mem_append.mp hother).imp id List.mem_singleton.mp
  have hstarts : ∀ {j : Nat} {other job c}, (b'.calls ++ [closer])[j]? = some other →
      ¬ other.phase.starts c job := by
    rintro j other job c hj ⟨-, after, hstart⟩
    rcases hcases hj with hj | ⟨-, rfl⟩
    · obtain ⟨_, hp⟩ := hphase other (List.mem_of_getElem? hj)
      cases hp.symm.trans hstart
    · cases hstart
  refine
    { exclusive := hs.exclusive, noticed := hs.noticed, recorded := by rintro _ _ ⟨⟩
      starting := fun j other job c hj hjob => absurd hjob (hstarts hj)
      started := fun j _ other _ job _ c hj _ hjob _ => absurd hjob (hstarts hj)
      hooked := ?_, tracked := ?_, described := ?_, stopped := ?_, closing := ?_, unclosed := fun _ _ _ => rfl
      single := ?_ }
  · intro j other l hj hl
    rcases hcases hj with hj | ⟨-, rfl⟩
    · obtain ⟨_, hp⟩ := hphase other (List.mem_of_getElem? hj)
      rw [hp] at hl
      exact absurd hl id
    · exact absurd hl id
  · intro c child hc halive
    refine .inr ⟨closer, List.mem_append_right _ (List.mem_singleton.mpr rfl), ?_⟩
    rcases hs.tracked c child hc halive with hholder | ⟨other, hother, hw⟩
    · have hlt := (hs.recorded _ _ hholder).1
      exact List.mem_filterMap.mpr ⟨child.line, List.mem_range.mpr (hconfig ▸ hlt), hholder⟩
    · obtain ⟨_, hp⟩ := hphase other hother
      rw [hp] at hw
      exact absurd hw id
  · intro other hother
    rcases hmem hother with hother | rfl
    · exact hs.described other hother
    · rfl
  · intro _
    refine ⟨fun other hother => ?_, fun _ => rfl⟩
    rcases hmem hother with hother | rfl
    · obtain ⟨_, hp⟩ := hphase other hother
      rw [hp]
      rfl
    · rfl
  · intro j other children hj hclosing j' other' hj' hclose
    rcases hcases hj' with hj' | ⟨rfl, -⟩
    · rw [hs.unclosed other' (List.mem_of_getElem? hj') hclose] at hopen'
      cases hopen'
    · rcases hcases hj with hj | ⟨rfl, -⟩
      · exact Nat.le_of_lt (List.getElem?_eq_some_iff.mp hj).1
      · exact le_refl _
  · intro j j' other other' hj hj' hlt hfull hfull'
    rcases hcases hj with hj | ⟨-, rfl⟩
    · obtain ⟨_, hp⟩ := hphase other (List.mem_of_getElem? hj)
      rw [hp]
      rfl
    · cases hfull

/-! ## Ends -/

theorem Safe.settle (hsafe : b.Safe) (ht : b.calls[t]? = some call) (hphase : call.phase.isSettled = false)
    (hwatches : ∀ c, call.phase.watches c → b.isNoticed c = true) {resolved : Bool}
    (hattempted : ∀ target, call.action = .safeState target →
      ∀ line ∈ safeStateLines b.config target, isOutput b.config line → line ∈ call.attempted)
    (hfailed : call.action = .safeState none → resolved = false) : (b.setPhase t (.settled resolved)).Safe := by
  obtain ⟨hs, h⟩ := hsafe
  constructor
  · refine hs.setPhase ht hphase hattempted (fun c child hc halive hw => ?_) (.inr ⟨resolved, rfl⟩)
    rw [hs.not_alive (hwatches c hw) hc] at halive
    cases halive
  · refine h.setPhase b.cancelPulse ht (.inr ⟨resolved, rfl⟩) fun hfull l raw _ hdone => ?_
    rw [hfailed hfull] at hdone
    cases hdone

/-- `holdLines` throws: no output of a call for safe state is left. -/
theorem Safe.startFailed (hsafe : b.Safe) (ht : b.calls[t]? = some call) {goal : Option Bool} {c : Nat}
    {after : AfterJob} (hphase : call.phase = .working ⟨line, goal, .starting c⟩ after)
    (hnoticed : b.isNoticed c = true) (hnone : b.noneLeft (some (.working ⟨line, goal, .starting c⟩ after)) = true) :
    (b.setPhase t (.settled false)).Safe := by
  refine hsafe.settle ht (by rw [hphase]; rfl) (fun k hw => ?_) (fun target haction l hl hout => ?_) fun _ => rfl
  · rw [hphase] at hw
    rcases hw with hw | hw
    · cases hw
    · obtain rfl := LineWait.starting.inj hw
      exact hnoticed
  · have hdescribed := hsafe.1.described call (List.mem_of_getElem? ht)
    rw [GpioCall.Described, hphase] at hdescribed
    cases after with
    | safeState rest =>
      obtain ⟨-, target', _, haction', -, hlines, -⟩ := hdescribed
      obtain rfl := CallAction.safeState.inj (haction'.symm.trans haction)
      rw [← hlines] at hl
      rcases List.mem_append.mp hl with hl | hl
      · exact hl
      · have hnot := List.all_eq_true.mp hnone l hl
        rw [hout] at hnot
        cases hnot
    | write => cases hdescribed.2.1.symm.trans haction
    | pulseStart flag => cases hdescribed.2.1.symm.trans haction
    | pulseComplete => cases hdescribed.2.symm.trans haction

/-- A child dies that does not hold a line at its safe level. -/
theorem Safe.died (hsafe : b.Safe) {c : Nat} (horderly : b.Orderly (.died c)) :
    Safe { b with children := b.children.modify c fun child => { child with alive := false } } := by
  obtain ⟨hs, h⟩ := hsafe
  refine ⟨hs.died c, h.mono b.holder ?_⟩
  rintro line raw hraw ⟨k, child, hk, hchild, halive, hlevel⟩
  refine ⟨k, child, hk, ?_, halive, hlevel⟩
  refine (getElem?_modify_of_ne _ ?_).trans hchild
  rintro rfl
  obtain ⟨-, child', hchild', hline⟩ := hs.recorded line c hk
  rw [hchild] at hchild'
  obtain rfl := Option.some.inj hchild'
  have hholds : b.holdsSafeLevel c = true := by
    rw [holdsSafeLevel, hchild, Option.any_some, hline, hk, hraw, hlevel]
    simp
  rw [show b.holdsSafeLevel c = false from horderly] at hholds
  cases hholds

theorem Safe.hear (hsafe : b.Safe) {c : Nat} {child : GpiosetChild} (hc : b.children[c]? = some child)
    (hdead : child.alive = false) :
    Safe { b with
      children := b.children.modify c fun child => { child with noticed := true }
      holder := if b.holder child.line = some c then Function.update b.holder child.line none else b.holder } := by
  obtain ⟨hs, h⟩ := hsafe
  refine ⟨hs.hear hc hdead, h.mono _ ?_⟩
  rintro line raw - ⟨k, q, hk, hq, halive, hlevel⟩
  have hne : c ≠ k := by
    rintro rfl
    rw [hc] at hq
    obtain rfl := Option.some.inj hq
    rw [hdead] at halive
    cases halive
  refine ⟨k, q, ?_, (getElem?_modify_of_ne _ hne).trans hq, halive, hlevel⟩
  dsimp only
  split
  · next hrecorded =>
    by_cases heq : line = child.line
    · rw [heq, hrecorded] at hk
      exact absurd (Option.some.inj hk) hne
    · exact (Function.update_of_ne heq _ _).trans hk
  · exact hk

/-! ## Runs -/

theorem phaseOf_eq_some {phase : CallPhase} (h : b.phaseOf t = some phase) :
    ∃ call, b.calls[t]? = some call ∧ call.phase = phase := Option.map_eq_some_iff.mp h

theorem Safe.step {b' : LibgpiodBackend} (hsafe : b.Safe) {event : GpioEvent} (horderly : b.Orderly event)
    (hstep : b.step event = some b') : b'.Safe := by
  cases event with
  | write line value mode =>
    rw [LibgpiodBackend.step] at hstep
    split at hstep
    · next config hconfig =>
      split at hstep
      · obtain rfl := Option.some.inj hstep
        exact hsafe
      · next hguard =>
        obtain rfl := Option.some.inj hstep
        exact hsafe.invokeWrite (Bool.eq_false_iff.mpr fun hclosed => hguard (.inl hclosed))
          (List.getElem?_eq_some_iff.mp hconfig).1 _ mode
    · obtain rfl := Option.some.inj hstep
      exact hsafe
  | safeState target =>
    rw [LibgpiodBackend.step] at hstep
    split at hstep
    · obtain rfl := Option.some.inj hstep
      exact hsafe
    · next hguard =>
      obtain rfl := Option.some.inj hstep
      refine hsafe.invokeSafeState (Bool.eq_false_iff.mpr fun hclosed => hguard (.inl hclosed)) ?_ ?_
      · rintro line rfl
        refine Nat.lt_of_not_le fun hle => hguard (.inr ?_)
        exact decide_eq_true hle
      · rintro rfl
        exact horderly
  | close =>
    rw [LibgpiodBackend.step] at hstep
    split at hstep
    · next hclosed =>
      obtain rfl := Option.some.inj hstep
      exact hsafe.closeAgain hclosed
    · next hopen =>
      obtain rfl := Option.some.inj hstep
      exact hsafe.invokeClose (Bool.eq_false_iff.mpr hopen) horderly
  | released t =>
    rw [LibgpiodBackend.step] at hstep
    split at hstep
    · next hphase =>
      obtain ⟨call, ht, hphase⟩ := phaseOf_eq_some hphase
      split at hstep
      · next hnoticed =>
        split at hstep
        · obtain rfl := Option.some.inj hstep
          exact hsafe.spawned ht hphase hnoticed
        · obtain rfl := Option.some.inj hstep
          exact hsafe.freed ht hphase hnoticed
      · cases hstep
    · cases hstep
  | graceElapsed t =>
    rw [LibgpiodBackend.step] at hstep
    split at hstep
    · next hphase =>
      split at hstep
      · cases hstep
      · obtain rfl := Option.some.inj hstep
        rw [Orderly, hphase] at horderly
        obtain ⟨halive, hhook⟩ := Bool.and_eq_true_iff.mp horderly
        obtain ⟨call, ht, hphase⟩ := phaseOf_eq_some hphase
        obtain ⟨child, hc, halive⟩ := (Option.any_eq_true _ _).mp halive
        refine hsafe.graceElapsed ht hphase hc halive fun hafter => ?_
        rw [hafter] at hhook
        simpa using hhook
    · cases hstep
  | startFailed t =>
    rw [LibgpiodBackend.step] at hstep
    split at hstep
    · next line goal c after hwhere =>
      split at hstep
      · next hnoticed =>
        obtain rfl := Option.some.inj hstep
        obtain ⟨call, ht, hphase⟩ := phaseOf_eq_some hwhere
        rw [Orderly, hwhere] at horderly
        exact hsafe.startFailed ht hphase hnoticed horderly
      · cases hstep
    · cases hstep
  | onceDone t resolved =>
    rw [LibgpiodBackend.step] at hstep
    split at hstep
    · next hphase =>
      obtain ⟨call, ht, hphase⟩ := phaseOf_eq_some hphase
      split at hstep
      · next hnoticed =>
        obtain rfl := Option.some.inj hstep
        have hdescribed := hsafe.1.described call (List.mem_of_getElem? ht)
        rw [GpioCall.Described, hphase] at hdescribed
        obtain ⟨l, hwrite⟩ := hdescribed
        refine hsafe.settle ht (by rw [hphase]; rfl) (fun k hw => ?_)
          (fun _ haction => by cases hwrite.symm.trans haction) fun haction => by cases hwrite.symm.trans haction
        rw [hphase] at hw
        obtain rfl := (show _ = k from hw)
        exact hnoticed
      · cases hstep
    · cases hstep
  | pulseElapsed t =>
    rw [LibgpiodBackend.step] at hstep
    split at hstep
    · next hphase =>
      obtain rfl := Option.some.inj hstep
      obtain ⟨call, ht, hphase⟩ := phaseOf_eq_some hphase
      exact hsafe.pulseElapsed ht hphase
    · cases hstep
  | closeDone t =>
    rw [LibgpiodBackend.step] at hstep
    split at hstep
    · next hphase =>
      obtain ⟨call, ht, hphase⟩ := phaseOf_eq_some hphase
      split at hstep
      · next hnoticed =>
        obtain rfl := Option.some.inj hstep
        have hdescribed := hsafe.1.described call (List.mem_of_getElem? ht)
        rw [GpioCall.Described, hphase] at hdescribed
        refine hsafe.settle ht (by rw [hphase]; rfl) (fun k hw => ?_)
          (fun _ haction => by cases hdescribed.symm.trans haction) fun haction => by
            cases hdescribed.symm.trans haction
        rw [hphase] at hw
        exact List.all_eq_true.mp hnoticed k hw
      · cases hstep
    · cases hstep
  | died c =>
    rw [LibgpiodBackend.step] at hstep
    split at hstep
    · split at hstep
      · obtain rfl := Option.some.inj hstep
        exact hsafe.died horderly
      · cases hstep
    · cases hstep
  | noticed c =>
    rw [LibgpiodBackend.step] at hstep
    split at hstep
    · next hc =>
      split at hstep
      · cases hstep
      · next hguard =>
        obtain rfl := Option.some.inj hstep
        exact hsafe.hear hc (Bool.eq_false_iff.mpr fun halive => hguard (.inl halive))
    · cases hstep

theorem Safe.safeStateWins (hsafe : b.Safe) : b.SafeStateWins := by
  obtain ⟨hs, h⟩ := hsafe
  have hattempted : ∀ call ∈ b.calls, call.action = .safeState none → call.phase.isSettled →
      ∀ line, isOutput b.config line → line ∈ call.attempted := by
    intro call hcall hfull hsettled line hout
    have hdescribed := hs.described call hcall
    cases hphase : call.phase with
    | settled resolved =>
      rw [GpioCall.Described, hphase] at hdescribed
      exact hdescribed none hfull line (mem_orderForSafeState.mpr (lt_of_isOutput hout)) hout
    | running | working _ _ | once _ | waitForPulse _ | closing _ =>
      rw [hphase] at hsettled
      cases hsettled
  refine ⟨hattempted, ?_, ?_⟩
  · intro t call ht hfull hphase _ line raw hraw hlast
    have hline := hattempted call (List.mem_of_getElem? ht) hfull (by rw [hphase]; rfl) line
      (isOutput_of_safeRawAt hraw)
    obtain ⟨-, hdone⟩ := h t call line raw ht hfull hraw hline hlast
    obtain ⟨c, child, hc, hchild, halive, hlevel⟩ := hdone (by rw [hphase]; rfl)
    refine ⟨c, child, hc, hchild, halive, hlevel, fun c' child' hc' halive' hline' => ?_⟩
    obtain ⟨-, q, hq, hqline⟩ := hs.recorded line c hc
    rw [hchild] at hq
    obtain rfl := Option.some.inj hq
    exact hs.exclusive c' c child' child hc' hchild halive' halive (hline'.trans hqline.symm)
  · intro t call ht hclose hsettled hbefore child hchild
    refine Bool.eq_false_iff.mpr fun halive => ?_
    obtain ⟨c, hc⟩ := List.getElem?_of_mem hchild
    obtain ⟨hover, hnone⟩ := hs.stopped (hs.unclosed call (List.mem_of_getElem? ht) hclose)
    rcases hs.tracked c child hc halive with hholder | ⟨other, hother, hw⟩
    · rw [hnone] at hholder
      cases hholder
    · -- only the first `close` waits for children, and it has settled
      obtain ⟨j, hj⟩ := List.getElem?_of_mem hother
      have hunsettled : other.phase.isSettled = false := by
        cases hphase : other.phase with
        | settled resolved =>
          rw [hphase] at hw
          exact absurd hw id
        | running | working _ _ | once _ | waitForPulse _ | closing _ => rfl
      cases hphase : other.phase with
      | closing children =>
        have hle := hs.closing j other children hj hphase t call ht hclose
        rcases Nat.lt_or_eq_of_le hle with hlt | rfl
        · rw [hbefore j other hj hlt] at hunsettled
          cases hunsettled
        · rw [ht] at hj
          obtain rfl := Option.some.inj hj
          rw [hsettled] at hunsettled
          cases hunsettled
      | settled resolved =>
        rw [hphase] at hunsettled
        cases hunsettled
      | running | working _ _ | once _ | waitForPulse _ =>
        have hdone := hover other hother
        rw [hphase] at hdone
        cases hdone

/-- **Safe state wins** in every run whose steps all meet the condition. -/
theorem safeStateWins_of_orderly {config : List ValidatedLibgpiodLine} {events : List GpioEvent}
    (horderly : machine.Guarded Orderly { config } events) (hrun : machine.run { config } events = some b) :
    b.SafeStateWins := by
  have hsafe : b.Safe :=
    Machine.run_guarded_invariant (I := Safe) (fun _ _ _ h hevent hstep => Safe.step h hevent hstep)
      ⟨sound_initial config, fun _ _ _ _ ht => by cases ht⟩ horderly hrun
  exact hsafe.safeStateWins

/-- A pulse that `safeState()` ends, outputs of both polarities, and `close()`. -/
def orderlyRun : List GpioEvent :=
  [.write 0 true .pulse, .released 0, .graceElapsed 0, .safeState none, .died 0, .noticed 0, .released 1,
    .graceElapsed 1, .released 1, .graceElapsed 1, .released 1, .close, .died 1, .died 2, .noticed 2, .noticed 1,
    .closeDone 2]

theorem safeStateWins_of_orderly_closed :
    ∃ b, machine.run { config := [⟨.output, .activeHigh, .low⟩, ⟨.output, .activeLow, .high⟩,
        ⟨.input, .activeHigh, .highZ⟩] } orderlyRun = some b ∧
      b.calls.map GpioCall.attempted = [[], [0, 1, 2], []] ∧
      b.children.map GpiosetChild.raw = [true, false, true] ∧ b.SafeStateWins := by
  have hrun : (machine.run { config := [⟨.output, .activeHigh, .low⟩, ⟨.output, .activeLow, .high⟩,
      ⟨.input, .activeHigh, .highZ⟩] } orderlyRun).map
      (fun b => (b.calls.map GpioCall.attempted, b.children.map GpiosetChild.raw)) =
      some ([[], [0, 1, 2], []], [true, false, true]) := by decide +kernel
  obtain ⟨b, hb, heq⟩ := Option.map_eq_some_iff.mp hrun
  obtain ⟨hattempted, hraw⟩ := Prod.mk.inj heq
  exact ⟨b, hb, hattempted, hraw, safeStateWins_of_orderly (by decide +kernel) hb⟩

/-- **Safe state does not win** in general: while a pulse starts, `safeState()` fails at its line and attempts no
other, and the pulse stays on with no timer; with an exit that is noticed late it resolves, and the line is
held at the level of a write; the holder of a safe level may end; and `close()` leaves the child of a write that
was starting. -/
theorem not_safeStateWins :
    (∃ b, machine.run { config := [⟨.output, .activeHigh, .low⟩, ⟨.output, .activeHigh, .low⟩] }
        [.write 0 true .pulse, .released 0, .safeState none, .released 1, .noticed 1, .startFailed 1,
          .graceElapsed 0] = some b ∧
      b.calls = [⟨.write 0, .settled true, []⟩, ⟨.safeState none, .settled false, [0]⟩] ∧
      b.holder 0 = some 0 ∧ b.children[0]? = some ⟨0, true, true, false⟩ ∧ ¬ b.SafeStateWins) ∧
    (∃ b, machine.run { config := [⟨.output, .activeHigh, .low⟩] }
        [.write 0 true .hold, .released 0, .safeState none, .released 1, .graceElapsed 1, .graceElapsed 0] =
        some b ∧
      b.calls = [⟨.write 0, .settled true, []⟩, ⟨.safeState none, .settled true, [0]⟩] ∧
      b.holder 0 = some 0 ∧ b.children[0]? = some ⟨0, true, true, false⟩ ∧ ¬ b.SafeStateWins) ∧
    (∃ b, machine.run { config := [⟨.output, .activeHigh, .low⟩] }
        [.safeState none, .released 0, .graceElapsed 0, .died 0, .noticed 0] = some b ∧
      b.calls = [⟨.safeState none, .settled true, [0]⟩] ∧ b.holder 0 = none ∧ ¬ b.SafeStateWins) ∧
    ∃ b, machine.run { config := [⟨.output, .activeHigh, .low⟩] }
        [.write 0 true .hold, .released 0, .close, .closeDone 1, .graceElapsed 0] = some b ∧
      b.calls = [⟨.write 0, .settled true, []⟩, ⟨.close, .settled true, []⟩] ∧
      b.children = [⟨0, true, true, false⟩] ∧ ¬ b.SafeStateWins := by
  have hsettled : ∀ (call : GpioCall) (rest : List GpioCall) {b : LibgpiodBackend}, b.calls = call :: rest →
      call.phase.isSettled = true → ∀ (j : Nat) other, b.calls[j]? = some other → j < 1 → other.phase.isSettled := by
    intro call rest b hcalls hphase j other hj hlt
    obtain rfl : j = 0 := by omega
    rw [hcalls] at hj
    obtain rfl := Option.some.inj hj
    exact hphase
  have hlast : ∀ {b : LibgpiodBackend} {t : Nat}, b.calls.length = t + 1 → b.Last t 0 := by
    intro b t hlength j other hj hlt
    have := le_of_length hlength j other hj
    omega
  refine ⟨⟨_, rfl, by decide +kernel, by decide +kernel, by decide +kernel, fun h => ?_⟩,
    ⟨_, rfl, by decide +kernel, by decide +kernel, by decide +kernel, fun h => ?_⟩,
    ⟨_, rfl, by decide +kernel, by decide +kernel, fun h => ?_⟩,
    ⟨_, rfl, by decide +kernel, by decide +kernel, fun h => ?_⟩⟩
  · have hmem := h.attempted ⟨.safeState none, .settled false, [0]⟩ (by decide +kernel) rfl rfl 1 (by decide +kernel)
    exact absurd hmem (by decide)
  · obtain ⟨c, child, hc, hchild, -, hraw, -⟩ := h.held 1 ⟨.safeState none, .settled true, [0]⟩
      (by decide +kernel) rfl rfl
      (fun j other _ hj hlt _ => hsettled ⟨.write 0, .settled true, []⟩ [⟨.safeState none, .settled true, [0]⟩]
        (by decide +kernel) rfl j other hj hlt)
      0 false (by decide +kernel) (hlast (by decide +kernel))
    obtain rfl : 0 = c := Option.some.inj ((show some 0 = _ by decide +kernel).trans hc)
    obtain rfl : ⟨0, true, true, false⟩ = child :=
      Option.some.inj ((show some (⟨0, true, true, false⟩ : GpiosetChild) = _ by decide +kernel).trans hchild)
    cases hraw
  · obtain ⟨c, child, hc, -⟩ := h.held 0 ⟨.safeState none, .settled true, [0]⟩ (by decide +kernel) rfl rfl
      (fun j other _ hj hlt _ => absurd hlt (Nat.not_lt_zero j)) 0 false (by decide +kernel) (hlast (by decide +kernel))
    cases (show none = _ by decide +kernel).trans hc
  · have hdead := h.gone 1 ⟨.close, .settled true, []⟩ (by decide +kernel) rfl rfl
      (hsettled ⟨.write 0, .settled true, []⟩ [⟨.close, .settled true, []⟩] (by decide +kernel) rfl) ⟨0, true, true, false⟩
        (by decide +kernel)
    cases hdead

end LibgpiodBackend

end Pinout.Libgpiod
