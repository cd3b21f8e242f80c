import Pinout.Foundation.Entries
import Pinout.Libgpiod.Backend

/-! # Children, holders and hooks

What holds of the children of a backend, of the holders and hooks on record, and of its calls, at every
point of a run. -/

namespace Pinout.Libgpiod

open Foundation

/-! ## Calls and what they wait for -/

namespace CallPhase

def pending (line : Nat) : CallPhase → Prop
  | waitForPulse l => l = line
  | working job (.pulseStart false) => job.line = line
  | _ => False

def watches (c : Nat) : CallPhase → Prop
  | working job _ => job.wait = .releasing (some c) ∨ job.wait = .starting c
  | once child => child = c
  | closing children => c ∈ children
  | running | waitForPulse _ | settled _ => False

/-- The call waits out the grace window of a child. -/
def starts (c : Nat) (job : LineJob) (phase : CallPhase) : Prop :=
  job.wait = .starting c ∧ ∃ after, phase = .working job after

def isSettled : CallPhase → Bool
  | settled _ => true
  | running | working _ _ | once _ | waitForPulse _ | closing _ => false

/-- Whether the call has settled, or is a `close` under way. -/
def isOver : CallPhase → Bool
  | settled _ | closing _ => true
  | running | working _ _ | once _ | waitForPulse _ => false

theorem isSettled_eq_false {phase : CallPhase} (h : phase.isOver = false) : phase.isSettled = false := by
  cases phase <;> first | rfl | cases h

end CallPhase

/-- The level a declared line is driven to in safe state. -/
def safeRawAt (config : List ValidatedLibgpiodLine) (line : Nat) : Option Bool :=
  (config[line]?).bind ValidatedLibgpiodLine.safeRaw

def isOutput (config : List ValidatedLibgpiodLine) (line : Nat) : Bool :=
  (config[line]?).any (·.direction = .output)

def GpioCall.Described (config : List ValidatedLibgpiodLine) (call : GpioCall) : Prop :=
  match call.phase with
  | .running => True
  | .working job (.safeState rest) => (∀ line ∈ job.line :: rest, line < config.length) ∧
      ∃ target done, call.action = .safeState target ∧ call.attempted = done ++ [job.line] ∧
        call.attempted ++ rest = safeStateLines config target ∧
        ∀ raw, safeRawAt config job.line = some raw → job.goal = some raw
  | .working job .write | .working job (.pulseStart _) =>
    job.line < config.length ∧ call.action = .write job.line ∧ job.goal ≠ none
  | .working job .pulseComplete => job.line < config.length ∧ call.action = .write job.line
  | .once _ => ∃ line, call.action = .write line
  | .waitForPulse line => line < config.length ∧ call.action = .write line
  | .closing _ => call.action = .close
  | .settled _ => ∀ target, call.action = .safeState target →
      ∀ line ∈ safeStateLines config target, isOutput config line → line ∈ call.attempted

namespace LibgpiodBackend

variable {b : LibgpiodBackend} {t line : Nat} {call : GpioCall}

/-- What holds of children, holders, hooks and calls. -/
structure Sound (b : LibgpiodBackend) : Prop where
  exclusive : ∀ (c c' : Nat) child child', b.children[c]? = some child → b.children[c']? = some child' →
    child.alive → child'.alive → child.line = child'.line → c = c'
  noticed : ∀ child ∈ b.children, child.noticed → child.alive = false
  recorded : ∀ (line c : Nat), b.holder line = some c →
    line < b.config.length ∧ ∃ child, b.children[c]? = some child ∧ child.line = line
  /-- A child in its grace window is of its line and level, and not on record. -/
  starting : ∀ (t : Nat) call job c, b.calls[t]? = some call → call.phase.starts c job →
    (∃ child, b.children[c]? = some child ∧ child.line = job.line ∧ job.goal = some child.raw) ∧
      b.holder job.line ≠ some c
  started : ∀ (t t' : Nat) call call' job job' c, b.calls[t]? = some call → b.calls[t']? = some call' →
    call.phase.starts c job → call'.phase.starts c job' → t = t'
  hooked : ∀ (t : Nat) call line, b.calls[t]? = some call → call.phase.pending line → b.cancelPulse line = some t
  tracked : ∀ (c : Nat) child, b.children[c]? = some child → child.alive →
    b.holder child.line = some c ∨ ∃ call ∈ b.calls, call.phase.watches c
  described : ∀ call ∈ b.calls, call.Described b.config
  /-- On a closed backend no call but `close` is under way, and nothing is held. -/
  stopped : b.closed → (∀ call ∈ b.calls, call.phase.isOver) ∧ ∀ line, b.holder line = none
  closing : ∀ (t : Nat) call children, b.calls[t]? = some call → call.phase = .closing children →
    ∀ (t' : Nat) call', b.calls[t']? = some call' → call'.action = .close → t ≤ t'
  unclosed : ∀ call ∈ b.calls, call.action = .close → b.closed
  single : ∀ (t t' : Nat) call call', b.calls[t]? = some call → b.calls[t']? = some call' → t < t' →
    call.action = .safeState none → call'.action = .safeState none → call.phase.isSettled

theorem sound_initial (config : List ValidatedLibgpiodLine) : Sound { config } := by
  refine
    { exclusive := ?_, noticed := ?_, recorded := ?_, starting := ?_, started := ?_, hooked := ?_
      tracked := ?_, described := ?_, stopped := ?_, closing := ?_, unclosed := ?_, single := ?_ }
  all_goals
    intros
    contradiction

/-! ## One call goes on -/

/-- A call that goes on, with the holder and the hook of one line. -/
theorem Sound.change (h : b.Sound) (line : Nat) (ht : b.calls[t]? = some call) {f : GpioCall → GpioCall} {x y : Option Nat}
    (haction : (f call).action = call.action) (hdescribed : (f call).Described b.config)
    (hstop : b.closed → (f call).phase.isOver ∧ x = b.holder line)
    (hclosing : ∀ children, (f call).phase = .closing children → call.phase = .closing children)
    (hsettled : call.phase.isSettled → (f call).phase.isSettled)
    (hstarts : ∀ c job, (f call).phase.starts c job → call.phase.starts c job)
    (hrecorded : ∀ c, x = some c →
      line < b.config.length ∧ ∃ child, b.children[c]? = some child ∧ child.line = line)
    (hfresh : ∀ c, x = some c → b.holder line = some c ∨
      (∃ job, call.phase.starts c job) ∧ ∀ job, ¬ (f call).phase.starts c job)
    (hpending : ∀ l, (f call).phase.pending l → Function.update b.cancelPulse line y l = some t)
    (hhook : ∀ (j : Nat) other, j ≠ t → b.calls[j]? = some other → other.phase.pending line → y = some j)
    (hwatches : ∀ (c : Nat) child, b.children[c]? = some child → child.alive → call.phase.watches c →
      (f call).phase.watches c ∨ child.line = line ∧ x = some c)
    (hheld : ∀ (c : Nat) child, b.children[c]? = some child → child.alive → b.holder line = some c →
      x = some c ∨ (f call).phase.watches c) :
    Sound { b with
      holder := Function.update b.holder line x
      cancelPulse := Function.update b.cancelPulse line y
      calls := b.calls.modify t f } := by
  have hcalls : ∀ (j : Nat) other, (b.calls.modify t f)[j]? = some other →
      (t ≠ j ∧ b.calls[j]? = some other) ∨ t = j ∧ other = f call := fun _ _ => getElem?_modify_cases ht
  have hmem : ∀ other ∈ b.calls.modify t f, other ∈ b.calls ∨ other = f call := by
    intro other hother
    obtain ⟨j, hj⟩ := List.getElem?_of_mem hother
    exact (hcalls j other hj).imp (fun hold => List.mem_of_getElem? hold.2) And.right
  have hself : f call ∈ b.calls.modify t f := List.mem_of_getElem? (getElem?_modify_self f ht)
  have hkept : ∀ {j : Nat} {other}, t ≠ j → b.calls[j]? = some other → other ∈ b.calls.modify t f :=
    fun hne hj => List.mem_of_getElem? ((getElem?_modify_of_ne f hne).trans hj)
  refine
    { exclusive := h.exclusive, noticed := h.noticed, recorded := ?_, starting := ?_, started := ?_
      hooked := ?_, tracked := ?_, described := ?_, stopped := ?_, closing := ?_, unclosed := ?_, single := ?_ }
  · intro l c hl
    dsimp only at hl
    by_cases heq : l = line
    · subst heq
      rw [Function.update_self] at hl
      exact hrecorded c hl
    · rw [Function.update_of_ne heq] at hl
      exact h.recorded l c hl
  · intro j other job c hj hjob
    -- the child was in its grace window before, and is not the one that goes on record
    have hold : ∃ (j' : Nat) (other' : GpioCall), b.calls[j']? = some other' ∧ other'.phase.starts c job ∧
        (j' = t → (f call).phase.starts c job) := by
      rcases hcalls j other hj with ⟨hne, hj⟩ | ⟨rfl, rfl⟩
      · exact ⟨j, other, hj, hjob, fun heq => absurd heq.symm hne⟩
      · exact ⟨t, call, ht, hstarts c job hjob, fun _ => hjob⟩
    obtain ⟨j', other', hj', hjob', hsame⟩ := hold
    obtain ⟨hchild, hholder⟩ := h.starting j' other' job c hj' hjob'
    refine ⟨hchild, fun hnew => ?_⟩
    dsimp only at hnew
    by_cases heq : job.line = line
    · subst heq
      rw [Function.update_self] at hnew
      rcases hfresh c hnew with hhad | ⟨⟨job', hcall⟩, hnot⟩
      · exact hholder hhad
      · exact hnot job (hsame (h.started j' t other' call job job' c hj' ht hjob' hcall))
    · rw [Function.update_of_ne heq] at hnew
      exact hholder hnew
  · intro j j' other other' job job' c hj hj' hjob hjob'
    rcases hcalls j other hj with ⟨hne, hj⟩ | ⟨rfl, rfl⟩ <;> rcases hcalls j' other' hj' with ⟨hne', hj'⟩ | ⟨rfl, rfl⟩
    · exact h.started j j' other other' job job' c hj hj' hjob hjob'
    · exact h.started j t other call job job' c hj ht hjob (hstarts c job' hjob')
    · exact h.started t j' call other' job job' c ht hj' (hstarts c job hjob) hjob'
    · rfl
  · intro j other l hj hl
    dsimp only
    rcases hcalls j other hj with ⟨hne, hold⟩ | ⟨rfl, rfl⟩
    · by_cases heq : l = line
      · rw [heq] at hl ⊢
        rw [Function.update_self]
        exact hhook j other hne.symm hold hl
      · rw [Function.update_of_ne heq]
        exact h.hooked j other l hold hl
    · exact hpending l hl
  · intro c child hc halive
    dsimp only
    rcases h.tracked c child hc halive with hholder | ⟨other, hother, hw⟩
    · by_cases heq : child.line = line
      · rw [heq, Function.update_self]
        rw [heq] at hholder
        exact (hheld c child hc halive hholder).imp_right fun hw => ⟨_, hself, hw⟩
      · rw [Function.update_of_ne heq]
        exact .inl hholder
    · obtain ⟨j, hj⟩ := List.getElem?_of_mem hother
      by_cases hne : t = j
      · subst hne
        rw [ht] at hj
        obtain rfl := Option.some.inj hj
        rcases hwatches c child hc halive hw with hw | ⟨heq, hx⟩
        · exact .inr ⟨_, hself, hw⟩
        · rw [heq, Function.update_self]
          exact .inl hx
      · exact .inr ⟨other, hkept hne hj, hw⟩
  · intro other hother
    rcases hmem other hother with hold | rfl
    · exact h.described other hold
    · exact hdescribed
  · intro hclosed
    obtain ⟨hover, hx⟩ := hstop hclosed
    obtain ⟨hcallsOver, hnone⟩ := h.stopped hclosed
    refine ⟨fun other hother => ?_, fun l => ?_⟩
    · rcases hmem other hother with hold | rfl
      · exact hcallsOver other hold
      · exact hover
    · dsimp only
      rw [hx, Function.update_eq_self]
      exact hnone l
  · intro j other children hj hphase j' other' hj' hclose
    have hold : ∃ q, b.calls[j]? = some q ∧ q.phase = .closing children := by
      rcases hcalls j other hj with ⟨-, hj⟩ | ⟨rfl, rfl⟩
      · exact ⟨other, hj, hphase⟩
      · exact ⟨call, ht, hclosing children hphase⟩
    obtain ⟨q, hq, hqphase⟩ := hold
    rcases hcalls j' other' hj' with ⟨-, hj'⟩ | ⟨rfl, rfl⟩
    · exact h.closing j q children hq hqphase j' other' hj' hclose
    · exact h.closing j q children hq hqphase t call ht (haction.symm.trans hclose)
  · intro other hother hclose
    rcases hmem other hother with hold | rfl
    · exact h.unclosed other hold hclose
    · rw [haction] at hclose
      exact h.unclosed call (List.mem_of_getElem? ht) hclose
  · intro j j' other other' hj hj' hlt hfull hfull'
    have hcalls' : ∀ {k : Nat} {q}, (b.calls.modify t f)[k]? = some q → ∃ q', b.calls[k]? = some q' ∧
        q'.action = q.action ∧ (q'.phase.isSettled → q.phase.isSettled) := by
      intro k q hk
      rcases hcalls k q hk with ⟨-, hk⟩ | ⟨rfl, rfl⟩
      · exact ⟨q, hk, rfl, id⟩
      · exact ⟨call, ht, haction.symm, hsettled⟩
    obtain ⟨q, hq, hqa, hsettled⟩ := hcalls' hj
    obtain ⟨q', hq', hqa', -⟩ := hcalls' hj'
    exact hsettled (h.single j j' q q' hq hq' hlt (hqa.trans hfull) (hqa'.trans hfull'))

theorem Sound.setCall (h : b.Sound) (ht : b.calls[t]? = some call) {f : GpioCall → GpioCall}
    (haction : (f call).action = call.action) (hdescribed : (f call).Described b.config)
    (hstop : b.closed → (f call).phase.isOver)
    (hclosing : ∀ children, (f call).phase = .closing children → call.phase = .closing children)
    (hsettled : call.phase.isSettled → (f call).phase.isSettled)
    (hstarts : ∀ c job, (f call).phase.starts c job → call.phase.starts c job)
    (hpending : ∀ l, (f call).phase.pending l → b.cancelPulse l = some t)
    (hwatches : ∀ (c : Nat) child, b.children[c]? = some child → child.alive → call.phase.watches c →
      (f call).phase.watches c) :
    Sound { b with calls := b.calls.modify t f } := by
  have hchange := h.change 0 (x := b.holder 0) (y := b.cancelPulse 0) ht haction hdescribed
    (fun hclosed => ⟨hstop hclosed, rfl⟩) hclosing hsettled hstarts (fun c => h.recorded 0 c) (fun c hc => .inl hc)
    (fun l hl => by rw [Function.update_eq_self]; exact hpending l hl)
    (fun j other _ hj hp => h.hooked j other 0 hj hp)
    (fun c child hc halive hw => .inl (hwatches c child hc halive hw)) fun _ _ _ _ hc => .inl hc
  rw [Function.update_eq_self, Function.update_eq_self] at hchange
  exact hchange

/-- The hook of a line changes that no pulse is pending on. -/
theorem Sound.rehook (h : b.Sound) (hnone : ∀ call ∈ b.calls, ¬ call.phase.pending line) (y : Option Nat) :
    Sound { b with cancelPulse := Function.update b.cancelPulse line y } := by
  refine { h with hooked := ?_ }
  intro j other l hj hl
  dsimp only
  rw [Function.update_of_ne]
  · exact h.hooked j other l hj hl
  · rintro rfl
    exact hnone other (List.mem_of_getElem? hj) hl

end LibgpiodBackend

/-! ## Hooks are called -/

namespace GpioCall

variable (call : GpioCall)

theorem cancelled_cases :
    (∃ job flag, call.phase = .working job (.pulseStart flag) ∧
      call.cancelled = { call with phase := .working job (.pulseStart true) }) ∨
    (∃ line, call.phase = .waitForPulse line ∧ call.cancelled = { call with phase := .settled true }) ∨
    call.cancelled = call ∧ ∀ line, ¬ call.phase.pending line := by
  unfold cancelled
  split
  · next job flag hphase => exact .inl ⟨job, flag, hphase, rfl⟩
  · next line hphase => exact .inr (.inl ⟨line, hphase, rfl⟩)
  · next hwork hwait =>
    refine .inr (.inr ⟨rfl, fun line hpending => ?_⟩)
    unfold CallPhase.pending at hpending
    split at hpending
    · next hphase => exact hwait _ hphase
    · next hphase => exact hwork _ _ hphase
    · exact hpending

theorem cancelled_action : call.cancelled.action = call.action := by
  rcases call.cancelled_cases with ⟨_, _, _, heq⟩ | ⟨_, _, heq⟩ | ⟨heq, _⟩ <;> rw [heq]

theorem not_pending_cancelled (line : Nat) : ¬ call.cancelled.phase.pending line := by
  rcases call.cancelled_cases with ⟨_, _, _, heq⟩ | ⟨_, _, heq⟩ | ⟨heq, hnone⟩ <;> rw [heq]
  · exact id
  · exact id
  · exact hnone line

theorem isSettled_cancelled (h : call.phase.isSettled = true) : call.cancelled.phase.isSettled = true := by
  rcases call.cancelled_cases with ⟨_, _, hphase, _⟩ | ⟨_, _, heq⟩ | ⟨heq, _⟩
  · rw [hphase] at h
    cases h
  · rw [heq]
    rfl
  · rw [heq]
    exact h

variable {call}

theorem cancelled_of_safeState {config : List ValidatedLibgpiodLine} (h : call.Described config)
    {target : Option Nat} (haction : call.action = .safeState target) : call.cancelled = call := by
  rcases call.cancelled_cases with ⟨job, flag, hphase, _⟩ | ⟨line, hphase, _⟩ | ⟨heq, _⟩
  · rw [Described, hphase] at h
    have hwrite := h.2.1
    rw [haction] at hwrite
    cases hwrite
  · rw [Described, hphase] at h
    have hwrite := h.2
    rw [haction] at hwrite
    cases hwrite
  · exact heq

end GpioCall

namespace LibgpiodBackend

variable {b : LibgpiodBackend} {t line : Nat} {call : GpioCall}

theorem Sound.cancel (h : b.Sound) (hopen : b.closed = false) (line : Nat) : (b.cancel line).Sound := by
  rw [LibgpiodBackend.cancel]
  split
  · next t hhook =>
    cases ht : b.calls[t]? with
    | none =>
      have hcalls : b.calls.modify t GpioCall.cancelled = b.calls :=
        List.modify_eq_self (List.getElem?_eq_none_iff.mp ht)
      rw [hcalls]
      refine h.rehook (fun call hcall hpending => ?_) none
      obtain ⟨j, hj⟩ := List.getElem?_of_mem hcall
      rw [h.hooked j call line hj hpending] at hhook
      obtain rfl := Option.some.inj hhook
      rw [ht] at hj
      cases hj
    | some call =>
      have hchange := h.change line (x := b.holder line) (y := none) (f := GpioCall.cancelled) ht
        call.cancelled_action ?_ (fun hclosed => ?_) ?_ call.isSettled_cancelled ?_ (fun c => h.recorded line c)
        (fun c hc => .inl hc) (fun l hl => absurd hl (call.not_pending_cancelled l)) ?_ ?_
        fun _ _ _ _ hc => .inl hc
      · rw [Function.update_eq_self] at hchange
        exact hchange
      · have hdescribed := h.described call (List.mem_of_getElem? ht)
        rcases call.cancelled_cases with ⟨_, _, hphase, heq⟩ | ⟨_, hphase, heq⟩ | ⟨heq, _⟩
        · rw [heq]
          rw [GpioCall.Described, hphase] at hdescribed
          exact hdescribed
        · rw [heq]
          rw [GpioCall.Described, hphase] at hdescribed
          intro target htarget
          cases hdescribed.2.symm.trans htarget
        · rw [heq]
          exact hdescribed
      · rw [hopen] at hclosed
        cases hclosed
      · intro children hclosing
        rcases call.cancelled_cases with ⟨_, _, _, heq⟩ | ⟨_, _, heq⟩ | ⟨heq, _⟩ <;> rw [heq] at hclosing
        · cases hclosing
        · cases hclosing
        · exact hclosing
      · rintro c job ⟨hwait, after, hphase⟩
        rcases call.cancelled_cases with ⟨_, _, hold, heq⟩ | ⟨_, _, heq⟩ | ⟨heq, _⟩ <;> rw [heq] at hphase
        · cases hphase
          exact ⟨hwait, _, hold⟩
        · cases hphase
        · exact ⟨hwait, after, hphase⟩
      · intro j other hne hj hpending
        rw [h.hooked j other line hj hpending] at hhook
        exact absurd (Option.some.inj hhook) hne
      · intro c child _ _ hw
        rcases call.cancelled_cases with ⟨_, _, hold, heq⟩ | ⟨_, hold, heq⟩ | ⟨heq, _⟩ <;> rw [heq]
        · rw [hold] at hw
          exact .inl hw
        · rw [hold] at hw
          exact absurd hw id
        · exact .inl hw
  · exact h

theorem Sound.not_pending_cancel (h : b.Sound) (line : Nat) :
    ∀ call ∈ (b.cancel line).calls, ¬ call.phase.pending line := by
  intro call hcall hpending
  obtain ⟨j, hj⟩ := List.getElem?_of_mem hcall
  rw [LibgpiodBackend.cancel] at hj
  split at hj
  · next t hhook =>
    rcases getElem?_modify_eq_some hj with ⟨hne, hold⟩ | ⟨-, q, -, rfl⟩
    · rw [h.hooked j call line hold hpending] at hhook
      exact hne (Option.some.inj hhook).symm
    · exact q.not_pending_cancelled line hpending
  · next hhook =>
    rw [h.hooked j call line hj hpending] at hhook
    cases hhook

/-! ## A call begins, works on a line and ends -/

/-- A call that is under way, other than `close`, is one of an open backend. -/
theorem Sound.closed_eq_false (h : b.Sound) (ht : b.calls[t]? = some call) (hover : call.phase.isOver = false) :
    b.closed = false := by
  refine Bool.eq_false_iff.mpr fun hclosed => ?_
  rw [(h.stopped hclosed).1 call (List.mem_of_getElem? ht)] at hover
  cases hover

theorem Sound.begin (h : b.Sound) (hopen : b.closed = false) {action : CallAction} (haction : action ≠ .close)
    (hsingle : action = .safeState none → ∀ call ∈ b.calls, call.action = .safeState none → call.phase.isSettled) :
    (b.begin action).Sound := by
  have hcases : ∀ {j : Nat} {other}, (b.begin action).calls[j]? = some other →
      b.calls[j]? = some other ∨ j = b.calls.length ∧ other = { action, phase := .running } :=
    fun hj => getElem?_append_singleton_eq_some hj
  refine
    { exclusive := h.exclusive, noticed := h.noticed, recorded := h.recorded, starting := ?_, started := ?_
      hooked := ?_, tracked := ?_, described := ?_, stopped := ?_, closing := ?_, unclosed := ?_, single := ?_ }
  · intro j other job c hj hjob
    rcases hcases hj with hj | ⟨-, rfl⟩
    · exact h.starting j other job c hj hjob
    · obtain ⟨-, _, hphase⟩ := hjob
      cases hphase
  · intro j j' other other' job job' c hj hj' hjob hjob'
    rcases hcases hj with hj | ⟨-, rfl⟩
    · rcases hcases hj' with hj' | ⟨-, rfl⟩
      · exact h.started j j' other other' job job' c hj hj' hjob hjob'
      · obtain ⟨-, _, hphase⟩ := hjob'
        cases hphase
    · obtain ⟨-, _, hphase⟩ := hjob
      cases hphase
  · intro j other l hj hl
    rcases hcases hj with hj | ⟨-, rfl⟩
    · exact h.hooked j other l hj hl
    · exact absurd hl id
  · intro c child hc halive
    refine (h.tracked c child hc halive).imp_right ?_
    rintro ⟨other, hother, hw⟩
    exact ⟨other, List.mem_append_left _ hother, hw⟩
  · intro other hother
    rcases List.mem_append.mp hother with hother | hother
    · exact h.described other hother
    · obtain rfl := List.mem_singleton.mp hother
      trivial
  · intro hclosed
    rw [LibgpiodBackend.begin] at hclosed
    rw [hopen] at hclosed
    cases hclosed
  · intro j other children hj hphase
    rcases hcases hj with hj | ⟨-, rfl⟩
    · have hclose := h.described other (List.mem_of_getElem? hj)
      rw [GpioCall.Described, hphase] at hclose
      rw [h.unclosed other (List.mem_of_getElem? hj) hclose] at hopen
      cases hopen
    · cases hphase
  · intro other hother hclose
    rcases List.mem_append.mp hother with hother | hother
    · exact h.unclosed other hother hclose
    · obtain rfl := List.mem_singleton.mp hother
      exact absurd hclose haction
  · intro j j' other other' hj hj' hlt hfull hfull'
    rcases hcases hj with hj | ⟨rfl, rfl⟩
    · rcases hcases hj' with hj' | ⟨-, rfl⟩
      · exact h.single j j' other other' hj hj' hlt hfull hfull'
      · exact hsingle hfull' other (List.mem_of_getElem? hj) hfull
    · have hbound := (List.getElem?_eq_some_iff.mp hj').1
      rw [LibgpiodBackend.begin, List.length_append, List.length_singleton] at hbound
      omega

theorem getElem?_begin (b : LibgpiodBackend) (action : CallAction) :
    (b.begin action).calls[b.calls.length]? = some { action, phase := .running } :=
  List.getElem?_concat_length

def Free (call : GpioCall) : Prop := call.phase.isOver = false ∧ ∀ c, ¬ call.phase.watches c

/-- What a call becomes when it starts to work on a line. -/
def atWork (call : GpioCall) (line : Nat) (goal : Option Bool) (child : Option Nat) (after : AfterJob) : GpioCall :=
  { call with
    phase := .working ⟨line, goal, .releasing child⟩ after
    attempted := call.attempted ++ attempts line after }

/-- A call starts to work on a line, with nothing released. -/
theorem Sound.startJob (h : b.Sound) (ht : b.calls[t]? = some call) (hfree : Free call) {goal : Option Bool}
    {after : AfterJob} (hdescribed : (atWork call line goal none after).Described b.config)
    (hpulse : after = .pulseStart false → b.cancelPulse line = some t) :
    (b.startJob t line goal none after).Sound := by
  refine h.setCall ht rfl hdescribed (fun hclosed => ?_) (fun _ hphase => by cases hphase)
    (fun hsettled => ?_) ?_ ?_ fun c _ _ _ hw => absurd hw (hfree.2 c)
  · rw [h.closed_eq_false ht hfree.1] at hclosed
    cases hclosed
  · rw [CallPhase.isSettled_eq_false hfree.1] at hsettled
    cases hsettled
  · rintro c job ⟨hwait, after', hphase⟩
    cases hphase
    cases hwait
  · intro l hl
    unfold CallPhase.pending at hl
    split at hl
    · next hphase => cases hphase
    · next hphase =>
      cases hphase
      exact hl ▸ hpulse rfl
    · exact absurd hl id

theorem Sound.releaseHolder (h : b.Sound) (ht : b.calls[t]? = some call) (hfree : Free call) {goal : Option Bool}
    {after : AfterJob} (hdescribed : (atWork call line goal (b.holder line) after).Described b.config)
    (hpulse : after = .pulseStart false → b.cancelPulse line = some t) :
    (b.releaseHolder t line goal after).Sound := by
  have hchange := h.change line (x := none) (y := b.cancelPulse line)
    (f := fun call => atWork call line goal (b.holder line) after) ht rfl hdescribed (fun hclosed => ?_)
    (fun _ hphase => by cases hphase) (fun hsettled => ?_) ?_ nofun nofun ?_ ?_
    (fun c _ _ _ hw => absurd hw (hfree.2 c)) ?_
  · rw [Function.update_eq_self] at hchange
    exact hchange
  · rw [h.closed_eq_false ht hfree.1] at hclosed
    cases hclosed
  · rw [CallPhase.isSettled_eq_false hfree.1] at hsettled
    cases hsettled
  · rintro c job ⟨hwait, after', hphase⟩
    cases hphase
    cases hwait
  · intro l hl
    rw [Function.update_eq_self]
    unfold CallPhase.pending at hl
    split at hl
    · next hphase => cases hphase
    · next hphase =>
      cases hphase
      exact hl ▸ hpulse rfl
    · exact absurd hl id
  · exact fun j other _ hj hp => h.hooked j other line hj hp
  · exact fun c _ _ _ hc => .inr (.inl (congrArg LineWait.releasing hc))

/-- `applySafeLevel`, for a call that goes on when the line has its safe level. -/
theorem Sound.applySafeLevel (h : b.Sound) (ht : b.calls[t]? = some call) (hfree : Free call) {after : AfterJob}
    (hdescribed : ∀ goal child, (∀ raw, safeRawAt b.config line = some raw → goal = some raw) →
      (atWork call line goal child after).Described b.config)
    (hafter : after ≠ .pulseStart false) : (b.applySafeLevel t line after).Sound := by
  have hpulse : after = .pulseStart false → b.cancelPulse line = some t := fun heq => absurd heq hafter
  rw [LibgpiodBackend.applySafeLevel]
  split
  · next config hconfig =>
    have hraw : safeRawAt b.config line = config.safeRaw := by rw [safeRawAt, hconfig, Option.bind_some]
    rw [hraw, ValidatedLibgpiodLine.safeRaw] at hdescribed
    split
    · next hinput =>
      rw [if_pos hinput] at hdescribed
      exact h.startJob ht hfree (hdescribed none none nofun) hpulse
    · next hinput =>
      rw [if_neg hinput] at hdescribed
      split
      · next hlevel =>
        rw [hlevel] at hdescribed
        exact h.releaseHolder ht hfree (hdescribed none _ nofun) hpulse
      · next hlevel =>
        rw [hlevel] at hdescribed
        exact h.startJob ht hfree (hdescribed none none nofun) hpulse
      · next hlevel =>
        rw [hlevel] at hdescribed
        exact h.releaseHolder ht hfree (hdescribed (some true) _ fun _ heq => heq) hpulse
      · next hlevel =>
        rw [hlevel] at hdescribed
        exact h.releaseHolder ht hfree (hdescribed (some false) _ fun _ heq => heq) hpulse
  · next hnone =>
    have hraw : safeRawAt b.config line = none := by rw [safeRawAt, hnone, Option.bind_none]
    rw [hraw] at hdescribed
    exact h.startJob ht hfree (hdescribed none none nofun) hpulse

/-! ## Children start and end -/

theorem Sound.spawn (h : b.Sound) (ht : b.calls[t]? = some call) (hover : call.phase.isOver = false) {raw : Bool}
    {phase : CallPhase} (hdescribed : ({ call with phase } : GpioCall).Described b.config)
    (hnew : phase.watches b.children.length)
    (hold : ∀ (c : Nat) child, b.children[c]? = some child → child.alive → call.phase.watches c → phase.watches c)
    (hphase : (∃ child, phase = .once child) ∨ ∃ after,
      phase = .working ⟨line, some raw, .starting b.children.length⟩ after ∧
      (after = .pulseStart false → call.phase.pending line)) :
    ((b.spawn line raw).setPhase t phase).Sound := by
  have hopen := h.closed_eq_false ht hover
  have hcases : ∀ {j : Nat} {other}, ((b.spawn line raw).setPhase t phase).calls[j]? = some other →
      (t ≠ j ∧ b.calls[j]? = some other) ∨ t = j ∧ other = { call with phase } :=
    fun hj => getElem?_modify_cases ht hj
  have hchild : ∀ {c : Nat} {child}, b.children[c]? = some child →
      ((b.spawn line raw).setPhase t phase).children[c]? = some child :=
    fun hc => getElem?_append_of_eq_some _ hc
  have hchildren : ∀ {c : Nat} {child}, ((b.spawn line raw).setPhase t phase).children[c]? = some child →
      b.children[c]? = some child ∨ c = b.children.length ∧ child = { line, raw, alive := !b.owned line } :=
    fun hc => getElem?_append_singleton_eq_some hc
  have hself : ((b.spawn line raw).setPhase t phase).calls[t]? = some { call with phase } :=
    getElem?_modify_self _ ht
  -- a line with a living child is owned
  have howned : ∀ {c : Nat} {child}, b.children[c]? = some child → child.alive → child.line = line →
      b.owned line = true := by
    intro c child hc halive hline
    refine List.any_eq_true.mpr ⟨child, List.mem_of_getElem? hc, ?_⟩
    rw [halive, hline]
    exact Bool.and_eq_true_iff.mpr ⟨rfl, decide_eq_true rfl⟩
  have hstarts : ∀ c job, phase.starts c job → c = b.children.length ∧ job.line = line ∧ job.goal = some raw := by
    rintro c job ⟨hwait, after, heq⟩
    rcases hphase with ⟨_, rfl⟩ | ⟨_, rfl, _⟩
    · cases heq
    · cases heq
      cases hwait
      exact ⟨rfl, rfl, rfl⟩
  refine
    { exclusive := ?_, noticed := ?_, recorded := ?_, starting := ?_, started := ?_, hooked := ?_
      tracked := ?_, described := ?_, stopped := ?_, closing := ?_, unclosed := ?_, single := ?_ }
  · intro c c' child child' hc hc' halive halive' hline
    rcases hchildren hc with hc | ⟨rfl, rfl⟩
    · rcases hchildren hc' with hc' | ⟨rfl, rfl⟩
      · exact h.exclusive c c' child child' hc hc' halive halive' hline
      · dsimp only at halive' hline
        rw [howned hc halive hline] at halive'
        cases halive'
    · rcases hchildren hc' with hc' | ⟨rfl, rfl⟩
      · dsimp only at halive hline
        rw [howned hc' halive' hline.symm] at halive
        cases halive
      · rfl
  · intro child hmem hnoticed
    rcases List.mem_append.mp hmem with hmem | hmem
    · exact h.noticed child hmem hnoticed
    · obtain rfl := List.mem_singleton.mp hmem
      cases hnoticed
  · intro l c hl
    obtain ⟨hlt, child, hc, hline⟩ := h.recorded l c hl
    exact ⟨hlt, child, hchild hc, hline⟩
  · intro j other job c hj hjob
    rcases hcases hj with ⟨-, hj⟩ | ⟨-, rfl⟩
    · obtain ⟨⟨child, hc, hline, hgoal⟩, hholder⟩ := h.starting j other job c hj hjob
      exact ⟨⟨child, hchild hc, hline, hgoal⟩, hholder⟩
    · obtain ⟨rfl, hline, hgoal⟩ := hstarts c job hjob
      refine ⟨⟨_, List.getElem?_concat_length, hline.symm, hgoal⟩, fun hholder => ?_⟩
      obtain ⟨-, child, hc, -⟩ := h.recorded _ _ hholder
      exact absurd (List.getElem?_eq_some_iff.mp hc).1 (lt_irrefl _)
  · intro j j' other other' job job' c hj hj' hjob hjob'
    have hfresh : ∀ {k : Nat} {q job}, b.calls[k]? = some q → ¬ q.phase.starts b.children.length job := by
      intro k q job hk hq
      obtain ⟨⟨child, hc, -⟩, -⟩ := h.starting k q job _ hk hq
      exact absurd (List.getElem?_eq_some_iff.mp hc).1 (lt_irrefl _)
    rcases hcases hj with ⟨-, hj⟩ | ⟨rfl, rfl⟩ <;> rcases hcases hj' with ⟨-, hj'⟩ | ⟨rfl, rfl⟩
    · exact h.started j j' other other' job job' c hj hj' hjob hjob'
    · obtain ⟨rfl, -⟩ := hstarts c job' hjob'
      exact absurd hjob (hfresh hj)
    · obtain ⟨rfl, -⟩ := hstarts c job hjob
      exact absurd hjob' (hfresh hj')
    · rfl
  · intro j other l hj hl
    rcases hcases hj with ⟨-, hj⟩ | ⟨rfl, rfl⟩
    · exact h.hooked j other l hj hl
    · refine h.hooked t call l ht ?_
      rcases hphase with ⟨_, rfl⟩ | ⟨after, rfl, hpending⟩
      · exact absurd hl id
      · unfold CallPhase.pending at hl
        split at hl
        · next heq => cases heq
        · next heq =>
          cases heq
          exact hl ▸ hpending rfl
        · exact absurd hl id
  · intro c child hc halive
    rcases hchildren hc with hc | ⟨rfl, rfl⟩
    · refine (h.tracked c child hc halive).imp_right ?_
      rintro ⟨other, hother, hw⟩
      obtain ⟨j, hj⟩ := List.getElem?_of_mem hother
      by_cases hne : t = j
      · subst hne
        rw [ht] at hj
        obtain rfl := Option.some.inj hj
        exact ⟨_, List.mem_of_getElem? hself, hold c child hc halive hw⟩
      · exact ⟨other, List.mem_of_getElem? ((getElem?_modify_of_ne _ hne).trans hj), hw⟩
    · exact .inr ⟨_, List.mem_of_getElem? hself, hnew⟩
  · intro other hother
    obtain ⟨j, hj⟩ := List.getElem?_of_mem hother
    rcases hcases hj with ⟨-, hj⟩ | ⟨-, rfl⟩
    · exact h.described other (List.mem_of_getElem? hj)
    · exact hdescribed
  · intro hclosed
    replace hclosed : b.closed = true := hclosed
    rw [hopen] at hclosed
    cases hclosed
  · intro j other children hj heq
    rcases hcases hj with ⟨-, hj⟩ | ⟨-, rfl⟩
    · have hclose := h.described other (List.mem_of_getElem? hj)
      rw [GpioCall.Described, heq] at hclose
      rw [h.unclosed other (List.mem_of_getElem? hj) hclose] at hopen
      cases hopen
    · rcases hphase with ⟨_, rfl⟩ | ⟨_, rfl, _⟩ <;> cases heq
  · intro other hother hclose
    obtain ⟨j, hj⟩ := List.getElem?_of_mem hother
    rcases hcases hj with ⟨-, hj⟩ | ⟨-, rfl⟩
    · exact h.unclosed other (List.mem_of_getElem? hj) hclose
    · exact h.unclosed call (List.mem_of_getElem? ht) hclose
  · intro j j' other other' hj hj' hlt hfull hfull'
    rcases hcases hj with ⟨-, hj⟩ | ⟨rfl, rfl⟩ <;> rcases hcases hj' with ⟨-, hj'⟩ | ⟨rfl, rfl⟩
    · exact h.single j j' other other' hj hj' hlt hfull hfull'
    · exact h.single j t other call hj ht hlt hfull hfull'
    · have hsettled := h.single t j' call other' ht hj' hlt hfull hfull'
      rw [CallPhase.isSettled_eq_false hover] at hsettled
      cases hsettled
    · exact absurd hlt (lt_irrefl _)

/-- A child goes on record whose grace window ended while it was alive. -/
theorem Sound.record (h : b.Sound) (ht : b.calls[t]? = some call) {goal : Option Bool} {c : Nat} {after : AfterJob}
    {child : GpiosetChild} (hphase : call.phase = .working ⟨line, goal, .starting c⟩ after)
    (hc : b.children[c]? = some child) (halive : child.alive = true) {phase : CallPhase}
    (hdescribed : ({ call with phase } : GpioCall).Described b.config)
    (hkind : phase = .running ∨ phase = .settled true ∨ phase = .waitForPulse line ∧ call.phase.pending line) :
    Sound ({ b with holder := Function.update b.holder line (some c) }.setPhase t phase) := by
  have hstarts : call.phase.starts c ⟨line, goal, .starting c⟩ := ⟨rfl, after, hphase⟩
  obtain ⟨⟨child', hc', hline, hgoal⟩, hfresh⟩ := h.starting t call _ c ht hstarts
  rw [hc] at hc'
  obtain rfl := Option.some.inj hc'
  have hnot : ∀ c job, ¬ phase.starts c job := by
    rintro c' job ⟨-, after', rfl⟩
    rcases hkind with heq | heq | ⟨heq, -⟩ <;> cases heq
  have hopen := h.closed_eq_false ht (by rw [hphase]; rfl)
  have hchange := h.change line (x := some c) (y := b.cancelPulse line)
    (f := fun call => { call with phase }) ht rfl hdescribed (fun hclosed => ?_) ?_ (fun hsettled => ?_)
    (fun c' job hjob => absurd hjob (hnot c' job)) ?_ ?_ ?_ ?_ ?_ ?_
  · rw [Function.update_eq_self] at hchange
    exact hchange
  · rw [hopen] at hclosed
    cases hclosed
  · rintro children rfl
    rcases hkind with heq | heq | ⟨heq, -⟩ <;> cases heq
  · rw [hphase] at hsettled
    cases hsettled
  · rintro c' heq
    obtain rfl := Option.some.inj heq
    refine ⟨?_, child, hc, hline⟩
    have hold := h.described call (List.mem_of_getElem? ht)
    rw [GpioCall.Described, hphase] at hold
    cases after with
    | safeState rest => exact hold.1 _ List.mem_cons_self
    | write | pulseStart flag | pulseComplete => exact hold.1
  · rintro c' heq
    obtain rfl := Option.some.inj heq
    exact .inr ⟨⟨_, hstarts⟩, hnot c⟩
  · intro l hl
    rw [Function.update_eq_self]
    rcases hkind with rfl | rfl | ⟨rfl, hpending⟩
    · exact absurd hl id
    · exact absurd hl id
    · exact (show line = l from hl) ▸ h.hooked t call line ht hpending
  · exact fun j other _ hj hp => h.hooked j other line hj hp
  · intro c' child' hc' _ hw
    rw [hphase] at hw
    rcases hw with hw | hw
    · cases hw
    · obtain rfl := LineWait.starting.inj hw
      rw [hc] at hc'
      obtain rfl := Option.some.inj hc'
      exact .inr ⟨hline, rfl⟩
  · intro c' child' hc' halive' hholder
    obtain ⟨-, child'', hc'', hline'⟩ := h.recorded line c' hholder
    rw [hc'] at hc''
    obtain rfl := Option.some.inj hc''
    obtain rfl := h.exclusive c' c child' child hc' hc halive' halive (hline'.trans hline.symm)
    exact absurd hholder hfresh

theorem Sound.setPhase (h : b.Sound) (ht : b.calls[t]? = some call) (hover : call.phase.isSettled = false)
    {phase : CallPhase} (hdescribed : ({ call with phase } : GpioCall).Described b.config)
    (hwatches : ∀ (c : Nat) child, b.children[c]? = some child → child.alive → ¬ call.phase.watches c)
    (hkind : phase = .running ∧ call.phase.isOver = false ∨ ∃ resolved, phase = .settled resolved) :
    (b.setPhase t phase).Sound := by
  refine h.setCall ht rfl hdescribed (fun hclosed => ?_) ?_ (fun hsettled => ?_) ?_ ?_
    fun c child hc halive hw => absurd hw (hwatches c child hc halive)
  · rcases hkind with ⟨-, hnot⟩ | ⟨_, rfl⟩
    · rw [h.closed_eq_false ht hnot] at hclosed
      cases hclosed
    · rfl
  · rintro children rfl
    rcases hkind with ⟨heq, -⟩ | ⟨_, heq⟩ <;> cases heq
  · rw [hover] at hsettled
    cases hsettled
  · rintro c job ⟨-, after, rfl⟩
    rcases hkind with ⟨heq, -⟩ | ⟨_, heq⟩ <;> cases heq
  · intro l hl
    rcases hkind with ⟨rfl, -⟩ | ⟨_, rfl⟩ <;> exact absurd hl id

theorem Sound.not_alive (h : b.Sound) {c : Nat} {child : GpiosetChild} (hnoticed : b.isNoticed c = true)
    (hc : b.children[c]? = some child) : child.alive = false := by
  rw [isNoticed, hc, Option.any_some] at hnoticed
  exact h.noticed child (List.mem_of_getElem? hc) hnoticed

theorem Sound.died (h : b.Sound) (c : Nat) :
    Sound { b with children := b.children.modify c fun child => { child with alive := false } } := by
  have hold : ∀ {k : Nat} {child}, (b.children.modify c fun child => { child with alive := false })[k]? = some child →
      ∃ child', b.children[k]? = some child' ∧ child.line = child'.line ∧ (child.alive → child' = child) ∧
        (child.alive = false ∨ child.noticed = child'.noticed) := by
    intro k child hk
    rcases getElem?_modify_eq_some hk with ⟨-, hkept⟩ | ⟨-, child', hkept, rfl⟩
    · exact ⟨child, hkept, rfl, fun _ => rfl, .inr rfl⟩
    · exact ⟨child', hkept, rfl, nofun, .inl rfl⟩
  have hnew : ∀ {k : Nat} {child}, b.children[k]? = some child → ∃ child',
      (b.children.modify c fun child => { child with alive := false })[k]? = some child' ∧
        child'.line = child.line ∧ child'.raw = child.raw := by
    intro k child hk
    by_cases hne : c = k
    · subst hne
      exact ⟨_, getElem?_modify_self _ hk, rfl, rfl⟩
    · exact ⟨child, (getElem?_modify_of_ne _ hne).trans hk, rfl, rfl⟩
  refine { h with exclusive := ?_, noticed := ?_, recorded := ?_, starting := ?_, tracked := ?_ }
  · intro k k' child child' hk hk' halive halive' hline
    obtain ⟨q, hq, -, heq, -⟩ := hold hk
    obtain ⟨q', hq', -, heq', -⟩ := hold hk'
    obtain rfl := heq halive
    obtain rfl := heq' halive'
    exact h.exclusive k k' q q' hq hq' halive halive' hline
  · intro child hmem hnoticed
    obtain ⟨k, hk⟩ := List.getElem?_of_mem hmem
    obtain ⟨q, hq, -, heq, hdead | hsame⟩ := hold hk
    · exact hdead
    · refine Bool.eq_false_iff.mpr fun halive => ?_
      obtain rfl := heq halive
      rw [h.noticed q (List.mem_of_getElem? hq) hnoticed] at halive
      cases halive
  · intro l k hl
    obtain ⟨hlt, child, hk, hline⟩ := h.recorded l k hl
    obtain ⟨child', hk', hline', -⟩ := hnew hk
    exact ⟨hlt, child', hk', hline'.trans hline⟩
  · intro j other job k hj hjob
    obtain ⟨⟨child, hk, hline, hgoal⟩, hholder⟩ := h.starting j other job k hj hjob
    obtain ⟨child', hk', hline', hraw⟩ := hnew hk
    exact ⟨⟨child', hk', hline'.trans hline, hgoal.trans (congrArg some hraw.symm)⟩, hholder⟩
  · intro k child hk halive
    obtain ⟨q, hq, -, heq, -⟩ := hold hk
    obtain rfl := heq halive
    exact h.tracked k q hq halive

theorem Sound.hear (h : b.Sound) {c : Nat} {child : GpiosetChild} (hc : b.children[c]? = some child)
    (hdead : child.alive = false) :
    Sound { b with
      children := b.children.modify c fun child => { child with noticed := true }
      holder := if b.holder child.line = some c then Function.update b.holder child.line none else b.holder } := by
  have hold : ∀ {k : Nat} {q}, (b.children.modify c fun child => { child with noticed := true })[k]? = some q →
      ∃ q', b.children[k]? = some q' ∧ q.line = q'.line ∧ q.alive = q'.alive ∧ (k = c ∨ q = q') := by
    intro k q hk
    rcases getElem?_modify_eq_some hk with ⟨-, hkept⟩ | ⟨rfl, q', hkept, rfl⟩
    · exact ⟨q, hkept, rfl, rfl, .inr rfl⟩
    · exact ⟨q', hkept, rfl, rfl, .inl rfl⟩
  have hnew : ∀ {k : Nat} {q}, b.children[k]? = some q → ∃ q',
      (b.children.modify c fun child => { child with noticed := true })[k]? = some q' ∧ q'.line = q.line ∧
        q'.raw = q.raw := by
    intro k q hk
    by_cases hne : c = k
    · subst hne
      exact ⟨_, getElem?_modify_self _ hk, rfl, rfl⟩
    · exact ⟨q, (getElem?_modify_of_ne _ hne).trans hk, rfl, rfl⟩
  -- a holder that is left was one before, and is another child
  have hholder : ∀ {l k : Nat}, (if b.holder child.line = some c then Function.update b.holder child.line none
      else b.holder) l = some k → b.holder l = some k := by
    intro l k hl
    split at hl
    · by_cases heq : l = child.line
      · rw [heq, Function.update_self] at hl
        cases hl
      · rwa [Function.update_of_ne heq] at hl
    · exact hl
  refine { h with exclusive := ?_, noticed := ?_, recorded := ?_, starting := ?_, tracked := ?_, stopped := ?_ }
  · intro k k' q q' hk hk' halive halive' hline
    obtain ⟨p, hp, hpl, hpa, -⟩ := hold hk
    obtain ⟨p', hp', hpl', hpa', -⟩ := hold hk'
    exact h.exclusive k k' p p' hp hp' (hpa ▸ halive) (hpa' ▸ halive') (hpl.symm.trans (hline.trans hpl'))
  · intro q hmem hnoticed
    obtain ⟨k, hk⟩ := List.getElem?_of_mem hmem
    obtain ⟨p, hp, -, hpa, rfl | rfl⟩ := hold hk
    · rw [hc] at hp
      obtain rfl := Option.some.inj hp
      exact hpa.trans hdead
    · exact h.noticed q (List.mem_of_getElem? hp) hnoticed
  · intro l k hl
    obtain ⟨hlt, q, hk, hline⟩ := h.recorded l k (hholder hl)
    obtain ⟨q', hk', hline', -⟩ := hnew hk
    exact ⟨hlt, q', hk', hline'.trans hline⟩
  · intro j other job k hj hjob
    obtain ⟨⟨q, hk, hline, hgoal⟩, hnot⟩ := h.starting j other job k hj hjob
    obtain ⟨q', hk', hline', hraw⟩ := hnew hk
    exact ⟨⟨q', hk', hline'.trans hline, hgoal.trans (congrArg some hraw.symm)⟩, fun hl => hnot (hholder hl)⟩
  · intro k q hk halive
    obtain ⟨p, hp, hline, hpa, -⟩ := hold hk
    rw [hpa] at halive
    rw [hline]
    refine (h.tracked k p hp halive).imp_left fun hheld => ?_
    -- the child that was noticed is dead, so another one is on record
    have hne : k ≠ c := by
      rintro rfl
      rw [hc] at hp
      obtain rfl := Option.some.inj hp
      rw [hdead] at halive
      cases halive
    dsimp only
    split
    · next hrecorded =>
      by_cases heq : p.line = child.line
      · rw [heq, hrecorded] at hheld
        exact absurd (Option.some.inj hheld).symm hne
      · rw [Function.update_of_ne heq]
        exact hheld
    · exact hheld
  · intro hclosed
    obtain ⟨hover, hnone⟩ := h.stopped hclosed
    refine ⟨hover, fun l => ?_⟩
    cases hl : (if b.holder child.line = some c then Function.update b.holder child.line none else b.holder) l with
    | none => exact hl
    | some k =>
      have hheld := hholder hl
      rw [hnone l] at hheld
      cases hheld

end LibgpiodBackend

end Pinout.Libgpiod
