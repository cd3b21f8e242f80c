import Mathlib.Logic.Relation
import Pinout.PanTilt.Types

/-! # Overlapping calls

`setAngle` and `setAngles` of `Esp32PanTiltBackend` (`packages/core/src/modules/panTilt/esp32Backend.ts`) while others
are under way: a call takes both angles from the record, drives one servo after the other, and writes the record when
both are answered. As long as no call starts over what another one leaves to do (`Steady`), an axis stands where the
last call that names it has put it (`undisturbed_of_steady`). -/

namespace Pinout.PanTilt

open Foundation

def PanTiltAxisAngles.angle (angles : PanTiltAxisAngles) : PanTiltAxisName → Option ℚ
  | .pan => some angles.pan
  | .tilt => angles.tilt

/-! ## Calls -/

inductive AngleCall
  | setAngles (payload : AnglesPayload)
  | setAngle (payload : AnglesPayload)

namespace AngleCall

/-- The angles a call drives, from those that are shown. -/
def resolve (config : ValidatedPanTiltConfig) (shown : PanTiltAxisAngles) :
    AngleCall → Except PanTiltError PanTiltAxisAngles
  | setAngles payload => resolveAngles config shown payload
  | setAngle payload => (resolveAngle config shown payload).map (·.2.2)

def names : AngleCall → PanTiltAxisName → Bool
  | setAngles payload, .pan => payload.pan.given
  | setAngles payload, .tilt => payload.tilt.given
  | setAngle payload, axis => decide (resolveAxis payload.axis = .ok axis)

end AngleCall

section Resolve

variable {config : ValidatedPanTiltConfig} {shown angles : PanTiltAxisAngles} {call : AngleCall}

theorem AngleCall.resolve_within (h : Within config shown) (hresolve : call.resolve config shown = .ok angles) :
    Within config angles := by
  cases call with
  | setAngles payload => exact resolveAngles_within h hresolve
  | setAngle payload =>
    cases hpayload : resolveAngle config shown payload with
    | error error => simp [resolve, hpayload, Except.map] at hresolve
    | ok resolved =>
      obtain rfl : resolved.2.2 = angles := by simpa [resolve, hpayload, Except.map] using hresolve
      have hparts : resolveAngle config shown payload = .ok (resolved.1, resolved.2.1, resolved.2.2) := hpayload
      exact resolveAngle_within h hparts

theorem nextPan_tilt {value : JsValue} (h : nextPan config shown value = .ok angles) : angles.tilt = shown.tilt := by
  obtain ⟨pan, -, h⟩ := exists_of_bind_eq_ok h
  exact Except.ok.inj h ▸ rfl

theorem nextTilt_pan {value : JsValue} (h : nextTilt config shown value = .ok angles) : angles.pan = shown.pan := by
  unfold nextTilt at h
  split at h
  · cases h
  · obtain ⟨tilt, -, h⟩ := exists_of_bind_eq_ok h
    exact Except.ok.inj h ▸ rfl

/-- An axis that a call does not name keeps the angle that is shown. -/
theorem AngleCall.resolve_unnamed (hresolve : call.resolve config shown = .ok angles) {axis : PanTiltAxisName}
    (hnames : call.names axis = false) : angles.angle axis = shown.angle axis := by
  cases call with
  | setAngles payload =>
    simp only [resolve, resolveAngles] at hresolve
    split at hresolve
    · cases hresolve
    · obtain ⟨mid, hmid, hlast⟩ := exists_of_bind_eq_ok hresolve
      cases axis with
      | pan =>
        have hgiven : payload.pan.given = false := hnames
        obtain rfl : shown = mid := by simpa [hgiven] using hmid
        split at hlast
        · exact congrArg some (nextTilt_pan hlast)
        · exact Except.ok.inj hlast ▸ rfl
      | tilt =>
        have hgiven : payload.tilt.given = false := hnames
        obtain rfl : mid = angles := by simpa [hgiven] using hlast
        split at hmid
        · exact nextPan_tilt hmid
        · exact Except.ok.inj hmid ▸ rfl
  | setAngle payload =>
    cases hpayload : resolveAngle config shown payload with
    | error error => simp [resolve, hpayload, Except.map] at hresolve
    | ok resolved =>
      obtain rfl : resolved.2.2 = angles := by simpa [resolve, hpayload, Except.map] using hresolve
      obtain ⟨named, hnamed, hrest⟩ := exists_of_bind_eq_ok hpayload
      have hne : named ≠ axis := by
        rintro rfl
        simp [names, hnamed] at hnames
      split at hrest
      · cases hrest
      · obtain ⟨last, hlast, hrest⟩ := exists_of_bind_eq_ok hrest
        obtain rfl := Except.ok.inj hrest
        cases named <;> cases axis
        · exact absurd rfl hne
        · exact nextPan_tilt hlast
        · exact congrArg some (nextTilt_pan hlast)
        · exact absurd rfl hne

end Resolve

/-! ## Runs -/

inductive RequestState
  | unsent
  | sent
  | executed
  | dropped
  deriving DecidableEq

inductive Phase
  | driving (axis : PanTiltAxisName)
  | succeeded
  | failed
  deriving DecidableEq

structure Call where
  names : PanTiltAxisName → Bool
  angles : PanTiltAxisAngles
  phase : Phase
  requests : PanTiltAxisName → RequestState

/-- A `gpio.servo` request that was executed. -/
structure Executed where
  call : ℕ
  axis : PanTiltAxisName
  named : Bool
  before : Option ℚ
  angle : ℚ

structure Overlap where
  record : PanTiltAxisAngles
  calls : ℕ → Option Call
  servos : PanTiltAxisName → Option ℚ
  log : List Executed

inductive Action
  | start (id : ℕ) (call : AngleCall)
  | execute (id : ℕ) (axis : PanTiltAxisName)
  | drop (id : ℕ) (axis : PanTiltAxisName)
  | succeed (id : ℕ)
  | fail (id : ℕ)

namespace Call

def begin (names : PanTiltAxisName → Bool) (angles : PanTiltAxisAngles) : Call :=
  ⟨names, angles, .driving .pan, fun axis => if axis = .pan then .sent else .unsent⟩

def request (c : Call) (axis : PanTiltAxisName) (state : RequestState) : Call :=
  { c with requests := Function.update c.requests axis state }

/-- A request of the call may still be executed. -/
def Pending (c : Call) (axis : PanTiltAxisName) : Prop :=
  c.requests axis = .sent ∨ c.requests axis = .unsent ∧ c.phase = .driving .pan

end Call

namespace Overlap

def setCall (s : Overlap) (id : ℕ) (c : Call) : Overlap := { s with calls := Function.update s.calls id (some c) }

theorem calls_setCall (s : Overlap) {id m : ℕ} {c d : Call} (h : (s.setCall id c).calls m = some d) :
    m = id ∧ c = d ∨ s.calls m = some d := by
  by_cases hm : m = id
  · exact .inl ⟨hm, by simpa [setCall, hm] using h⟩
  · exact .inr (by simpa [setCall, hm] using h)

def execute (s : Overlap) (id : ℕ) (c : Call) (axis : PanTiltAxisName) (angle : ℚ) : Overlap :=
  { s.setCall id (c.request axis .executed) with
    servos := Function.update s.servos axis (some angle)
    log := ⟨id, axis, c.names axis, s.servos axis, angle⟩ :: s.log }

end Overlap

section Runs

variable (config : ValidatedPanTiltConfig)

/-- A step of the host or the device: `commitAnglesOnDevice` with `driveServoAngles`, await after await. -/
inductive Step : Overlap → Action → Overlap → Prop
  | start {s : Overlap} {id : ℕ} {call : AngleCall} {angles : PanTiltAxisAngles} (fresh : s.calls id = none)
      (resolved : call.resolve config s.record = .ok angles) :
      Step s (.start id call) (s.setCall id (.begin call.names angles))
  | execute {s : Overlap} {id : ℕ} {c : Call} {axis : PanTiltAxisName} {angle : ℚ} (hc : s.calls id = some c)
      (sent : c.requests axis = .sent) (hangle : c.angles.angle axis = some angle) :
      Step s (.execute id axis) (s.execute id c axis angle)
  | drop {s : Overlap} {id : ℕ} {c : Call} {axis : PanTiltAxisName} (hc : s.calls id = some c)
      (sent : c.requests axis = .sent) : Step s (.drop id axis) (s.setCall id (c.request axis .dropped))
  | next {s : Overlap} {id : ℕ} {c : Call} (hc : s.calls id = some c) (phase : c.phase = .driving .pan)
      (done : c.requests .pan = .executed) (tilt : config.tilt.isSome) :
      Step s (.succeed id) (s.setCall id { c.request .tilt .sent with phase := .driving .tilt })
  | succeed {s : Overlap} {id : ℕ} {c : Call} {axis : PanTiltAxisName} (hc : s.calls id = some c)
      (phase : c.phase = .driving axis) (done : c.requests axis = .executed)
      (last : axis = .tilt ∨ config.tilt = none) :
      Step s (.succeed id) { s.setCall id { c with phase := .succeeded } with record := c.angles }
  | fail {s : Overlap} {id : ℕ} {c : Call} {axis : PanTiltAxisName} (hc : s.calls id = some c)
      (phase : c.phase = .driving axis) : Step s (.fail id) (s.setCall id { c with phase := .failed })

/-- The state of a backend that is created, with its servos anywhere. -/
def Overlap.initial (servos : PanTiltAxisName → Option ℚ) : Overlap :=
  ⟨config.safeAngles, fun _ => none, servos, []⟩

/-- What one call must not do to another's axis. -/
structure Undisturbed (s : Overlap) : Prop where
  within : ∀ id c, s.calls id = some c → Within config c.angles
  kept : ∀ e ∈ s.log, e.named = false → e.before = some e.angle
  /-- When all calls have settled, an axis stands at the angle of the successful call naming it whose request was
  executed last. -/
  settled : (∀ id c, s.calls id = some c → c.phase = .succeeded ∨ c.phase = .failed) →
    ∀ later e earlier, s.log = later ++ e :: earlier →
      (e.named ∧ ∃ c, s.calls e.call = some c ∧ c.phase = .succeeded) →
      (∀ l ∈ later, l.axis = e.axis → l.named → ∀ c, s.calls l.call = some c → c.phase ≠ .succeeded) →
      s.servos e.axis = some e.angle

/-- A call starts only when those with requests to come for an axis name it as this one does, and an axis it does not
name stands where the record says; and a call fails only before a request for an axis it names is executed, with none
on its way. -/
def Steady (s : Overlap) : Action → Prop
  | .start _ call => ∀ axis, (∀ id c, s.calls id = some c → c.Pending axis → c.names axis = call.names axis) ∧
      (call.names axis = false → s.servos axis = s.record.angle axis)
  | .fail id => ∀ c, s.calls id = some c → ∀ axis, c.requests axis ≠ .sent ∧
      (c.names axis = true → c.requests axis ≠ .executed)
  | _ => True

def SteadyStep (s t : Overlap) : Prop := ∃ action, Steady s action ∧ Step config s action t

/-! ## Steady runs -/

structure Kept (s : Overlap) : Prop where
  record : Within config s.record
  within : ∀ id c, s.calls id = some c → Within config c.angles
  agree : ∀ m n c d axis, s.calls m = some c → s.calls n = some d → c.Pending axis → d.Pending axis →
    c.names axis = d.names axis
  still : ∀ id c axis, s.calls id = some c → c.Pending axis → c.names axis = false →
    s.servos axis = c.angles.angle axis
  kept : ∀ e ∈ s.log, e.named = false → e.before = some e.angle
  stands : ∀ later e earlier, s.log = later ++ e :: earlier → e.named = true →
    (∀ l ∈ later, l.axis = e.axis → l.named = false) → s.servos e.axis = some e.angle
  unsent : ∀ id c, s.calls id = some c → c.phase = .driving .pan → c.requests .tilt = .unsent
  failed : ∀ id c axis, s.calls id = some c → c.phase = .failed → c.requests axis ≠ .sent
  entries : ∀ e ∈ s.log, e.named = true →
    ∃ c, s.calls e.call = some c ∧ c.names e.axis = true ∧ c.requests e.axis = .executed ∧ c.phase ≠ .failed

variable {config}

theorem Kept.setCall {s : Overlap} (h : Kept config s) {id : ℕ} {c c' : Call} (hc : s.calls id = some c)
    (hnames : c'.names = c.names) (hangles : c'.angles = c.angles) (hpending : ∀ axis, c'.Pending axis → c.Pending axis)
    (hunsent : c'.phase = .driving .pan → c'.requests .tilt = .unsent)
    (hfailed : c'.phase = .failed → ∀ axis, c'.requests axis ≠ .sent)
    (hexecuted : ∀ axis, c.names axis = true → c.requests axis = .executed → c.phase ≠ .failed →
      c'.requests axis = .executed ∧ c'.phase ≠ .failed) : Kept config (s.setCall id c') := by
  have own : ∀ m d, (s.setCall id c').calls m = some d → m = id ∧ c' = d ∨ s.calls m = some d :=
    fun m d => s.calls_setCall
  have calls : ∀ m d, (s.setCall id c').calls m = some d → ∃ d₀, s.calls m = some d₀ ∧ d.names = d₀.names ∧
      d.angles = d₀.angles ∧ (∀ axis, d.Pending axis → d₀.Pending axis) := by
    intro m d hd
    obtain ⟨rfl, rfl⟩ | hd := own m d hd
    · exact ⟨c, hc, hnames, hangles, hpending⟩
    · exact ⟨d, hd, rfl, rfl, fun _ hp => hp⟩
  refine ⟨h.record, ?_, ?_, ?_, h.kept, h.stands, ?_, ?_, ?_⟩
  · intro m d hd
    obtain ⟨d₀, hd₀, -, hangles, -⟩ := calls m d hd
    exact hangles ▸ h.within m d₀ hd₀
  · intro m n d e axis hd he hpd hpe
    obtain ⟨d₀, hd₀, hdn, -, hdp⟩ := calls m d hd
    obtain ⟨e₀, he₀, hen, -, hep⟩ := calls n e he
    rw [hdn, hen]
    exact h.agree m n d₀ e₀ axis hd₀ he₀ (hdp axis hpd) (hep axis hpe)
  · intro m d axis hd hpd hnamed
    obtain ⟨d₀, hd₀, hdn, hda, hdp⟩ := calls m d hd
    rw [hda]
    exact h.still m d₀ axis hd₀ (hdp axis hpd) (hdn ▸ hnamed)
  · intro m d hd hphase
    obtain ⟨rfl, rfl⟩ | hd := own m d hd
    · exact hunsent hphase
    · exact h.unsent m d hd hphase
  · intro m d axis hd hphase
    obtain ⟨rfl, rfl⟩ | hd := own m d hd
    · exact hfailed hphase axis
    · exact h.failed m d axis hd hphase
  · intro e he hnamed
    obtain ⟨d, hd, hdn, hdx, hdp⟩ := h.entries e he hnamed
    by_cases hm : e.call = id
    · obtain rfl : c = d := Option.some.inj (hc.symm.trans (hm ▸ hd))
      obtain ⟨hx, hp⟩ := hexecuted e.axis hdn hdx hdp
      exact ⟨c', by simp [Overlap.setCall, hm], hnames ▸ hdn, hx, hp⟩
    · exact ⟨d, by simpa [Overlap.setCall, hm] using hd, hdn, hdx, hdp⟩

theorem Kept.start {s : Overlap} (h : Kept config s) {id : ℕ} {call : AngleCall} {angles : PanTiltAxisAngles}
    (fresh : s.calls id = none) (resolved : call.resolve config s.record = .ok angles)
    (steady : Steady s (.start id call)) : Kept config (s.setCall id (.begin call.names angles)) := by
  have calls : ∀ m d, (s.setCall id (.begin call.names angles)).calls m = some d →
      d = .begin call.names angles ∨ s.calls m = some d :=
    fun m d hd => (s.calls_setCall hd).imp_left fun own => own.2.symm
  refine ⟨h.record, ?_, ?_, ?_, h.kept, h.stands, ?_, ?_, ?_⟩
  · intro m d hd
    obtain rfl | hd := calls m d hd
    · exact AngleCall.resolve_within h.record resolved
    · exact h.within m d hd
  · intro m n d e axis hd he hpd hpe
    obtain rfl | hd := calls m d hd <;> obtain rfl | he := calls n e he
    · rfl
    · exact ((steady axis).1 n e he hpe).symm
    · exact (steady axis).1 m d hd hpd
    · exact h.agree m n d e axis hd he hpd hpe
  · intro m d axis hd hpd hnamed
    obtain rfl | hd := calls m d hd
    · exact ((steady axis).2 hnamed).trans (AngleCall.resolve_unnamed resolved hnamed).symm
    · exact h.still m d axis hd hpd hnamed
  · intro m d hd hphase
    obtain rfl | hd := calls m d hd
    · rfl
    · exact h.unsent m d hd hphase
  · intro m d axis hd hphase
    obtain rfl | hd := calls m d hd
    · cases hphase
    · exact h.failed m d axis hd hphase
  · intro e he hnamed
    obtain ⟨d, hd, hrest⟩ := h.entries e he hnamed
    have hne : e.call ≠ id := fun heq => by simp [← heq, hd] at fresh
    exact ⟨d, by simpa [Overlap.setCall, hne] using hd, hrest⟩

theorem Kept.request {s : Overlap} (h : Kept config s) {id : ℕ} {c : Call} {axis : PanTiltAxisName}
    (hc : s.calls id = some c) (sent : c.requests axis = .sent) (state : RequestState) :
    Kept config (s.setCall id (c.request axis state)) := by
  have other : ∀ a, a ≠ axis → (c.request axis state).requests a = c.requests a := fun a ha => by
    simp [Call.request, ha]
  refine h.setCall hc rfl rfl ?_ ?_ ?_ ?_
  · intro a hp
    by_cases ha : a = axis
    · exact .inl (ha ▸ sent)
    · unfold Call.Pending at hp
      rwa [other a ha] at hp
  · intro hphase
    have hunsent := h.unsent id c hc hphase
    have hne : PanTiltAxisName.tilt ≠ axis := by
      rintro rfl
      simp [sent] at hunsent
    exact (other .tilt hne).trans hunsent
  · exact fun hphase => absurd sent (h.failed id c axis hc hphase)
  · intro a _ hx hphase
    have ha : a ≠ axis := by
      rintro rfl
      simp [sent] at hx
    exact ⟨(other a ha).trans hx, hphase⟩

theorem Kept.execute {s : Overlap} (h : Kept config s) {id : ℕ} {c : Call} {axis : PanTiltAxisName} {angle : ℚ}
    (hc : s.calls id = some c) (sent : c.requests axis = .sent) (hangle : c.angles.angle axis = some angle) :
    Kept config (s.execute id c axis angle) := by
  have gone := h.request hc sent .executed
  have unnamed : c.names axis = false → s.servos axis = some angle := fun hnamed =>
    (h.still id c axis hc (.inl sent) hnamed).trans hangle
  refine ⟨gone.record, gone.within, gone.agree, ?_, ?_, ?_, gone.unsent, gone.failed, ?_⟩
  · intro m d a hd hpd hnamed
    have before : s.servos a = d.angles.angle a := gone.still m d a hd hpd hnamed
    by_cases ha : a = axis
    · -- another request for the axis is left, of a call that does not name it either
      subst ha
      have hne : m ≠ id := by
        rintro rfl
        obtain rfl : c.request a .executed = d := by simpa [Overlap.execute, Overlap.setCall] using hd
        simp [Call.Pending, Call.request] at hpd
      have hd' : s.calls m = some d := by simpa [Overlap.execute, Overlap.setCall, hne] using hd
      have hown : c.names a = false := (h.agree id m c d a hc hd' (.inl sent) hpd).trans hnamed
      simpa [Overlap.execute] using (unnamed hown).symm.trans before
    · simpa [Overlap.execute, ha] using before
  · intro e he hnamed
    obtain rfl | he := List.mem_cons.mp he
    · exact unnamed hnamed
    · exact h.kept e he hnamed
  · intro later e earlier hlog hnamed hlater
    cases later with
    | nil =>
      obtain ⟨rfl, -⟩ := List.cons.inj hlog
      simp [Overlap.execute]
    | cons l later =>
      obtain ⟨rfl, hrest⟩ := List.cons.inj hlog
      have before := h.stands later e earlier hrest hnamed fun l hl => hlater l (by simp [hl])
      by_cases ha : e.axis = axis
      · have hown : c.names axis = false := hlater _ List.mem_cons_self ha.symm
        simp only [Overlap.execute, ha, Function.update_self]
        exact (unnamed hown).symm.trans (ha ▸ before)
      · simpa [Overlap.execute, ha] using before
  · intro e he hnamed
    obtain rfl | he := List.mem_cons.mp he
    · refine ⟨c.request axis .executed, by simp [Overlap.execute, Overlap.setCall], hnamed, by simp [Call.request], ?_⟩
      exact fun hphase => absurd sent (h.failed id c axis hc hphase)
    · exact gone.entries e he hnamed

theorem Kept.step {s t : Overlap} (h : Kept config s) {action : Action} (steady : Steady s action)
    (hstep : Step config s action t) : Kept config t := by
  cases hstep with
  | start fresh resolved => exact h.start fresh resolved steady
  | execute hc sent hangle => exact h.execute hc sent hangle
  | drop hc sent => exact h.request hc sent .dropped
  | @next id c hc phase done tilt =>
    have unsent := h.unsent id c hc phase
    refine h.setCall hc rfl rfl ?_ nofun nofun ?_
    · intro axis hp
      cases axis with
      | pan => simp [Call.Pending, Call.request, done] at hp
      | tilt => exact .inr ⟨unsent, phase⟩
    · intro axis _ hx _
      cases axis with
      | pan => exact ⟨by simpa [Call.request] using done, nofun⟩
      | tilt => simp [unsent] at hx
  | @succeed id c axis hc phase done last =>
    have gone : Kept config (s.setCall id { c with phase := .succeeded }) := by
      refine h.setCall hc rfl rfl ?_ nofun nofun fun a _ hx _ => ⟨hx, nofun⟩
      rintro a (hsent | ⟨-, hphase⟩)
      · exact .inl hsent
      · cases hphase
    exact { gone with record := h.within id c hc }
  | @fail id c axis hc phase =>
    refine h.setCall hc rfl rfl ?_ nofun (fun _ a => (steady c hc a).1) ?_
    · rintro a (hsent | ⟨-, hphase⟩)
      · exact .inl hsent
      · cases hphase
    · exact fun a hnamed hx _ => absurd hx ((steady c hc a).2 hnamed)

theorem kept_initial (servos : PanTiltAxisName → Option ℚ) : Kept config (Overlap.initial config servos) where
  record := within_safeAngles config
  within := nofun
  agree := nofun
  still := nofun
  kept := nofun
  stands later e earlier hlog := by simp [Overlap.initial] at hlog
  unsent := nofun
  failed := nofun
  entries := nofun

theorem Kept.undisturbed {s : Overlap} (h : Kept config s) : Undisturbed config s where
  within := h.within
  kept := h.kept
  settled hsettled later e earlier hlog he hlater := by
    refine h.stands later e earlier hlog he.1 fun l hl haxis => ?_
    -- a later request of a call that names the axis would be one of a successful call
    cases hnamed : l.named with
    | false => rfl
    | true =>
      obtain ⟨c, hc, -, -, hphase⟩ := h.entries l (by simp [hlog, hl]) hnamed
      exact absurd ((hsettled _ c hc).resolve_right hphase) (hlater l hl haxis hnamed c hc)

/-- In a run whose steps are steady, no call disturbs another one's axis. -/
theorem undisturbed_of_steady {servos : PanTiltAxisName → Option ℚ} {s : Overlap}
    (hrun : Relation.ReflTransGen (SteadyStep config) (Overlap.initial config servos) s) : Undisturbed config s := by
  have kept : Kept config s := by
    induction hrun with
    | refl => exact kept_initial servos
    | tail _ hstep ih =>
      obtain ⟨action, steady, hstep⟩ := hstep
      exact ih.step steady hstep
  exact kept.undisturbed

end Runs

def bothAxes : ValidatedPanTiltConfig where
  pan := defaultPan
  tilt := some { defaultPan with pin := 14 }
  watchdogTimeoutMs := none
  autoArm := true
  transport := none
  distinct := by rintro _ ⟨⟩; decide

def panTo120 : AngleCall := .setAngle { angle := .number (.finite 120) }

def tiltTo60 : AngleCall := .setAngles { tilt := .number (.finite 60) }

def atSafeAngles (axis : PanTiltAxisName) : Option ℚ := bothAxes.safeAngles.angle axis

theorem resolve_panTo120 : panTo120.resolve bothAxes bothAxes.safeAngles = .ok ⟨120, some 90⟩ := by decide +kernel

def panStarted : Overlap := (Overlap.initial bothAxes atSafeAngles).setCall 0 (.begin panTo120.names ⟨120, some 90⟩)

theorem undisturbed_panTo120 :
    Undisturbed bothAxes (panStarted.execute 0 (.begin panTo120.names ⟨120, some 90⟩) .pan 120) := by
  have started : SteadyStep bothAxes (Overlap.initial bothAxes atSafeAngles) panStarted :=
    ⟨.start 0 panTo120, fun axis => ⟨nofun, fun _ => rfl⟩, .start rfl resolve_panTo120⟩
  exact undisturbed_of_steady ((Relation.ReflTransGen.single started).tail
    ⟨.execute 0 .pan, trivial, .execute rfl rfl rfl⟩)

/-- A call for the tilt axis starts while another one drives the pan servo, and drives it back. -/
theorem not_undisturbed_tiltTo60 :
    ¬ ∀ servos s, Relation.ReflTransGen (fun s t => ∃ action, Step bothAxes s action t)
      (Overlap.initial bothAxes servos) s → Undisturbed bothAxes s := by
  intro h
  have resolved : tiltTo60.resolve bothAxes bothAxes.safeAngles = .ok ⟨90, some 60⟩ := by decide +kernel
  let second := panStarted.setCall 1 (.begin tiltTo60.names ⟨90, some 60⟩)
  let third := second.execute 0 (.begin panTo120.names ⟨120, some 90⟩) .pan 120
  have hrun : Relation.ReflTransGen (fun s t => ∃ action, Step bothAxes s action t)
      (Overlap.initial bothAxes atSafeAngles) (third.execute 1 (.begin tiltTo60.names ⟨90, some 60⟩) .pan 90) :=
    .tail (.tail (.tail (.single ⟨.start 0 panTo120, .start rfl resolve_panTo120⟩)
      ⟨.start 1 tiltTo60, .start rfl resolved⟩) ⟨.execute 0 .pan, .execute rfl rfl rfl⟩)
      ⟨.execute 1 .pan, .execute rfl rfl rfl⟩
  have before : some (120 : ℚ) = some 90 := (h _ _ hrun).kept _ List.mem_cons_self rfl
  exact absurd before (by decide)

end Pinout.PanTilt
