import Pinout.Foundation.Machine
import Pinout.Leasing.LeaseManager
import Pinout.Policy.Safety

/-! # The fail-safe monitor

`FailSafeMonitor` (`packages/daemon/src/failSafeMonitor.ts`) with the parts of the daemon it works
on: the lease table, the safety engine and the registered devices. A tick hands the expired leases to
the monitor, makes their devices safe one after another, waiting for each, and then checks the
deadman heartbeats. Requests touch the lease table while it waits. -/

namespace Pinout.Daemon

open Foundation Leasing Policy

structure ArmedDeviceRecord where
  deviceId : JsString
  armedAt : ℚ
  timeoutMs : ℚ
  owner : Option JsString := none

inductive FailSafeReason
  | leaseExpired (leaseId : JsString)
  | deadmanStale (maxAgeMs : ℚ)
  deriving DecidableEq

inductive Effect
  | leaseExpired (lease : Lease)
  | failSafe (deviceId : JsString) (reason : FailSafeReason)
  deriving DecidableEq

inductive Pass
  | idle
  /-- `reapLeases` waits for the safe state of `current`, when that is registered, and has the
  leases `rest` still to see to. -/
  | reaping (current : Option JsString) (rest : List Lease)

/-- The state of a `FailSafeMonitor`. -/
structure FailSafeMonitor where
  failSafeOnAuthorityLoss : Bool := true
  defaultDeadmanMaxAgeMs : ℚ := 30000
  armed : InsertionMap JsString ArmedDeviceRecord := .empty
  pass : Pass := .idle

/-- The monitored daemon, with an account of what became of its expired leases. -/
structure Monitoring where
  leases : LeaseManager
  safety : SafetyEngine
  devices : List JsString := []
  failSafe : FailSafeMonitor := {}
  /-- The leases that left the table because their time had elapsed. -/
  expired : List Lease := []
  handed : List Lease := []
  trace : List Effect := []

def listDeadmanRules (engine : SafetyEngine) : List DeadmanRule :=
  engine.rules.filterMap fun
    | .deadman rule => some rule
    | _ => none

/-- The smallest configured max age: `ruleMaxAges.get('*')` after the loop over the rules. -/
def strictestMaxAge (defaultMaxAgeMs : ℚ) (rules : List DeadmanRule) : Option ℚ :=
  rules.foldl (fun existing rule =>
    let maxAge := rule.maxAgeMs.getD defaultMaxAgeMs
    match existing with
    | none => some maxAge
    | some least => if maxAge < least then some maxAge else some least) none

namespace Monitoring

def now (s : Monitoring) : ℚ := s.leases.now

def effect (s : Monitoring) (e : Effect) : Monitoring := { s with trace := s.trace ++ [e] }

def markArmed (s : Monitoring) (deviceId : JsString) (owner : Option JsString) : Monitoring :=
  { s with
    failSafe := { s.failSafe with
      armed := s.failSafe.armed.insert deviceId
        { deviceId, armedAt := s.now, timeoutMs := s.failSafe.defaultDeadmanMaxAgeMs, owner } }
    safety := s.safety.heartbeatDeadman deviceId s.now }

def markDisarmed (s : Monitoring) (deviceId : JsString) : Monitoring :=
  { s with
    failSafe := { s.failSafe with armed := s.failSafe.armed.erase deviceId }
    safety := s.safety.clearDeadman deviceId }

/-- `applyFailSafe` up to where it waits for the device's safe state: a device that is not registered
is only marked as disarmed, and there is nothing to wait for. -/
def beginFailSafe (s : Monitoring) (deviceId : JsString) (reason : FailSafeReason) :
    Monitoring × Option JsString :=
  let s := s.effect (.failSafe deviceId reason)
  if deviceId ∈ s.devices then (s, some deviceId) else (s.markDisarmed deviceId, none)

/-- The rest of `applyFailSafe`, after the safe state was applied or failed to. -/
def endFailSafe (s : Monitoring) (current : Option JsString) : Monitoring :=
  current.elim s s.markDisarmed

/-- `applyFailSafe`, with nothing happening while it waits. -/
def applyFailSafe (s : Monitoring) (deviceId : JsString) (reason : FailSafeReason) : Monitoring :=
  let (s, current) := s.beginFailSafe deviceId reason
  s.endFailSafe current

/-! ## The deadman check -/

/-- The devices `checkDeadman` looks at: the armed ones, and then the others that are registered. -/
def deviceIds (s : Monitoring) : List JsString :=
  (s.failSafe.armed.entries.map Prod.fst ++ s.devices).eraseDups

/-- The max age by which the heartbeat of a device is stale, if it is. -/
def stale? (s : Monitoring) (now : ℚ) (ruleMaxAge : Option ℚ) (deviceId : JsString) : Option ℚ :=
  let armed := s.failSafe.armed.get? deviceId
  let lastAlive := s.safety.feeds.deadman.get? deviceId
  if armed.isNone ∧ lastAlive.isNone ∧ ruleMaxAge.isNone then none
  else
    let maxAge := ((armed.map ArmedDeviceRecord.timeoutMs).or ruleMaxAge).getD
      s.failSafe.defaultDeadmanMaxAgeMs
    if armed.isNone ∧ lastAlive.isNone then none
    else if armed.isNone ∧ ruleMaxAge.isNone then none
    else
      match lastAlive.or (armed.map ArmedDeviceRecord.armedAt) with
      | none => none
      | some reference => if now - reference ≤ maxAge then none else some maxAge

/-- One turn of the loop of `checkDeadman`. -/
def checkDevice (now : ℚ) (ruleMaxAge : Option ℚ) (s : Monitoring) (deviceId : JsString) :
    Monitoring :=
  match s.stale? now ruleMaxAge deviceId with
  | none => s
  | some maxAge => s.applyFailSafe deviceId (.deadmanStale maxAge)

def ruleMaxAge (s : Monitoring) : Option ℚ :=
  strictestMaxAge s.failSafe.defaultDeadmanMaxAgeMs (listDeadmanRules s.safety)

/-- `checkDeadman`, with nothing happening while it waits for safe states. -/
def checkDeadman (s : Monitoring) : Monitoring :=
  s.deviceIds.foldl (checkDevice s.now s.ruleMaxAge) s

/-! ## The tick -/

/-- `reapLeases` and what follows it, from where the leases `rest` are still to be seen to, up to the
next safe state it waits for or the end of the tick. -/
def reapFrom (s : Monitoring) : List Lease → Monitoring
  | [] => { s.checkDeadman with failSafe := { s.checkDeadman.failSafe with pass := .idle } }
  | lease :: rest =>
    let (s, current) := (s.effect (.leaseExpired lease)).beginFailSafe lease.scope.deviceId
      (.leaseExpired lease.id)
    { s with failSafe := { s.failSafe with pass := .reaping current rest } }

/-- The leases that are in the table, have expired, and are not there afterwards. -/
def departed (m n : LeaseManager) : List Lease :=
  m.values.filter fun lease => m.isExpired lease && (n.leases.get? lease.id).isNone

/-- `tick`, as the timer calls it. -/
def tick (s : Monitoring) : Monitoring :=
  match s.failSafe.pass with
  | .reaping _ _ => s
  | .idle =>
    if s.failSafe.failSafeOnAuthorityLoss then
      let (leases, drained) := s.leases.drainExpired
      reapFrom
        { s with
          leases := leases
          expired := s.expired ++ departed s.leases leases
          handed := s.handed ++ drained } drained
    else s

/-! ## Requests -/

/-- What a lease or invoke request does to the lease table. -/
inductive Request
  | acquireLease (options : AcquireLeaseOptions) (random : JsString)
  | renewLease (leaseId owner : JsString) (ttlMs : Option TtlMs)
  | releaseLease (leaseId owner : JsString)
  | listLeases
  | permits (owner deviceId capability : JsString)

def Request.apply (m : LeaseManager) : Request → LeaseManager
  | .acquireLease options random => (m.acquire options random).1
  | .renewLease leaseId owner ttlMs => (m.renew leaseId owner ttlMs).1
  | .releaseLease leaseId owner => ((m.get leaseId).1.release leaseId owner).1
  | .listLeases => (m.list [] []).1
  | .permits owner deviceId capability => (m.permits owner deviceId capability .exclusive).1

inductive Action
  | request (r : Request)
  | timer
  | resume
  | elapse (ms : ℚ)
  | heartbeat (deviceId : JsString)
  | markArmed (deviceId : JsString) (owner : Option JsString)
  | markDisarmed (deviceId : JsString)
  | register (deviceId : JsString)
  | unregister (deviceId : JsString)

def step (s : Monitoring) : Action → Option Monitoring
  | .request r =>
    some { s with
      leases := r.apply s.leases
      expired := s.expired ++ departed s.leases (r.apply s.leases) }
  | .timer => some s.tick
  | .resume =>
    match s.failSafe.pass with
    | .idle => none
    | .reaping current rest => some ((s.endFailSafe current).reapFrom rest)
  | .elapse ms =>
    if 0 ≤ ms then some { s with leases := { s.leases with now := s.now + ms } } else none
  | .heartbeat deviceId => some { s with safety := s.safety.heartbeatDeadman deviceId s.now }
  | .markArmed deviceId owner => some (s.markArmed deviceId owner)
  | .markDisarmed deviceId => some (s.markDisarmed deviceId)
  | .register deviceId => some { s with devices := s.devices ++ [deviceId] }
  | .unregister deviceId => some { s with devices := s.devices.filter (· ≠ deviceId) }

def machine : Machine Monitoring Action := ⟨step⟩

def new (failSafeOnAuthorityLoss : Bool) (maxTtlMs now : ℚ) (rules : List SafetyRule)
    (devices : List JsString) : Monitoring :=
  { leases := { maxTtlMs, now }
    safety := { rules }
    devices
    failSafe := { failSafeOnAuthorityLoss } }

/-! ## What the monitor leaves alone -/

variable {s t : Monitoring}

/-- The monitor does not touch the leases and their account, and what it did stays done. -/
structure Frame (s t : Monitoring) : Prop where
  leases : t.leases = s.leases
  expired : t.expired = s.expired
  handed : t.handed = s.handed
  trace : s.trace <+: t.trace

theorem Frame.refl (s : Monitoring) : Frame s s := ⟨rfl, rfl, rfl, List.prefix_refl _⟩

theorem Frame.trans {u : Monitoring} (h : Frame s t) (h' : Frame t u) : Frame s u :=
  ⟨h'.leases.trans h.leases, h'.expired.trans h.expired, h'.handed.trans h.handed,
    h.trace.trans h'.trace⟩

theorem frame_effect (s : Monitoring) (e : Effect) : Frame s (s.effect e) :=
  ⟨rfl, rfl, rfl, List.prefix_append _ _⟩

theorem frame_markDisarmed (s : Monitoring) (deviceId : JsString) :
    Frame s (s.markDisarmed deviceId) := ⟨rfl, rfl, rfl, List.prefix_refl _⟩

theorem frame_beginFailSafe (s : Monitoring) (deviceId : JsString) (reason : FailSafeReason) :
    Frame s (s.beginFailSafe deviceId reason).1 := by
  unfold beginFailSafe
  dsimp only
  split
  · exact frame_effect s _
  · exact (frame_effect s _).trans (frame_markDisarmed _ deviceId)

theorem frame_endFailSafe (s : Monitoring) (current : Option JsString) :
    Frame s (s.endFailSafe current) := by
  cases current with
  | none => exact Frame.refl s
  | some deviceId => exact frame_markDisarmed s deviceId

theorem frame_checkDevice (now : ℚ) (ruleMaxAge : Option ℚ) (s : Monitoring)
    (deviceId : JsString) : Frame s (checkDevice now ruleMaxAge s deviceId) := by
  unfold checkDevice
  split
  · exact Frame.refl s
  · exact (frame_beginFailSafe s _ _).trans (frame_endFailSafe _ _)

theorem frame_checkDeadman (s : Monitoring) : Frame s s.checkDeadman := by
  unfold checkDeadman
  generalize s.now = now
  generalize s.ruleMaxAge = ruleMaxAge
  induction s.deviceIds generalizing s with
  | nil => exact Frame.refl s
  | cons deviceId rest ih =>
    exact (frame_checkDevice now ruleMaxAge s deviceId).trans (ih _)

theorem frame_reapFrom (s : Monitoring) (rest : List Lease) : Frame s (s.reapFrom rest) := by
  cases rest with
  | nil => exact (frame_checkDeadman s).trans ⟨rfl, rfl, rfl, List.prefix_refl _⟩
  | cons lease rest =>
    exact ((frame_effect s _).trans (frame_beginFailSafe _ _ _)).trans
      ⟨rfl, rfl, rfl, List.prefix_refl _⟩

end Monitoring

end Pinout.Daemon
