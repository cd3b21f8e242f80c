import Pinout.Operation.Registry

/-! # Terminal operations stay terminal

Once an operation has an outcome, only `reconcile` may change it, and its run may no longer be
invoked. The continuations of `start` that follow an `await` do not look at the status again, so this
holds in the runs in which they find their operation live, and in which an operation that retention
has deleted is restored with the outcome it had (`Punctual`). -/

namespace Pinout.Operation

open Foundation

namespace OperationManager

/-- The object of an id that the map gives, or gave last. -/
structure Latest (s : OperationManager) (id : JsString) (i : Nat) (op : LiveOperation) : Prop where
  get : s.heap[i]? = some op
  id_eq : op.id = id
  last : ∀ (j : Nat) (op' : LiveOperation), s.heap[j]? = some op' → op'.id = id → j ≤ i

/-- The object at an address has no outcome yet. -/
def LiveAt (s : OperationManager) (address : Nat) : Prop :=
  ∀ op, s.heap[address]? = some op → op.status.isTerminal = false

/-- The four continuations of `start` that write a status without looking at it find their operation
live, and `begin` restores an operation with the outcome it had. -/
def Punctual (s : OperationManager) : Action → Prop
  | .dispatched address | .beforeDispatchRejected address _ | .acknowledged address
  | .afterDispatchRejected address _ => s.LiveAt address
  | .begin_ options _ => ∀ key tombstone, options.key? = some key →
      (s.idempotencyStore.lookup (scopedKeyFor options key) s.now).2 = some tombstone →
      s.operations.contains tombstone.operationId = false →
      ∀ i op, s.Latest tombstone.operationId i op →
        op.outcome = (restoredFrom tombstone).outcome
  | _ => True

def Listed (s : OperationManager) : Prop :=
  ∀ (i : Nat) (op : LiveOperation), s.heap[i]? = some op → op.status.isTerminal = false →
    s.operations.get? op.id = some i

/-- Somewhere in the run, `reconcile` finds the operation uncertain. -/
def ReconciledIn (s : OperationManager) (id : JsString) (run : List Action) : Prop :=
  ∃ before options after m i op, run = before ++ .reconcile id options :: after ∧
    machine.run s before = some m ∧ m.find? id = some (i, op) ∧ op.status.isUncertain = true

/-- An operation that has an outcome in `s` has the same one in `t`, unless `reconcile` found it
uncertain in between, and no run of it is invoked in between. -/
def OutcomeKept (s : OperationManager) (after : List Action) (t : OperationManager) : Prop :=
  ∀ id i op, s.Latest id i op → op.status.isTerminal = true →
    (∃ j op', t.Latest id j op' ∧ op'.status.isTerminal = true ∧
      (op'.outcome = op.outcome ∨ s.ReconciledIn id after)) ∧
    ∃ shown, t.trace = s.trace ++ shown ∧ ∀ j, Effect.invoked id j ∉ shown

variable {s t : OperationManager}

theorem Punctual.dispatched {a : Action} (h : s.Punctual a) :
    ∀ address, a = .dispatched address → s.LiveAt address := by
  rintro address rfl
  exact h

/-! ## Objects across a step -/

section Objects

variable {i j : Nat} {op op' o : LiveOperation}

/-- A write elsewhere leaves the latest object of an id where it is. -/
theorem Latest.set {id : JsString} (h : s.Latest id j o) (hop : s.heap[i]? = some op)
    (hheap : t.heap = s.heap.set i op') (hid : op'.id = op.id) (hne : j ≠ i) :
    t.Latest id j o := by
  refine ⟨?_, h.id_eq, fun k ok hk hkid => ?_⟩
  · rw [hheap, List.getElem?_set_ne (Ne.symm hne)]
    exact h.get
  · rw [hheap] at hk
    rcases of_getElem?_set hop hk with ⟨rfl, rfl⟩ | ⟨-, hk⟩
    · exact h.last k op hop (hid.symm.trans hkid)
    · exact h.last k ok hk hkid

/-- A write to the latest object of an id makes it the written one. -/
theorem Latest.set_self {id : JsString} (h : s.Latest id i o)
    (hheap : t.heap = s.heap.set i op') (hid : op'.id = o.id) : t.Latest id i op' := by
  refine ⟨?_, hid.trans h.id_eq, fun k ok hk hkid => ?_⟩
  · rw [hheap, List.getElem?_set_self (List.getElem?_eq_some_iff.mp h.get).1]
  · rw [hheap] at hk
    rcases of_getElem?_set h.get hk with ⟨rfl, rfl⟩ | ⟨-, hk⟩
    · exact Nat.le_refl _
    · exact h.last k ok hk hkid

/-- An allocation for another id leaves the latest object of an id where it is. -/
theorem Latest.append (op' : LiveOperation) {id : JsString} (h : s.Latest id j o)
    (hid : op'.id ≠ id) (hheap : t.heap = s.heap ++ [op']) : t.Latest id j o := by
  refine ⟨?_, h.id_eq, fun k ok hk hkid => ?_⟩
  · rw [hheap, List.getElem?_append_left (List.getElem?_eq_some_iff.mp h.get).1]
    exact h.get
  · rw [hheap] at hk
    rcases of_getElem?_append hk with ⟨rfl, rfl⟩ | hk
    · exact absurd hkid hid
    · exact h.last k ok hk hkid

theorem Latest.append_self (op' : LiveOperation) (hheap : t.heap = s.heap ++ [op']) :
    t.Latest op'.id s.heap.length op' := by
  refine ⟨by rw [hheap, List.getElem?_concat_length], rfl, fun k ok hk _ => ?_⟩
  rw [hheap] at hk
  rcases of_getElem?_append hk with ⟨rfl, -⟩ | hk
  · exact Nat.le_refl _
  · exact Nat.le_of_lt (List.getElem?_eq_some_iff.mp hk).1

end Objects

theorem Registry.latest_of_get? (h : s.Registry) {id : JsString} {i : Nat} {op : LiveOperation}
    (hin : s.operations.get? id = some i) (hop : s.heap[i]? = some op) : s.Latest id i op := by
  obtain ⟨o, ho, hid, hlast⟩ := h.latest id i hin
  obtain rfl := Option.some.inj (hop.symm.trans ho)
  exact ⟨hop, hid, hlast⟩

/-! ## Live objects are listed -/

namespace Listed

theorem of_heap_eq_nil (h : s.heap = []) : s.Listed := by
  intro i op hop
  rw [h] at hop
  cases hop

theorem congr (h : s.Listed) (hheap : t.heap = s.heap) (hoperations : t.operations = s.operations) :
    t.Listed := by
  intro i op hop hlive
  rw [hheap] at hop
  rw [hoperations]
  exact h i op hop hlive

/-- A write keeps it when a live object was live before, and live operations stay in the map. -/
theorem write (h : s.Listed) {i : Nat} {op op' : LiveOperation} (hop : s.heap[i]? = some op)
    (hheap : t.heap = s.heap.set i op') (hid : op'.id = op.id)
    (hlive : op'.status.isTerminal = false → op.status.isTerminal = false)
    (hkeep : ∀ (id : JsString) (j : Nat) (o : LiveOperation), s.operations.get? id = some j →
      t.heap[j]? = some o → o.status.isTerminal = false → t.operations.get? id = some j) :
    t.Listed := by
  intro j o ho holive
  have ho' := ho
  rw [hheap] at ho'
  rcases of_getElem?_set hop ho' with ⟨rfl, rfl⟩ | ⟨-, hj⟩
  · have hin := h j op hop (hlive holive)
    rw [hid]
    exact hkeep op.id j o hin ho holive
  · exact hkeep o.id j o (h j o hj holive) ho holive

theorem append (h : s.Listed) {op : LiveOperation} (hheap : t.heap = s.heap ++ [op])
    (hoperations : t.operations = s.operations.insert op.id s.heap.length)
    (hout : s.operations.get? op.id = none) : t.Listed := by
  intro j o ho hlive
  rw [hheap] at ho
  rw [hoperations]
  rcases of_getElem?_append ho with ⟨rfl, rfl⟩ | hj
  · exact InsertionMap.get?_insert_self _ _ _
  · have hin := h j o hj hlive
    refine (InsertionMap.get?_insert_of_ne _ _ fun heq => ?_).trans hin
    rw [heq, hout] at hin
    cases hin

/-- **Step lemma.** A step that dispatches only what is live keeps live objects listed. -/
theorem step {a : Action} (h : s.Listed) (hreg : s.Registry)
    (hp : ∀ address, a = .dispatched address → s.LiveAt address) (hs : s.step a = some t) :
    t.Listed := by
  cases steps_of_step hs with
  | tick => exact h.congr rfl rfl
  | unchanged => exact h
  | answered hanswer => exact h.congr rfl rfl
  | lookedUp => exact h.congr rfl rfl
  | removed => exact h.congr rfl rfl
  | deduped hkey hlookup hin => exact h.congr rfl rfl
  | restored hkey hlookup hout =>
    exact h.append rfl rfl (InsertionMap.contains_eq_false_iff.mp hout)
  | opened hstore => exact h.append rfl rfl (hreg.get?_operationId _)
  | registered hop hin hlive => exact h.congr rfl rfl
  | cancelling hop hin hlive hstatus =>
    exact h.write hop rfl rfl (fun _ => hlive) fun id j o hj _ _ => hj
  | advanced hop hadv =>
    refine h.write hop rfl hadv.rewrites.id ?_ fun id j o hj _ _ => hj
    rw [hadv.snapshot]
    exact fun hlive => hlive
  | dispatched hop hphase =>
    exact h.write hop rfl rfl (fun _ => hp _ rfl _ hop) fun id j o hj _ _ => hj
  | reported hop hphase hlive =>
    exact h.write hop rfl rfl (fun _ => hlive) fun id j o hj _ _ => hj
  | @concluded _ address op op' c answers hop hc hanswers =>
    refine h.write hop (conclude_heap _ _ _) (hc.rewrites s.now).id ?_ ?_
    · intro hlive
      rw [show (op'.concluded c s.now).status = c.status from rfl, c.terminal] at hlive
      cases hlive
    · intro id j o hj ho hlive
      rw [show ((s.conclude address op' c).answerAll answers).operations = _ from
        conclude_operations _ _ _]
      rw [show ((s.conclude address op' c).answerAll answers).heap = _ from
        conclude_heap _ _ _] at ho
      exact retainOperations_get? (s := s.update address (op'.concluded c s.now)) hj ho hlive
  | @reconciled _ options address op hop hin huncertain =>
    refine h.write hop (reconcileAt_heap _ _ _) (reconciledBy_rewrites options s.now).id ?_ ?_
    · intro hlive
      rw [reconciledBy_terminal] at hlive
      cases hlive
    · intro id j o hj ho hlive
      rw [reconcileAt_operations]
      rw [reconcileAt_heap] at ho
      exact retainOperations_get? (s := s.update address (reconciledBy op options s.now)) hj ho hlive

end Listed

/-! ## One step -/

/-- What a step does to the outcome of an operation that has one. -/
structure Kept (s : OperationManager) (a : Action) (t : OperationManager) (id : JsString)
    (i : Nat) (op : LiveOperation) : Prop where
  /-- The operation still has an outcome, and the same unless it was just reconciled. -/
  outcome : ∃ j op', t.Latest id j op' ∧ op'.status.isTerminal = true ∧
    (op'.outcome = op.outcome ∨
      ∃ options, a = .reconcile id options ∧ s.find? id = some (i, op) ∧
        op.status.isUncertain = true)
  shown : ∃ shown, t.trace = s.trace ++ shown ∧ ∀ j, Effect.invoked id j ∉ shown

/-- **Step lemma.** A punctual step keeps the outcome of an operation that has one, unless it is
`reconcile` of an uncertain operation, and invokes no run of it. -/
theorem kept_of_step {a : Action} {id : JsString} {i : Nat} {op : LiveOperation}
    (hreg : s.Registry) (hlisted : s.Listed) (hp : s.Punctual a) (hs : s.step a = some t)
    (hl : s.Latest id i op) (hterminal : op.status.isTerminal = true) : s.Kept a t id i op := by
  have hsteps := steps_of_step hs
  constructor
  · -- What is left to show when the object is where it was.
    have hsame : t.Latest id i op → ∃ j op', t.Latest id j op' ∧ op'.status.isTerminal = true ∧
        (op'.outcome = op.outcome ∨ ∃ options, a = .reconcile id options ∧
          s.find? id = some (i, op) ∧ op.status.isUncertain = true) :=
      fun hl' => ⟨i, op, hl', hterminal, Or.inl rfl⟩
    -- A live object is not the one at `i`.
    have hne : ∀ {k : Nat} {o : LiveOperation}, s.heap[k]? = some o →
        o.status.isTerminal = false → i ≠ k := by
      intro k o ho hlive heq
      subst heq
      obtain rfl := Option.some.inj (hl.get.symm.trans ho)
      rw [hterminal] at hlive
      cases hlive
    cases hsteps with
    | tick => exact hsame ⟨hl.get, hl.id_eq, hl.last⟩
    | unchanged => exact hsame hl
    | answered hanswer => exact hsame ⟨hl.get, hl.id_eq, hl.last⟩
    | lookedUp => exact hsame ⟨hl.get, hl.id_eq, hl.last⟩
    | removed => exact hsame ⟨hl.get, hl.id_eq, hl.last⟩
    | deduped hkey hlookup hin => exact hsame ⟨hl.get, hl.id_eq, hl.last⟩
    | @restored options randomId key store tombstone hkey hlookup hout =>
      by_cases hid : tombstone.operationId = id
      · -- It is restored with the outcome it had.
        subst hid
        have houtcome : op.outcome = (restoredFrom tombstone).outcome :=
          hp key tombstone hkey (by rw [hlookup]) hout i op hl
        refine ⟨_, _, Latest.append_self (restoredFrom tombstone) rfl, ?_, Or.inl houtcome.symm⟩
        have hstatus : op.status = (restoredFrom tombstone).status :=
          congrArg Outcome.status houtcome
        rw [← hstatus]
        exact hterminal
      · exact hsame (Latest.append (restoredFrom tombstone) hl hid rfl)
    | @opened options randomId store hstore =>
      refine hsame (Latest.append (s.queued options randomId) hl ?_ rfl)
      have hfresh := hreg.ne_operationId randomId op (List.mem_of_getElem? hl.get)
      rw [hl.id_eq] at hfresh
      exact Ne.symm hfresh
    | registered hop hin hlive => exact hsame ⟨hl.get, hl.id_eq, hl.last⟩
    | cancelling hop hin hlive hstatus => exact hsame (hl.set hop rfl rfl (hne hop hlive))
    | @advanced _ k o o' hop hadv =>
      by_cases hik : i = k
      · subst hik
        obtain rfl := Option.some.inj (hl.get.symm.trans hop)
        refine ⟨i, o', hl.set_self rfl hadv.rewrites.id, ?_, Or.inl ?_⟩
        · rw [hadv.snapshot]
          exact hterminal
        · rw [hadv.snapshot]
      · exact hsame (hl.set hop rfl hadv.rewrites.id hik)
    | dispatched hop hphase => exact hsame (hl.set hop rfl rfl (hne hop (hp _ hop)))
    | reported hop hphase hlive => exact hsame (hl.set hop rfl rfl (hne hop hlive))
    | @concluded _ k o o' c answers hop hc hanswers =>
      have hlive : o.status.isTerminal = false := by
        cases hc with
        | cancel hfind hstatus => rw [hstatus]; rfl
        | deadline hop hdue hstatus => rw [hstatus]; rfl
        | beforeDispatchRejected hop hphase => exact hp _ hop
        | runRejected hop hphase hlive => exact hlive
        | acknowledged hop hphase => exact hp _ hop
        | afterDispatchRejected hop hphase => exact hp _ hop
      exact hsame (hl.set hop (conclude_heap _ _ _) (hc.rewrites s.now).id (hne hop hlive))
    | @reconciled id' options k o hop hin huncertain =>
      by_cases hik : i = k
      · subst hik
        obtain rfl := Option.some.inj (hl.get.symm.trans hop)
        obtain rfl : id' = id := (hreg.latest_of_get? hin hop).id_eq.symm.trans hl.id_eq
        exact ⟨i, _, hl.set_self (reconcileAt_heap _ _ _) (reconciledBy_rewrites options s.now).id,
          reconciledBy_terminal _ _ _,
          Or.inr ⟨options, rfl, find?_eq_some_iff.mpr ⟨hin, hop⟩, huncertain⟩⟩
      · exact hsame (hl.set hop (reconcileAt_heap _ _ _) (reconciledBy_rewrites options s.now).id hik)
  · obtain ⟨shown, htrace, hshows⟩ := hsteps.shows
    refine ⟨shown, htrace, fun j hmem => ?_⟩
    -- Only a live object is dispatched, and the latest object of `id` is not live.
    obtain ⟨rfl, o, ho, hid⟩ := hshows.invoked hmem
    have hlive : o.status.isTerminal = false := hp o ho
    have hin := hlisted j o ho hlive
    rw [hid] at hin
    have hle : i ≤ j := (hreg.latest_of_get? hin ho).last i op hl.get hl.id_eq
    have hge : j ≤ i := hl.last j o ho hid
    obtain rfl : i = j := Nat.le_antisymm hle hge
    obtain rfl := Option.some.inj (hl.get.symm.trans ho)
    rw [hterminal] at hlive
    cases hlive

/-! ## Runs -/

theorem registry_listed_of_run {calls : List Action} (hreg : s.Registry) (hlisted : s.Listed)
    (hrun : machine.run s calls = some t) (hp : machine.Guarded Punctual s calls) :
    t.Registry ∧ t.Listed :=
  Machine.run_guarded_invariant (I := fun s => s.Registry ∧ s.Listed)
    (fun _ _ _ h hp hs => ⟨h.1.step hs, h.2.step h.1 hp.dispatched hs⟩) ⟨hreg, hlisted⟩ hp hrun

/-- **Run lemma.** What a punctual step keeps, a punctual run keeps. -/
theorem outcomeKept_of_run {after : List Action} (hreg : s.Registry) (hlisted : s.Listed)
    (hrun : machine.run s after = some t) (hp : machine.Guarded Punctual s after) :
    s.OutcomeKept after t := by
  induction after generalizing s with
  | nil =>
    intro id i op hl hterminal
    obtain rfl : s = t := by simpa using hrun
    exact ⟨⟨i, op, hl, hterminal, Or.inl rfl⟩, [], (List.append_nil _).symm, by simp⟩
  | cons a rest ih =>
    intro id i op hl hterminal
    obtain ⟨m, hm, hrest⟩ := machine.run_cons_eq_some.mp hrun
    obtain ⟨hpa, hprest⟩ := Machine.Guarded.of_cons hp hm
    obtain ⟨⟨j, op', hl', hterminal', houtcome⟩, shown, htrace, hshown⟩ :=
      kept_of_step hreg hlisted hpa hm hl hterminal
    obtain ⟨⟨k, op'', hl'', hterminal'', houtcome'⟩, shown', htrace', hshown'⟩ :=
      ih (hreg.step hm) (hlisted.step hreg hpa.dispatched hm) hrest hprest id j op' hl' hterminal'
    refine ⟨⟨k, op'', hl'', hterminal'', ?_⟩, shown ++ shown', ?_, ?_⟩
    · rcases houtcome' with houtcome' | ⟨before, options, after, n, p, o, rfl, hn, hfind, hunc⟩
      · rcases houtcome with houtcome | ⟨options, rfl, hfind, huncertain⟩
        · exact Or.inl (houtcome'.trans houtcome)
        · exact Or.inr ⟨[], options, rest, s, i, op, rfl, rfl, hfind, huncertain⟩
      · exact Or.inr ⟨a :: before, options, after, n, p, o, rfl,
          machine.run_cons_eq_some.mpr ⟨m, hm, hn⟩, hfind, hunc⟩
    · rw [htrace', htrace, List.append_assoc]
    · intro p hmem
      rcases List.mem_append.mp hmem with hmem | hmem
      · exact hshown p hmem
      · exact hshown' p hmem

def new (retentionMs : Int) (maxOperations : Nat) (maxEntries : Nat) (storeRetentionMs now : Int) :
    OperationManager :=
  { retentionMs, maxOperations, now
    idempotencyStore := { maxEntries, retentionMs := storeRetentionMs } }

/-- **Terminal operations stay terminal.** In every punctual run of a manager, an operation that has
an outcome at some moment has the same outcome at every later moment, unless `reconcile` found it
uncertain in between, and no run of it is invoked after that moment. -/
theorem outcomeKept_of_punctual (retentionMs : Int) (maxOperations maxEntries : Nat)
    (storeRetentionMs now : Int) (before after : List Action) (s t : OperationManager)
    (hbefore : machine.run (new retentionMs maxOperations maxEntries storeRetentionMs now) before =
      some s)
    (hafter : machine.run s after = some t)
    (hpunctual : machine.Guarded Punctual
      (new retentionMs maxOperations maxEntries storeRetentionMs now) (before ++ after)) :
    s.OutcomeKept after t := by
  obtain ⟨hpbefore, hpafter⟩ := Machine.Guarded.of_append hpunctual hbefore
  obtain ⟨hreg, hlisted⟩ := registry_listed_of_run (Registry.new rfl) (Listed.of_heap_eq_nil rfl)
    hbefore hpbefore
  exact outcomeKept_of_run hreg hlisted hafter hpafter

/-! ## Runs of one operation -/

def newDefault : OperationManager := new 86400000 10000 10000 86400000 0

def blink : BeginOperationOptions := { deviceId := js "led", capability := js "gpio.blink" }

def firstId : JsString := operationId 1 (js "a")

/-- A check that is enough for a step to be punctual: where an object must be live it is, and `begin`
finds no tombstone. -/
def punctualCheck (s : OperationManager) : Action → Bool
  | .dispatched address | .beforeDispatchRejected address _ | .acknowledged address
  | .afterDispatchRejected address _ => s.heap[address]?.all fun op => !op.status.isTerminal
  | .begin_ options _ => options.key?.all fun key =>
      (s.idempotencyStore.lookup (scopedKeyFor options key) s.now).2.isNone
  | _ => true

theorem punctual_of_check {a : Action} (h : s.punctualCheck a = true) : s.Punctual a := by
  have hlive : ∀ {address : Nat},
      (s.heap[address]?.all fun op => !op.status.isTerminal) = true → s.LiveAt address := by
    intro address hall op hop
    simpa [hop] using hall
  cases a with
  | dispatched address => exact hlive h
  | beforeDispatchRejected address thrown => exact hlive h
  | acknowledged address => exact hlive h
  | afterDispatchRejected address thrown => exact hlive h
  | begin_ options randomId =>
    intro key tombstone hkey hhit
    simp [punctualCheck, hkey, hhit] at h
  | _ => trivial

/-- A punctual run: the outcome of a completed operation is kept while time passes. -/
theorem outcomeKept_completed :
    ∃ s t, machine.run newDefault [.begin_ blink (js "a"), .microtask 0, .dispatched 0,
        .runResolved 0 [], .acknowledged 0] = some s ∧
      machine.run s [.tick 5, .cancel firstId none 0] = some t ∧
      s.OutcomeKept [.tick 5, .cancel firstId none 0] t := by
  have hsome : ((machine.run newDefault [.begin_ blink (js "a"), .microtask 0, .dispatched 0,
      .runResolved 0 [], .acknowledged 0]).bind fun s =>
        machine.run s [.tick 5, .cancel firstId none 0]).isSome = true := by decide +kernel
  obtain ⟨t, ht⟩ := Option.isSome_iff_exists.mp hsome
  obtain ⟨s, hs, ht⟩ := Option.bind_eq_some_iff.mp ht
  refine ⟨s, t, hs, ht, outcomeKept_of_punctual _ _ _ _ _ _ _ s t hs ht ?_⟩
  refine Machine.Guarded.mono (P := fun s a => s.punctualCheck a = true)
    (fun _ _ => punctual_of_check) ?_
  decide +kernel

/-- **Not every run keeps outcomes.** An operation that was cancelled while its microtask waited for
`beforeDispatch` is started nevertheless: its status goes from cancelled to running, and its run is
invoked. -/
theorem not_outcomeKept_dispatched :
    ∃ s t, machine.run newDefault [.begin_ blink (js "a"), .microtask 0, .cancel firstId none 0] =
        some s ∧
      machine.run s [.dispatched 0] = some t ∧ ¬ s.OutcomeKept [.dispatched 0] t := by
  have hview : ((machine.run newDefault [.begin_ blink (js "a"), .microtask 0,
      .cancel firstId none 0]).bind fun s => (machine.run s [.dispatched 0]).map fun t =>
        (s.heap.map fun op => (op.id, op.status), t.heap.map fun op => op.status)) =
      some ([(firstId, .cancelled)], [.running]) := by decide +kernel
  obtain ⟨s, hs, hview⟩ := Option.bind_eq_some_iff.mp hview
  obtain ⟨t, ht, hview⟩ := Option.map_eq_some_iff.mp hview
  obtain ⟨hheap, hheap'⟩ := Prod.mk.inj hview
  obtain ⟨op, hop, hopview⟩ := List.map_eq_singleton_iff.mp hheap
  obtain ⟨op', hop', hstatus'⟩ := List.map_eq_singleton_iff.mp hheap'
  obtain ⟨hid, hstatus⟩ := Prod.mk.inj hopview
  refine ⟨s, t, hs, ht, fun hkept => ?_⟩
  have hlatest : s.Latest firstId 0 op := by
    refine ⟨by rw [hop]; rfl, hid, fun j o hj _ => ?_⟩
    have hlt := (List.getElem?_eq_some_iff.mp hj).1
    rw [hop, List.length_singleton] at hlt
    omega
  obtain ⟨⟨j, o, hl, hterminal, -⟩, -⟩ := hkept firstId 0 op hlatest (by rw [hstatus]; rfl)
  -- The only object is running.
  have hmem : o ∈ t.heap := List.mem_of_getElem? hl.get
  rw [hop', List.mem_singleton] at hmem
  rw [hmem, hstatus'] at hterminal
  cases hterminal

end OperationManager

end Pinout.Operation
