import Pinout.Foundation.Machine
import Pinout.Foundation.History
import Pinout.Policy.Safety

/-! # Overlapping reservations

Runs of a safety engine in which any number of reservations are open at once, interleaved with the
feeds that write consumable state. The ledger a caller expects is `replay`: the feeds and the
reservations that still stand, applied in order. `rollback` restores the snapshot taken at reserve
time instead of refunding what its own reservation consumed; the two agree in the runs in which every
effective rollback finds exactly what stood when its reservation was made (`Undisturbed`). -/

namespace Pinout.Policy

open Foundation

structure Ticket where
  id : Nat
  /-- The consumable state before it, which `rollback` restores. -/
  saved : Consumables
  consumed : List Consumption

inductive Happening
  | approval (record : ApprovalRecord)
  | budget (resource : JsString) (limit windowMs : ℚ)
  | reserved (ticket : Ticket)

/-- The reservation object handed to the caller, together with what stood when it was granted. -/
structure Opened where
  ticket : Ticket
  before : List Happening
  active : Bool

/-- An engine with the reservations it has granted and the happenings that stand: everything but the
reservations that were rolled back, in order. -/
structure Ledger where
  engine : SafetyEngine
  opened : List Opened := []
  standing : List Happening := []

inductive Action
  | reserve (at_ : Surroundings) (context : PolicyContext)
  /-- `enforce(context)` and `check(context)`, which reserve and commit. -/
  | enforce (at_ : Surroundings) (context : PolicyContext)
  | commit (i : Nat)
  | rollback (i : Nat)
  | preview (at_ : Surroundings) (context : PolicyContext)
  | recordApproval (record : ApprovalRecord)
  | configureBudget (resource : JsString) (limit windowMs : ℚ)
  | setInterlock (name : JsString) (value : Scalar)
  | setSequenceStep (sequence : JsString) (step : ℚ)
  | heartbeatDeadman (deviceId : JsString) (now : ℚ)
  | clearDeadman (deviceId : JsString)

/-- Whether a happening is the reservation with number `i`. -/
def Happening.isReserved (i : Nat) : Happening → Bool
  | reserved ticket => ticket.id = i
  | _ => false

namespace Ledger

variable (numText : ℚ → JsString)

/-- A call to `reserve`, the reservation being left open or committed at once. -/
def grant (s : Ledger) (at_ : Surroundings) (context : PolicyContext) (active : Bool) : Ledger :=
  match s.engine.reserve numText at_ context with
  | (engine, .error _) => { s with engine }
  | (engine, .ok saved) =>
    let ticket : Ticket :=
      { id := s.opened.length, saved
        consumed := consumptions context at_.now s.engine.rules s.engine.consumables }
    { engine
      opened := s.opened ++ [{ ticket, before := s.standing, active }]
      standing := s.standing ++ [.reserved ticket] }

/-- The reservation `i` is no longer active. -/
def close (s : Ledger) (i : Nat) : Ledger :=
  { s with opened := s.opened.modify i fun o => { o with active := false } }

/-- `rollback()` of the reservation `i`, granted as `o`. -/
def rollback (s : Ledger) (i : Nat) (o : Opened) : Ledger :=
  if o.active then
    { (s.close i) with
      engine := s.engine.restoreConsumables o.ticket.saved
      standing := s.standing.filter fun h => !h.isReserved i }
  else s

def step (s : Ledger) : Action → Option Ledger
  | .reserve at_ context => some (s.grant numText at_ context true)
  | .enforce at_ context => some (s.grant numText at_ context false)
  | .commit i => if i < s.opened.length then some (s.close i) else none
  | .rollback i => s.opened[i]?.map (s.rollback i)
  | .preview at_ context => some { s with engine := (s.engine.preview numText at_ context).1 }
  | .recordApproval record =>
    some { s with engine := s.engine.recordApproval record
                  standing := s.standing ++ [.approval record] }
  | .configureBudget resource limit windowMs =>
    some { s with engine := s.engine.configureBudget resource limit windowMs
                  standing := s.standing ++ [.budget resource limit windowMs] }
  | .setInterlock name value => some { s with engine := s.engine.setInterlock name value }
  | .setSequenceStep sequence step =>
    some { s with engine := s.engine.setSequenceStep sequence step }
  | .heartbeatDeadman deviceId now =>
    some { s with engine := s.engine.heartbeatDeadman deviceId now }
  | .clearDeadman deviceId => some { s with engine := s.engine.clearDeadman deviceId }

def machine : Machine Ledger Action := ⟨step numText⟩

def new (rules : List SafetyRule) : Ledger := { engine := { rules } }

end Ledger

/-! ## The expected ledger -/

/-- Whether a happening writes consumable state: a feed does, and a reservation that consumed
something. -/
def Happening.consuming : Happening → Bool
  | reserved ticket => !ticket.consumed.isEmpty
  | _ => true

/-- Apply one happening: of a reservation, exactly what it consumed. -/
def Happening.apply (c : Consumables) : Happening → Consumables
  | approval record => c.recordApproval record
  | budget resource limit windowMs => c.configureBudget resource limit windowMs
  | reserved ticket => ticket.consumed.foldl Consumables.consume c

/-- The consumable state after the given happenings, in order. -/
def replay (happenings : List Happening) : Consumables := happenings.foldl Happening.apply {}

/-- The reservation spent the approval stored under `id`. -/
def Ticket.Spent (ticket : Ticket) (id : JsString) : Prop :=
  ∃ at_, Consumption.approval id at_ ∈ ticket.consumed

/-- What the consumable state owes at every moment. -/
structure Ledger.Balanced (s : Ledger) : Prop where
  /-- The consumable state is that of the feeds and the reservations that stand, in order. -/
  consumed : s.engine.consumables = replay s.standing
  /-- Two standing reservations that spent an approval of one id have a recording of that id
  between them: one recorded approval authorises at most one action. -/
  spent : ∀ p j q k r id, s.standing = p ++ .reserved j :: q ++ .reserved k :: r →
    j.Spent id → k.Spent id → ∃ record, .approval record ∈ q ∧ record.id = id

/-- A rollback that takes effect finds what stood when its reservation was made: the same feeds and
the same consuming reservations. -/
def Ledger.Undisturbed (s : Ledger) : Action → Prop
  | .rollback i => ∀ o, s.opened[i]? = some o → o.active = true →
      (s.standing.filter fun h => !h.isReserved i).filter Happening.consuming =
        o.before.filter Happening.consuming
  | _ => True

/-! ## Replaying -/

theorem apply_of_not_consuming {c : Consumables} {h : Happening} (hidle : h.consuming = false) :
    h.apply c = c := by
  cases h with
  | approval record => cases hidle
  | budget resource limit windowMs => cases hidle
  | reserved ticket =>
    have hnone : ticket.consumed = [] := by simpa [Happening.consuming] using hidle
    show ticket.consumed.foldl Consumables.consume c = c
    rw [hnone, List.foldl_nil]

theorem replay_filter_consuming (happenings : List Happening) :
    replay (happenings.filter Happening.consuming) = replay happenings := by
  unfold replay
  generalize ({} : Consumables) = c
  induction happenings generalizing c with
  | nil => rfl
  | cons h happenings ih =>
    cases hc : h.consuming with
    | true => rw [List.filter_cons_of_pos hc, List.foldl_cons, List.foldl_cons, ih]
    | false =>
      rw [List.filter_cons_of_neg (by simp [hc]), List.foldl_cons, apply_of_not_consuming hc, ih]

theorem replay_congr {l l' : List Happening}
    (h : l.filter Happening.consuming = l'.filter Happening.consuming) : replay l = replay l' := by
  rw [← replay_filter_consuming l, h, replay_filter_consuming]

@[simp] theorem replay_concat (l : List Happening) (h : Happening) :
    replay (l ++ [h]) = h.apply (replay l) := by
  simp [replay]

/-- A used approval stays used until one of its id is recorded again. -/
theorem Consumables.Used.foldl_apply {l : List Happening} {c : Consumables} {id : JsString}
    (h : c.Used id) (hrec : ∀ record, .approval record ∈ l → record.id ≠ id) :
    (l.foldl Happening.apply c).Used id := by
  induction l generalizing c with
  | nil => exact h
  | cons happening l ih =>
    refine ih ?_ fun record hmem => hrec record (List.mem_cons_of_mem _ hmem)
    cases happening with
    | approval record =>
      have hne : id ≠ record.id := (hrec record List.mem_cons_self).symm
      obtain ⟨old, hget, hused⟩ := h
      exact ⟨old, by rw [← hget]; exact InsertionMap.get?_insert_of_ne _ _ hne, hused⟩
    | budget resource limit windowMs => exact h
    | reserved ticket => exact h.foldl_consume _

/-! ## The invariant -/

/-- The reservations among the happenings are listed in the order of their numbers. -/
def Happening.Precedes (h h' : Happening) : Prop :=
  ∀ t t', h = .reserved t → h' = .reserved t' → t.id < t'.id

structure Ledger.Ordered (s : Ledger) : Prop where
  consumed : s.engine.consumables = replay s.standing
  id_eq : ∀ (i : Nat) (o : Opened), s.opened[i]? = some o → o.ticket.id = i
  saved : ∀ (i : Nat) (o : Opened), s.opened[i]? = some o → o.ticket.saved = replay o.before
  /-- An approval a reservation consumed was unused before it, and used after it. -/
  unused : ∀ (i : Nat) (o : Opened) (id : JsString), s.opened[i]? = some o → o.ticket.Spent id →
    ¬ o.ticket.saved.Used id ∧ ((Happening.reserved o.ticket).apply o.ticket.saved).Used id
  granted : ∀ t, Happening.reserved t ∈ s.standing → ∃ o, s.opened[t.id]? = some o ∧ o.ticket = t
  older : ∀ (i : Nat) (o : Opened), s.opened[i]? = some o → ∀ t, Happening.reserved t ∈ o.before → t.id < i
  sorted : s.standing.Pairwise Happening.Precedes
  /-- A standing consuming reservation stands on what stood when it was granted. -/
  anchored : ∀ p t q (o : Opened), s.standing = p ++ .reserved t :: q → s.opened[t.id]? = some o →
    (Happening.reserved t).consuming = true →
      p.filter Happening.consuming = o.before.filter Happening.consuming

namespace Ledger.Ordered

variable {numText : ℚ → JsString} {s : Ledger}

theorem new (rules : List SafetyRule) : (Ledger.new rules).Ordered where
  consumed := rfl
  id_eq := by simp [Ledger.new]
  saved := by simp [Ledger.new]
  unused := by simp [Ledger.new]
  granted := by simp [Ledger.new]
  older := by simp [Ledger.new]
  sorted := List.Pairwise.nil
  anchored := by simp [Ledger.new]

/-- Nothing about the ledger depends on the state decisions only read. -/
theorem congr_engine {engine : SafetyEngine} (h : s.Ordered)
    (hconsumables : engine.consumables = s.engine.consumables) :
    ({ s with engine } : Ledger).Ordered :=
  { h with consumed := hconsumables.trans h.consumed }

theorem feed {engine : SafetyEngine} {f : Happening} (h : s.Ordered)
    (hconsumables : engine.consumables = f.apply s.engine.consumables)
    (hfeed : ∀ t, f ≠ .reserved t) :
    ({ s with engine, standing := s.standing ++ [f] } : Ledger).Ordered where
  consumed := by rw [hconsumables, h.consumed, replay_concat]
  id_eq := h.id_eq
  saved := h.saved
  unused := h.unused
  granted := by
    intro t ht
    rcases List.mem_append.mp ht with ht | ht
    · exact h.granted t ht
    · exact absurd (List.mem_singleton.mp ht).symm (hfeed t)
  older := h.older
  sorted := by
    refine List.pairwise_append.mpr ⟨h.sorted, List.pairwise_singleton .., ?_⟩
    intro a _ b hb t t' _ ht'
    obtain rfl := List.mem_singleton.mp hb
    exact absurd ht' (hfeed t')
  anchored := by
    intro p t q o hsplit hopened hcons
    rcases concat_eq_append_cons hsplit with ⟨-, hlast, -⟩ | ⟨q', -, hstanding⟩
    · exact absurd hlast.symm (hfeed t)
    · exact h.anchored p t q' o hstanding hopened hcons

theorem grant {at_ : Surroundings} {context : PolicyContext} {active : Bool}
    (h : s.Ordered) : (s.grant numText at_ context active).Ordered := by
  unfold Ledger.grant
  rcases hr : s.engine.reserve numText at_ context with ⟨engine, thrown | saved⟩
  · -- A reservation that throws consumes nothing.
    obtain rfl := SafetyEngine.reserve_of_error hr
    exact h
  · obtain ⟨hsaved, hengine⟩ := SafetyEngine.reserve_of_ok hr
    subst hsaved hengine
    dsimp only
    have hget : ∀ {i : Nat} {new o : Opened}, (s.opened ++ [new])[i]? = some o →
        s.opened[i]? = some o ∨ (i = s.opened.length ∧ o = new) := by
      intro i new o hi
      rw [List.getElem?_append] at hi
      split at hi
      · exact Or.inl hi
      · have hlt : i - s.opened.length < [new].length := (List.getElem?_eq_some_iff.mp hi).1
        have hi0 : i = s.opened.length := by simp at hlt; omega
        subst hi0
        simp at hi
        exact Or.inr ⟨rfl, hi.symm⟩
    have hlt : ∀ t, .reserved t ∈ s.standing → t.id < s.opened.length := by
      intro t ht
      obtain ⟨o, ho, -⟩ := h.granted t ht
      exact (List.getElem?_eq_some_iff.mp ho).1
    constructor
    · show _ = replay (s.standing ++ [_])
      rw [replay_concat, ← h.consumed]
      rfl
    · intro i o ho
      rcases hget ho with ho | ⟨rfl, rfl⟩
      · exact h.id_eq i o ho
      · rfl
    · intro i o ho
      rcases hget ho with ho | ⟨rfl, rfl⟩
      · exact h.saved i o ho
      · exact h.consumed
    · intro i o id ho hspent
      rcases hget ho with ho | ⟨rfl, rfl⟩
      · exact h.unused i o id ho hspent
      · obtain ⟨spentAt, hmem⟩ := hspent
        exact used_of_mem_consumptions hmem
    · intro t ht
      rcases List.mem_append.mp ht with ht | ht
      · obtain ⟨o, ho, heq⟩ := h.granted t ht
        refine ⟨o, ?_, heq⟩
        rw [List.getElem?_append_left (hlt t ht)]
        exact ho
      · have ht' := List.mem_singleton.mp ht
        injection ht' with ht'
        subst ht'
        exact ⟨_, List.getElem?_concat_length, rfl⟩
    · intro i o ho t ht
      rcases hget ho with ho | ⟨rfl, rfl⟩
      · exact h.older i o ho t ht
      · exact hlt t ht
    · refine List.pairwise_append.mpr ⟨h.sorted, List.pairwise_singleton .., ?_⟩
      intro a ha b hb t t' hat hbt'
      subst hat
      have hb' := List.mem_singleton.mp hb
      rw [hbt'] at hb'
      injection hb' with hb'
      subst hb'
      exact hlt t ha
    · intro p t q o hsplit ho hcons
      rcases concat_eq_append_cons hsplit with ⟨rfl, hlast, -⟩ | ⟨q', -, hstanding⟩
      · injection hlast with hlast
        subst hlast
        rcases hget ho with ho | ⟨-, rfl⟩
        · exact absurd (List.getElem?_eq_some_iff.mp ho).1 (lt_irrefl _)
        · rfl
      · have hmem : .reserved t ∈ s.standing := by rw [hstanding]; simp
        rcases hget ho with ho | ⟨hid, -⟩
        · exact h.anchored p t q' o hstanding ho hcons
        · exact absurd (hlt t hmem) (by omega)

theorem getElem?_close {s : Ledger} {i j : Nat} {o : Opened} (h : (s.close i).opened[j]? = some o) :
    ∃ o', s.opened[j]? = some o' ∧ o'.ticket = o.ticket ∧ o'.before = o.before := by
  have h' : (s.opened.modify i fun o => { o with active := false })[j]? = some o := h
  rw [List.getElem?_modify] at h'
  obtain ⟨o', ho', hmap⟩ := Option.map_eq_some_iff.mp h'
  refine ⟨o', ho', ?_⟩
  split at hmap <;> subst hmap <;> exact ⟨rfl, rfl⟩

/-- Closing a reservation keeps the numbering of what is granted. -/
theorem exists_close {s : Ledger} (i : Nat) {j : Nat} {o : Opened} (h : s.opened[j]? = some o) :
    ∃ o', (s.close i).opened[j]? = some o' ∧ o'.ticket = o.ticket := by
  have h' : (s.close i).opened[j]? =
      s.opened[j]?.map fun o => if i = j then { o with active := false } else o :=
    List.getElem?_modify ..
  rw [h, Option.map_some] at h'
  refine ⟨_, h', ?_⟩
  split <;> rfl

/-- A commit changes nothing but the reservation's own flag. -/
theorem close (h : s.Ordered) (i : Nat) : (s.close i).Ordered where
  consumed := h.consumed
  id_eq := by
    intro j o ho
    obtain ⟨o', ho', hticket, -⟩ := getElem?_close ho
    rw [← hticket]
    exact h.id_eq j o' ho'
  saved := by
    intro j o ho
    obtain ⟨o', ho', hticket, hbefore⟩ := getElem?_close ho
    rw [← hticket, ← hbefore]
    exact h.saved j o' ho'
  unused := by
    intro j o id ho
    obtain ⟨o', ho', hticket, -⟩ := getElem?_close ho
    rw [← hticket]
    exact h.unused j o' id ho'
  granted := by
    intro t ht
    obtain ⟨o, ho, rfl⟩ := h.granted t ht
    obtain ⟨o', ho', hticket⟩ := exists_close i ho
    exact ⟨o', ho', hticket⟩
  older := by
    intro j o ho t ht
    obtain ⟨o', ho', -, hbefore⟩ := getElem?_close ho
    rw [← hbefore] at ht
    exact h.older j o' ho' t ht
  sorted := h.sorted
  anchored := by
    intro p t q o hsplit ho hcons
    obtain ⟨o', ho', -, hbefore⟩ := getElem?_close ho
    rw [← hbefore]
    exact h.anchored p t q o' hsplit ho' hcons

/-- An undisturbed rollback takes its own reservation back, and nothing else. -/
theorem rollback {i : Nat} {o : Opened} (h : s.Ordered) (ho : s.opened[i]? = some o)
    (hquiet : s.Undisturbed (.rollback i)) : (s.rollback i o).Ordered := by
  unfold Ledger.rollback
  split
  · next hactive =>
    have hsame := hquiet o ho hactive
    have hclosed := h.close i
    refine
      { consumed := ?_
        id_eq := hclosed.id_eq
        saved := hclosed.saved
        unused := hclosed.unused
        granted := fun t ht => hclosed.granted t (List.mem_filter.mp ht).1
        older := hclosed.older
        sorted := h.sorted.filter _
        anchored := ?_ }
    · show o.ticket.saved = replay _
      rw [h.saved i o ho]
      exact (replay_congr hsame).symm
    · intro p t q o' hsplit ho' hcons
      -- `p` is what is left of the part `l` of the list that stood before `t`.
      obtain ⟨l, q', hstanding, rfl⟩ : ∃ l q', s.standing = l ++ .reserved t :: q' ∧
          p = l.filter fun x => !x.isReserved i := by
        obtain ⟨p', r', hstanding, rfl, hr'⟩ := List.filter_eq_append_iff.mp hsplit
        obtain ⟨m, q', rfl, hm, -, -⟩ := List.filter_eq_cons_iff.mp hr'
        refine ⟨p' ++ m, q', by simpa using hstanding, ?_⟩
        rw [List.filter_append, List.filter_eq_nil_iff.mpr hm, List.append_nil]
      rw [← hclosed.anchored l t q' o' hstanding ho' hcons, List.filter_filter]
      refine List.filter_congr fun x hx => ?_
      -- A consuming reservation before `t` is not the one rolled back: `t` stood when that one was
      -- granted, so it would be both older and younger than `t`.
      by_contra hne
      have hxi : x.isReserved i = true ∧ x.consuming = true := by
        cases hres : x.isReserved i <;> cases hxcons : x.consuming <;> simp_all
      obtain ⟨u, rfl, hu⟩ : ∃ u, x = .reserved u ∧ u.id = i := by
        cases x with
        | reserved u => exact ⟨u, rfl, by simpa [Happening.isReserved] using hxi.1⟩
        | _ => simp [Happening.isReserved] at hxi
      have htmem : .reserved t ∈ s.standing.filter fun x => !x.isReserved i := by
        have hsplit' : (s.standing.filter fun x => !x.isReserved i) = _ := hsplit
        rw [hsplit']
        simp
      have hbefore : .reserved t ∈ o.before := by
        have hmem := List.mem_filter.mpr ⟨htmem, hcons⟩
        rw [hsame] at hmem
        exact (List.mem_filter.mp hmem).1
      have hti : t.id < i := h.older i o ho t hbefore
      have hsorted := h.sorted
      rw [hstanding] at hsorted
      have hit : u.id < t.id := (List.pairwise_append.mp hsorted).2.2 _ hx _ List.mem_cons_self
        u t rfl rfl
      omega
  · exact h

/-- **Step lemma.** An undisturbed call keeps the invariant. -/
theorem step {s' : Ledger} {a : Action} (h : s.Ordered) (hquiet : s.Undisturbed a)
    (hs : s.step numText a = some s') : s'.Ordered := by
  cases a with
  | reserve at_ context => exact Option.some.inj hs ▸ h.grant
  | enforce at_ context => exact Option.some.inj hs ▸ h.grant
  | commit i =>
    simp only [Ledger.step] at hs
    split at hs
    · exact Option.some.inj hs ▸ h.close i
    · cases hs
  | rollback i =>
    obtain ⟨o, ho, rfl⟩ := Option.map_eq_some_iff.mp hs
    exact h.rollback ho hquiet
  | preview at_ context =>
    obtain rfl := Option.some.inj hs
    exact h.congr_engine (by simp)
  | recordApproval record => exact Option.some.inj hs ▸ h.feed rfl nofun
  | configureBudget resource limit windowMs => exact Option.some.inj hs ▸ h.feed rfl nofun
  | setInterlock name value => exact Option.some.inj hs ▸ h.congr_engine rfl
  | setSequenceStep sequence step => exact Option.some.inj hs ▸ h.congr_engine rfl
  | heartbeatDeadman deviceId now => exact Option.some.inj hs ▸ h.congr_engine rfl
  | clearDeadman deviceId => exact Option.some.inj hs ▸ h.congr_engine rfl

/-- A standing reservation that spent an approval was granted on the replay of what stands before
it, and the approval was unused there. -/
theorem unused_replay {t : Ticket} {p q : List Happening} {id : JsString} (h : s.Ordered)
    (hsplit : s.standing = p ++ .reserved t :: q) (hspent : t.Spent id) :
    ¬ (replay p).Used id ∧ ((Happening.reserved t).apply (replay p)).Used id := by
  obtain ⟨o, ho, rfl⟩ := h.granted t (by rw [hsplit]; simp)
  have hcons : (Happening.reserved o.ticket).consuming = true := by
    obtain ⟨at_, hmem⟩ := hspent
    simp only [Happening.consuming, Bool.not_eq_true', List.isEmpty_eq_false_iff]
    exact List.ne_nil_of_mem hmem
  have hsaved : o.ticket.saved = replay p := by
    rw [h.saved _ o ho]
    exact (replay_congr (h.anchored p o.ticket q o hsplit ho hcons)).symm
  rw [← hsaved]
  exact h.unused _ o id ho hspent

theorem balanced (h : s.Ordered) : s.Balanced where
  consumed := h.consumed
  spent := by
    intro p j q k r id hsplit hj hk
    by_contra hnone
    push Not at hnone
    have hsplitj : s.standing = p ++ .reserved j :: (q ++ .reserved k :: r) := by
      simpa using hsplit
    -- `j` left the approval used, nothing in between records it, and `k` found it unused.
    have hafter : (replay (p ++ .reserved j :: q)).Used id := by
      have hfold : replay (p ++ .reserved j :: q) =
          q.foldl Happening.apply ((Happening.reserved j).apply (replay p)) := by
        simp [replay]
      rw [hfold]
      exact (h.unused_replay hsplitj hj).2.foldl_apply hnone
    exact (h.unused_replay hsplit hk).1 hafter

end Ledger.Ordered

/-- **Undisturbed reservations are accounted for.** In every run whose effective rollbacks find what
stood when their reservation was made, the consumable state is that of the feeds and the standing
reservations, in order, and one recorded approval authorises at most one action. -/
theorem balanced_of_undisturbed (numText : ℚ → JsString) (rules : List SafetyRule)
    (calls : List Action) (s : Ledger)
    (hrun : (Ledger.machine numText).run (Ledger.new rules) calls = some s)
    (hquiet : (Ledger.machine numText).Guarded Ledger.Undisturbed (Ledger.new rules) calls) :
    s.Balanced :=
  (Machine.run_guarded_invariant (I := Ledger.Ordered)
    (fun _ _ _ h hg hs => Ledger.Ordered.step h hg hs) (Ledger.Ordered.new rules) hquiet
    hrun).balanced

/-! ## Runs of an engine with one approval rule -/

def approvalRules : List SafetyRule := [.approval { capability := js "gpio.write" }]

def approvedWrite : PolicyContext :=
  { deviceId := js "esp-01", capability := js "gpio.write", payload := [], operationalState := [] }

def operatorApproval (id : JsString) : ApprovalRecord :=
  { id, deviceId := js "esp-01", capability := js "gpio.write", grantedBy := js "op", grantedAt := 0 }

/-- An approval recorded and spent, and a second one reserved and given back. -/
def nested : List Action :=
  [.recordApproval (operatorApproval (js "a")), .reserve { now := 1 } approvedWrite,
    .recordApproval (operatorApproval (js "b")), .commit 0, .reserve { now := 2 } approvedWrite,
    .rollback 1]

/-- The rollback finds what stood, so the ledger balances. -/
theorem balanced_nested :
    ∃ s, (Ledger.machine fun _ => []).run (Ledger.new approvalRules) nested = some s ∧
      s.Balanced := by
  have hsome : ((Ledger.machine fun _ => []).run (Ledger.new approvalRules) nested).isSome := by
    decide +kernel
  have hrun := (Option.some_get hsome).symm
  refine ⟨_, hrun, balanced_of_undisturbed _ _ _ _ hrun ?_⟩
  refine ⟨trivial, trivial, trivial, trivial, trivial, ?_, trivial⟩
  intro o ho _
  obtain rfl := Option.some.inj ho
  rfl

/-- Two approvals, two overlapping reservations; the second is committed, then the first is rolled
back. -/
def lostUpdate : List Action :=
  [.recordApproval (operatorApproval (js "a")), .recordApproval (operatorApproval (js "b")),
    .reserve { now := 1 } approvedWrite, .reserve { now := 2 } approvedWrite, .commit 1, .rollback 0]

/-- The rollback also takes back what the committed reservation consumed. -/
theorem not_balanced_lostUpdate :
    ¬ ∀ (numText : ℚ → JsString) rules calls s,
      (Ledger.machine numText).run (Ledger.new rules) calls = some s → s.Balanced := by
  intro h
  -- Approval `b` was spent by the reservation that stands, and is unused again.
  have hb : ((Ledger.machine fun _ => []).run (Ledger.new approvalRules) lostUpdate).map (fun s =>
      ((s.engine.consumables.approvals.get? (js "b")).bind ApprovalRecord.usedAt,
        ((replay s.standing).approvals.get? (js "b")).bind ApprovalRecord.usedAt)) =
      some (none, some 2) := by
    decide +kernel
  obtain ⟨s, hrun, hprobe⟩ := Option.map_eq_some_iff.mp hb
  obtain ⟨hactual, howed⟩ := Prod.mk.inj hprobe
  rw [(h _ _ _ s hrun).consumed, howed] at hactual
  cases hactual

end Pinout.Policy
