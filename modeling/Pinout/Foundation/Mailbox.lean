import Mathlib.Data.List.Basic

/-! # Bounded mailboxes

A **mailbox** hands what arrives to the reader that has waited longest, or keeps it until somebody
reads; of what it keeps, only the newest `capacity` stay. Every arrival has one fate, in the order of
arrival: it was read, dropped, cleared away, or is still unread (`Mailbox.arrivals_run`). -/

namespace Pinout.Foundation

universe u v

inductive Fate (ρ : Type u)
  | read (reader : ρ)
  | dropped
  | cleared
  deriving DecidableEq

inductive MailEvent (ρ : Type u) (τ : Type v)
  | arrive (x : τ)
  | read (reader : ρ)
  | leave (reader : ρ)
  | clear

/-- A mailbox with its waiting readers and the fates of what is not unread any more. -/
@[ext] structure Mailbox (ρ : Type u) (τ : Type v) where
  capacity : Nat
  unread : List τ := []
  readers : List ρ := []
  fates : List (Fate ρ × τ) := []

namespace Mailbox

variable {ρ : Type u} {τ : Type v} [DecidableEq ρ]

omit [DecidableEq ρ] in
/-- Keep the newest arrivals, as many as there is room for; older ones are dropped. -/
def keepNewest (m : Mailbox ρ τ) (unread : List τ) : Mailbox ρ τ :=
  { m with
    unread := unread.drop (unread.length - m.capacity)
    fates := m.fates ++ (unread.take (unread.length - m.capacity)).map (Fate.dropped, ·) }

def step (m : Mailbox ρ τ) : MailEvent ρ τ → Mailbox ρ τ
  | .arrive x => match m.readers with
    | reader :: readers =>
      { m with readers := readers, fates := m.fates ++ [(.read reader, x)] }
    | [] => m.keepNewest (m.unread ++ [x])
  | .read reader => match m.unread with
    | x :: unread => { m with unread := unread, fates := m.fates ++ [(.read reader, x)] }
    | [] => { m with readers := m.readers ++ [reader] }
  | .leave reader => { m with readers := m.readers.erase reader }
  | .clear => { m with unread := [], fates := m.fates ++ m.unread.map (Fate.cleared, ·) }

def run (m : Mailbox ρ τ) (events : List (MailEvent ρ τ)) : Mailbox ρ τ := events.foldl step m

def arrivals (events : List (MailEvent ρ τ)) : List τ := events.filterMap fun
  | .arrive x => some x
  | _ => none

@[simp] theorem run_nil (m : Mailbox ρ τ) : m.run [] = m := rfl

@[simp] theorem run_cons (m : Mailbox ρ τ) (e : MailEvent ρ τ) (events : List (MailEvent ρ τ)) :
    m.run (e :: events) = (m.step e).run events := rfl

theorem run_append (m : Mailbox ρ τ) (events later : List (MailEvent ρ τ)) :
    m.run (events ++ later) = (m.run events).run later := List.foldl_append

/-- Everything a mailbox has received, in order. -/
def history (m : Mailbox ρ τ) : List τ := m.fates.map Prod.snd ++ m.unread

structure Sound (m : Mailbox ρ τ) : Prop where
  bounded : m.unread.length ≤ m.capacity
  waiting : m.unread ≠ [] → m.readers = []

omit [DecidableEq ρ] in
@[simp] theorem history_keepNewest (m : Mailbox ρ τ) (unread : List τ) :
    (m.keepNewest unread).history = m.fates.map Prod.snd ++ unread := by
  have hmap : ((unread.take (unread.length - m.capacity)).map
      (fun x => ((Fate.dropped : Fate ρ), x))).map Prod.snd =
        unread.take (unread.length - m.capacity) := by
    rw [List.map_map]
    exact List.map_id _
  rw [history, keepNewest, List.map_append, hmap, List.append_assoc, List.take_append_drop]

omit [DecidableEq ρ] in
theorem length_keepNewest (m : Mailbox ρ τ) (unread : List τ) :
    (m.keepNewest unread).unread.length ≤ m.capacity := by
  rw [keepNewest, List.length_drop]
  omega

omit [DecidableEq ρ] in
theorem keepNewest_of_le {m : Mailbox ρ τ} {unread : List τ} (h : unread.length ≤ m.capacity) :
    m.keepNewest unread = { m with unread := unread } := by
  rw [keepNewest, Nat.sub_eq_zero_of_le h]
  simp

@[simp] theorem capacity_step (m : Mailbox ρ τ) (e : MailEvent ρ τ) :
    (m.step e).capacity = m.capacity := by
  cases e with
  | arrive x => rw [step]; split <;> rfl
  | read reader => rw [step]; split <;> rfl
  | leave reader => rfl
  | clear => rfl

theorem Sound.step {m : Mailbox ρ τ} (h : m.Sound) (e : MailEvent ρ τ) : (m.step e).Sound := by
  cases e with
  | arrive x =>
    rw [Mailbox.step]
    split
    · next reader readers hreaders =>
      -- somebody waits, so nothing is unread
      have hunread : m.unread = [] := by
        by_contra hne
        exact List.cons_ne_nil _ _ (hreaders.symm.trans (h.waiting hne))
      exact ⟨h.bounded, fun hne => absurd hunread hne⟩
    · next hreaders => exact ⟨m.length_keepNewest _, fun _ => hreaders⟩
  | read reader =>
    rw [Mailbox.step]
    split
    · next x unread hunread =>
      have hbounded := h.bounded
      rw [hunread, List.length_cons] at hbounded
      exact ⟨Nat.le_trans (Nat.le_succ _) hbounded, fun _ => h.waiting (hunread ▸ List.cons_ne_nil _ _)⟩
    · next hunread => exact ⟨h.bounded, fun hne => absurd hunread hne⟩
  | leave reader =>
    refine ⟨h.bounded, fun hne => ?_⟩
    rw [Mailbox.step, h.waiting hne]
    rfl
  | clear => exact ⟨Nat.zero_le _, fun hne => absurd rfl hne⟩

theorem Sound.run {m : Mailbox ρ τ} (h : m.Sound) (events : List (MailEvent ρ τ)) :
    (m.run events).Sound := by
  induction events generalizing m with
  | nil => exact h
  | cons e events ih => exact ih (h.step e)

theorem Sound.history_step {m : Mailbox ρ τ} (h : m.Sound) (e : MailEvent ρ τ) :
    (m.step e).history = m.history ++ arrivals [e] := by
  cases e with
  | arrive x =>
    rw [Mailbox.step]
    split
    · next reader readers hreaders =>
      have hunread : m.unread = [] := by
        by_contra hne
        exact List.cons_ne_nil _ _ (hreaders.symm.trans (h.waiting hne))
      simp [history, hunread, arrivals]
    · rw [history_keepNewest, ← List.append_assoc]
      rfl
  | read reader =>
    rw [Mailbox.step]
    split
    · next x unread hunread => simp [history, hunread, arrivals]
    · simp [history, arrivals]
  | leave reader => simp [history, Mailbox.step, arrivals]
  | clear =>
    have hmap : (m.unread.map (fun x => ((Fate.cleared : Fate ρ), x))).map Prod.snd = m.unread := by
      rw [List.map_map]
      exact List.map_id _
    simp [history, Mailbox.step, arrivals, hmap]

/-- **Conservation.** Everything that arrives has one fate or is unread, in the order of arrival. -/
theorem Sound.history_run {m : Mailbox ρ τ} (h : m.Sound) (events : List (MailEvent ρ τ)) :
    (m.run events).history = m.history ++ arrivals events := by
  induction events generalizing m with
  | nil => exact (List.append_nil _).symm
  | cons e events ih =>
    have harrivals : arrivals (e :: events) = arrivals [e] ++ arrivals events := by
      rw [arrivals, arrivals, arrivals, ← List.filterMap_append, List.singleton_append]
    rw [run_cons, ih (h.step e), h.history_step, List.append_assoc, harrivals]

end Mailbox

end Pinout.Foundation
