import Mathlib.Data.List.Basic
import Mathlib.Data.List.Infix

/-! # Cutting a stream into packets

A **packet decoder** looks at the head of a buffer: it finds a packet and how much of the buffer the
packet takes, or asks for more, or fails. What it found does not change when more arrives behind it.
`drain` takes packets off a buffer until it has to wait; a stream that arrives in parts yields the
same packets however it is cut (`drain_append`, `feedAll_eq`). -/

namespace Pinout.Foundation

universe u v w

variable {α : Type u} {φ : Type v} {ε : Type w}

/-- What a decoder says about the head of a buffer. -/
inductive Decoded (φ : Type v) (ε : Type w)
  | incomplete
  | packet (p : φ) (consumed : Nat)
  | failed (e : ε)
  deriving DecidableEq

/-- A decoder whose answers are final: a packet takes something, no more than there is, and neither a
packet nor a failure is taken back when more arrives. -/
structure PacketDecoder (α : Type u) (φ : Type v) (ε : Type w) where
  decode : List α → Decoded φ ε
  decode_nil : decode [] = .incomplete
  consumed_pos {l : List α} {p : φ} {n : Nat} : decode l = .packet p n → 0 < n
  consumed_le {l : List α} {p : φ} {n : Nat} : decode l = .packet p n → n ≤ l.length
  packet_append {l : List α} {p : φ} {n : Nat} (m : List α) :
    decode l = .packet p n → decode (l ++ m) = .packet p n
  failed_append {l : List α} {e : ε} (m : List α) :
    decode l = .failed e → decode (l ++ m) = .failed e

/-- What draining a buffer gives: the packets, what is left, and the failure that ended it. -/
@[ext] structure Drained (α : Type u) (φ : Type v) (ε : Type w) where
  packets : List φ
  rest : List α
  failure : Option ε
  deriving DecidableEq

namespace PacketDecoder

variable (D : PacketDecoder α φ ε)

/-- Take at most `fuel` packets off a buffer. -/
def drainFuel : Nat → List α → Drained α φ ε
  | 0, l => ⟨[], l, none⟩
  | fuel + 1, l => match D.decode l with
    | .incomplete => ⟨[], l, none⟩
    | .failed e => ⟨[], l, some e⟩
    | .packet p n =>
      { drainFuel fuel (l.drop n) with packets := p :: (drainFuel fuel (l.drop n)).packets }

theorem drainFuel_succ (fuel : Nat) (l : List α) : D.drainFuel (fuel + 1) l = match D.decode l with
    | .incomplete => ⟨[], l, none⟩
    | .failed e => ⟨[], l, some e⟩
    | .packet p n =>
      { D.drainFuel fuel (l.drop n) with packets := p :: (D.drainFuel fuel (l.drop n)).packets } := rfl

/-- Take packets off a buffer until the decoder asks for more or fails. -/
def drain (l : List α) : Drained α φ ε := D.drainFuel (l.length + 1) l

theorem drainFuel_eq {n m : Nat} {l : List α} (hn : l.length < n) (hm : l.length < m) :
    D.drainFuel n l = D.drainFuel m l := by
  induction n generalizing m l with
  | zero => exact absurd hn (Nat.not_lt_zero _)
  | succ n ih =>
    obtain ⟨m, rfl⟩ : ∃ k, m = k + 1 := ⟨m - 1, by omega⟩
    rw [drainFuel_succ, drainFuel_succ]
    cases hd : D.decode l with
    | incomplete => rfl
    | failed e => rfl
    | packet p k =>
      have hpos := D.consumed_pos hd
      have hle := D.consumed_le hd
      have hlen : (l.drop k).length = l.length - k := List.length_drop
      simp only [ih (m := m) (l := l.drop k) (by omega) (by omega)]

theorem drain_of_incomplete {l : List α} (h : D.decode l = .incomplete) :
    D.drain l = ⟨[], l, none⟩ := by
  rw [drain, drainFuel_succ, h]

theorem drain_of_failed {l : List α} {e : ε} (h : D.decode l = .failed e) :
    D.drain l = ⟨[], l, some e⟩ := by
  rw [drain, drainFuel_succ, h]

theorem drain_of_packet {l : List α} {p : φ} {n : Nat} (h : D.decode l = .packet p n) :
    D.drain l = { D.drain (l.drop n) with packets := p :: (D.drain (l.drop n)).packets } := by
  have hpos := D.consumed_pos h
  have hle := D.consumed_le h
  have hlen : (l.drop n).length = l.length - n := List.length_drop
  rw [drain, drainFuel_succ, h]
  simp only [drain, D.drainFuel_eq (n := l.length) (m := (l.drop n).length + 1) (l := l.drop n)
    (by omega) (by omega)]

theorem drain_induction {motive : List α → Prop}
    (incomplete : ∀ l, D.decode l = .incomplete → motive l)
    (failed : ∀ l e, D.decode l = .failed e → motive l)
    (packet : ∀ l p n, D.decode l = .packet p n → motive (l.drop n) → motive l) (l : List α) :
    motive l := by
  induction hlen : l.length using Nat.strongRecOn generalizing l with
  | ind k ih =>
    cases hd : D.decode l with
    | incomplete => exact incomplete l hd
    | failed e => exact failed l e hd
    | packet p n =>
      have hpos := D.consumed_pos hd
      have hle := D.consumed_le hd
      refine packet l p n hd (ih (l.drop n).length ?_ (l.drop n) rfl)
      rw [List.length_drop]
      omega

/-- What is left after draining is not enough for a packet, or fails as reported. -/
theorem decode_rest (l : List α) :
    D.decode (D.drain l).rest = match (D.drain l).failure with
      | none => .incomplete
      | some e => .failed e := by
  induction l using D.drain_induction with
  | incomplete l h => rw [D.drain_of_incomplete h]; exact h
  | failed l e h => rw [D.drain_of_failed h]; exact h
  | packet l p n h ih => rw [D.drain_of_packet h]; exact ih

theorem decode_rest_ne_packet (l : List α) (p : φ) (n : Nat) :
    D.decode (D.drain l).rest ≠ .packet p n := by
  rw [D.decode_rest]
  split <;> nofun

/-- Go on with what is left when more arrives; after a failure nothing more is looked at. -/
def extend (d : Drained α φ ε) (chunk : List α) : Drained α φ ε :=
  match d.failure with
  | none =>
    { D.drain (d.rest ++ chunk) with
      packets := d.packets ++ (D.drain (d.rest ++ chunk)).packets }
  | some _ => { d with rest := d.rest ++ chunk }

/-- **Draining part by part.** What is left of the first part goes in front of the second. -/
theorem drain_append (l m : List α) : D.drain (l ++ m) = D.extend (D.drain l) m := by
  induction l using D.drain_induction with
  | incomplete l h =>
    rw [D.drain_of_incomplete h, extend]
    rfl
  | failed l e h => rw [D.drain_of_failed h, D.drain_of_failed (D.failed_append m h)]; rfl
  | packet l p n h ih =>
    have hdrop : (l ++ m).drop n = l.drop n ++ m := List.drop_append_of_le_length (D.consumed_le h)
    rw [D.drain_of_packet h, D.drain_of_packet (D.packet_append m h), hdrop, ih]
    simp only [extend]
    split <;> rfl

/-! ## Encoded packets -/

variable {μ : Type*}

/-- A message whose encoding the decoder recognises: as what it means wherever it stands in front, and
as nothing yet when less of it does. -/
structure Recognises (encode : μ → List α) (meaning : μ → φ) (m : μ) : Prop where
  decode_append (more : List α) :
    D.decode (encode m ++ more) = .packet (meaning m) (encode m).length
  decode_prefix {l : List α} : l <+: encode m → l ≠ encode m → D.decode l = .incomplete

variable {D} {encode : μ → List α} {meaning : μ → φ}

theorem Recognises.drain_append {m : μ} (h : D.Recognises encode meaning m) (more : List α) :
    D.drain (encode m ++ more) =
      { D.drain more with packets := meaning m :: (D.drain more).packets } := by
  rw [D.drain_of_packet (h.decode_append more), List.drop_left]

/-- **Draining an encoded stream.** All that its messages mean comes off, in order, and nothing is
left. -/
theorem drain_flatMap {ms : List μ} (h : ∀ m ∈ ms, D.Recognises encode meaning m) :
    D.drain (ms.flatMap encode) = ⟨ms.map meaning, [], none⟩ := by
  induction ms with
  | nil => exact D.drain_of_incomplete D.decode_nil
  | cons m ms ih =>
    rw [List.flatMap_cons, (h m List.mem_cons_self).drain_append,
      ih fun q hq => h q (List.mem_cons_of_mem m hq)]
    rfl

/-- **Draining the beginning of an encoded stream.** The packets that come off are the first ones of
the stream, nothing fails, and what is left is less than the next message. -/
theorem drain_of_prefix {ms : List μ} (h : ∀ m ∈ ms, D.Recognises encode meaning m) {l : List α}
    (hl : l <+: ms.flatMap encode) :
    ∃ done rest, ms = done ++ rest ∧ (D.drain l).packets = done.map meaning ∧
      (D.drain l).failure = none ∧ l = done.flatMap encode ++ (D.drain l).rest := by
  induction ms generalizing l with
  | nil =>
    obtain rfl : l = [] := List.prefix_nil.mp hl
    rw [D.drain_of_incomplete D.decode_nil]
    exact ⟨[], [], rfl, rfl, rfl, rfl⟩
  | cons m ms ih =>
    have hm := h m List.mem_cons_self
    have hstream : encode m <+: (m :: ms).flatMap encode := List.prefix_append _ _
    by_cases hwhole : encode m <+: l
    · -- the message is whole, and what follows begins the rest of the stream
      obtain ⟨l', rfl⟩ := hwhole
      have hl' : l' <+: ms.flatMap encode := (List.prefix_append_right_inj _).mp hl
      obtain ⟨done, rest, rfl, hpackets, hfailure, hsplit⟩ :=
        ih (fun q hq => h q (List.mem_cons_of_mem m hq)) hl'
      rw [hm.drain_append]
      refine ⟨m :: done, rest, rfl, ?_, hfailure, ?_⟩
      · simp only [hpackets, List.map_cons]
      · rw [List.flatMap_cons, List.append_assoc]
        exact congrArg (encode m ++ ·) hsplit
    · have hpart : l <+: encode m :=
        (List.prefix_or_prefix_of_prefix hl hstream).resolve_right hwhole
      have hne : l ≠ encode m := fun h => hwhole (h ▸ List.prefix_rfl)
      rw [D.drain_of_incomplete (hm.decode_prefix hpart hne)]
      exact ⟨[], m :: ms, rfl, rfl, rfl, rfl⟩

theorem decode_ne_failed_of_prefix {ms : List μ} (h : ∀ m ∈ ms, D.Recognises encode meaning m)
    {l : List α} (hl : l <+: ms.flatMap encode) (e : ε) : D.decode l ≠ .failed e := by
  intro hfailed
  obtain ⟨done, rest, -, -, hfailure, -⟩ := drain_of_prefix h hl
  rw [D.drain_of_failed hfailed] at hfailure
  cases hfailure

/-- What is not enough does not begin with a recognised message. -/
theorem Recognises.not_isPrefix {m : μ} (h : D.Recognises encode meaning m) {l : List α}
    (hl : D.decode l = .incomplete) : ¬ encode m <+: l := by
  rintro ⟨more, rfl⟩
  rw [h.decode_append] at hl
  cases hl

end PacketDecoder

end Pinout.Foundation
