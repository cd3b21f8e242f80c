import Pinout.Foundation.Utf8

/-! # Bytes that are cut

What `Buffer.toString('utf8')` makes of bytes that end inside a character, and of what is written behind them: a basic
character starts afresh (`decodeBytes_append`), and what is left of the cut one is replaced (`decodeBytes_cut`). -/

namespace Pinout.Foundation

namespace Utf8State

/-- What is read between two bytes: nothing is left over between characters, and no basic byte goes on a character. -/
structure Sane (s : Utf8State) : Prop where
  ready : s.bytesNeeded = 0 → s = {}
  lower : 0x80 ≤ s.lowerBoundary

theorem sane_new : Sane {} := ⟨fun _ => rfl, le_refl _⟩

theorem sane_lead (byte : Nat) : Sane (lead byte).1 := by
  unfold lead
  split_ifs
  · exact sane_new
  · exact ⟨nofun, le_refl _⟩
  all_goals
    first
    | exact sane_new
    | exact ⟨nofun, by dsimp only; omega⟩

theorem sane_next {s : Utf8State} (byte : Nat) : (s.next byte).1.Sane := by
  unfold Utf8State.next
  split_ifs with hneeded
  · exact sane_lead byte
  · exact sane_lead byte
  · exact sane_new
  · exact ⟨fun hzero => absurd hzero hneeded, le_refl _⟩

theorem Sane.read {s : Utf8State} (h : s.Sane) (bytes : List Nat) : (s.read bytes).1.Sane := by
  induction bytes generalizing s with
  | nil => exact h
  | cons byte bytes ih => exact ih (sane_next byte)

/-- What stands for a character that does not go on. -/
def pending (s : Utf8State) : List Nat := if s.bytesNeeded = 0 then [] else [replacementCharacter]

theorem Sane.next_basic {s : Utf8State} (h : s.Sane) {byte : Nat} (hbyte : byte < 0x80) :
    s.next byte = ({}, s.pending ++ [byte]) := by
  have hlead : lead byte = ({}, [byte]) := if_pos (by omega)
  have hlower := h.lower
  unfold Utf8State.next pending
  by_cases hneeded : s.bytesNeeded = 0
  · rw [if_pos hneeded, if_pos hneeded, hlead]
    rfl
  · rw [if_neg hneeded, if_neg hneeded, if_pos (.inl (by omega)), hlead]
    rfl

theorem bytesNeeded_of_next {s : Utf8State} {byte : Nat} (h : (s.next byte).2 = []) :
    (s.next byte).1.bytesNeeded ≠ 0 := by
  have hlead : ∀ byte, (lead byte).2 = [] → (lead byte).1.bytesNeeded ≠ 0 := by
    intro byte
    unfold lead
    split_ifs <;> simp
  unfold Utf8State.next at h ⊢
  by_cases hneeded : s.bytesNeeded = 0
  · rw [if_pos hneeded] at h ⊢
    exact hlead byte h
  · rw [if_neg hneeded] at h ⊢
    split_ifs at h ⊢
    exact hneeded

theorem bytesNeeded_of_read {s : Utf8State} {bytes : List Nat} (hne : bytes ≠ []) (h : (s.read bytes).2 = []) :
    (s.read bytes).1.bytesNeeded ≠ 0 := by
  induction bytes generalizing s with
  | nil => exact absurd rfl hne
  | cons byte bytes ih =>
    obtain ⟨hfirst, hrest⟩ := List.append_eq_nil_iff.mp h
    by_cases hnil : bytes = []
    · subst hnil
      exact bytesNeeded_of_next hfirst
    · exact ih hnil hrest

end Utf8State

/-- `toString('utf8')` of a buffer: a byte order mark stays. -/
def decodeBytes (bytes : List UInt8) : JsString :=
  let read := Utf8State.read {} (bytes.map UInt8.toNat)
  (read.2 ++ read.1.pending).flatMap codePointUnits

@[simp] theorem decodeBytes_nil : decodeBytes [] = [] := rfl

/-- **A basic character starts afresh**: what is before it is decoded on its own. -/
theorem decodeBytes_append (bytes : List UInt8) {more : List UInt8} (hmore : ∀ b ∈ more.head?, b.toNat < 0x80) :
    decodeBytes (bytes ++ more) = decodeBytes bytes ++ decodeBytes more := by
  cases more with
  | nil => rw [List.append_nil, decodeBytes_nil, List.append_nil]
  | cons b more =>
    have hsane := Utf8State.sane_new.read (bytes.map UInt8.toNat)
    have hb := hsane.next_basic (hmore b rfl)
    have hb' := Utf8State.sane_new.next_basic (hmore b rfl)
    simp only [decodeBytes, List.map_append, List.map_cons, Utf8State.read_append, Utf8State.read, hb, hb']
    simp [Utf8State.pending, List.flatMap_append]

theorem decodeBytes_append_of_basic {bytes : List UInt8} {b : UInt8} (hb : b.toNat < 0x80) (more : List UInt8) :
    decodeBytes (bytes ++ [b] ++ more) = decodeBytes (bytes ++ [b]) ++ decodeBytes more := by
  have hsane := Utf8State.sane_new.read (bytes.map UInt8.toNat)
  have hnext := hsane.next_basic hb
  simp only [decodeBytes, List.map_append, List.map_cons, List.map_nil, Utf8State.read_append, Utf8State.read, hnext]
  simp [Utf8State.pending, List.flatMap_append]

theorem map_toNat_encodeUtf8 {ns : List Nat} (hns : ∀ n ∈ ns, IsScalar n) :
    (encodeUtf8 (ns.flatMap codePointUnits)).map UInt8.toNat = ns.flatMap codePointBytes := by
  rw [encodeUtf8, codePoints_flatMap hns, List.map_map]
  refine (List.map_congr_left fun b hb => ?_).trans (List.map_id _)
  obtain ⟨n, hn, hb⟩ := List.mem_flatMap.mp hb
  exact toNat_toUInt8 (lt_of_mem_codePointBytes (hns n hn) hb)

/-- **Round trip.** -/
theorem decodeBytes_encodeUtf8 {s : JsString} (h : WellFormed s) : decodeBytes (encodeUtf8 s) = s := by
  obtain ⟨ns, hns, rfl⟩ := h
  simp only [decodeBytes, map_toNat_encodeUtf8 hns, Utf8State.read_flatMap hns]
  simp [Utf8State.pending]

theorem codePointUnits_ne_nil (n : Nat) : codePointUnits n ≠ [] := by
  unfold codePointUnits
  split_ifs <;> exact List.cons_ne_nil _ _

/-- **A cut encoding** is decoded as the beginning of the text, with a replacement where a character is cut. -/
theorem decodeBytes_cut {s : JsString} (h : WellFormed s) {bytes : List UInt8} (hpart : bytes <+: encodeUtf8 s)
    (hne : bytes ≠ encodeUtf8 s) :
    ∃ front rest, s = front ++ rest ∧ rest ≠ [] ∧
      (decodeBytes bytes = front ∨ decodeBytes bytes = front ++ [0xFFFD]) := by
  obtain ⟨ns, hns, rfl⟩ := h
  obtain ⟨more, hmore⟩ := hpart
  have hmore_ne : more ≠ [] := by
    rintro rfl
    exact hne (by rw [← hmore, List.append_nil])
  have hread := Utf8State.read_flatMap hns
  rw [← map_toNat_encodeUtf8 hns, ← hmore, List.map_append, Utf8State.read_append, Prod.mk.injEq] at hread
  obtain ⟨hstate, hpoints⟩ := hread
  refine ⟨((Utf8State.read {} (bytes.map UInt8.toNat)).2).flatMap codePointUnits,
    ((Utf8State.read {} (bytes.map UInt8.toNat)).1.read (more.map UInt8.toNat)).2.flatMap codePointUnits, ?_, ?_, ?_⟩
  · rw [← List.flatMap_append, hpoints]
  · -- the rest completes at least the character that is cut
    intro hnil
    have hpoints_ne : ((Utf8State.read {} (bytes.map UInt8.toNat)).1.read (more.map UInt8.toNat)).2 ≠ [] := by
      intro hempty
      have hneeded := Utf8State.bytesNeeded_of_read (by simpa using hmore_ne) hempty
      rw [hstate] at hneeded
      exact hneeded rfl
    obtain ⟨n, tail, htail⟩ := List.exists_cons_of_ne_nil hpoints_ne
    rw [htail, List.flatMap_cons] at hnil
    exact codePointUnits_ne_nil n (List.append_eq_nil_iff.mp hnil).1
  · simp only [decodeBytes, Utf8State.pending]
    split_ifs
    · exact .inl (by rw [List.append_nil])
    · exact .inr (by rw [List.flatMap_append]; rfl)

end Pinout.Foundation
