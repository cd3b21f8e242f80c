import Pinout.Foundation.Utf8

/-! # Reading the bytes of a text

A reader that goes from byte to byte, takes all bytes outside of the basic characters alike, and one of them like
several: it reads the UTF-8 encoding of a text as it would read the units of the text. -/

namespace Pinout.Foundation

variable {σ : Type*} {step : σ → Nat → σ}

/-- All numbers outside of the basic characters are taken alike, and one of them like several. -/
structure TakesWide (step : σ → Nat → σ) : Prop where
  alike : ∀ s {n m}, 0x80 ≤ n → 0x80 ≤ m → step s n = step s m
  again : ∀ s {n}, 0x80 ≤ n → step (step s n) n = step s n

/-- Several numbers outside of the basic characters are taken like one. -/
theorem TakesWide.foldl_cons (h : TakesWide step) (s : σ) {n m : Nat} {ns : List Nat} (hn : 0x80 ≤ n) (hm : 0x80 ≤ m)
    (hns : ∀ k ∈ ns, 0x80 ≤ k) : (n :: ns).foldl step s = step s m := by
  induction ns generalizing s n with
  | nil => exact h.alike s hn hm
  | cons k ns ih =>
    rw [List.forall_mem_cons] at hns
    rw [List.foldl_cons, ih (step s n) hns.1 hns.2, h.alike (step s n) hm hn, h.again s hn, h.alike s hn hm]

/-- The bytes of a code point outside of the basic characters are outside of them. -/
theorem exists_codePointBytes {n : Nat} (h : 0x80 ≤ n) :
    ∃ b bs, codePointBytes n = b :: bs ∧ 0x80 ≤ b ∧ ∀ k ∈ bs, 0x80 ≤ k := by
  unfold codePointBytes
  rw [if_neg (by omega)]
  split
  · exact ⟨_, _, rfl, by omega, by simp⟩
  · split
    · exact ⟨_, _, rfl, by omega, by simp⟩
    · exact ⟨_, _, rfl, by omega, by simp⟩

/-- **The bytes of a code point** are taken like a unit of it. -/
theorem TakesWide.foldl_codePointBytes (h : TakesWide step) (s : σ) {n m : Nat} (hnm : n = m ∨ 0x80 ≤ n ∧ 0x80 ≤ m) :
    (codePointBytes n).foldl step s = step s m := by
  by_cases hn : n < 0x80
  · obtain rfl : n = m := by omega
    rw [codePointBytes, if_pos hn]
    rfl
  · obtain ⟨b, bs, hbytes, hb, hbs⟩ := exists_codePointBytes (Nat.le_of_not_lt hn)
    rw [hbytes]
    exact h.foldl_cons s hb (by omega) hbs

/-- The code point of a unit alone is the unit, or both are outside of the basic characters. -/
theorem codePoint_unit (u : UInt16) : (if isLead u || isTrail u then replacementCharacter else u.toNat) = u.toNat ∨
    0x80 ≤ (if isLead u || isTrail u then replacementCharacter else u.toNat) ∧ 0x80 ≤ u.toNat := by
  by_cases hu : isLead u || isTrail u
  · rw [if_pos hu]
    simp only [isLead, isTrail, Bool.or_eq_true, decide_eq_true_eq] at hu
    exact .inr ⟨by decide, by omega⟩
  · rw [if_neg hu]
    exact .inl rfl

/-- **The encoding of a text** is read as its units are. -/
theorem TakesWide.foldl_encodeUtf8 (h : TakesWide step) (text : JsString) (s : σ) :
    (encodeUtf8 text).foldl (fun s b => step s b.toNat) s = text.foldl (fun s u => step s u.toNat) s := by
  have hpoints : ∀ s, ((codePoints text).flatMap codePointBytes).foldl step s =
      text.foldl (fun s u => step s u.toNat) s := by
    induction text using codePoints.induct with
    | case1 => exact fun _ => rfl
    | case2 u =>
      intro s
      rw [codePoints, List.flatMap_singleton, h.foldl_codePointBytes s (codePoint_unit u)]
      rfl
    | case3 u v rest hpair ih =>
      intro s
      have hwide : 0x80 ≤ u.toNat ∧ 0x80 ≤ v.toNat := by
        simp only [isLead, isTrail, Bool.and_eq_true, decide_eq_true_eq] at hpair
        omega
      have htwo : step s u.toNat = step (step s u.toNat) v.toNat := by
        rw [h.alike (step s u.toNat) hwide.2 hwide.1, h.again s hwide.1]
      rw [codePoints, if_pos hpair, List.flatMap_cons, List.foldl_append, ih,
        h.foldl_codePointBytes s (.inr ⟨by unfold pairValue; omega, hwide.1⟩), List.foldl_cons, List.foldl_cons, ← htwo]
    | case4 u v rest hpair ih =>
      intro s
      rw [codePoints, if_neg hpair, List.flatMap_cons, List.foldl_append, ih,
        h.foldl_codePointBytes s (codePoint_unit u)]
      rfl
  have hbytes : ∀ b ∈ (codePoints text).flatMap codePointBytes, b < 0x100 := by
    intro b hb
    obtain ⟨n, hn, hbn⟩ := List.mem_flatMap.mp hb
    exact lt_of_mem_codePointBytes (isScalar_of_mem_codePoints hn).1 hbn
  rw [encodeUtf8, List.foldl_map, ← hpoints s]
  refine List.foldl_ext _ _ s fun t b hb => ?_
  rw [toNat_toUInt8 (hbytes b hb)]

end Pinout.Foundation
