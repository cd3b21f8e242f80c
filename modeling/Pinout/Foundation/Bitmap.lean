import Mathlib.Data.List.Basic
import Mathlib.Data.Nat.Bitwise

/-! # Bits in bytes

Bits in a list of bytes, numbered from the low bit of the first byte on: reading one, setting one, and
setting those of the first `n` that a predicate selects. A bit that is read is one that was set, or one
that was there before (`getBit_setBits`). -/

namespace Pinout.Foundation

/-- Bit `i` of a list of bytes; behind the last byte there are only zeros. -/
def getBit (bytes : List UInt8) (i : Nat) : Bool := (bytes[i / 8]?.getD 0).toNat.testBit (i % 8)

/-- Set bit `i`. -/
def setBit (bytes : List UInt8) (i : Nat) : List UInt8 :=
  bytes.modify (i / 8) fun byte => byte ||| (2 ^ (i % 8)).toUInt8

/-- Set those of the first `n` bits that the predicate selects. -/
def setBits (p : Nat → Bool) (n : Nat) (bytes : List UInt8) : List UInt8 :=
  (List.range n).foldl (fun bytes i => if p i then setBit bytes i else bytes) bytes

theorem testBit_or_pow (byte : UInt8) {i j : Nat} (hi : i < 8) :
    (byte ||| (2 ^ i).toUInt8).toNat.testBit j = (decide (i = j) || byte.toNat.testBit j) := by
  have hpow : (2 ^ i).toUInt8.toNat = 2 ^ i := by
    have hlt : 2 ^ i < 256 := Nat.pow_lt_pow_right (by decide) hi
    exact (UInt8.toNat_ofNat' (n := 2 ^ i)).trans (Nat.mod_eq_of_lt hlt)
  rw [UInt8.toNat_or, hpow, Nat.testBit_or, Nat.testBit_two_pow, Bool.or_comm]

@[simp] theorem length_setBit (bytes : List UInt8) (i : Nat) :
    (setBit bytes i).length = bytes.length := List.length_modify ..

@[simp] theorem length_setBits (p : Nat → Bool) (n : Nat) (bytes : List UInt8) :
    (setBits p n bytes).length = bytes.length := by
  rw [setBits]
  induction List.range n generalizing bytes with
  | nil => rfl
  | cons i l ih =>
    rw [List.foldl_cons, ih]
    split
    · exact length_setBit bytes i
    · rfl

/-- **A bit that is read** is the one that was set, or was there before. -/
theorem getBit_setBit {bytes : List UInt8} {i : Nat} (h : i / 8 < bytes.length) (j : Nat) :
    getBit (setBit bytes i) j = (decide (i = j) || getBit bytes j) := by
  rw [getBit, getBit, setBit, List.getElem?_modify]
  by_cases hbyte : i / 8 = j / 8
  · have hj : j / 8 < bytes.length := hbyte ▸ h
    have hbit : decide (i % 8 = j % 8) = decide (i = j) := by
      refine decide_eq_decide.mpr ⟨fun h => ?_, fun h => h ▸ rfl⟩
      omega
    simp only [if_pos hbyte, List.getElem?_eq_getElem hj, Option.map_eq_map, Option.map_some,
      Option.getD_some]
    rw [testBit_or_pow _ (Nat.mod_lt _ (by decide)), hbit]
  · have hne : decide (i = j) = false := decide_eq_false fun heq => hbyte (heq ▸ rfl)
    simp only [if_neg hbyte, Option.map_eq_map, Option.map_id', hne, Bool.false_or]

/-- **Bits that are read** are those that were set, or were there before. -/
theorem getBit_setBits {p : Nat → Bool} {n : Nat} {bytes : List UInt8} (h : n ≤ 8 * bytes.length)
    (j : Nat) : getBit (setBits p n bytes) j = (decide (j < n) && p j || getBit bytes j) := by
  induction n with
  | zero => simp [setBits]
  | succ n ih =>
    have ih := ih (Nat.le_of_succ_le h)
    have hsucc : setBits p (n + 1) bytes =
        if p n then setBit (setBits p n bytes) n else setBits p n bytes := by
      rw [setBits, List.range_succ, List.foldl_append]
      rfl
    have hroom : n / 8 < (setBits p n bytes).length := by
      rw [length_setBits]
      omega
    have hlt : decide (j < n + 1) = (decide (n = j) || decide (j < n)) := by
      rw [← Bool.decide_or]
      exact decide_eq_decide.mpr (by omega)
    rw [hsucc]
    split
    · next hp =>
      rw [getBit_setBit hroom, ih, hlt]
      by_cases hj : n = j
      · subst hj
        simp [hp]
      · simp [hj]
    · next hp =>
      rw [ih, hlt]
      by_cases hj : n = j
      · subst hj
        simp [hp]
      · simp [hj]

@[simp] theorem getBit_replicate (n j : Nat) : getBit (List.replicate n 0) j = false := by
  rw [getBit, List.getElem?_replicate]
  split <;> simp

end Pinout.Foundation
