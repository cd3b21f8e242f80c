import Mathlib.Data.List.Basic
import Mathlib.Tactic.Ring

/-! # Big-endian numbers

A number as a fixed count of bytes, most significant byte first, and back (`ofBigEndian_bigEndian`),
whatever the count. -/

namespace Pinout.Foundation

/-- The `k` low bytes of a number, most significant byte first. -/
def bigEndian : Nat → Nat → List UInt8
  | 0, _ => []
  | k + 1, n => (n / 256 ^ k).toUInt8 :: bigEndian k n

/-- The number that bytes are, most significant byte first. -/
def ofBigEndian : List UInt8 → Nat
  | [] => 0
  | b :: bytes => b.toNat * 256 ^ bytes.length + ofBigEndian bytes

@[simp] theorem length_bigEndian (k n : Nat) : (bigEndian k n).length = k := by
  induction k with
  | zero => rfl
  | succ k ih => rw [bigEndian, List.length_cons, ih]

@[simp] theorem toNat_toUInt8_mod (n : Nat) : n.toUInt8.toNat = n % 256 := by
  exact UInt8.toNat_ofNat'

theorem ofBigEndian_bigEndian_mod (k n : Nat) : ofBigEndian (bigEndian k n) = n % 256 ^ k := by
  induction k with
  | zero => rw [pow_zero, Nat.mod_one]; rfl
  | succ k ih =>
    rw [bigEndian, ofBigEndian, ih, length_bigEndian, toNat_toUInt8_mod, pow_succ, Nat.mod_mul]
    ring

theorem ofBigEndian_bigEndian {k n : Nat} (h : n < 256 ^ k) : ofBigEndian (bigEndian k n) = n := by
  rw [ofBigEndian_bigEndian_mod, Nat.mod_eq_of_lt h]

theorem bigEndian_add (j k n : Nat) :
    bigEndian (j + k) n = bigEndian j (n / 256 ^ k) ++ bigEndian k n := by
  induction j with
  | zero => rw [Nat.zero_add]; rfl
  | succ j ih =>
    rw [Nat.succ_add, bigEndian, bigEndian, ih, Nat.div_div_eq_div_mul, ← pow_add, Nat.add_comm k j]
    rfl

theorem ofBigEndian_pair (high low : UInt8) :
    ofBigEndian [high, low] = high.toNat * 256 + low.toNat := by
  simp [ofBigEndian]

/-! ## Reading at an offset -/

/-- The number in `k` bytes from an offset on. -/
def readBigEndian (k : Nat) (bytes : List UInt8) (offset : Nat) : Nat :=
  ofBigEndian ((bytes.drop offset).take k)

/-- A number that is written behind other bytes is read behind them. -/
theorem readBigEndian_append (k n : Nat) (before after : List UInt8) :
    readBigEndian k (before ++ (bigEndian k n ++ after)) before.length = n % 256 ^ k := by
  have hlen : k = (bigEndian k n).length := (length_bigEndian k n).symm
  rw [readBigEndian, List.drop_left]
  nth_rewrite 1 [hlen]
  rw [List.take_left, ofBigEndian_bigEndian_mod]

/-- Numbers that are written one behind the other are read at multiples of their width. -/
theorem map_readBigEndian_range (k : Nat) (ns : List Nat) (before after : List UInt8) :
    (List.range ns.length).map (fun i =>
        readBigEndian k (before ++ (ns.flatMap (bigEndian k) ++ after)) (before.length + i * k)) =
      ns.map (· % 256 ^ k) := by
  induction ns generalizing before with
  | nil => rfl
  | cons n ns ih =>
    have ih := ih (before ++ bigEndian k n)
    rw [List.length_cons, List.range_succ_eq_map, List.map_cons, List.map_cons, List.map_map,
      List.flatMap_cons]
    congr 1
    · rw [Nat.zero_mul, Nat.add_zero, List.append_assoc, readBigEndian_append]
    · rw [← ih, List.length_append, length_bigEndian]
      refine List.map_congr_left fun i _ => ?_
      have hoffset : before.length + (i + 1) * k = before.length + k + i * k := by ring
      simp only [Function.comp_apply, Nat.succ_eq_add_one, hoffset, List.append_assoc]

end Pinout.Foundation
