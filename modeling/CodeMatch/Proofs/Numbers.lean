import CodeMatch.Bytes
import Mathlib.Data.List.Induction
import Mathlib.Tactic.Common

/-!
# Numbers in bytes

* `Bytes.toNat_lt`        `w` bytes write numbers below the capacity of `w`;
* `Bytes.ofNat_add`, `Bytes.ofNat_mul_add`   a wide number is its high bytes and then its low bytes;
* `Bytes.ofNat_zero`, `Bytes.ofNat_pred_capacity`   the least and the greatest number;
* `Bytes.ofNat_of_lt`     a number that fits into the low bytes has zeros before them;
* `Bytes.ofNat_toNat`     bytes are determined by their width and the number that they write.
-/

namespace CodeMatch.Bytes

theorem capacity_add (k w : Nat) : capacity (k + w) = capacity k * capacity w :=
  Nat.pow_add 256 k w

theorem toNat_lt (b : Bytes) : toNat b < capacity b.length := by
  induction b using List.reverseRecOn with
  | nil => exact Nat.one_pos
  | append_singleton b x ih =>
    have hx : x.toNat < 256 := x.toNat_lt
    rw [toNat_append_singleton, List.length_append, List.length_singleton, capacity_succ]
    omega

theorem ofNat_add (k w n : Nat) : ofNat (k + w) n = ofNat k (n / capacity w) ++ ofNat w n := by
  induction w generalizing n with
  | zero => rw [capacity_zero, Nat.div_one, ofNat, List.append_nil, Nat.add_zero]
  | succ w ih =>
    rw [← Nat.add_assoc, ofNat, ih, ofNat, capacity_succ, Nat.div_div_eq_div_mul,
      Nat.mul_comm 256, List.append_assoc]

theorem ofNat_zero (w : Nat) : ofNat w 0 = zeros w := by
  induction w with
  | zero => rfl
  | succ w ih =>
    rw [ofNat, Nat.zero_div, ih, zeros, zeros, List.replicate_succ']
    rfl

/-- the greatest number that `w` bytes can write has all bits set -/
theorem ofNat_pred_capacity (w : Nat) : ofNat w (capacity w - 1) = List.replicate w 0xff := by
  induction w with
  | zero => rfl
  | succ w ih =>
    have hpos := capacity_pos w
    have hdiv : (capacity w * 256 - 1) / 256 = capacity w - 1 := by omega
    have hmod : (capacity w * 256 - 1) % 256 = 255 := by omega
    have hlast : UInt8.ofNat (capacity w * 256 - 1) = 0xff := by
      apply UInt8.toNat_inj.mp
      rw [UInt8.toNat_ofNat']
      exact hmod
    rw [ofNat, capacity_succ, hdiv, ih, hlast, List.replicate_succ']

/-- `w` bytes hold the rest modulo their capacity -/
theorem ofNat_mul_add_low (w q n : Nat) : ofNat w (q * capacity w + n) = ofNat w n := by
  induction w generalizing n with
  | zero => rfl
  | succ w ih =>
    have hdiv : (q * (capacity w * 256) + n) / 256 = q * capacity w + n / 256 := by
      rw [← Nat.mul_assoc]
      omega
    have hlast : UInt8.ofNat (q * (capacity w * 256) + n) = UInt8.ofNat n := by
      apply UInt8.toNat_inj.mp
      rw [UInt8.toNat_ofNat', UInt8.toNat_ofNat', ← Nat.mul_assoc]
      omega
    rw [ofNat, ofNat, capacity_succ, hdiv, ih, hlast]

/-- high bytes and low bytes, written on their own -/
theorem ofNat_mul_add {k w q n : Nat} (h : n < capacity w) :
    ofNat (k + w) (q * capacity w + n) = ofNat k q ++ ofNat w n := by
  have hdiv : (q * capacity w + n) / capacity w = q := by
    rw [Nat.mul_comm, Nat.mul_add_div (capacity_pos w), Nat.div_eq_of_lt h, Nat.add_zero]
  rw [ofNat_add, hdiv, ofNat_mul_add_low]

/-- a number that needs `w` bytes only -/
theorem ofNat_of_lt {k w n : Nat} (h : n < capacity w) :
    ofNat (k + w) n = zeros k ++ ofNat w n := by
  rw [ofNat_add, Nat.div_eq_of_lt h, ofNat_zero]

theorem toNat_ofNat_of_lt {w n : Nat} (h : n < capacity w) : toNat (ofNat w n) = n := by
  rw [toNat_ofNat, Nat.mod_eq_of_lt h]

theorem ofNat_toNat (b : Bytes) : ofNat b.length (toNat b) = b := by
  induction b using List.reverseRecOn with
  | nil => rfl
  | append_singleton b x ih =>
    have hx : x.toNat < 256 := x.toNat_lt
    have hdiv : (256 * toNat b + x.toNat) / 256 = toNat b := by omega
    have hlast : UInt8.ofNat (256 * toNat b + x.toNat) = x := by
      apply UInt8.toNat_inj.mp
      rw [UInt8.toNat_ofNat']
      omega
    rw [toNat_append_singleton, List.length_append, List.length_singleton, ofNat, hdiv, hlast, ih]

end CodeMatch.Bytes
