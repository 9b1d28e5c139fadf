import CodeMatch.Abi.Codec
import CodeMatch.Proofs.Abi.Usable
import CodeMatch.Proofs.Numbers

/-!
# Words there and back

* `Word.length_encode`     a word fills 32 bytes;
* `Word.holds_of_decode`   what a word decodes to is a value of its type;
* `Word.decode_encode`     an encoded word decodes to its value, whatever its width and sign.
-/

namespace CodeMatch.Abi

open Bytes

theorem paddedWith_replicate (x : UInt8) (n : Nat) : paddedWith x (List.replicate n x) = true := by
  unfold paddedWith
  rw [List.all_eq_true]
  intro y hy
  rw [List.eq_of_mem_replicate hy]
  exact decide_eq_true rfl

theorem signedNumber_bounds (b : Bytes) :
    -(capacity b.length : Int) ≤ 2 * signedNumber b ∧
      2 * signedNumber b < capacity b.length := by
  have hlt := toNat_lt b
  unfold signedNumber
  dsimp only
  split <;> omega

/-- two's complement, read back -/
theorem signedNumber_ofNat {w m : Nat} {n : Int} (hm : m < capacity w)
    (hn : n = m ∧ 2 * m < capacity w ∨ n = (m : Int) - capacity w ∧ capacity w ≤ 2 * m) :
    signedNumber (ofNat w m) = n := by
  unfold signedNumber
  dsimp only
  rw [toNat_ofNat_of_lt hm, length_ofNat]
  split <;> omega

/-- the bytes of a word without its padding in front -/
theorem length_drop_padding {b : Bytes} {size : Nat} (hb : b.length = wordSize)
    (hu : size ≤ wordSize) : (b.drop (wordSize - size)).length = size := by
  rw [List.length_drop, hb]
  exact Nat.sub_sub_self hu

theorem ofNat_wordSize_of_lt {size n : Nat} (hu : size ≤ wordSize) (hn : n < capacity size) :
    ofNat wordSize n = zeros (wordSize - size) ++ ofNat size n := by
  rw [← ofNat_of_lt hn, Nat.sub_add_cancel hu]

namespace Word

variable {w : Word} {v : Value}

/-! ## what is decoded -/

theorem holds_of_decode (hu : w.Usable) {b : Bytes} (hb : b.length = wordSize)
    (h : w.decode b = .ok v) : w.Holds v := by
  cases w with
  | uint size =>
    have hlt := toNat_lt (b.drop (wordSize - size))
    rw [length_drop_padding hb hu] at hlt
    rw [Word.decode] at h
    obtain ⟨_, h⟩ := of_guard_eq_ok h
    cases h
    exact ⟨Int.natCast_nonneg _, Int.ofNat_lt.mpr hlt⟩
  | int size =>
    have hbounds := signedNumber_bounds (b.drop (wordSize - size))
    rw [length_drop_padding hb hu] at hbounds
    rw [Word.decode] at h
    obtain ⟨_, h⟩ := of_guard_eq_ok h
    cases h
    exact hbounds
  | bool =>
    rw [Word.decode] at h
    split at h
    case h_1 => cases h; trivial
    case h_2 => cases h; trivial
    case h_3 => cases h
  | bytes size =>
    rw [Word.decode] at h
    obtain ⟨_, h⟩ := of_guard_eq_ok h
    cases h
    show (b.take size).length = size
    rw [List.length_take, hb]
    exact Nat.min_eq_left hu

/-! ## what is encoded -/

theorem length_encode (hu : w.Usable) (hv : w.Holds v) : (w.encode v).length = wordSize := by
  cases w <;> cases v
  case uint.int => exact length_ofNat _ _
  case int.int => exact length_ofNat _ _
  case bool.bool => exact length_ofNat _ _
  case bytes.bytes size b =>
    have hb : b.length = size := hv
    show (b ++ zeros (wordSize - size)).length = wordSize
    rw [List.length_append, length_zeros, hb]
    exact Nat.add_sub_of_le hu
  all_goals cases hv

theorem decode_encode_uint {size : Nat} {n : Int} (hu : size ≤ wordSize)
    (hv : (Word.uint size).Holds (.int n)) :
    (Word.uint size).decode ((Word.uint size).encode (.int n)) = .ok (.int n) := by
  obtain ⟨h0, hlt⟩ := hv
  have hn : n.toNat < capacity size := by omega
  rw [Word.encode, Word.decode, ofNat_wordSize_of_lt hu hn, List.take_left' (length_zeros _),
    List.drop_left' (length_zeros _), toNat_ofNat_of_lt hn, Int.toNat_of_nonneg h0]
  exact if_pos (paddedWith_replicate 0 _)

/-- a negative number has all high bits set -/
theorem ofNat_of_neg {k size : Nat} {n : Int} (hlo : -(capacity size : Int) ≤ n) (hn : n < 0) :
    ofNat (k + size) (n % (capacity (k + size) : Int)).toNat =
      List.replicate k 0xff ++ ofNat size (n + capacity size).toNat := by
  have hk := capacity_pos k
  have hle : capacity size ≤ capacity (k + size) := by
    rw [capacity_add]
    exact Nat.le_mul_of_pos_left _ hk
  have hmod : n % (capacity (k + size) : Int) = n + capacity (k + size) := by
    rw [← Int.add_emod_right, Int.emod_eq_of_lt (by omega) (by omega)]
  have hsplit : (n + (capacity (k + size) : Int)).toNat =
      (capacity k - 1) * capacity size + (n + capacity size).toNat := by
    have hmul : (capacity k - 1) * capacity size + capacity size = capacity (k + size) := by
      rw [← Nat.succ_mul, Nat.succ_eq_add_one, Nat.sub_add_cancel hk, capacity_add]
    omega
  rw [hmod, hsplit, ofNat_mul_add (by omega), ofNat_pred_capacity]

theorem decode_encode_int {size : Nat} {n : Int} (hu : size ≤ wordSize)
    (hv : (Word.int size).Holds (.int n)) :
    (Word.int size).decode ((Word.int size).encode (.int n)) = .ok (.int n) := by
  obtain ⟨hlo, hhi⟩ := hv
  have hsize : wordSize - size + size = wordSize := Nat.sub_add_cancel hu
  rw [Word.encode, Word.decode]
  by_cases hn : n < 0
  · have hcode : ofNat (wordSize - size + size) _ = _ ++ ofNat size _ :=
      ofNat_of_neg (by omega) hn
    have hnum : signedNumber (ofNat size (n + capacity size).toNat) = n :=
      signedNumber_ofNat (by omega) (.inr (by omega))
    rw [hsize] at hcode
    rw [hcode, List.take_left' List.length_replicate, List.drop_left' List.length_replicate, hnum,
      if_pos hn]
    exact if_pos (paddedWith_replicate _ _)
  · have hlt : n.toNat < capacity size := by omega
    have hle : capacity size ≤ capacity wordSize := by
      rw [← hsize, capacity_add]
      exact Nat.le_mul_of_pos_left _ (capacity_pos _)
    have hmod : n % (capacity wordSize : Int) = n := Int.emod_eq_of_lt (by omega) (by omega)
    have hnum : signedNumber (ofNat size n.toNat) = n := signedNumber_ofNat hlt (.inl (by omega))
    rw [hmod, ofNat_wordSize_of_lt hu hlt, List.take_left' (length_zeros _),
      List.drop_left' (length_zeros _), hnum, if_neg hn]
    exact if_pos (paddedWith_replicate _ _)

theorem decode_encode (hu : w.Usable) (hv : w.Holds v) : w.decode (w.encode v) = .ok v := by
  cases w <;> cases v
  case uint.int => exact decode_encode_uint hu hv
  case int.int => exact decode_encode_int hu hv
  case bool.bool b =>
    cases b
    · rfl
    · rfl
  case bytes.bytes size b =>
    have hb : b.length = size := hv
    rw [Word.encode, Word.decode, List.take_left' hb, List.drop_left' hb]
    exact if_pos (paddedWith_replicate 0 _)
  all_goals cases hv

end Word

end CodeMatch.Abi
