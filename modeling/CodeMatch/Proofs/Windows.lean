import CodeMatch.Code
import Mathlib.Tactic.Common

/-!
# Windows, byte by byte

Code is compared and patched window by window.  Here both are described through the single byte
`b[i]?`, so that statements about many windows become statements about one index.

* `ByteRange.Covers i`      the range holds the index `i`; disjoint ranges share none
                            (`ByteRange.Disjoint.not_covers`);
* `Bytes.getElem?_overwrite`   the bytes after a window has been replaced;
* `Bytes.slice_eq_slice_iff`   two windows are equal if they agree at every index.
-/

namespace CodeMatch

namespace ByteRange

/-- the index `i` lies in the range -/
def Covers (r : ByteRange) (i : Nat) : Prop := r.offset ≤ i ∧ i < r.stop

instance (r : ByteRange) (i : Nat) : Decidable (r.Covers i) := inferInstanceAs (Decidable (_ ∧ _))

theorem Covers.offset_le {r : ByteRange} {i : Nat} (h : r.Covers i) : r.offset ≤ i := h.1

theorem Covers.lt_stop {r : ByteRange} {i : Nat} (h : r.Covers i) : i < r.stop := h.2

theorem offset_le_stop (r : ByteRange) : r.offset ≤ r.stop := Nat.le_add_right _ _

theorem Disjoint.not_covers {r s : ByteRange} (h : r.Disjoint s) {i : Nat} (hi : r.Covers i) :
    ¬ s.Covers i := by
  intro hs
  have h1 := hi.lt_stop
  have h2 := hi.offset_le
  have h3 := hs.lt_stop
  have h4 := hs.offset_le
  rcases h with h | h <;> omega

end ByteRange

namespace Bytes

theorem getElem?_overwrite {b v : Bytes} {off : Nat} (h : off + v.length ≤ b.length) (i : Nat) :
    (overwrite b off v)[i]? = if off ≤ i ∧ i < off + v.length then v[i - off]? else b[i]? := by
  have hlen : (b.take off).length = off := by
    rw [List.length_take]
    omega
  unfold overwrite
  rw [List.append_assoc]
  by_cases h1 : i < off
  · rw [List.getElem?_append_left (by omega), List.getElem?_take_of_lt h1, if_neg (by omega)]
  · rw [List.getElem?_append_right (by omega), hlen]
    by_cases h2 : i < off + v.length
    · rw [List.getElem?_append_left (by omega), if_pos ⟨by omega, h2⟩]
    · rw [List.getElem?_append_right (by omega), List.getElem?_drop, if_neg (by omega)]
      congr 1
      omega

/-- an overwritten window holds what was written -/
theorem getElem?_overwrite_slice {b d : Bytes} {r : ByteRange} (hb : r.stop ≤ b.length)
    (hc : r.stop ≤ d.length) (i : Nat) :
    (overwrite d r.offset (slice b r.offset r.length))[i]? =
      if r.Covers i then b[i]? else d[i]? := by
  have hlen : (slice b r.offset r.length).length = r.length := by
    rw [length_slice]
    unfold ByteRange.stop at hb
    omega
  rw [getElem?_overwrite (by rw [hlen]; exact hc), hlen]
  show (if r.Covers i then _ else _) = _
  by_cases hi : r.Covers i
  · have h1 := hi.offset_le
    have h2 : i < r.offset + r.length := hi.lt_stop
    rw [if_pos hi, if_pos hi, getElem?_slice, if_pos (by omega)]
    congr 1
    omega
  · rw [if_neg hi, if_neg hi]

/-- a blanked window holds zeros -/
theorem getElem?_overwrite_zeros {b : Bytes} {r : ByteRange} (h : r.stop ≤ b.length) (i : Nat) :
    (overwrite b r.offset (zeros r.length))[i]? = if r.Covers i then some 0 else b[i]? := by
  rw [getElem?_overwrite (by rw [length_zeros]; exact h), length_zeros]
  show (if r.Covers i then _ else _) = _
  by_cases hi : r.Covers i
  · have h1 := hi.offset_le
    have h2 : i < r.offset + r.length := hi.lt_stop
    rw [if_pos hi, if_pos hi, zeros, List.getElem?_replicate_of_lt (by omega)]
  · rw [if_neg hi, if_neg hi]

theorem slice_eq_slice_iff (b d : Bytes) (r : ByteRange) :
    slice b r.offset r.length = slice d r.offset r.length ↔ ∀ i, r.Covers i → b[i]? = d[i]? := by
  constructor
  · intro h i hi
    have h1 := hi.offset_le
    have h2 : i < r.offset + r.length := hi.lt_stop
    have h3 := congrArg (fun l : Bytes => l[i - r.offset]?) h
    simp only [getElem?_slice] at h3
    rw [if_pos (by omega), if_pos (by omega)] at h3
    have e : r.offset + (i - r.offset) = i := by omega
    rwa [e] at h3
  · intro h
    apply List.ext_getElem?
    intro j
    rw [getElem?_slice, getElem?_slice]
    by_cases hj : j < r.length
    · have hc : r.Covers (r.offset + j) := by
        refine ⟨Nat.le_add_right _ _, ?_⟩
        unfold ByteRange.stop
        omega
      rw [if_pos hj, if_pos hj, h _ hc]
    · rw [if_neg hj, if_neg hj]

end Bytes

end CodeMatch
