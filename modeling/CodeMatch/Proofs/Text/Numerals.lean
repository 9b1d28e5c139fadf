import CodeMatch.Text
import Mathlib.Algebra.Group.Nat.Defs
import Mathlib.Data.List.Basic
import Mathlib.Data.List.Induction
import Mathlib.Data.List.TakeWhile
import Mathlib.Tactic.Common

/-!
# Numerals that are read back

* `run_append`            a run of characters ends where something else begins;
* `continue?_append`      a numeral is read from left to right;
* `value?_natural`        what is written for a number stands for it;
* `length_natural_le`     a number below `10 ^ k` needs at most `k` digits;
* `value?_lt`             and `k` digits write no other number;
* `exists_value?`         digits of ASCII, if there are any, stand for some number;
* `head?_natural_ne`      no zero stands in front;
* `natural_of_value?`     digits without a zero in front are what is written for their number;
* `joined?_of_not_mem`    without underscores there is nothing to drop;
* `isSpace_of_decimal?`   no digit of any script is white space, so nothing is trimmed off a numeral.
-/

namespace CodeMatch.Text

theorem ascii?_digitChar {n : Nat} (h : n < 10) : ascii? (digitChar n) = some n := by
  revert n
  decide

theorem isAsciiDigit_digitChar {n : Nat} (h : n < 10) : isAsciiDigit (digitChar n) = true := by
  rw [isAsciiDigit, ascii?_digitChar h]
  rfl

theorem isAsciiDigit_iff {c : Char} : isAsciiDigit c = true ↔ 48 ≤ c.toNat ∧ c.toNat ≤ 57 := by
  rw [isAsciiDigit, ascii?]
  split
  case isTrue hc => exact ⟨fun _ => hc, fun _ => rfl⟩
  case isFalse hc => exact ⟨fun h => absurd h (by decide), fun h => absurd h hc⟩

theorem ascii?_lt {c : Char} {n : Nat} (h : ascii? c = some n) : n < 10 := by
  unfold ascii? at h
  split at h
  case isTrue hc =>
    have h9 : c.toNat ≤ '9'.toNat := hc.2
    have h9' : '9'.toNat = 57 := rfl
    cases h
    omega
  case isFalse => cases h

/-! ## reading from left to right -/

/-- a run of characters of one kind ends where something else begins -/
theorem run_append {p : Char → Bool} {s t : List Char} (hs : ∀ c ∈ s, p c = true)
    (ht : ∀ c ∈ t.head?, p c = false) :
    (s ++ t).takeWhile p = s ∧ (s ++ t).dropWhile p = t := by
  rw [List.takeWhile_append_of_pos hs, List.dropWhile_append_of_pos hs]
  cases t with
  | nil => simp
  | cons c t => simp [ht c rfl]

theorem continue?_append (d : Char → Option Nat) (n : Nat) (s t : List Char) :
    continue? d n (s ++ t) = (continue? d n s).bind (continue? d · t) := by
  induction s generalizing n with
  | nil => rfl
  | cons c s ih =>
    rw [List.cons_append, continue?, continue?]
    cases d c with
    | none => rfl
    | some k => exact ih _

theorem continue?_singleton {d : Char → Option Nat} {c : Char} {k : Nat} (h : d c = some k)
    (n : Nat) : continue? d n [c] = some (10 * n + k) := by
  rw [continue?, h]
  rfl

theorem continue?_lt {n m : Nat} {s : List Char} (h : continue? ascii? n s = some m) :
    m < (n + 1) * 10 ^ s.length := by
  induction s generalizing n with
  | nil =>
    cases h
    simp
  | cons c s ih =>
    rw [continue?] at h
    cases hc : ascii? c with
    | none => rw [hc] at h; cases h
    | some k =>
      rw [hc] at h
      have hk := ascii?_lt hc
      calc m < (10 * n + k + 1) * 10 ^ s.length := ih h
        _ ≤ ((n + 1) * 10) * 10 ^ s.length := Nat.mul_le_mul_right _ (by omega)
        _ = (n + 1) * 10 ^ (c :: s).length := by
          rw [List.length_cons, Nat.pow_succ', Nat.mul_assoc]

theorem value?_lt {n : Nat} {s : List Char} (h : value? ascii? s = some n) :
    n < 10 ^ s.length := by
  unfold value? at h
  split at h
  · cases h
  · simpa using continue?_lt h

theorem exists_continue? {s : List Char} (h : ∀ c ∈ s, isAsciiDigit c = true) (n : Nat) :
    ∃ m, continue? ascii? n s = some m := by
  induction s generalizing n with
  | nil => exact ⟨n, rfl⟩
  | cons c s ih =>
    obtain ⟨k, hk⟩ := Option.isSome_iff_exists.mp (h c List.mem_cons_self)
    rw [continue?, hk]
    exact ih (fun e he => h e (List.mem_cons_of_mem c he)) (10 * n + k)

theorem exists_value? {s : List Char} (hs : s ≠ []) (h : ∀ c ∈ s, isAsciiDigit c = true) :
    ∃ n, value? ascii? s = some n := by
  rw [value?, if_neg (by simpa using hs)]
  exact exists_continue? h 0

/-! ## written numbers -/

theorem natural_of_lt {n : Nat} (h : n < 10) : natural n = [digitChar n] := by
  rw [natural, if_pos h]

theorem natural_of_le {n : Nat} (h : 10 ≤ n) :
    natural n = natural (n / 10) ++ [digitChar (n % 10)] := by
  rw [natural, if_neg (Nat.not_lt.mpr h)]

theorem natural_ne_nil (n : Nat) : natural n ≠ [] := by
  rw [natural]
  split <;> simp

theorem isAsciiDigit_of_mem_natural {n : Nat} {c : Char} (h : c ∈ natural n) :
    isAsciiDigit c = true := by
  induction n using natural.induct with
  | case1 n hn =>
    rw [natural_of_lt hn, List.mem_singleton] at h
    rw [h]
    exact isAsciiDigit_digitChar hn
  | case2 n hn ih =>
    rw [natural_of_le (Nat.not_lt.mp hn), List.mem_append, List.mem_singleton] at h
    rcases h with h | rfl
    · exact ih h
    · exact isAsciiDigit_digitChar (Nat.mod_lt n (by decide))

theorem continue?_natural (n : Nat) : continue? ascii? 0 (natural n) = some n := by
  induction n using natural.induct with
  | case1 n hn =>
    rw [natural_of_lt hn, continue?_singleton (ascii?_digitChar hn), Nat.mul_zero, Nat.zero_add]
  | case2 n hn ih =>
    have hd : ascii? (digitChar (n % 10)) = some (n % 10) :=
      ascii?_digitChar (Nat.mod_lt n (by decide))
    rw [natural_of_le (Nat.not_lt.mp hn), continue?_append, ih, Option.bind_some,
      continue?_singleton hd, Nat.div_add_mod]

theorem value?_natural (n : Nat) : value? ascii? (natural n) = some n := by
  rw [value?, if_neg (by simpa using natural_ne_nil n), continue?_natural]

theorem length_natural_le {n k : Nat} (hk : 0 < k) (h : n < 10 ^ k) :
    (natural n).length ≤ k := by
  induction n using natural.induct generalizing k with
  | case1 n hn =>
    rw [natural_of_lt hn]
    exact hk
  | case2 n hn ih =>
    obtain ⟨k, rfl⟩ := Nat.exists_eq_add_of_le' hk
    have hn' : 10 ≤ n := Nat.not_lt.mp hn
    have hk' : 0 < k := by
      rcases Nat.eq_zero_or_pos k with rfl | hk'
      · simp at h
        omega
      · exact hk'
    have hdiv : n / 10 < 10 ^ k := by
      rw [Nat.div_lt_iff_lt_mul (by decide)]
      exact h
    rw [natural_of_le hn', List.length_append]
    exact Nat.succ_le_succ (ih hk' hdiv)

theorem head?_natural_ne {n : Nat} (h : 0 < n) : (natural n).head? ≠ some '0' := by
  induction n using natural.induct with
  | case1 n hn =>
    rw [natural_of_lt hn]
    intro h0
    have hd := ascii?_digitChar hn
    rw [Option.some_inj.mp h0] at hd
    cases hd
    exact absurd h (by decide)
  | case2 n hn ih =>
    have hn' : 10 ≤ n := Nat.not_lt.mp hn
    rw [natural_of_le hn', List.head?_append_of_ne_nil _ (natural_ne_nil _)]
    exact ih (by omega)

theorem digitChar_of_ascii? {c : Char} {n : Nat} (h : ascii? c = some n) : digitChar n = c := by
  unfold ascii? at h
  split at h
  case isTrue hc =>
    have h0 : 48 ≤ c.toNat := hc.1
    cases h
    rw [digitChar, Nat.add_sub_cancel' h0, Char.ofNat_toNat]
  case isFalse => cases h

/-- a numeral without a zero in front is what is written for its number -/
theorem natural_of_value? {s : List Char} {n : Nat} (h : value? ascii? s = some n)
    (hzero : s.head? = some '0' → s = ['0']) : natural n = s := by
  induction s using List.reverseRecOn generalizing n with
  | nil => cases h
  | append_singleton s c ih =>
    rw [value?, if_neg (by simp), continue?_append] at h
    obtain ⟨m, hm, hc⟩ := Option.bind_eq_some_iff.mp h
    obtain ⟨k, hk⟩ : ∃ k, ascii? c = some k := by
      cases hk : ascii? c with
      | none => rw [continue?, hk] at hc; cases hc
      | some k => exact ⟨k, rfl⟩
    rw [continue?_singleton hk, Option.some_inj] at hc
    have hlt := ascii?_lt hk
    by_cases hs : s = []
    case pos =>
      subst hs
      cases hm
      rw [← hc, Nat.mul_zero, Nat.zero_add, natural_of_lt hlt, digitChar_of_ascii? hk, List.nil_append]
    case neg =>
      have hhead : s.head? ≠ some '0' := by
        intro h0
        have hone := hzero (by rw [List.head?_append_of_ne_nil _ hs, h0])
        simp [List.append_eq_singleton_iff, hs] at hone
      have hsv : value? ascii? s = some m := by rw [value?, if_neg (by simpa using hs), hm]
      have hsm : natural m = s := ih hsv (fun h0 => absurd h0 hhead)
      -- `s` is not the numeral of zero, so there is a digit before the last one
      have hpos : m ≠ 0 := by
        rintro rfl
        apply hhead
        rw [← hsm, natural_of_lt (by decide)]
        rfl
      have hdiv : n / 10 = m := by omega
      have hmod : n % 10 = k := by omega
      rw [natural_of_le (by omega), hdiv, hmod, hsm, digitChar_of_ascii? hk]

/-! ## digits of other scripts, underscores and blanks -/

theorem decimal?_of_isAsciiDigit {c : Char} (h : isAsciiDigit c = true) :
    (decimal? c).isSome = true := by
  obtain ⟨h0, h9⟩ := isAsciiDigit_iff.mp h
  rw [decimal?, Option.isSome_map, Array.find?_isSome]
  refine ⟨48, by simp [digitZeros], ?_⟩
  simp only [Bool.and_eq_true, decide_eq_true_eq]
  omega

theorem isSpace_of_decimal? {c : Char} (h : (decimal? c).isSome = true) : isSpace c = false := by
  have hzeros : ∀ z ∈ digitZeros.toList, (0x20 < z ∧ z + 9 < 0x85) ∨ (0xA0 < z ∧ z + 9 < 0x1680) ∨
      (0x1680 < z ∧ z + 9 < 0x2000) ∨ 0x3000 < z := by decide
  rw [decimal?, Option.isSome_map, Array.find?_isSome] at h
  obtain ⟨z, hz, hc⟩ := h
  have hz' := hzeros z (Array.mem_toList_iff.mpr hz)
  simp only [isSpace, Bool.and_eq_true, Bool.or_eq_false_iff, Bool.and_eq_false_iff,
    decide_eq_true_eq, decide_eq_false_iff_not] at hc ⊢
  omega

theorem joined?_of_not_mem {d : Char → Option Nat} {s : List Char} (h : '_' ∉ s) :
    joined? d s = if s.all (fun c => (d c).isSome) then some s else none := by
  fun_induction joined? d s with
  | case1 => rfl
  | case2 c hc => simp [hc]
  | case3 c hc => simp [hc]
  | case4 => simp at h
  | case5 => simp at h
  | case6 c s _ _ hc ih =>
    rw [ih (fun hm => h (List.mem_cons_of_mem _ hm)), List.all_cons, hc, Bool.true_and]
    split <;> rfl
  | case7 c s _ _ hc => simp [hc]

theorem trim_of_forall {p : Char → Bool} {s : List Char} (h : ∀ c ∈ s, p c = false) :
    trim p s = s := by
  have hdrop : ∀ t : List Char, (∀ c ∈ t, p c = false) → t.dropWhile p = t := by
    intro t ht
    cases t with
    | nil => rfl
    | cons c t => rw [List.dropWhile_cons_of_neg (by simp [ht c List.mem_cons_self])]
  rw [trim, hdrop s h, hdrop s.reverse (fun c hc => h c (List.mem_reverse.mp hc)),
    List.reverse_reverse]

end CodeMatch.Text
