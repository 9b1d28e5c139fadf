import CodeMatch.Proofs.Text.Numerals
import Mathlib.Data.Nat.Digits.Defs

/-!
# The grammar of integers

Which texts are numerals, and of which numbers, is said here without a reader.

* `Writes d ks s`          the text `s` writes the digits `ks`, most significant first, with at most one
                           underscore between two of them;
* `IsInteger d most s n`   a sign, if there is one, in front of at most `most` digits;
* `joined?_of_writes`, `writes_of_joined?`   the underscores that are dropped are those of the grammar;
* `continue?_eq`           the digits are put together by their places;
* `joined_value_iff`       so a text is read as the number that its digits stand for;
* `isInteger_iff`          behind a sign as well as without one.

`d` says which characters are digits and what they are worth.
-/

namespace CodeMatch.Text

variable {d : Char → Option Nat}

inductive Writes (d : Char → Option Nat) : List Nat → List Char → Prop
  | one {c : Char} {k : Nat} (h : d c = some k) : Writes d [k] [c]
  | next {c : Char} {k : Nat} {ks : List Nat} {s : List Char} (h : d c = some k) (hs : Writes d ks s) :
      Writes d (k :: ks) (c :: s)
  | gap {c : Char} {k : Nat} {ks : List Nat} {s : List Char} (h : d c = some k) (hs : Writes d ks s) :
      Writes d (k :: ks) (c :: '_' :: s)

/-- `s` stands for the integer `n`, which has at most `most` digits -/
inductive IsInteger (d : Char → Option Nat) (most : Nat) : List Char → Int → Prop
  | plain {ks : List Nat} {s : List Char} (hs : Writes d ks s) (hlen : ks.length ≤ most) :
      IsInteger d most s (Nat.ofDigits 10 ks.reverse : Nat)
  | plus {ks : List Nat} {s : List Char} (hs : Writes d ks s) (hlen : ks.length ≤ most) :
      IsInteger d most ('+' :: s) (Nat.ofDigits 10 ks.reverse : Nat)
  | minus {ks : List Nat} {s : List Char} (hs : Writes d ks s) (hlen : ks.length ≤ most) :
      IsInteger d most ('-' :: s) (-(Nat.ofDigits 10 ks.reverse : Nat))

/-! ## underscores -/

section
variable {ks : List Nat} {s : List Char}

/-- what writes digits begins with one -/
theorem Writes.exists_cons (h : Writes d ks s) : ∃ c t, s = c :: t ∧ (d c).isSome = true := by
  cases h with
  | one h => exact ⟨_, _, rfl, Option.isSome_iff_exists.mpr ⟨_, h⟩⟩
  | next h _ => exact ⟨_, _, rfl, Option.isSome_iff_exists.mpr ⟨_, h⟩⟩
  | gap h _ => exact ⟨_, _, rfl, Option.isSome_iff_exists.mpr ⟨_, h⟩⟩

theorem Writes.ne_nil (h : Writes d ks s) : ks ≠ [] := by
  cases h <;> exact List.cons_ne_nil _ _

theorem joined?_of_writes (hd : d '_' = none) (h : Writes d ks s) :
    ∃ ds, joined? d s = some ds ∧ ds.map d = ks.map some := by
  induction h with
  | @one c k h => exact ⟨[c], by rw [joined?, h]; rfl, by rw [List.map_singleton, h]; rfl⟩
  | @next c k ks s h hs ih =>
    obtain ⟨ds, hds, hmap⟩ := ih
    obtain ⟨e, t, rfl, he⟩ := hs.exists_cons
    -- the next character is a digit, so it is no underscore
    have hne : e ≠ '_' := by
      rintro rfl
      rw [hd] at he
      cases he
    refine ⟨c :: ds, ?_, by rw [List.map_cons, h, hmap]; rfl⟩
    rw [joined?, hds, h]
    · rfl
    · simp
    · simp [hne]
  | @gap c k ks s h hs ih =>
    obtain ⟨ds, hds, hmap⟩ := ih
    obtain ⟨e, t, rfl, he⟩ := hs.exists_cons
    refine ⟨c :: ds, ?_, by rw [List.map_cons, h, hmap]; rfl⟩
    rw [joined?, hds, h, he]
    rfl

theorem writes_of_joined? {ds : List Char} (h : joined? d s = some ds) (hs : s ≠ []) :
    ∃ ks, Writes d ks s ∧ ds.map d = ks.map some := by
  fun_induction joined? d s generalizing ds with
  | case1 => exact absurd rfl hs
  | case2 c hc =>
    obtain ⟨k, hk⟩ := Option.isSome_iff_exists.mp hc
    cases h
    exact ⟨[k], .one hk, by rw [List.map_singleton, hk]; rfl⟩
  | case3 => cases h
  | case4 c e s hce ih =>
    obtain ⟨hc, -⟩ := Bool.and_eq_true_iff.mp hce
    obtain ⟨k, hk⟩ := Option.isSome_iff_exists.mp hc
    obtain ⟨ds', hds', rfl⟩ := Option.map_eq_some_iff.mp h
    obtain ⟨ks, hks, hmap⟩ := ih hds' (List.cons_ne_nil _ _)
    exact ⟨k :: ks, .gap hk hks, by rw [List.map_cons, hk, hmap]; rfl⟩
  | case5 => cases h
  | case6 c s hone _ hc ih =>
    obtain ⟨k, hk⟩ := Option.isSome_iff_exists.mp hc
    obtain ⟨ds', hds', rfl⟩ := Option.map_eq_some_iff.mp h
    have hne : s ≠ [] := by
      rintro rfl
      exact hone rfl
    obtain ⟨ks, hks, hmap⟩ := ih hds' hne
    exact ⟨k :: ks, .next hk hks, by rw [List.map_cons, hk, hmap]; rfl⟩
  | case7 => cases h

/-! ## values -/

theorem continue?_eq {ds : List Char} (h : ds.map d = ks.map some) (n : Nat) :
    continue? d n ds = some (Nat.ofDigits 10 ks.reverse + 10 ^ ks.length * n) := by
  induction ds generalizing ks n with
  | nil =>
    rw [List.map_nil, eq_comm, List.map_eq_nil_iff] at h
    subst h
    simp [continue?]
  | cons c ds ih =>
    cases ks with
    | nil => cases h
    | cons k ks =>
      rw [List.map_cons, List.map_cons, List.cons.injEq] at h
      rw [continue?, h.1, List.reverse_cons, Nat.ofDigits_append, Nat.ofDigits_singleton,
        List.length_reverse, List.length_cons]
      dsimp only
      rw [ih h.2, pow_succ]
      congr 1
      ring

theorem value?_eq {ds : List Char} (h : ds.map d = ks.map some) (hks : ks ≠ []) :
    value? d ds = some (Nat.ofDigits 10 ks.reverse) := by
  have hne : ds.isEmpty = false := by
    cases ds with
    | nil => exact absurd (List.map_eq_nil_iff.mp h.symm) hks
    | cons c ds => rfl
  rw [value?, hne, if_neg (by decide), continue?_eq h]
  rfl

theorem length_eq_of_map_eq {ds : List Char} (h : ds.map d = ks.map some) : ds.length = ks.length := by
  simpa using congrArg List.length h

/-- a text is read as a number exactly if it writes the digits of the number -/
theorem joined_value_iff (hd : d '_' = none) {most m : Nat} :
    (∃ ds, joined? d s = some ds ∧ ds.length ≤ most ∧ value? d ds = some m) ↔
      ∃ ks, Writes d ks s ∧ ks.length ≤ most ∧ m = Nat.ofDigits 10 ks.reverse := by
  constructor
  · rintro ⟨ds, hds, hlen, hm⟩
    have hne : s ≠ [] := by
      rintro rfl
      cases hds
      cases hm
    obtain ⟨ks, hks, hmap⟩ := writes_of_joined? hds hne
    rw [length_eq_of_map_eq hmap] at hlen
    rw [value?_eq hmap hks.ne_nil, Option.some_inj] at hm
    exact ⟨ks, hks, hlen, hm.symm⟩
  · rintro ⟨ks, hks, hlen, rfl⟩
    obtain ⟨ds, hds, hmap⟩ := joined?_of_writes hd hks
    rw [← length_eq_of_map_eq hmap] at hlen
    exact ⟨ds, hds, hlen, value?_eq hmap hks.ne_nil⟩

/-! ## signs -/

/-- no sign is mistaken for a digit, so it can be taken off first -/
theorem isInteger_iff (hplus : d '+' = none) (hminus : d '-' = none) {most : Nat} {n : Int} :
    IsInteger d most s n ↔ ∃ ks, Writes d ks (signed s).2 ∧ ks.length ≤ most ∧
      n = withSign (signed s).1 (Nat.ofDigits 10 ks.reverse) := by
  constructor
  · intro h
    cases h with
    | @plain ks _ hs hlen =>
      obtain ⟨c, t, rfl, hc⟩ := hs.exists_cons
      have hsigned : signed (c :: t) = (false, c :: t) := by
        unfold signed
        split
        case h_1 r heq =>
          cases heq
          rw [hminus] at hc
          cases hc
        case h_2 r heq =>
          cases heq
          rw [hplus] at hc
          cases hc
        case h_3 => rfl
      rw [hsigned]
      exact ⟨ks, hs, hlen, rfl⟩
    | @plus ks s hs hlen => exact ⟨ks, hs, hlen, rfl⟩
    | @minus ks s hs hlen => exact ⟨ks, hs, hlen, rfl⟩
  · rintro ⟨ks, hs, hlen, rfl⟩
    unfold signed at hs ⊢
    split at hs
    case h_1 r => exact .minus hs hlen
    case h_2 r => exact .plus hs hlen
    case h_3 => exact .plain hs hlen

end

end CodeMatch.Text
