import CodeMatch.Compiler
import CodeMatch.Proofs.Text.Numerals
import Mathlib.Data.List.TakeWhile

/-!
# The grammar of version texts

What a version text may look like is said here without a reader: `Parts.body` puts five parts together,
and `Spells p s` says that `s` is that text for parts of the right kind, with or without the `v`.

* `IsNumeral`, `IsLabel`     the parts of a version text;
* `IsRun`                    what the scanner takes for a numeral: digits of other scripts may follow the
                             first one;
* `numeral?_append`, `label?_append`   the scanner stops where the next part begins;
* `parts?_eq_some_iff`       so it takes a text apart exactly as it was put together;
* `Spells.unique`            which can have been done in one way only.
-/

namespace CodeMatch.CompilerVersion

open Document

namespace Grammar

/-- digits of ASCII with no zero in front, and no more of them than a number may have -/
structure IsNumeral (ds : List Char) : Prop where
  ne_nil : ds ≠ []
  digits : ∀ c ∈ ds, Text.isAsciiDigit c = true
  leading : ds.head? = some '0' → ds = ['0']
  length_le : ds.length ≤ Text.longestNumeral

structure IsLabel (cs : List Char) : Prop where
  ne_nil : cs ≠ []
  chars : ∀ c ∈ cs, isLabelChar c = true

/-- a label behind its mark -/
def labelled (mark : Char) : Option (List Char) → List Char
  | some label => mark :: label
  | none => []

/-- the text that the parts make, without a `v` -/
def Parts.body (p : Parts) : List Char :=
  p.major ++ '.' :: (p.minor ++ '.' :: (p.patch ++
    (labelled '-' p.prerelease ++ labelled '+' p.build)))

/-- the numbers of `p` are of the kind `N` and its labels are labels -/
structure Parts.Of (N : List Char → Prop) (p : Parts) : Prop where
  major : N p.major
  minor : N p.minor
  patch : N p.patch
  prerelease : ∀ label ∈ p.prerelease, IsLabel label
  build : ∀ label ∈ p.build, IsLabel label

def Spells (p : Parts) (s : List Char) : Prop :=
  p.Of IsNumeral ∧ (s = p.body ∨ s = 'v' :: p.body)

/-! ## taking a text apart -/

/-- what the scanner takes for a numeral: only the first digit has to be one of ASCII -/
structure IsRun (ds : List Char) : Prop where
  ne_nil : ds ≠ []
  first : ∀ c ∈ ds.head?, Text.isAsciiDigit c = true
  digits : ∀ c ∈ ds, (Text.decimal? c).isSome = true
  leading : ds.head? = some '0' → ds = ['0']

theorem IsNumeral.isRun {ds : List Char} (h : IsNumeral ds) : IsRun ds where
  ne_nil := h.ne_nil
  first c hc := h.digits c (List.mem_of_mem_head? hc)
  digits c hc := Text.decimal?_of_isAsciiDigit (h.digits c hc)
  leading := h.leading

theorem Parts.Of.isRun {p : Parts} (h : p.Of IsNumeral) : p.Of IsRun :=
  ⟨h.major.isRun, h.minor.isRun, h.patch.isRun, h.prerelease, h.build⟩

section
variable {mark : Char} {s t ds : List Char} {o : Option (List Char)} {p : Parts}

theorem numeral?_eq_some (h : numeral? s = some (ds, t)) : s = ds ++ t ∧ IsRun ds := by
  unfold numeral? at h
  split at h
  case h_1 s =>
    cases h
    refine ⟨rfl, by simp, ?_, ?_, fun _ => rfl⟩
    · intro c hc
      cases hc
      decide
    · intro c hc
      rw [List.mem_singleton.mp hc]
      decide
  case h_2 c s hc =>
    split at h
    case isTrue hdigit =>
      cases h
      refine ⟨by simp, by simp, by simpa using hdigit, ?_, fun hz => ?_⟩
      · intro e he
        rcases List.mem_cons.mp he with rfl | he
        · exact Text.decimal?_of_isAsciiDigit hdigit
        · exact List.mem_takeWhile_imp (p := fun c => (Text.decimal? c).isSome) he
      · exact absurd (by simpa using hz) hc
    case isFalse => cases h
  case h_3 => cases h

theorem numeral?_append (h : IsRun ds) (ht : ∀ c ∈ t.head?, Text.decimal? c = none) :
    numeral? (ds ++ t) = some (ds, t) := by
  cases ds with
  | nil => exact absurd rfl h.ne_nil
  | cons c ds =>
    by_cases hc : c = '0'
    case pos =>
      have hzero := h.leading (by rw [hc]; rfl)
      rw [hzero]
      rfl
    case neg =>
      have htail : ∀ e ∈ ds, (Text.decimal? e).isSome = true := fun e he =>
        h.digits e (List.mem_cons_of_mem c he)
      have hdigit : Text.isAsciiDigit c = true := h.first c rfl
      have hstop : ∀ e ∈ t.head?, (Text.decimal? e).isSome = false := by
        intro e he
        rw [ht e he]
        rfl
      obtain ⟨htake, hdrop⟩ := Text.run_append htail hstop
      rw [List.cons_append, numeral?, if_pos hdigit]
      · dsimp only
        rw [htake, hdrop]
      · exact hc

theorem afterPoint?_eq_some : afterPoint? s = some t ↔ s = '.' :: t := by
  unfold afterPoint?
  split
  case h_1 s => simp
  case h_2 hs =>
    constructor
    · intro h
      cases h
    · intro h
      exact absurd h (hs t)

theorem label?_eq_some (h : label? mark s = some (o, t)) :
    s = labelled mark o ++ t ∧ ∀ label ∈ o, IsLabel label := by
  unfold label? at h
  split at h
  case h_1 =>
    cases h
    exact ⟨rfl, by simp⟩
  case h_2 c s =>
    split at h
    case isTrue hc =>
      dsimp only at h
      split at h
      case isTrue => cases h
      case isFalse hne =>
        cases h
        refine ⟨by simp [labelled, hc], ?_⟩
        intro label hlabel
        cases hlabel
        exact ⟨by simpa using hne, fun e he => List.mem_takeWhile_imp he⟩
    case isFalse hc =>
      cases h
      exact ⟨rfl, by simp⟩

theorem label?_append (ho : ∀ label ∈ o, IsLabel label)
    (ht : ∀ c ∈ t.head?, c ≠ mark ∧ isLabelChar c = false) :
    label? mark (labelled mark o ++ t) = some (o, t) := by
  cases o with
  | none =>
    cases t with
    | nil => rfl
    | cons c t => exact if_neg (ht c rfl).1
  | some label =>
    have h := ho label rfl
    have hne : label.isEmpty = false := by simpa using h.ne_nil
    obtain ⟨htake, hdrop⟩ := Text.run_append h.chars fun c hc => (ht c hc).2
    show label? mark (mark :: (label ++ t)) = _
    rw [label?, if_pos rfl]
    dsimp only
    rw [htake, hdrop, hne]
    rfl

theorem decimal?_point : ∀ c ∈ ('.' :: t).head?, Text.decimal? c = none := by
  intro c hc
  cases hc
  decide

theorem head?_labelled {c : Char} (hc : c ∈ (labelled mark o).head?) : c = mark := by
  cases o with
  | none => cases hc
  | some label =>
    cases hc
    rfl

theorem head?_labels {o' : Option (List Char)} {c : Char}
    (hc : c ∈ (labelled '-' o ++ labelled '+' o').head?) : c = '-' ∨ c = '+' := by
  cases o with
  | none => exact .inr (head?_labelled hc)
  | some label => exact .inl (head?_labelled (o := some label) hc)

theorem parts?_eq_some_iff : parts? s = some p ↔ p.Of IsRun ∧ dropV s = p.body := by
  constructor
  · intro h
    simp only [parts?, Option.bind_eq_bind, Option.bind_eq_some_iff, Prod.exists] at h
    obtain ⟨major, s₁, h₁, s₂, h₂, minor, s₃, h₃, s₄, h₄, patch, s₅, h₅, prerelease, s₆, h₆, build, s₇,
      h₇, h⟩ := h
    split at h
    case isFalse => cases h
    case isTrue hend =>
      cases h
      obtain ⟨e₁, hmajor⟩ := numeral?_eq_some h₁
      obtain ⟨e₃, hminor⟩ := numeral?_eq_some h₃
      obtain ⟨e₅, hpatch⟩ := numeral?_eq_some h₅
      obtain ⟨e₆, hprerelease⟩ := label?_eq_some h₆
      obtain ⟨e₇, hbuild⟩ := label?_eq_some h₇
      refine ⟨⟨hmajor, hminor, hpatch, hprerelease, hbuild⟩, ?_⟩
      rw [e₁, afterPoint?_eq_some.mp h₂, e₃, afterPoint?_eq_some.mp h₄, e₅, e₆, e₇,
        List.isEmpty_iff.mp hend, List.append_nil]
      rfl
  · intro ⟨h, hs⟩
    have hpatch : ∀ c ∈ (labelled '-' p.prerelease ++ labelled '+' p.build).head?,
        Text.decimal? c = none := by
      intro c hc
      rcases head?_labels hc with rfl | rfl <;> decide
    have hprerelease : ∀ c ∈ (labelled '+' p.build).head?, c ≠ '-' ∧ isLabelChar c = false := by
      intro c hc
      rw [head?_labelled hc]
      decide
    have hbuild : label? '+' (labelled '+' p.build) = some (p.build, []) := by
      rw [← List.append_nil (labelled '+' p.build)]
      exact label?_append h.build (by simp)
    simp only [parts?, hs, Parts.body, afterPoint?, numeral?_append h.major decimal?_point,
      numeral?_append h.minor decimal?_point, numeral?_append h.patch hpatch,
      label?_append h.prerelease hprerelease, hbuild, Option.bind_eq_bind, Option.bind_some]
    rfl

/-- the parts put together begin with a digit, so a `v` in front does not belong to them -/
theorem dropV_eq_body_iff (h : p.Of IsRun) : dropV s = p.body ↔ s = p.body ∨ s = 'v' :: p.body := by
  have hhead : ∀ t : List Char, p.body ≠ 'v' :: t := by
    intro t heq
    cases hmajor : p.major with
    | nil => exact h.major.ne_nil hmajor
    | cons c ds =>
      rw [Parts.body, hmajor, List.cons_append, List.cons.injEq] at heq
      have hdigit := h.major.first c (by rw [hmajor]; rfl)
      rw [heq.1] at hdigit
      exact absurd hdigit (by decide)
  unfold dropV
  split
  case h_1 t => simp [(hhead t).symm]
  case h_2 hs =>
    have hne : s ≠ 'v' :: p.body := hs p.body
    simp [hne]

theorem parts?_eq_some_iff_spells (h : p.Of IsNumeral) : parts? s = some p ↔ Spells p s := by
  rw [parts?_eq_some_iff, dropV_eq_body_iff h.isRun, Spells]
  simp [h, h.isRun]

theorem Spells.dropV_eq (h : Spells p s) : dropV s = p.body :=
  (dropV_eq_body_iff h.1.isRun).mpr h.2

theorem Spells.unique {q : Parts} (hp : Spells p s) (hq : Spells q s) : p = q := by
  have h := (parts?_eq_some_iff_spells hp.1).mpr hp
  rw [(parts?_eq_some_iff_spells hq.1).mpr hq, Option.some_inj] at h
  exact h.symm

end

end Grammar

end CodeMatch.CompilerVersion
