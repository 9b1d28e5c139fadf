import CodeMatch.Proofs.Matching

/-!
# The check of ranges is complete

Ranges are checked before any code on chain is looked at.  The check compares neighbours only, after
putting the ranges in order, and still notices every two that overlap.

* `Unusable n rs`          some range ends behind `n` bytes of code, or two of them overlap;
* `exists_checked_eq_error_iff`   exactly those lists are refused;
* `Screened kind n rs x`   the attempts `x b` on code `b` begin with that check, whatever `b` is;
* `screened_of_checked`    for which it is enough that a refusal is final, and that nothing else refuses
                           ranges;
* `range_check_complete`   matching runtime code and creation code does.
-/

namespace CodeMatch

namespace Region

/-- some range ends behind the code, or two overlap; a range that is listed twice overlaps itself unless
it is empty -/
def Unusable (n : Nat) (rs : List Region) : Prop :=
  (∃ r ∈ rs, n < r.range.offset + r.range.length) ∨
    ∃ (i j : Nat) (r s : Region), i < j ∧ rs[i]? = some r ∧ rs[j]? = some s ∧
      ¬ r.range.stop ≤ s.range.offset ∧ ¬ s.range.stop ≤ r.range.offset

theorem not_pairwise_disjoint_iff (rs : List Region) :
    (¬ rs.Pairwise fun r s => r.range.Disjoint s.range) ↔
      ∃ (i j : Nat) (r s : Region), i < j ∧ rs[i]? = some r ∧ rs[j]? = some s ∧
        ¬ r.range.stop ≤ s.range.offset ∧ ¬ s.range.stop ≤ r.range.offset := by
  rw [List.pairwise_iff_getElem]
  constructor
  · intro h
    push Not at h
    obtain ⟨i, j, hi, hj, hij, hd⟩ := h
    have hns := not_or.mp hd
    exact ⟨i, j, rs[i], rs[j], hij, List.getElem?_eq_getElem hi, List.getElem?_eq_getElem hj,
      hns.1, hns.2⟩
  · rintro ⟨i, j, r, s, hij, hr, hs, h1, h2⟩ h
    obtain ⟨hi, rfl⟩ := List.getElem?_eq_some_iff.mp hr
    obtain ⟨hj, rfl⟩ := List.getElem?_eq_some_iff.mp hs
    rcases h i j hi hj hij with hd | hd
    · exact h1 hd
    · exact h2 hd

theorem unusable_iff (n : Nat) (rs : List Region) : Unusable n rs ↔ ¬ WellFormed n rs := by
  have hstop : (∃ r ∈ rs, n < r.range.offset + r.range.length) ↔
      ¬ ∀ r ∈ rs, r.range.stop ≤ n := by
    constructor
    · rintro ⟨r, hr, hlt⟩ h
      exact absurd (h r hr) (Nat.not_le.mpr hlt)
    · intro h
      by_contra hne
      exact h fun r hr => Nat.not_lt.mp fun hlt => hne ⟨r, hr, hlt⟩
  unfold Unusable WellFormed
  rw [← not_pairwise_disjoint_iff, hstop, not_and_or]

/-- **The check refuses exactly the unusable lists.** -/
theorem exists_checked_eq_error_iff (kind : CodeKind) (n : Nat) (rs : List Region) :
    (∃ f, checked kind n rs = .error f) ↔ Unusable n rs := by
  rw [unusable_iff]
  constructor
  · rintro ⟨f, hf⟩ hw
    rw [checked_of_wellFormed kind hw] at hf
    cases hf
  · intro hw
    exact exists_checked_eq_error kind hw

/-- what the check hands on are the declared ranges, in order -/
theorem perm_inOrder_of_checked {kind : CodeKind} {n : Nat} {rs ss : List Region}
    (h : checked kind n rs = .ok ss) : ss.Perm rs ∧ InOrder ss := by
  obtain ⟨hw, rfl⟩ := (checked_eq_ok_iff kind n rs ss).mp h
  exact ⟨ordered_perm rs, hw.inOrder⟩

end Region

namespace Matching

open Log
open Region (Unusable InOrder checked)

/-- the attempts `x b` on code `b` begin with the check of the ranges `rs` against `n` bytes of code -/
structure Screened (kind : CodeKind) (n : Nat) (rs : List Region) (x : Bytes → Attempt) : Prop where
  /-- on any code, the ranges are refused exactly if they cannot be used -/
  refused_iff : ∀ b, (∃ f, (x b).value = .error (.regions f)) ↔ Unusable n rs
  /-- a refusal names one fault whatever the code is, and nothing has happened before it -/
  refusal : Unusable n rs → ∃ f, checked kind n rs = .error f ∧
    ∀ b, x b = pure (.error (.regions f))
  /-- otherwise the declared ranges are handed on, each before all later ones -/
  accepted : ¬ Unusable n rs → ∃ ss, checked kind n rs = .ok ss ∧ ss.Perm rs ∧ InOrder ss

theorem screened_of_checked {kind : CodeKind} {n : Nat} {rs : List Region} {x : Bytes → Attempt}
    (hrefuse : ∀ f, checked kind n rs = .error f → ∀ b, x b = pure (.error (.regions f)))
    (hpass : ∀ ss, checked kind n rs = .ok ss → ∀ b f, (x b).value ≠ .error (.regions f)) :
    Screened kind n rs x where
  refused_iff b := by
    rw [← Region.exists_checked_eq_error_iff kind]
    constructor
    · rintro ⟨f, hf⟩
      cases hc : checked kind n rs with
      | error g => exact ⟨g, rfl⟩
      | ok ss => exact absurd hf (hpass ss hc b f)
    · rintro ⟨f, hf⟩
      exact ⟨f, by rw [hrefuse f hf b]; rfl⟩
  refusal h := by
    obtain ⟨f, hf⟩ := (Region.exists_checked_eq_error_iff kind n rs).mpr h
    exact ⟨f, hf, hrefuse f hf⟩
  accepted h := by
    rw [← Region.exists_checked_eq_error_iff kind] at h
    cases hc : checked kind n rs with
    | error g => exact absurd ⟨g, hc⟩ h
    | ok ss => exact ⟨ss, rfl, Region.perm_inOrder_of_checked hc⟩

/-! ## runtime code -/

section
variable (d : Bytes) (a : RuntimeArtifacts)

theorem screened_runtime :
    Screened .runtime d.length (Region.ofRuntime a) fun b => runtime b d a := by
  apply screened_of_checked
  · intro f hf b
    unfold runtime
    rw [hf]
  · intro ss hs b f
    rw [value_runtime, hs]
    intro h
    cases h

end

/-! ## creation code -/

section
variable (d : Bytes) (a : CreationArtifacts)

theorem prefixMatch_of_checked_eq_error {f : Region.Fault}
    (h : checked .creation d.length (Region.ofCreation a) = .error f) (b : Bytes) (inputs : Json) :
    prefixMatch b d a inputs = pure (.error (.regions f)) := by
  unfold prefixMatch
  rw [h]

/-- behind the check, no fault is about ranges -/
theorem prefixMatch_ne_regions {ss : List Region}
    (h : checked .creation d.length (Region.ofCreation a) = .ok ss) (b : Bytes) (inputs : Json)
    (f : Region.Fault) : (prefixMatch b d a inputs).value ≠ .error (.regions f) := by
  intro hf
  rw [value_prefixMatch, h] at hf
  simp only at hf
  split at hf
  · cases hf
  · split at hf <;> cases hf

theorem screened_creation {i : Option CompilationArtifacts} {inputs : List Json}
    (hi : constructorInputs i = .ok inputs) :
    Screened .creation d.length (Region.ofCreation a) fun b => creation b d a i := by
  apply screened_of_checked
  · intro f hf b
    unfold creation
    rw [hi]
    show (prefixMatch b d a (.list inputs)).map _ = _
    rw [prefixMatch_of_checked_eq_error d a hf]
    rfl
  · intro ss hs b f
    have hne := prefixMatch_ne_regions d a hs b (.list inputs) f
    rw [value_creation, hi]
    show (prefixMatch b d a (.list inputs)).value.map _ ≠ _
    intro h
    cases hv : (prefixMatch b d a (.list inputs)).value with
    | ok m =>
      rw [hv] at h
      cases h
    | error g =>
      rw [hv] at h hne
      exact hne (congrArg Except.error (Except.error.inj h))

end

end Matching

end CodeMatch
