import CodeMatch.Proofs.Match.Differing
import CodeMatch.Proofs.Matching
import Mathlib

/-!
# Ranges that agree are irrelevant

A declared range in which the code on chain agrees with the recompiled code might as well not have been
declared.  If the declaration stays well-formed, more ranges never change a match: what differs is
covered already, and a range that differs as well would overlap what covers it.

* `sameDifferences_take_iff`   what lies behind the recompiled code does not matter;
* `sameDifferences_of_subset`   ranges that are added to a match agree;
* `Heeds b d regions x`    the attempts `x a` depend only on those ranges of `a` in which `b` and `d` differ;
* `agreeing_ranges_immaterial`   so it is with all three ways to match.
-/

namespace CodeMatch

namespace Comparison

open Region (Covered WellFormed ordered)

variable {b d : Bytes} {rs ss : List Region}

theorem sameDifferences_take_iff {n : Nat} (hr : WellFormed n rs) (hs : WellFormed n ss) :
    SameDifferences (b.take n) d rs ss ↔ SameDifferences b d rs ss := by
  unfold SameDifferences
  apply forall_congr'
  intro r
  by_cases hmem : r ∈ rs ∨ r ∈ ss
  · have hstop : r.range.stop ≤ n := hmem.elim (hr.1 r) (hs.1 r)
    rw [window_take hstop]
  · obtain ⟨h1, h2⟩ := not_or.mp hmem
    have hiff : r ∈ rs ↔ r ∈ ss := iff_of_false h1 h2
    exact iff_of_true (fun _ => hiff) fun _ => hiff

/-- if some ranges cover all differences, then ranges that are added to them agree -/
theorem sameDifferences_of_subset {n : Nat} (hs : WellFormed n ss) (hsub : rs ⊆ ss)
    (hcov : ∀ i, b[i]? ≠ d[i]? → Covered rs i) : SameDifferences b d rs ss := by
  intro r hne
  refine ⟨fun hr => hsub hr, fun hr => ?_⟩
  obtain ⟨i, hi, hdiff⟩ := (differs_eq_true_iff b d r).mp (differs_iff_window_ne.mpr hne)
  obtain ⟨s, hs', hsi⟩ := hcov i hdiff
  by_cases hrs : r = s
  · rw [hrs]
    exact hs'
  · -- both hold the index `i`, so they would overlap
    have hsymm : Std.Symm fun r s : Region => r.range.Disjoint s.range := ⟨fun _ _ h => h.symm⟩
    have hd : r.range.Disjoint s.range := hs.2.forall hr (hsub hs') hrs
    exact absurd hsi (hd.not_covers hi)

/-- what a match leaves to be added to it -/
theorem sameDifferences_of_compare {m : Match} (hlen : b.length = d.length)
    (hr : WellFormed d.length rs) (hs : WellFormed d.length ss) (hsub : rs ⊆ ss)
    (h : compare b d (ordered rs) = some m) : SameDifferences b d rs ss := by
  apply sameDifferences_of_subset hs hsub
  apply (isSome_compare_ordered_iff hlen hr).mp
  rw [h]
  rfl

end Comparison

namespace Matching

open Comparison
open Region (WellFormed ordered)

/-- the attempts `x a` depend only on those ranges of the artifacts `a` in which the code `b` on chain
differs from the recompiled code `d` -/
structure Heeds {α : Type} (b d : Bytes) (regions : α → List Region) (x : α → Attempt) : Prop where
  congr : ∀ a a', WellFormed d.length (regions a) → WellFormed d.length (regions a') →
    SameDifferences b d (regions a) (regions a') → x a = x a'
  /-- more ranges never change a match -/
  extend : ∀ a a' m, (x a).value = .ok (some m) → WellFormed d.length (regions a') →
    regions a ⊆ regions a' → (x a').value = .ok (some m)

/-- a match can be extended if it tells of a well-formed declaration what else agrees -/
theorem heeds_of_congr {α : Type} {b d : Bytes} {regions : α → List Region} {x : α → Attempt}
    (hcongr : ∀ a a', WellFormed d.length (regions a) → WellFormed d.length (regions a') →
      SameDifferences b d (regions a) (regions a') → x a = x a')
    (hmatch : ∀ a a' m, (x a).value = .ok (some m) → WellFormed d.length (regions a') →
      regions a ⊆ regions a' →
      WellFormed d.length (regions a) ∧ SameDifferences b d (regions a) (regions a')) :
    Heeds b d regions x where
  congr := hcongr
  extend a a' m hm hw hsub := by
    obtain ⟨hw', hsame⟩ := hmatch a a' m hm hw hsub
    rw [← hcongr a a' hw' hw hsame]
    exact hm

/-! ## runtime code -/

theorem runtime_congr {b d : Bytes} {a a' : RuntimeArtifacts}
    (hr : WellFormed d.length (Region.ofRuntime a)) (hs : WellFormed d.length (Region.ofRuntime a'))
    (h : SameDifferences b d (Region.ofRuntime a) (Region.ofRuntime a')) :
    runtime b d a = runtime b d a' := by
  unfold runtime
  rw [Region.checked_of_wellFormed .runtime hr, Region.checked_of_wellFormed .runtime hs]
  simp only [compare_ordered_congr hr hs h]

theorem heeds_runtime (b d : Bytes) : Heeds b d Region.ofRuntime (runtime b d) := by
  refine heeds_of_congr (fun a a' => runtime_congr) ?_
  intro a a' m hm hw hsub
  obtain ⟨hr, hlen, hc⟩ := runtime_eq_some_iff.mp hm
  exact ⟨hr, sameDifferences_of_compare hlen hr hw hsub hc⟩

/-! ## creation code -/

section
variable {b d : Bytes} {a a' : CreationArtifacts}

theorem prefixMatch_congr (hr : WellFormed d.length (Region.ofCreation a))
    (hs : WellFormed d.length (Region.ofCreation a'))
    (h : SameDifferences b d (Region.ofCreation a) (Region.ofCreation a')) (inputs : Json) :
    prefixMatch b d a inputs = prefixMatch b d a' inputs := by
  have htake := (sameDifferences_take_iff hr hs).mpr h
  unfold prefixMatch
  rw [Region.checked_of_wellFormed .creation hr, Region.checked_of_wellFormed .creation hs]
  simp only [compare_ordered_congr hr hs htake]

/-- what a match of the recompiled part leaves to be added to it -/
theorem sameDifferences_of_prefixMatch {inputs : Json} {m : Match}
    (h : (prefixMatch b d a inputs).value = .ok (some m))
    (hs : WellFormed d.length (Region.ofCreation a'))
    (hsub : Region.ofCreation a ⊆ Region.ofCreation a') :
    WellFormed d.length (Region.ofCreation a) ∧
      SameDifferences b d (Region.ofCreation a) (Region.ofCreation a') := by
  obtain ⟨hr, hle, _, hc⟩ := prefixMatch_eq_some_iff.mp h
  have hlen : (b.take d.length).length = d.length := List.length_take_of_le hle
  exact ⟨hr, (sameDifferences_take_iff hr hs).mp (sameDifferences_of_compare hlen hr hs hsub hc)⟩

end

theorem heeds_creation (b d : Bytes) (i : Option CompilationArtifacts) :
    Heeds b d Region.ofCreation fun a => creation b d a i := by
  apply heeds_of_congr
  · intro a a' hr hs h
    unfold creation
    cases constructorInputs i with
    | error u => rfl
    | ok inputs =>
      simp only
      rw [prefixMatch_congr hr hs h]
  · intro a a' m hm hw hsub
    obtain ⟨inputs, m', _, hp, _⟩ := creation_eq_some_iff.mp hm
    exact sameDifferences_of_prefixMatch hp hw hsub

theorem heeds_blueprint {b : Bytes} {p : Blueprint} (hp : Blueprint.parse b = .ok p) (d : Bytes) :
    Heeds p.initcode d Region.ofCreation (blueprint b d) := by
  apply heeds_of_congr
  · intro a a' hr hs h
    rw [blueprint_of_parse hp, blueprint_of_parse hp, prefixMatch_congr hr hs h]
  · intro a a' m hm hw hsub
    rw [blueprint_of_parse hp] at hm
    exact sameDifferences_of_prefixMatch hm hw hsub

/-- **Ranges that agree are irrelevant.**  Well-formed artifacts with the same ranges where the code on
chain differs from the recompiled code lead to the same outcome, records included; and a match stays
what it is when ranges are added to well-formed artifacts.  For a blueprint, the code on chain is the
code in it; without a preamble no artifacts matter at all. -/
theorem agreeing_ranges_immaterial (b d : Bytes) :
    Heeds b d Region.ofRuntime (runtime b d) ∧
    (∀ i, Heeds b d Region.ofCreation fun a => creation b d a i) ∧
    (∀ p, Blueprint.parse b = .ok p → Heeds p.initcode d Region.ofCreation (blueprint b d)) ∧
    ∀ f, Blueprint.parse b = .error f → ∀ a a', blueprint b d a = blueprint b d a' := by
  refine ⟨heeds_runtime b d, heeds_creation b d, fun p hp => heeds_blueprint hp d, ?_⟩
  intro f hf a a'
  unfold blueprint
  rw [hf]

/-- beside the metadata that differs: a range that agrees and an empty one may come and go, in runtime code
and in a blueprint -/
theorem agreeing_ranges_immaterial_added :
    let b : Bytes := [0x60, 9, 0, 0x57, 0xA1, 0x64]
    let d : Bytes := [0x60, 9, 0, 0x57, 0xA2, 0x64]
    let r : RuntimeArtifacts := { cborAuxdata := .ofList [("1", ⟨4, 2⟩)] }
    let r' : RuntimeArtifacts :=
      { immutableReferences := .ofList [("1", [⟨4, 0⟩, ⟨1, 2⟩])],
        cborAuxdata := .ofList [("1", ⟨4, 2⟩)] }
    let a : CreationArtifacts :=
      { linkReferences := .ofList [("a.sol:L", [⟨1, 2⟩])], cborAuxdata := .ofList [("1", ⟨4, 2⟩)] }
    let a' : CreationArtifacts :=
      { linkReferences := .ofList [("b.sol:M", [⟨3, 1⟩])], cborAuxdata := .ofList [("1", ⟨4, 2⟩)] }
    let code : Bytes := [0xFE, 0x71, 0] ++ b ++ [7]
    (∃ m, (runtime b d r).value = .ok (some m) ∧ (runtime b d r').value = .ok (some m)) ∧
      a ≠ a' ∧ (∃ m, (blueprint code d a).value = .ok (some m)) ∧
      blueprint code d a = blueprint code d a' := by
  intro b d r r' a a' code
  have hr : ∃ m, (runtime b d r).value = .ok (some m) := ⟨_, by cbv⟩
  have hp : Blueprint.parse code = .ok ⟨0, none, b ++ [7]⟩ := by rfl
  have hb : ∃ m, (blueprint code d a).value = .ok (some m) := ⟨_, by cbv⟩
  have hsame : SameDifferences (b ++ [7]) d (Region.ofCreation a) (Region.ofCreation a') := by
    intro q hq
    have ha : Region.ofCreation a = [⟨.library, "a.sol:L", ⟨1, 2⟩⟩, ⟨.auxdata, "1", ⟨4, 2⟩⟩] := by rfl
    have ha' : Region.ofCreation a' = [⟨.library, "b.sol:M", ⟨3, 1⟩⟩, ⟨.auxdata, "1", ⟨4, 2⟩⟩] := by
      rfl
    rw [ha, ha', List.mem_pair, List.mem_pair]
    refine or_congr_left (iff_of_false ?_ ?_)
    · rintro rfl
      exact hq (by decide)
    · rintro rfl
      exact hq (by decide)
  obtain ⟨m, hm⟩ := hr
  refine ⟨⟨m, hm, ?_⟩, by decide, hb, ?_⟩
  · exact (agreeing_ranges_immaterial b d).1.extend r r' m hm (by decide) (by decide)
  · exact ((agreeing_ranges_immaterial code d).2.2.1 _ hp).congr a a' (by decide) (by decide) hsame

end Matching

end CodeMatch
