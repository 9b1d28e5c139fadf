import CodeMatch.Proofs.Values
import Mathlib

/-!
# One value for each identifier

A match shows one value for each identifier, however many of its ranges differ.  It is the value of the range
that begins first; it is the value of them all only where the code on chain holds the same bytes in each.

* `Match.Reports m id v k`   under the reason `k`, the match `m` shows the value `v` for the identifier `id`;
* `Match.OneValue m k`       what it shows for a transformation with the reason `k` is that one's own value;
* `reports_valuesOf_iff`     the value shown is that of the first transformation;
* `ReportsFirst m`           so `m` shows the values of the first ones, and those of all of them exactly if
                             they agree;
* `first_value_reported`     this holds of all three ways to match;
* `not_oneValue`             there are matches with two values for one identifier.
-/

namespace CodeMatch

namespace Match

/-- a library's value is shown as a text that is read as `v` -/
def Reports (m : Match) (id : String) (v : Bytes) : Reason → Prop
  | .immutable => m.values.immutables.get? id = some v
  | .library => ∃ s, m.values.libraries.get? id = some s ∧ Hex.decode s = .ok v
  | .auxdata => m.values.auxdata.get? id = some v

def OneValue (m : Match) (k : Reason) : Prop :=
  ∀ t ∈ m.transformations, t.reason = k → m.Reports t.id t.value k

end Match

namespace Comparison

open Region (InOrder WellFormed ordered)

theorem decode_libraryText (v : Bytes) : Hex.decode (libraryText v) = .ok v :=
  ((shows_iff rfl).mpr rfl).1

theorem reports_valuesOf_iff {m : Match} (h : m.values = valuesOf m.transformations) {k : Reason}
    {id : String} {v : Bytes} :
    m.Reports id v k ↔
      ∃ t, m.transformations.find? (fun t => t.reason = k ∧ t.id = id) = some t ∧ v = t.value := by
  have hvalues := h.trans (valuesOf_eq _)
  cases k with
  | immutable =>
    rw [Match.Reports, hvalues, get?_gathered, Option.map_eq_some_iff]
    simp only [id_eq, eq_comm]
  | library =>
    simp only [Match.Reports, hvalues, get?_gathered, Option.map_eq_some_iff]
    constructor
    · rintro ⟨s, ⟨t, ht, rfl⟩, hs⟩
      rw [decode_libraryText] at hs
      exact ⟨t, ht, (Except.ok.inj hs).symm⟩
    · rintro ⟨t, ht, rfl⟩
      exact ⟨_, ⟨t, ht, rfl⟩, decode_libraryText t.value⟩
  | auxdata =>
    rw [Match.Reports, hvalues, get?_gathered, Option.map_eq_some_iff]
    simp only [id_eq, eq_comm]

/-- the transformations of `m` begin one after the other, and it shows the first value of each identifier -/
structure InTurn (m : Match) : Prop where
  increasing : m.transformations.Pairwise fun s t => s.offset < t.offset
  reports_iff : ∀ k id v, m.Reports id v k ↔
    ∃ t, m.transformations.find? (fun t => t.reason = k ∧ t.id = id) = some t ∧ v = t.value

/-- the transformation `s` begins first of those with its reason and identifier -/
structure IsFirst (m : Match) (s : Transformation) : Prop where
  mem : s ∈ m.transformations
  le : ∀ u ∈ m.transformations, u.reason = s.reason → u.id = s.id → s.offset ≤ u.offset

/-- `m` shows the values of the first transformations, and all values exactly if there is no other one -/
structure ReportsFirst (m : Match) : Prop where
  exists_first : ∀ t ∈ m.transformations, ∃ s, IsFirst m s ∧ s.reason = t.reason ∧ s.id = t.id ∧
    ∀ v, m.Reports t.id v t.reason ↔ v = s.value
  oneValue_iff : ∀ k, m.OneValue k ↔ ∀ t ∈ m.transformations, ∀ u ∈ m.transformations,
    t.reason = k → u.reason = k → t.id = u.id → t.value = u.value

section
variable {m : Match} (h : InTurn m)
include h

theorem InTurn.exists_first {t : Transformation} (ht : t ∈ m.transformations) :
    ∃ s, IsFirst m s ∧ s.reason = t.reason ∧ s.id = t.id ∧
      ∀ v, m.Reports t.id v t.reason ↔ v = s.value := by
  obtain ⟨s, hs⟩ : ∃ s, m.transformations.find?
      (fun u => u.reason = t.reason ∧ u.id = t.id) = some s := by
    rw [← Option.isSome_iff_exists, List.find?_isSome]
    exact ⟨t, ht, by simp⟩
  obtain ⟨hmem, hp, hle⟩ := (find?_eq_some_iff_lowest h.increasing).mp hs
  obtain ⟨hreason, hid⟩ := of_decide_eq_true hp
  refine ⟨s, ⟨hmem, fun u hu hur hui => hle u hu ?_⟩, hreason, hid, fun v => ?_⟩
  · rw [hur, hui, hreason, hid]
    simp
  · rw [h.reports_iff, hs]
    simp

theorem InTurn.reportsFirst : ReportsFirst m := by
  refine ⟨fun t ht => h.exists_first ht, fun k => ⟨fun hone t ht u hu htk huk hid => ?_, ?_⟩⟩
  · obtain ⟨s, -, -, -, hs⟩ := h.exists_first ht
    have htv := hone t ht htk
    have huv := hone u hu huk
    rw [← htk, hs] at htv
    rw [← hid, ← htk, hs] at huv
    rw [htv, huv]
  · rintro hagree t ht rfl
    obtain ⟨s, hfirst, hreason, hid, hs⟩ := h.exists_first ht
    exact (hs _).mpr (hagree t ht s hfirst.mem rfl hreason hid.symm)

end

end Comparison

namespace Matching

open Comparison

theorem reports_recordArguments (arguments : Bytes) {m : Match} {id : String} {v : Bytes} {k : Reason} :
    (recordArguments arguments m).Reports id v k ↔ m.Reports id v k := by
  cases arguments <;> cases k <;> rfl

theorem law_inTurn : Law fun _ _ _ m => InTurn m where
  found := by
    intro b c rs m hle hw h
    exact ⟨(lists_of_compare hle hw h).increasing, fun k id v => reports_valuesOf_iff (values_of_compare h)⟩
  recorded := by
    intro b c rs m arguments h
    refine ⟨?_, fun k id v => (reports_recordArguments arguments).trans ?_⟩
    · rw [transformations_recordArguments]
      exact h.increasing
    · rw [transformations_recordArguments]
      exact h.reports_iff k id v

/-- **A match shows the first value of each identifier.**  For an immutable, a library or metadata that differs
in several ranges it is the value of the range that begins first; it is the value of each of them exactly
if the code on chain holds the same bytes in all of them. -/
theorem first_value_reported (b c : Bytes) (m : Match) :
    (∀ a, (runtime b c a).value = .ok (some m) → ReportsFirst m) ∧
    (∀ a i, (creation b c a i).value = .ok (some m) → ReportsFirst m) ∧
    ∀ a, (blueprint b c a).value = .ok (some m) → ReportsFirst m := by
  refine ⟨fun a h => ?_, fun a i h => ?_, fun a h => ?_⟩
  · exact (law_inTurn.runtime h).reportsFirst
  · exact (law_inTurn.creation h).reportsFirst
  · obtain ⟨_, -, hturn⟩ := law_inTurn.blueprint h
    exact hturn.reportsFirst

/-- an immutable value with two values on chain shows the first; a library that is linked twice to one address
shows it for both, in creation code and in a blueprint -/
theorem first_value_reported_linked_twice :
    let b : Bytes := [0x60, 9, 8, 0x57]
    let r : RuntimeArtifacts := { immutableReferences := .ofList [("7", [⟨2, 1⟩, ⟨1, 1⟩])] }
    let a : CreationArtifacts := { linkReferences := .ofList [("a.sol:L", [⟨0, 2⟩, ⟨3, 2⟩])] }
    (∃ m, (runtime b [0x60, 0, 0, 0x57] r).value = .ok (some m) ∧ ReportsFirst m ∧
      m.transformations = [⟨.immutable, "7", 1, 1, [9]⟩, ⟨.immutable, "7", 2, 1, [8]⟩] ∧
      m.Reports "7" [9] .immutable) ∧
    (∃ m, (creation [1, 2, 0x73, 1, 2] [0, 0, 0x73, 0, 0] a none).value = .ok (some m) ∧
      ReportsFirst m ∧ m.OneValue .library) ∧
    ∃ m, (blueprint [0xFE, 0x71, 0, 1, 2, 0x73, 1, 2] [0, 0, 0x73, 0, 0] a).value = .ok (some m) ∧
      ReportsFirst m := by
  intro b r a
  have hr : ∃ m, m.transformations =
      [⟨.immutable, "7", 1, 1, [9]⟩, ⟨.immutable, "7", 2, 1, [8]⟩] ∧
      m.values.immutables.get? "7" = some [9] ∧
      (runtime b [0x60, 0, 0, 0x57] r).value = .ok (some m) := by
    refine ⟨_, ?_, ?_, by cbv⟩
    · rfl
    · rfl
  have hc : ∃ m, m.transformations =
      [⟨.library, "a.sol:L", 0, 2, [1, 2]⟩, ⟨.library, "a.sol:L", 3, 2, [1, 2]⟩] ∧
      (creation [1, 2, 0x73, 1, 2] [0, 0, 0x73, 0, 0] a none).value = .ok (some m) := by
    refine ⟨_, ?_, by cbv⟩
    rfl
  have hb : ∃ m, (blueprint [0xFE, 0x71, 0, 1, 2, 0x73, 1, 2] [0, 0, 0x73, 0, 0] a).value =
      .ok (some m) := ⟨_, by cbv⟩
  obtain ⟨m, hts, hvalue, hm⟩ := hr
  obtain ⟨m', hts', hm'⟩ := hc
  obtain ⟨m'', hm''⟩ := hb
  have hfirst := (first_value_reported _ _ m').2.1 a none hm'
  refine ⟨⟨m, hm, (first_value_reported _ _ m).1 r hm, hts, hvalue⟩,
    ⟨m', hm', hfirst, (hfirst.oneValue_iff .library).mpr ?_⟩,
    ⟨m'', hm'', (first_value_reported _ _ m'').2.2 a hm''⟩⟩
  rw [hts']
  simp

/-- two values for one immutable and two addresses for one library, in one match: only the first of them is
shown -/
theorem not_oneValue :
    let address : Bytes := List.replicate 20 0xAB
    let address' : Bytes := List.replicate 20 0xCD
    let b : Bytes := [9, 8] ++ address ++ address'
    let r : RuntimeArtifacts :=
      { immutableReferences := .ofList [("7", [⟨0, 1⟩, ⟨1, 1⟩])],
        linkReferences := .ofList [("a.sol:L", [⟨2, 20⟩, ⟨22, 20⟩])] }
    ∃ m, (runtime b (Bytes.zeros 42) r).value = .ok (some m) ∧ m.isFull = false ∧
      ¬ m.OneValue .immutable ∧ ¬ m.OneValue .library := by
  intro address address' b r
  have hr : (runtime b (Bytes.zeros 42) r).value = .ok (some ⟨.part, _, _⟩) := runtime_eq_some_iff.mpr
    ⟨by decide, by decide, compare_eq_some_iff.mpr (.inr ⟨by decide, by cbv, rfl⟩)⟩
  have hfirst := (law_inTurn.runtime hr).reportsFirst
  have hmem := (law_lists.runtime hr).mem_iff
  refine ⟨_, hr, rfl, fun hone => ?_, fun hone => ?_⟩
  · have heq := (hfirst.oneValue_iff .immutable).mp hone ⟨.immutable, "7", 0, 1, [9]⟩
      ((hmem _).mpr ⟨⟨.immutable, "7", ⟨0, 1⟩⟩, by decide, by decide, rfl⟩)
      ⟨.immutable, "7", 1, 1, [8]⟩
      ((hmem _).mpr ⟨⟨.immutable, "7", ⟨1, 1⟩⟩, by decide, by decide, rfl⟩) rfl rfl rfl
    cases heq
  · have heq := (hfirst.oneValue_iff .library).mp hone ⟨.library, "a.sol:L", 2, 20, address⟩
      ((hmem _).mpr ⟨⟨.library, "a.sol:L", ⟨2, 20⟩⟩, by decide, by decide, rfl⟩)
      ⟨.library, "a.sol:L", 22, 20, address'⟩
      ((hmem _).mpr ⟨⟨.library, "a.sol:L", ⟨22, 20⟩⟩, by decide, by decide, rfl⟩) rfl rfl rfl
    exact absurd heq (by decide)

end Matching

end CodeMatch
