import CodeMatch.Proofs.Blueprint
import CodeMatch.Proofs.Matching
import Mathlib

/-!
# The audit trail of a match

A match records what differed.  The records are complete: written into the recompiled code they give
the code on chain back, metadata included, although comparing blanks that out on both sides.

* `InPlace n ts`           each transformation has a window of `n` bytes of code, as wide as its value;
* `inPlace_of_compare`     the records of a comparison do;
* `replay_of_prefixMatch`  creation code is restored up to what follows the recompiled part;
* `match_restores_code`    runtime code, creation code with its arguments, and blueprints from their
                           preamble on are restored from the match.
-/

namespace CodeMatch

open Comparison
open Region (WellFormed ordered)

/-- each transformation overwrites a window of `n` bytes of code, as wide as its value -/
def InPlace (n : Nat) (ts : List Transformation) : Prop :=
  ∀ t ∈ ts, 0 ≤ t.offset ∧ t.length = t.value.length ∧ t.offset + t.length ≤ n

theorem inPlace_record {b : Bytes} {r : Region} (hr : r.range.stop ≤ b.length) :
    0 ≤ (r.record b).offset ∧ (r.record b).length = (r.record b).value.length ∧
      (r.record b).offset + (r.record b).length ≤ b.length := by
  refine ⟨Int.natCast_nonneg _, Region.length_record hr, ?_⟩
  show (r.range.offset : Int) + (r.range.length : Int) ≤ b.length
  unfold ByteRange.stop at hr
  omega

theorem inPlace_of_compare {b c : Bytes} {rs : List Region} (hlen : b.length = c.length)
    (hin : ∀ r ∈ rs, r.range.stop ≤ c.length) {m : Match} (h : compare b c rs = some m) :
    InPlace c.length m.transformations := by
  rw [transformations_of_compare h, ← hlen]
  intro t ht
  obtain ⟨r, hr, rfl⟩ := List.mem_map.mp ht
  have hs := hin r (List.mem_filter.mp hr).1
  exact inPlace_record (by omega)

/-- a comparison over declared regions in order can be replayed -/
theorem replay_of_compare_ordered {b c : Bytes} {rs : List Region} (hlen : b.length = c.length)
    (hw : WellFormed c.length rs) {m : Match} (h : compare b c (ordered rs) = some m) :
    InPlace c.length m.transformations ∧ replay c m.transformations = b := by
  have hin : ∀ r ∈ ordered rs, r.range.stop ≤ c.length := fun r hr => hw.stop_le_of_mem_ordered hr
  exact ⟨inPlace_of_compare hlen hin h, replay_of_compare hlen hin hw.inOrder.disjoint h⟩

theorem replay_of_runtime {b c : Bytes} {a : RuntimeArtifacts} {m : Match}
    (h : (Matching.runtime b c a).value = .ok (some m)) :
    InPlace c.length m.transformations ∧ replay c m.transformations = b := by
  obtain ⟨hw, hlen, hc⟩ := Matching.runtime_eq_some_iff.mp h
  exact replay_of_compare_ordered hlen hw hc

/-- the recompiled part of creation code is restored; arguments are not recorded yet -/
theorem replay_of_prefixMatch {b c : Bytes} {a : CreationArtifacts} {inputs : Json} {m : Match}
    (h : (Matching.prefixMatch b c a inputs).value = .ok (some m)) :
    InPlace c.length m.transformations ∧ replay c m.transformations = b.take c.length ∧
      m.values.constructorArguments = none := by
  obtain ⟨hw, hle, _, hc⟩ := Matching.prefixMatch_eq_some_iff.mp h
  have hlen : (b.take c.length).length = c.length := List.length_take_of_le hle
  obtain ⟨hp, hr⟩ := replay_of_compare_ordered hlen hw hc
  exact ⟨hp, hr, constructorArguments_of_compare hc⟩

theorem replay_of_creation {b c : Bytes} {a : CreationArtifacts}
    {i : Option CompilationArtifacts} {m : Match}
    (h : (Matching.creation b c a i).value = .ok (some m)) :
    InPlace c.length m.transformations ∧
      b = replay c m.transformations ++ m.values.constructorArguments.getD [] := by
  obtain ⟨inputs, m', _, hp, rfl⟩ := Matching.creation_eq_some_iff.mp h
  obtain ⟨hp, hr, hn⟩ := replay_of_prefixMatch hp
  rw [Matching.transformations_recordArguments, Matching.constructorArguments_recordArguments hn,
    hr, List.take_append_drop]
  exact ⟨hp, rfl⟩

/-- a blueprint is its preamble, the restored code and whatever follows -/
theorem replay_of_blueprint {b c : Bytes} {a : CreationArtifacts} {m : Match}
    (h : (Matching.blueprint b c a).value = .ok (some m)) :
    InPlace c.length m.transformations ∧
      ∃ p field trailing, Blueprint.parse b = .ok p ∧ Blueprint.Spells b p field ∧
        b = Blueprint.preamble p.version field.length field ++ p.data.getD [] ++
          replay c m.transformations ++ trailing := by
  obtain ⟨p, hparse, hp⟩ := Matching.blueprint_eq_some_iff.mp h
  obtain ⟨field, hs⟩ := Blueprint.exists_spells_of_parse hparse
  obtain ⟨hp, hr, _⟩ := replay_of_prefixMatch hp
  refine ⟨hp, p, field, p.initcode.drop c.length, hparse, hs, ?_⟩
  rw [hr, List.append_assoc, List.take_append_drop]
  exact hs.layout

/-- **The transformations of a match restore the code on chain**: the runtime code, the creation code
up to the recorded arguments, and a blueprint between its preamble and some trailing bytes.  Each one
overwrites a window of the code that is as wide as its value. -/
theorem match_restores_code (b c : Bytes) (m : Match) :
    (∀ a, (Matching.runtime b c a).value = .ok (some m) →
      InPlace c.length m.transformations ∧ b = replay c m.transformations) ∧
    (∀ a i, (Matching.creation b c a i).value = .ok (some m) →
      InPlace c.length m.transformations ∧
        b = replay c m.transformations ++ m.values.constructorArguments.getD []) ∧
    (∀ a, (Matching.blueprint b c a).value = .ok (some m) →
      InPlace c.length m.transformations ∧
        ∃ p field trailing, Blueprint.parse b = .ok p ∧ Blueprint.Spells b p field ∧
          b = Blueprint.preamble p.version field.length field ++ p.data.getD [] ++
            replay c m.transformations ++ trailing) := by
  refine ⟨fun a h => ?_, fun a i h => replay_of_creation h, fun a h => replay_of_blueprint h⟩
  obtain ⟨hp, hr⟩ := replay_of_runtime h
  exact ⟨hp, hr.symm⟩

/-- metadata behind an immutable value; a linked library with the argument 5; a blueprint with data and
trailing bytes -/
theorem match_restores_code_masked :
    let inputs : List Json := [.object [("name", .text "n"), ("type", .text "uint8")]]
    let i : CompilationArtifacts :=
      { abi := some [.ofList [("type", .text "constructor"), ("inputs", .list inputs)]] }
    let r : RuntimeArtifacts :=
      { immutableReferences := .ofList [("7", [⟨1, 2⟩])], cborAuxdata := .ofList [("1", ⟨4, 2⟩)] }
    let a : CreationArtifacts := { linkReferences := .ofList [("a.sol:L", [⟨1, 2⟩])] }
    (∃ m, (Matching.runtime [0x60, 9, 0, 0x57, 0xA1, 0x64] [0x60, 0, 0, 0x57, 0xA2, 0x64] r).value =
        .ok (some m) ∧
      [0x60, 9, 0, 0x57, 0xA1, 0x64] =
        replay [0x60, 0, 0, 0x57, 0xA2, 0x64] m.transformations) ∧
    (∃ m, (Matching.creation ([0x73, 1, 2] ++ Bytes.zeros 31 ++ [5]) [0x73, 0, 0] a
        (some i)).value = .ok (some m) ∧
      [0x73, 1, 2] ++ Bytes.zeros 31 ++ [5] =
        replay [0x73, 0, 0] m.transformations ++ m.values.constructorArguments.getD []) ∧
    (∃ m, (Matching.blueprint [0xFE, 0x71, 1, 1, 8, 0x73, 1, 2, 0xFF] [0x73, 0, 0] a).value =
        .ok (some m) ∧
      ∃ p field trailing, Blueprint.parse [0xFE, 0x71, 1, 1, 8, 0x73, 1, 2, 0xFF] = .ok p ∧
        [0xFE, 0x71, 1, 1, 8, 0x73, 1, 2, 0xFF] =
          Blueprint.preamble p.version field.length field ++ p.data.getD [] ++
            replay [0x73, 0, 0] m.transformations ++ trailing) := by
  intro inputs i r a
  have hr : ∃ m, (Matching.runtime [0x60, 9, 0, 0x57, 0xA1, 0x64]
      [0x60, 0, 0, 0x57, 0xA2, 0x64] r).value = .ok (some m) := ⟨_, by cbv⟩
  have hv : (Constructor.argumentsValid (Bytes.zeros 31 ++ [5]) (.list inputs)).value =
      .ok true := by rfl
  have hp : ∃ m, (Matching.prefixMatch ([0x73, 1, 2] ++ Bytes.zeros 31 ++ [5]) [0x73, 0, 0] a
      (.list inputs)).value = .ok (some m) :=
    ⟨_, Matching.prefixMatch_eq_some_iff.mpr ⟨by decide, by decide, hv, by cbv⟩⟩
  have hb : ∃ m, (Matching.blueprint [0xFE, 0x71, 1, 1, 8, 0x73, 1, 2, 0xFF] [0x73, 0, 0] a).value =
      .ok (some m) := ⟨_, by cbv⟩
  obtain ⟨m, hm⟩ := hr
  obtain ⟨m', hm'⟩ := hp
  obtain ⟨m'', hm''⟩ := hb
  have hc := Matching.creation_eq_some_iff.mpr ⟨inputs, m', (by rfl :
    Matching.constructorInputs (some i) = .ok inputs), hm', rfl⟩
  obtain ⟨p, field, trailing, hparse, _, hlayout⟩ := ((match_restores_code _ _ m'').2.2 a hm'').2
  exact ⟨⟨m, hm, ((match_restores_code _ _ m).1 r hm).2⟩,
    ⟨_, hc, ((match_restores_code _ _ _).2.1 a (some i) hc).2⟩,
    ⟨m'', hm'', p, field, trailing, hparse, hlayout⟩⟩

end CodeMatch
