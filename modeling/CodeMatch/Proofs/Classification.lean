import CodeMatch.Proofs.Match.Differing
import CodeMatch.Proofs.Matching
import CodeMatch.Verification

/-!
# Which verdict a target gets

A target that is no blueprint is judged by its two pieces of code, each on its own.

* `RuntimeAgrees b d a`      the runtime code `b` is the recompiled code `d` up to the regions that `a`
                             declares, and these are well-formed;
* `CreationAgrees b d a i`   the same for creation code, where valid constructor arguments follow;
* `verifyContract_classifies`   the slots of the verdict are filled exactly if the code agrees, and the
                             kind of the verdict says which of them are.

Unusable artifacts and arguments that cannot be judged leave a slot empty like any other disagreement.
-/

namespace CodeMatch

open Log
open Region (Covered WellFormed)

/-- runtime code `b` on chain is the recompiled code `d`, up to declared regions -/
structure RuntimeAgrees (b d : Bytes) (a : RuntimeArtifacts) : Prop where
  wellFormed : WellFormed d.length (Region.ofRuntime a)
  length_eq : b.length = d.length
  covered : ∀ i < d.length, b[i]? ≠ d[i]? → Covered (Region.ofRuntime a) i

/-- creation code `b` on chain is the recompiled code `d`, up to declared regions, and arguments for
the constructor of the interface `i` -/
structure CreationAgrees (b d : Bytes) (a : CreationArtifacts) (i : CompilationArtifacts) :
    Prop where
  wellFormed : WellFormed d.length (Region.ofCreation a)
  length_le : d.length ≤ b.length
  /-- an unknown interface stands for a constructor without inputs -/
  arguments : ∃ inputs, i.constructorInputs = .ok inputs ∧
    (Constructor.argumentsValid (b.drop d.length) (.list (inputs.getD []))).value = .ok true
  covered : ∀ i < d.length, b[i]? ≠ d[i]? → Covered (Region.ofCreation a) i

/-- there is runtime code, and it agrees -/
def RuntimeMatches (compiled : CompiledContract) (t : OnChainContract) : Prop :=
  ∃ b, t.code.runtime = some b ∧
    RuntimeAgrees b compiled.recompiled.runtime compiled.artifacts.runtime

/-- there is creation code, and it agrees -/
def CreationMatches (compiled : CompiledContract) (t : OnChainContract) : Prop :=
  ∃ b, t.code.creation = some b ∧
    CreationAgrees b compiled.recompiled.creation compiled.artifacts.creation
      compiled.artifacts.compilation

/-! ## one piece of code -/

/-- code of one length only differs below that length -/
theorem forall_lt_iff {b d : Bytes} (hlen : b.length = d.length) {P : Nat → Prop} :
    (∀ i < d.length, b[i]? ≠ d[i]? → P i) ↔ ∀ i, b[i]? ≠ d[i]? → P i := by
  constructor
  · intro h i hi
    by_cases hlt : i < d.length
    · exact h i hlt hi
    · rw [List.getElem?_eq_none (by omega), List.getElem?_eq_none (by omega)] at hi
      exact absurd rfl hi
  · intro h i _ hi
    exact h i hi

/-- a comparison by the indices inside the code -/
theorem isSome_compare_ordered {b d : Bytes} {rs : List Region} (hlen : b.length = d.length)
    (h : WellFormed d.length rs) :
    (Comparison.compare b d (Region.ordered rs)).isSome ↔
      ∀ i < d.length, b[i]? ≠ d[i]? → Covered rs i := by
  rw [Comparison.isSome_compare_ordered_iff hlen h, forall_lt_iff hlen]

theorem runtimeAgrees_iff (b d : Bytes) (a : RuntimeArtifacts) :
    RuntimeAgrees b d a ↔ ∃ m, (Matching.runtime b d a).value = .ok (some m) := by
  simp only [Matching.runtime_eq_some_iff, exists_and_left, ← Option.isSome_iff_exists]
  constructor
  · rintro ⟨hw, hlen, hc⟩
    exact ⟨hw, hlen, (isSome_compare_ordered hlen hw).mpr hc⟩
  · rintro ⟨hw, hlen, hc⟩
    exact ⟨hw, hlen, (isSome_compare_ordered hlen hw).mp hc⟩

theorem constructorInputs_some (i : CompilationArtifacts) (l : List Json) :
    Matching.constructorInputs (some i) = .ok l ↔
      ∃ inputs, i.constructorInputs = .ok inputs ∧ inputs.getD [] = l := by
  show i.constructorInputs.map (fun inputs => inputs.getD []) = .ok l ↔ _
  cases i.constructorInputs with
  | error u => simp [Except.map]
  | ok inputs => simp [Except.map]

theorem creationAgrees_iff (b d : Bytes) (a : CreationArtifacts) (i : CompilationArtifacts) :
    CreationAgrees b d a i ↔ ∃ m, (Matching.creation b d a (some i)).value = .ok (some m) := by
  constructor
  · rintro ⟨hw, hle, ⟨inputs, hi, hv⟩, hc⟩
    have hlen : (b.take d.length).length = d.length := List.length_take_of_le hle
    obtain ⟨m, hm⟩ := Option.isSome_iff_exists.mp ((isSome_compare_ordered hlen hw).mpr
      fun j hj => by rw [List.getElem?_take_of_lt hj]; exact hc j hj)
    refine ⟨_, Matching.creation_eq_some_iff.mpr ⟨inputs.getD [], m, ?_, ?_, rfl⟩⟩
    · exact (constructorInputs_some i _).mpr ⟨inputs, hi, rfl⟩
    · exact Matching.prefixMatch_eq_some_iff.mpr ⟨hw, hle, hv, hm⟩
  · rintro ⟨m, hm⟩
    obtain ⟨l, m', hl, hp, -⟩ := Matching.creation_eq_some_iff.mp hm
    obtain ⟨inputs, hi, rfl⟩ := (constructorInputs_some i l).mp hl
    obtain ⟨hw, hle, hv, hc⟩ := Matching.prefixMatch_eq_some_iff.mp hp
    have hlen : (b.take d.length).length = d.length := List.length_take_of_le hle
    refine ⟨hw, hle, ⟨inputs, hi, hv⟩, fun j hj hd => ?_⟩
    have hcov := (isSome_compare_ordered hlen hw).mp (by rw [hc]; rfl)
    exact hcov j hj (by rwa [List.getElem?_take_of_lt hj])

/-! ## verdicts -/

/-- the verdict on a target that is no blueprint folds the two guarded matches -/
theorem value_verifyContract (compiled : CompiledContract) {t : OnChainContract}
    (h : t.isBlueprint = false) :
    (verifyContract compiled t).value = .ofMatches
      (Verification.matchRuntime (some t.id) t.code.runtime compiled.recompiled
        compiled.artifacts).value
      (Verification.matchCreation (some t.id) t.code.creation compiled.recompiled
        compiled.artifacts).value := by
  unfold verifyContract verifyTarget
  rw [h]
  rfl

theorem matchRuntime_eq_some_iff {target : Option String} {b : Option Bytes}
    {code : RecompiledCode} {artifacts : ArtifactSet} {m : Match} :
    (Verification.matchRuntime target b code artifacts).value = some m ↔
      ∃ b', b = some b' ∧
        (Matching.runtime b' code.runtime artifacts.runtime).value = .ok (some m) := by
  cases b with
  | none => exact iff_of_false (by rintro ⟨⟩) (by rintro ⟨b', hb, _⟩; cases hb)
  | some b =>
    simp only [Option.some.injEq, exists_eq_left']
    exact Matching.guarded_eq_some_iff

theorem matchCreation_eq_some_iff {target : Option String} {b : Option Bytes}
    {code : RecompiledCode} {artifacts : ArtifactSet} {m : Match} :
    (Verification.matchCreation target b code artifacts).value = some m ↔
      ∃ b', b = some b' ∧ (Matching.creation b' code.creation artifacts.creation
        (some artifacts.compilation)).value = .ok (some m) := by
  cases b with
  | none => exact iff_of_false (by rintro ⟨⟩) (by rintro ⟨b', hb, _⟩; cases hb)
  | some b =>
    simp only [Option.some.injEq, exists_eq_left']
    exact Matching.guarded_eq_some_iff

/-- the runtime slot of a verdict holds what matching the runtime code gives -/
theorem runtime?_verifyContract {compiled : CompiledContract} {t : OnChainContract}
    (h : t.isBlueprint = false) {m : Match} :
    (verifyContract compiled t).value.runtime? = some m ↔
      ∃ b, t.code.runtime = some b ∧ (Matching.runtime b compiled.recompiled.runtime
        compiled.artifacts.runtime).value = .ok (some m) := by
  rw [value_verifyContract compiled h, Verdict.runtime?_ofMatches, matchRuntime_eq_some_iff]

/-- the creation slot of a verdict holds what matching the creation code gives -/
theorem creation?_verifyContract {compiled : CompiledContract} {t : OnChainContract}
    (h : t.isBlueprint = false) {m : Match} :
    (verifyContract compiled t).value.creation? = some m ↔
      ∃ b, t.code.creation = some b ∧ (Matching.creation b compiled.recompiled.creation
        compiled.artifacts.creation (some compiled.artifacts.compilation)).value =
          .ok (some m) := by
  rw [value_verifyContract compiled h, Verdict.creation?_ofMatches, matchCreation_eq_some_iff]

theorem isSome_runtime?_iff {compiled : CompiledContract} {t : OnChainContract}
    (h : t.isBlueprint = false) :
    (verifyContract compiled t).value.runtime?.isSome ↔ RuntimeMatches compiled t := by
  unfold RuntimeMatches
  simp only [Option.isSome_iff_exists, runtime?_verifyContract h, runtimeAgrees_iff]
  rw [exists_comm]
  simp only [exists_and_left]

theorem isSome_creation?_iff {compiled : CompiledContract} {t : OnChainContract}
    (h : t.isBlueprint = false) :
    (verifyContract compiled t).value.creation?.isSome ↔ CreationMatches compiled t := by
  unfold CreationMatches
  simp only [Option.isSome_iff_exists, creation?_verifyContract h, creationAgrees_iff]
  rw [exists_comm]
  simp only [exists_and_left]

/-- the kind of a verdict says which slots are filled -/
theorem Verdict.kind_iff (v : Verdict) :
    (v.kind = .completeMatch ↔ v.runtime?.isSome ∧ v.creation?.isSome) ∧
    (v.kind = .runtimeMatch ↔ v.runtime?.isSome ∧ ¬ v.creation?.isSome) ∧
    (v.kind = .creationMatch ↔ ¬ v.runtime?.isSome ∧ v.creation?.isSome) ∧
    (v.kind = .failure ↔ ¬ v.runtime?.isSome ∧ ¬ v.creation?.isSome) := by
  cases v <;> simp [Verdict.kind, Verdict.runtime?, Verdict.creation?]

theorem isFull_runtime? {compiled : CompiledContract} {t : OnChainContract}
    (h : t.isBlueprint = false) {m : Match}
    (hm : (verifyContract compiled t).value.runtime? = some m) :
    m.isFull ↔ t.code.runtime = some compiled.recompiled.runtime := by
  obtain ⟨b, hb, hm⟩ := (runtime?_verifyContract h).mp hm
  obtain ⟨_, _, hc⟩ := Matching.runtime_eq_some_iff.mp hm
  rw [Comparison.isFull_of_compare hc, hb, Option.some.injEq]

theorem isFull_creation? {compiled : CompiledContract} {t : OnChainContract}
    (h : t.isBlueprint = false) {m : Match}
    (hm : (verifyContract compiled t).value.creation? = some m) :
    m.isFull ↔ ∃ b, t.code.creation = some b ∧ compiled.recompiled.creation <+: b := by
  obtain ⟨b, hb, hm⟩ := (creation?_verifyContract h).mp hm
  obtain ⟨l, m', _, hp, rfl⟩ := Matching.creation_eq_some_iff.mp hm
  obtain ⟨_, _, _, hc⟩ := Matching.prefixMatch_eq_some_iff.mp hp
  rw [Matching.isFull_recordArguments, Comparison.isFull_of_compare hc, hb]
  simp only [Option.some.injEq, exists_eq_left', List.prefix_iff_eq_take]
  exact eq_comm

/-- **A target that is no blueprint gets the verdict that its code deserves**: each slot is filled
exactly if the code is there and agrees, and with a full match exactly if nothing had to be set aside;
the kind of the verdict says which slots are filled. -/
theorem verifyContract_classifies (compiled : CompiledContract) (t : OnChainContract)
    (h : t.isBlueprint = false) :
    let v := (verifyContract compiled t).value
    (v.runtime?.isSome ↔ RuntimeMatches compiled t) ∧
    (v.creation?.isSome ↔ CreationMatches compiled t) ∧
    (v.kind = .completeMatch ↔ RuntimeMatches compiled t ∧ CreationMatches compiled t) ∧
    (v.kind = .runtimeMatch ↔ RuntimeMatches compiled t ∧ ¬ CreationMatches compiled t) ∧
    (v.kind = .creationMatch ↔ ¬ RuntimeMatches compiled t ∧ CreationMatches compiled t) ∧
    (v.kind = .failure ↔ ¬ RuntimeMatches compiled t ∧ ¬ CreationMatches compiled t) ∧
    (∀ m, v.runtime? = some m →
      (m.isFull ↔ t.code.runtime = some compiled.recompiled.runtime)) ∧
    (∀ m, v.creation? = some m →
      (m.isFull ↔ ∃ b, t.code.creation = some b ∧ compiled.recompiled.creation <+: b)) := by
  intro v
  have hr : v.runtime?.isSome ↔ RuntimeMatches compiled t := isSome_runtime?_iff h
  have hc : v.creation?.isSome ↔ CreationMatches compiled t := isSome_creation?_iff h
  have hk := v.kind_iff
  rw [hr, hc] at hk
  exact ⟨hr, hc, hk.1, hk.2.1, hk.2.2.1, hk.2.2.2, fun m => isFull_runtime? h,
    fun m => isFull_creation? h⟩

/-- an immutable value in the runtime code; a library address in the creation code, which the argument
5 follows -/
theorem verifyContract_classifies_linked :
    let compiled : CompiledContract :=
      { recompiled := ⟨[0x60, 0, 0, 0x57], [0x73, 0, 0, 0x90]⟩,
        artifacts :=
          { compilation :=
              { abi := some [.ofList [("type", .text "constructor"),
                  ("inputs", .list [.object [("name", .text "n"), ("type", .text "uint8")]])]] },
            creation := { linkReferences := .ofList [("a.sol:L", [⟨1, 2⟩])] },
            runtime := { immutableReferences := .ofList [("7", [⟨1, 2⟩])] } } }
    let t : OnChainContract :=
      ⟨"t", ⟨some [0x60, 9, 0, 0x57], some ([0x73, 1, 2, 0x90] ++ Bytes.zeros 31 ++ [5]), rfl⟩,
        false⟩
    t.isBlueprint = false ∧ (verifyContract compiled t).value.kind = .completeMatch := by
  intro compiled t
  have hr : RuntimeMatches compiled t := ⟨_, rfl, by decide, rfl, by decide⟩
  have hi : compiled.artifacts.compilation.constructorInputs =
      .ok (some [.object [("name", .text "n"), ("type", .text "uint8")]]) := by rfl
  have hv : (Constructor.argumentsValid (Bytes.zeros 31 ++ [5])
      (.list [.object [("name", .text "n"), ("type", .text "uint8")]])).value = .ok true := by rfl
  have hc : CreationMatches compiled t :=
    ⟨_, rfl, by decide, by decide, ⟨_, hi, hv⟩, by decide⟩
  exact ⟨rfl, (verifyContract_classifies compiled t rfl).2.2.1.mpr ⟨hr, hc⟩⟩

end CodeMatch
