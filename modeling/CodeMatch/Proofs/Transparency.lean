import CodeMatch.Proofs.Blueprint
import CodeMatch.Proofs.Matching
import CodeMatch.Verification
import Mathlib

/-!
# A blueprint is as good as its creation code

Wrapping creation code into a blueprint changes nothing about how it is matched: the preamble is taken
off, what follows the code is not looked at, and no arguments are expected.

* `prefixMatch_append`      what follows the code does not matter when no inputs are given;
* `blueprint_of_build`      matching a blueprint that was built is matching the wrapped code as creation
                            code without an interface, records included;
* `verifyTarget_blueprint_congr`   a blueprint is judged by three things only: the creation code on
                            chain, the recompiled creation code, and its artifacts;
* `blueprint_transparent`   both statements together, with the verdicts that a blueprint can get.
-/

namespace CodeMatch

open Log Traced Matching

namespace Matching

variable {code trailing recompiled : Bytes}

theorem recordArguments_nil (m : Match) : recordArguments [] m = m := rfl

theorem prefixMatch_append (hlen : code.length = recompiled.length) (trailing : Bytes)
    (a : CreationArtifacts) :
    prefixMatch (code ++ trailing) recompiled a .null = prefixMatch code recompiled a (.list []) := by
  have hdrop : code.drop recompiled.length = [] := by rw [← hlen, List.drop_length]
  have htake : (code ++ trailing).take recompiled.length = code.take recompiled.length := by
    rw [← hlen, List.take_left, List.take_length]
  unfold prefixMatch
  cases Region.checked .creation recompiled.length (Region.ofCreation a) with
  | error f => rfl
  | ok rs =>
    simp only
    rw [if_neg (by rw [List.length_append]; omega), if_neg (by omega), hdrop, htake,
      Constructor.argumentsValid_null, Constructor.argumentsValid_nil]
    rfl

/-- creation code that is no longer than the recompiled code has no arguments to record -/
theorem creation_of_length_eq (hlen : code.length = recompiled.length) (a : CreationArtifacts) :
    creation code recompiled a none = prefixMatch code recompiled a (.list []) := by
  have hdrop : code.drop recompiled.length = [] := by rw [← hlen, List.drop_length]
  have hid : recordArguments [] = id := funext recordArguments_nil
  show (prefixMatch code recompiled a (.list [])).map _ = _
  rw [hdrop, hid]
  generalize prefixMatch code recompiled a (.list []) = x
  obtain ⟨value, log⟩ := x
  cases value <;> simp [Traced.map, Except.map]

/-- **A blueprint that was built is matched like the code in it.** -/
theorem blueprint_of_build (hlen : code.length = recompiled.length) (a : CreationArtifacts)
    {data : Option Bytes} {version : Int} {b : Bytes}
    (h : Blueprint.build (code ++ trailing) data version = .ok b) :
    blueprint b recompiled a = creation code recompiled a none := by
  rw [blueprint_of_parse (Blueprint.parse_build h), creation_of_length_eq hlen,
    prefixMatch_append hlen]

theorem constructorArguments_of_blueprint {b : Bytes} {a : CreationArtifacts} {m : Match}
    (h : (blueprint b recompiled a).value = .ok (some m)) :
    m.values.constructorArguments = none := by
  obtain ⟨p, _, hp⟩ := blueprint_eq_some_iff.mp h
  obtain ⟨_, _, _, hc⟩ := prefixMatch_eq_some_iff.mp hp
  exact Comparison.constructorArguments_of_compare hc

/-- code that is too short does not match -/
theorem blueprint_ne_some_of_lt {b : Bytes} {p : Blueprint} (hp : Blueprint.parse b = .ok p)
    (hlt : p.initcode.length < recompiled.length) (a : CreationArtifacts) (m : Match) :
    (blueprint b recompiled a).value ≠ .ok (some m) := by
  intro h
  obtain ⟨p', hp', hm⟩ := blueprint_eq_some_iff.mp h
  obtain rfl : p = p' := Except.ok.inj (hp.symm.trans hp')
  have hle := (prefixMatch_eq_some_iff.mp hm).2.1
  omega

end Matching

/-! ## verdicts -/

section
variable (deployed : OnChainCode) (code : RecompiledCode) (artifacts : ArtifactSet)
  (target : Option String)

/-- the one match of a blueprint stands for both kinds of code -/
theorem value_verifyTarget_blueprint :
    (verifyTarget deployed code artifacts true target).value =
      match deployed.creation with
      | none => .failure
      | some b =>
        let m := (guarded .blueprint target (blueprint b code.creation artifacts.creation)).value
        .ofMatches m m := by
  show (verifyBlueprint deployed code artifacts target).value = _
  unfold verifyBlueprint
  cases deployed.creation with
  | none => rfl
  | some b => rfl

theorem verifyTarget_blueprint_cases :
    (verifyTarget deployed code artifacts true target).value = .failure ∨
      ∃ m, (verifyTarget deployed code artifacts true target).value = .completeMatch m m := by
  rw [value_verifyTarget_blueprint]
  cases deployed.creation with
  | none => exact .inl rfl
  | some b =>
    simp only
    cases (guarded .blueprint target (blueprint b code.creation artifacts.creation)).value with
    | none => exact .inl rfl
    | some m => exact .inr ⟨m, rfl⟩

/-- a blueprint without a match fails -/
theorem verifyTarget_blueprint_eq_failure {b : Bytes} (hb : deployed.creation = some b)
    (h : ∀ m, (blueprint b code.creation artifacts.creation).value ≠ .ok (some m)) :
    (verifyTarget deployed code artifacts true target).value = .failure := by
  have hn : (guarded .blueprint target (blueprint b code.creation artifacts.creation)).value =
      none := by
    rw [Option.eq_none_iff_forall_not_mem]
    exact fun m hm => h m (guarded_eq_some_iff.mp hm)
  rw [value_verifyTarget_blueprint, hb]
  simp only [hn]
  rfl

/-- neither runtime code nor its artifacts nor the compilation as a whole play a part -/
theorem verifyTarget_blueprint_congr {deployed' : OnChainCode} {code' : RecompiledCode}
    {artifacts' : ArtifactSet} (hd : deployed'.creation = deployed.creation)
    (hc : code'.creation = code.creation) (ha : artifacts'.creation = artifacts.creation) :
    verifyTarget deployed' code' artifacts' true target =
      verifyTarget deployed code artifacts true target := by
  show verifyBlueprint deployed' code' artifacts' target =
    verifyBlueprint deployed code artifacts target
  unfold verifyBlueprint
  rw [hd, hc, ha]

end

/-- **A blueprint is as good as its creation code.**  Whatever its version, its data and the bytes
behind the code, it is matched as the code alone is, and nothing is recorded as arguments.  Its verdict
is a failure or a complete match with one match in both places; it depends on the creation code and its
artifacts alone, and it is a failure without code, without a preamble, and for code that is too
short. -/
theorem blueprint_transparent :
    (∀ (code trailing recompiled : Bytes) (a : CreationArtifacts) (data : Option Bytes)
        (version : Int), code.length = recompiled.length → version < 64 →
        (∀ d, data = some d → d.length ≤ 65535) →
      (0 ≤ version → ∃ b, Blueprint.build (code ++ trailing) data version = .ok b) ∧
      ∀ b, Blueprint.build (code ++ trailing) data version = .ok b →
        blueprint b recompiled a = creation code recompiled a none ∧
        ∀ m, (blueprint b recompiled a).value = .ok (some m) →
          m.values.constructorArguments = none) ∧
    ∀ (deployed : OnChainCode) (code : RecompiledCode) (artifacts : ArtifactSet)
        (target : Option String),
      let v := (verifyTarget deployed code artifacts true target).value
      (v = .failure ∨ ∃ m, v = .completeMatch m m) ∧
      (∀ (deployed' : OnChainCode) (code' : RecompiledCode) (artifacts' : ArtifactSet),
        deployed'.creation = deployed.creation → code'.creation = code.creation →
        artifacts'.creation = artifacts.creation →
        verifyTarget deployed' code' artifacts' true target =
          verifyTarget deployed code artifacts true target) ∧
      (deployed.creation = none → v = .failure) ∧
      (∀ b f, deployed.creation = some b → Blueprint.parse b = .error f → v = .failure) ∧
      ∀ b p, deployed.creation = some b → Blueprint.parse b = .ok p →
        p.initcode.length < code.creation.length → v = .failure := by
  refine ⟨fun code trailing recompiled a data version hlen hv hd => ⟨?_, fun b hb => ⟨?_, ?_⟩⟩,
    fun deployed code artifacts target => ⟨?_, ?_, fun hn => ?_, fun b f hb hf => ?_,
      fun b p hb hp hlt => ?_⟩⟩
  · exact fun h0 => Blueprint.exists_build _ h0 hv hd
  · exact blueprint_of_build hlen a hb
  · exact fun m hm => constructorArguments_of_blueprint hm
  · exact verifyTarget_blueprint_cases deployed code artifacts target
  · exact fun deployed' code' artifacts' => verifyTarget_blueprint_congr deployed code artifacts target
  · show (verifyTarget deployed code artifacts true target).value = _
    rw [value_verifyTarget_blueprint, hn]
  · refine verifyTarget_blueprint_eq_failure deployed code artifacts target hb fun m hm => ?_
    obtain ⟨p, hp, _⟩ := blueprint_eq_some_iff.mp hm
    rw [hf] at hp
    cases hp
  · exact verifyTarget_blueprint_eq_failure deployed code artifacts target hb
      (blueprint_ne_some_of_lt hp hlt artifacts.creation)

/-- version 5 with one byte of data and a trailing byte, around code with a library address: a match
that is the match of the code itself; with two bytes less the code is too short -/
theorem blueprint_transparent_linked :
    let a : CreationArtifacts := { linkReferences := .ofList [("a.sol:L", [⟨1, 2⟩])] }
    let b : Bytes := [0xFE, 0x71, 21, 1, 8, 0x73, 1, 2, 0xFF]
    let short : OnChainCode := ⟨none, some [0xFE, 0x71, 21, 1, 8, 0x73, 1], rfl⟩
    Blueprint.build ([0x73, 1, 2] ++ [0xFF]) (some [8]) 5 = .ok b ∧
      (∃ m, (blueprint b [0x73, 0, 0] a).value = .ok (some m)) ∧
      blueprint b [0x73, 0, 0] a = creation [0x73, 1, 2] [0x73, 0, 0] a none ∧
      (verifyTarget short ⟨[], [0x73, 0, 0]⟩ { creation := a } true none).value = .failure := by
  intro a b short
  have hb : Blueprint.build ([0x73, 1, 2] ++ [0xFF]) (some [8]) 5 = .ok b := by cbv
  have hd : ∀ d : Bytes, some [8] = some d → d.length ≤ 65535 := by
    rintro d ⟨⟩
    decide
  obtain ⟨hcode, htarget⟩ := blueprint_transparent
  refine ⟨hb, ⟨_, by cbv⟩, ((hcode [0x73, 1, 2] [0xFF] [0x73, 0, 0] a (some [8]) 5 rfl
    (by decide) hd).2 b hb).1, ?_⟩
  exact (htarget short ⟨[], [0x73, 0, 0]⟩ { creation := a } none).2.2.2.2 _ ⟨5, some [8], [0x73, 1]⟩
    rfl (by rfl) (by decide)

end CodeMatch
