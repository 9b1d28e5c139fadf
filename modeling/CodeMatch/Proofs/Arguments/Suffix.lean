import CodeMatch.Proofs.Arguments
import CodeMatch.Proofs.Interface
import CodeMatch.Proofs.Transparency
import Mathlib

/-!
# What follows the code is kept apart from it

Creation code on chain is code as long as the recompiled code, and a suffix.  The suffix is judged by the
interface alone and the code by the ranges alone.

* `runtime_of_wellFormed`, `creation_of_wellFormed`   code of the right length is compared, and that is all;
* `ofRuntime_eq_ofCreation`   artifacts for runtime code without immutable values declare what artifacts
                              for creation code do;
* `recordArguments_eq`        arguments change one field of a match;
* `suffix_separated`          the code with a suffix behind it is matched as the code alone, if the suffix is
                              valid; and the code alone as if it were runtime code.
-/

namespace CodeMatch.Matching

open Comparison Constructor
open Region (WellFormed ordered)

section
variable {code d : Bytes} (hlen : code.length = d.length)
include hlen

/-! ## code alone -/

theorem runtime_of_wellFormed {r : RuntimeArtifacts}
    (hw : WellFormed d.length (Region.ofRuntime r)) :
    runtime code d r = pure (.ok (compare code d (ordered (Region.ofRuntime r)))) := by
  unfold runtime
  rw [Region.checked_of_wellFormed .runtime hw]
  exact if_pos hlen

theorem creation_of_wellFormed {a : CreationArtifacts}
    (hw : WellFormed d.length (Region.ofCreation a)) :
    creation code d a none = pure (.ok (compare code d (ordered (Region.ofCreation a)))) := by
  have hdrop : code.drop d.length = [] := by rw [← hlen, List.drop_length]
  have htake : code.take d.length = code := by rw [← hlen, List.take_length]
  have hlt : ¬ code.length < d.length := by omega
  rw [creation_of_length_eq hlen]
  unfold prefixMatch
  rw [Region.checked_of_wellFormed .creation hw]
  simp only [if_neg hlt, hdrop, htake, argumentsValid_nil]
  rfl

end

theorem ofRuntime_eq_ofCreation {r : RuntimeArtifacts} {a : CreationArtifacts}
    (hi : ∀ e ∈ r.immutableReferences.toList, e.2 = []) (hl : r.linkReferences = a.linkReferences)
    (hc : r.cborAuxdata = a.cborAuxdata) : Region.ofRuntime r = Region.ofCreation a := by
  have hnone : Region.ofRanges .immutable r.immutableReferences = [] := by
    rw [Region.ofRanges, List.flatMap_eq_nil_iff]
    rintro ⟨id, rs⟩ he
    have hrs : rs = [] := hi _ he
    rw [hrs]
    rfl
  rw [Region.ofRuntime, Region.ofCreation, hnone, List.nil_append, hl, hc]

/-! ## a suffix behind it -/

theorem recordArguments_eq {m : Match} (h : m.values.constructorArguments = none) (args : Bytes) :
    recordArguments args m = { m with values :=
      { m.values with constructorArguments := if args = [] then none else some args } } := by
  cases args with
  | nil =>
    obtain ⟨type, transformations, values⟩ := m
    obtain ⟨constructorArguments, immutables, libraries, auxdata⟩ := values
    cases h
    rfl
  | cons x l => rfl

section
variable {code d : Bytes} (hlen : code.length = d.length) {a : CreationArtifacts}
  (hw : WellFormed d.length (Region.ofCreation a)) {i : Option CompilationArtifacts}
  {inputs : List Json} (hi : constructorInputs i = .ok inputs) {args : Bytes}
include hlen hw hi

theorem value_creation_append {v : Bool}
    (hv : (argumentsValid args (.list inputs)).value = .ok v) :
    (creation (code ++ args) d a i).value =
      .ok (if v then (compare code d (ordered (Region.ofCreation a))).map (recordArguments args)
        else none) := by
  have hdrop : (code ++ args).drop d.length = args := by rw [← hlen, List.drop_left]
  have htake : (code ++ args).take d.length = code := by rw [← hlen, List.take_left]
  have hle : d.length ≤ (code ++ args).length := by rw [List.length_append]; omega
  rw [value_creation_of_le hw hle hi, hdrop, htake, hv]
  rfl

/-- a valid suffix is added to what the code alone comes to -/
theorem value_creation_append_of_valid (hv : (argumentsValid args (.list inputs)).value = .ok true) :
    (creation (code ++ args) d a i).value = .ok
      ((compare code d (ordered (Region.ofCreation a))).map fun m => { m with values :=
        { m.values with constructorArguments := if args = [] then none else some args } }) := by
  rw [value_creation_append hlen hw hi hv, if_pos rfl]
  refine congrArg Except.ok (Option.map_congr fun m hm => ?_)
  exact recordArguments_eq (constructorArguments_of_compare hm) args

end

/-- **What follows the code is kept apart from it.**  Let the code be as long as the recompiled code, and let
the declared ranges be well-formed.  With an invalid suffix behind it the code does not match, and without
inputs in the interface any suffix is invalid.  With a valid one it comes to what the code alone comes to
without an interface, the recorded arguments apart.  And the code alone comes to what it would come to as
runtime code with the same ranges, records included. -/
theorem suffix_separated {code d : Bytes} (hlen : code.length = d.length) {a : CreationArtifacts}
    (hw : WellFormed d.length (Region.ofCreation a)) :
    (∀ (args : Bytes) (i : Option CompilationArtifacts) (inputs : List Json) (v : Bool),
      constructorInputs i = .ok inputs → (argumentsValid args (.list inputs)).value = .ok v →
      (v = false → (creation (code ++ args) d a i).value = .ok none) ∧
      (v = true → ∃ r, (creation code d a none).value = .ok r ∧
        (creation (code ++ args) d a i).value = .ok (r.map fun m => { m with values :=
          { m.values with constructorArguments := if args = [] then none else some args } }))) ∧
    (∀ (args : Bytes) (i : Option CompilationArtifacts), WithoutInputs i →
      constructorInputs i = .ok [] ∧
      (args ≠ [] → (creation (code ++ args) d a i).value = .ok none)) ∧
    ∀ r : RuntimeArtifacts, (∀ e ∈ r.immutableReferences.toList, e.2 = []) →
      r.linkReferences = a.linkReferences → r.cborAuxdata = a.cborAuxdata →
      creation code d a none = runtime code d r := by
  refine ⟨fun args i inputs v hi hv => ⟨?_, ?_⟩, fun args i hn => ?_, fun r hr hl hc => ?_⟩
  · rintro rfl
    exact value_creation_append hlen hw hi hv
  · rintro rfl
    refine ⟨_, congrArg Log.Traced.value (creation_of_wellFormed hlen hw), ?_⟩
    exact value_creation_append_of_valid hlen hw hi hv
  · have hi := constructorInputs_of_withoutInputs hn
    refine ⟨hi, fun hne => ?_⟩
    have hv : (argumentsValid args (.list [])).value = .ok false := by
      rw [argumentsValid_nil, List.isEmpty_eq_false_iff.mpr hne]
      rfl
    exact value_creation_append hlen hw hi hv
  · have hregions := ofRuntime_eq_ofCreation hr hl hc
    rw [creation_of_wellFormed hlen hw, runtime_of_wellFormed hlen (hregions ▸ hw), hregions]

/-- a linked library and one number for the constructor: the match of the code with the number recorded, and
none with a byte too many -/
theorem suffix_separated_linked :
    let code : Bytes := [0x73, 1, 2]
    let d : Bytes := [0x73, 0, 0]
    let a : CreationArtifacts := { linkReferences := .ofList [("a.sol:L", [⟨1, 2⟩])] }
    let r : RuntimeArtifacts :=
      { immutableReferences := .ofList [("7", [])], linkReferences := .ofList [("a.sol:L", [⟨1, 2⟩])] }
    let inputs : List Json := [.object [("type", .text "uint8")]]
    let i : CompilationArtifacts :=
      { abi := some [.ofList [("type", .text "constructor"), ("inputs", .list inputs)]] }
    let args : Bytes := Bytes.ofNat 32 5
    ∃ m, (runtime code d r).value = .ok (some m) ∧ m.transformations.length = 1 ∧
      (creation (code ++ args) d a (some i)).value =
        .ok (some { m with values := { m.values with constructorArguments := some args } }) ∧
      (creation (code ++ (args ++ [0])) d a (some i)).value = .ok none ∧
      (creation (code ++ args) d a none).value = .ok none := by
  intro code d a r inputs i args
  have hi : constructorInputs (some i) = .ok inputs := by rfl
  have hts : typesOf (.list inputs) = .ok [.word (.uint 1)] := by cbv
  have hvalid : (argumentsValid args (.list inputs)).value = .ok true :=
    value_argumentsValid (List.cons_ne_nil _ _) hts (r := .accepted) (by decide +kernel)
  have hlong : (argumentsValid (args ++ [0]) (.list inputs)).value = .ok false :=
    value_argumentsValid (List.cons_ne_nil _ _) hts (r := .notCanonical) (by decide +kernel)
  have hm : ∃ m, (runtime code d r).value = .ok (some m) ∧ m.transformations.length = 1 :=
    ⟨_, by cbv, rfl⟩
  obtain ⟨m, hm, hone⟩ := hm
  have hlen : code.length = d.length := rfl
  have hw : WellFormed d.length (Region.ofCreation a) := by decide
  obtain ⟨happend, hwithout, hruntime⟩ := suffix_separated hlen hw
  have halone : (creation code d a none).value = .ok (some m) := by
    rw [hruntime r (by decide) rfl rfl, hm]
  obtain ⟨o, ho, hcode⟩ := (happend args (some i) inputs true hi hvalid).2 rfl
  rw [halone] at ho
  cases ho
  refine ⟨m, hm, hone, hcode, (happend _ (some i) inputs false hi hlong).1 rfl, ?_⟩
  exact (hwithout args none (fun c v hc => by cases hc)).2 (by decide)

end CodeMatch.Matching
