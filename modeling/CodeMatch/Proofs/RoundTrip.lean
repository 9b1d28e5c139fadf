import CodeMatch.Batch.Coordinator
import CodeMatch.Proofs.Document.Code
import CodeMatch.Proofs.Document.Verdicts
import Mathlib

/-!
# Documents are written and read back

* `CompilerInput.free`         the parts of compiler input that may hold anything;
* `CompilerVersion.lossless`   a version survives, also one that was spelled in a text;
* `VerificationRequest.lossless`, `BatchVerificationRequest.lossless`   requests of one target and of
                               several;
* `documents_round_trip`       and so for every type of the library.
-/

namespace CodeMatch

open Document Document.Checked

namespace CompilerInput

/-- sources and settings may hold anything -/
def free (i : CompilerInput) : List Json :=
  i.sources.toList.flatMap (fun e => e.2.values) ++ i.settings.values

def slots : List (Slot CompilerInput) :=
  [.defaulted "language" "Solidity" .text .text language,
   .required "sources" (.dict (.dict .any)) (.ofDict (.ofDict id)) sources
     (fun d => d.toList.flatMap fun e => e.2.values),
   .defaulted "settings" ∅ (.dict .any) (.ofDict id) settings Dict.values]

theorem lossless : Lossless read write free 3 := by
  have htext := lossless_text.mono (Nat.zero_le 2)
  have hsettings := lossless_anyDict.mono (Nat.le_succ 1)
  refine (Lossless.record slots (fun ms i => ?_) (by decide) ?_).of_free free fun i v hv => ?_
  · cases i
    simp [slots, Slot.readIn, Slot.required, Slot.defaulted, functor_eq_valid, seq_eq_valid]
  · simp only [slots, List.forall_mem_cons]
    have hlanguage : ∃ v, Fits 2 v ∧ Reader.text v = valid "Solidity" :=
      ⟨.text "Solidity", .text 2 _, rfl⟩
    exact ⟨Slot.sound_defaulted htext language "language" hlanguage,
      Slot.sound_required lossless_anyDict.dict sources "sources",
      Slot.sound_defaulted hsettings settings "settings"
        (exists_emptyObject (.dict .any) ∅ rfl 1), List.forall_mem_nil _⟩
  · simpa [slots, Slot.required, Slot.defaulted, fixed, free] using hv

end CompilerInput

namespace CompilerVersion

def slots : List (Slot CompilerVersion) :=
  [.required "major" .integer .int major, .required "minor" .integer .int minor,
   .required "patch" .integer .int patch,
   .defaulted "prerelease" none (.option .text) (.ofOption .text) prerelease,
   .defaulted "build" none (.option .text) (.ofOption .text) build]

theorem lossless_record : Lossless (Reader.record ofMembers) write fixed 1 := by
  refine Lossless.record slots (fun ms v => ?_) (by decide) ?_
  · cases v
    simp [slots, Slot.readIn, Slot.required, Slot.defaulted, ofMembers, functor_eq_valid,
      seq_eq_valid, and_assoc]
  · simp only [slots, List.forall_mem_cons]
    exact ⟨Slot.sound_required lossless_integer major "major",
      Slot.sound_required lossless_integer minor "minor",
      Slot.sound_required lossless_integer patch "patch",
      Slot.sound_defaulted lossless_optionalText prerelease "prerelease" (exists_null _ _),
      Slot.sound_defaulted lossless_optionalText build "build" (exists_null _ _),
      List.forall_mem_nil _⟩

/-- the numbers of a version that was spelled in a text are short -/
theorem short_of_text {s : String} {v : CompilerVersion} (h : ofText s = valid v) :
    Short v.major ∧ Short v.minor ∧ Short v.patch := by
  unfold ofText at h
  split at h
  case h_1 p _ =>
    obtain ⟨_, h2, _, hpatch, rfl⟩ := seq_eq_valid.mp h
    obtain ⟨_, h1, _, hminor, rfl⟩ := seq_eq_valid.mp h2
    obtain ⟨_, hmajor, rfl⟩ := functor_eq_valid.mp h1
    exact ⟨short_of_integerOfText (under_eq_valid.mp hmajor),
      short_of_integerOfText (under_eq_valid.mp hminor),
      short_of_integerOfText (under_eq_valid.mp hpatch)⟩
  case h_2 => cases h

theorem fits_optionalText (d : Nat) (o : Option String) : Fits d (.ofOption .text o) := by
  cases o with
  | none => exact .null d
  | some s => exact .text d s

theorem fits_of_text {s : String} {v : CompilerVersion} (h : ofText s = valid v) (d : Nat) :
    Fits (d + 1) v.write := by
  obtain ⟨hmajor, hminor, hpatch⟩ := short_of_text h
  have hkeys : ["major", "minor", "patch", "prerelease", "build"].Nodup := by decide
  refine .object hkeys ?_
  simp only [List.forall_mem_cons]
  exact ⟨.int d hmajor, .int d hminor, .int d hpatch, fits_optionalText d _, fits_optionalText d _,
    List.forall_mem_nil _⟩

theorem lossless : Lossless read write fixed 1 where
  reads := lossless_record.reads
  fits := by
    intro d v a hd hv hr
    unfold read at hr
    split at hr
    · obtain ⟨d, rfl⟩ := Nat.exists_eq_add_of_le' hd
      exact fits_of_text hr d
    · exact lossless_record.fits hd hv hr
  exact := lossless_record.exact

end CompilerVersion

namespace BatchVerificationRequest

def free (r : BatchVerificationRequest) : List Json := r.content.free

def slots : List (Slot BatchVerificationRequest) :=
  [.required "contracts" (.list OnChainContract.read)
     (fun cs => .list (cs.map OnChainContract.write)) contracts,
   .required "compiler_version" CompilerVersion.read CompilerVersion.write version,
   .required "content" CompilerInput.read CompilerInput.write content CompilerInput.free]

theorem lossless : Lossless read write free 4 := by
  have hversion := CompilerVersion.lossless.mono (show 1 ≤ 3 by omega)
  refine (Lossless.record slots (fun ms r => ?_) (by decide) ?_).of_free free fun r v hv => ?_
  · cases r
    simp [slots, Slot.readIn, Slot.required, functor_eq_valid, seq_eq_valid]
  · simp only [slots, List.forall_mem_cons]
    exact ⟨Slot.sound_required OnChainContract.lossless.fixedList contracts "contracts",
      Slot.sound_required hversion version "compiler_version",
      Slot.sound_required CompilerInput.lossless content "content", List.forall_mem_nil _⟩
  · simpa [slots, Slot.required, fixed, free] using hv

end BatchVerificationRequest

namespace VerificationRequest

def free (r : VerificationRequest) : List Json := r.content.free

def slots : List (Slot VerificationRequest) :=
  [.required "contract" OnChainContract.read OnChainContract.write contract,
   .required "compiler_version" CompilerVersion.read CompilerVersion.write version,
   .required "content" CompilerInput.read CompilerInput.write content CompilerInput.free]

theorem lossless : Lossless read write free 4 := by
  have hcontract := OnChainContract.lossless.mono (Nat.le_succ 2)
  have hversion := CompilerVersion.lossless.mono (show 1 ≤ 3 by omega)
  refine (Lossless.record slots (fun ms r => ?_) (by decide) ?_).of_free free fun r v hv => ?_
  · cases r
    simp [slots, Slot.readIn, Slot.required, functor_eq_valid, seq_eq_valid]
  · simp only [slots, List.forall_mem_cons]
    exact ⟨Slot.sound_required hcontract contract "contract",
      Slot.sound_required hversion version "compiler_version",
      Slot.sound_required CompilerInput.lossless content "content", List.forall_mem_nil _⟩
  · simpa [slots, Slot.required, fixed, free] using hv

end VerificationRequest

/-- **Every document survives.**  Whatever text was read, in whatever spelling: the value is written, in
either style of keys, and what was written is read as the same value, as long as the parts that may hold
anything hold no doubles. -/
theorem documents_round_trip :
    OnChainCode.format.RoundTrips fixed ∧ OnChainContract.format.RoundTrips fixed ∧
    OnChainContract.format.list.RoundTrips fixed ∧
    ByteRange.format.RoundTrips fixed ∧
    CompilationArtifacts.format.RoundTrips CompilationArtifacts.free ∧
    CreationArtifacts.format.RoundTrips fixed ∧ RuntimeArtifacts.format.RoundTrips fixed ∧
    ArtifactSet.format.RoundTrips ArtifactSet.free ∧
    RecompiledCode.format.RoundTrips fixed ∧
    CompiledContract.format.RoundTrips CompiledContract.free ∧
    Transformation.format.RoundTrips fixed ∧ MatchValues.format.RoundTrips fixed ∧
    Match.format.RoundTrips fixed ∧
    (∀ k, (Verdict.formatOf k).RoundTrips fixed) ∧ Verdict.format.RoundTrips fixed ∧
    Verdict.format.list.RoundTrips fixed ∧
    CompilerInput.format.RoundTrips CompilerInput.free ∧ CompilerVersion.format.RoundTrips fixed ∧
    VerificationRequest.format.RoundTrips VerificationRequest.free ∧
    BatchVerificationRequest.format.RoundTrips BatchVerificationRequest.free := by
  refine ⟨?_, ?_, ?_, ?_, ?_, ?_, ?_, ?_, ?_, ?_, ?_, ?_, ?_, fun k => ?_, ?_, ?_, ?_, ?_, ?_, ?_⟩
  · exact Stable.roundTrips (fun _ => OnChainCode.lossless.stable) (by decide)
  · exact Stable.roundTrips (fun _ => OnChainContract.lossless.stable) (by decide)
  · exact Stable.roundTrips (fun _ => OnChainContract.lossless.fixedList.stable) (by decide)
  · exact Stable.roundTrips (fun _ => ByteRange.lossless.stable) (by decide)
  · exact Stable.roundTrips (fun style => (CompilationArtifacts.lossless style).stable) (by decide)
  · exact Stable.roundTrips (fun style => (CreationArtifacts.lossless style).stable) (by decide)
  · exact Stable.roundTrips (fun style => (RuntimeArtifacts.lossless style).stable) (by decide)
  · exact Stable.roundTrips (fun style => (ArtifactSet.lossless style).stable) (by decide)
  · exact Stable.roundTrips (fun _ => RecompiledCode.lossless.stable) (by decide)
  · exact Stable.roundTrips (fun style => (CompiledContract.lossless style).stable) (by decide)
  · exact Stable.roundTrips (fun _ => Transformation.lossless.stable) (by decide)
  · exact Stable.roundTrips (fun _ => MatchValues.lossless.stable) (by decide)
  · exact Stable.roundTrips (fun _ => Match.lossless.stable) (by decide)
  · exact Stable.roundTrips (fun _ => Verdict.stable_readOf k) (by decide)
  · exact Stable.roundTrips (fun _ => Verdict.lossless.stable) (by decide)
  · exact Stable.roundTrips (fun _ => Verdict.lossless.fixedList.stable) (by decide)
  · exact Stable.roundTrips (fun _ => CompilerInput.lossless.stable) (by decide)
  · exact Stable.roundTrips (fun _ => CompilerVersion.lossless.stable) (by decide)
  · exact Stable.roundTrips (fun _ => VerificationRequest.lossless.stable) (by decide)
  · exact Stable.roundTrips (fun _ => BatchVerificationRequest.lossless.stable) (by decide)

set_option maxRecDepth 20000 in
/-- hexadecimal digits of both cases, a library nested under its file, an offset called `start` and spelled
in a text, a length given as a flag, and a negative zero among the sources: all of it comes back, in either
style of keys -/
theorem documents_round_trip_liberal :
    ∃ c, CompiledContract.format.readText
        "\x7b\"recompiled\":\x7b\"runtime\":\"0X60aB\",\"creation\":\"\"\x7d,
          \"artifacts\":\x7b\"creation\":\x7b\"linkReferences\":\x7b\"a\":\x7b\"L\":
          [\x7b\"start\":\"1_0\",\"length\":true\x7d]\x7d\x7d\x7d,
          \"compilation\":\x7b\"sources\":\x7b\"a\":-0\x7d\x7d\x7d\x7d" = .valid c ∧
      c.artifacts.creation.linkReferences = .ofList [("a:L", [⟨10, 1⟩])] ∧
      ∀ style, CompiledContract.format.readText (CompiledContract.format.writeText style c) =
        .valid c := by
  obtain ⟨-, -, -, -, -, -, -, -, -, h, -⟩ := documents_round_trip
  refine ⟨{ recompiled := ⟨[0x60, 0xAB], []⟩
            artifacts :=
              { compilation := { sources := some (.ofList [("a", .int 0)]) }
                creation := { linkReferences := .ofList [("a:L", [⟨10, 1⟩])] } } },
    ?read, rfl, fun style => (h _ _ style ?read ?free).1⟩
  case read => cbv
  case free => exact List.forall_mem_singleton.mpr (.int 0)

end CodeMatch
