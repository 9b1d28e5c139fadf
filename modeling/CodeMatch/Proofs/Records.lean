import CodeMatch.Verification
import Mathlib.Tactic.Common

/-!
# Which records matching makes

* `Traced.Only P x`            all records of `x` have the property `P`;
* `Traced.only_pure`, `Traced.only_tell`, `Traced.Only.bind`, `Traced.Only.map`   how it comes about;
* `Record.IsDetail r`          `r` has no weight, and it is not the coordinator's;
* `only_prefixMatch`, `only_runtime`, `only_creation`, `only_blueprint`   an attempt to match makes such
                               records only;
* `exists_error_guarded_iff`   a guarded attempt reports an error exactly if it ends in a fault;
* `only_guarded`, `only_verifyContract`   what is reported of a target is never the coordinator's.
-/

namespace CodeMatch

namespace Log

namespace Traced

universe u
variable {α β : Type u} {P Q : Record → Prop}

def Only (P : Record → Prop) (x : Traced α) : Prop := ∀ r ∈ x.log, P r

theorem only_pure (a : α) : (pure a : Traced α).Only P := List.forall_mem_nil _

theorem only_tell {r : Record} (h : P r) : (tell r).Only P := List.forall_mem_singleton.mpr h

theorem Only.bind {x : Traced α} {f : α → Traced β} (hx : x.Only P) (hf : ∀ a, (f a).Only P) :
    (x >>= f).Only P := by
  intro r hr
  rcases List.mem_append.mp hr with hr | hr
  · exact hx r hr
  · exact hf x.value r hr

theorem Only.map {x : Traced α} (hx : x.Only P) (f : α → β) : (x.map f).Only P := hx

theorem Only.mono {x : Traced α} (hx : x.Only P) (h : ∀ r, P r → Q r) : x.Only Q :=
  fun r hr => h r (hx r hr)

end Traced

/-- a record that is no more than narration, and not the coordinator's -/
def Record.IsDetail (r : Record) : Prop := r.level = .debug ∧ r.source ≠ .batch

end Log

open Log Traced

/-! ## attempts -/

namespace Matching

variable (b d : Bytes)

theorem only_debug (message : String) : (debug message).Only Record.IsDetail :=
  only_tell ⟨rfl, show Source.matcher ≠ .batch by decide⟩

theorem only_argumentsValid (inputs : Json) :
    (Constructor.argumentsValid b inputs).Only Record.IsDetail := by
  unfold Constructor.argumentsValid
  split
  · exact only_pure _
  · split
    · exact only_pure _
    · split
      · exact only_pure _
      · exact only_pure _
      · exact only_pure _
      · exact List.forall_mem_singleton.mpr ⟨rfl, Source.noConfusion⟩

theorem only_runtime (a : RuntimeArtifacts) : (runtime b d a).Only Record.IsDetail := by
  unfold runtime
  split
  · exact only_pure _
  · split
    · exact only_pure _
    · exact (only_debug _).bind fun _ => only_pure _

theorem only_prefixMatch (a : CreationArtifacts) (inputs : Json) :
    (prefixMatch b d a inputs).Only Record.IsDetail := by
  unfold prefixMatch
  split
  · exact only_pure _
  · split
    · exact (only_debug _).bind fun _ => only_pure _
    · refine (only_argumentsValid _ inputs).bind fun v => ?_
      split
      · exact only_pure _
      · exact only_pure _
      · exact (only_debug _).bind fun _ => only_pure _

theorem only_creation (a : CreationArtifacts) (i : Option CompilationArtifacts) :
    (creation b d a i).Only Record.IsDetail := by
  unfold creation
  split
  · exact only_pure _
  · exact (only_prefixMatch b d a _).map _

theorem only_blueprint (a : CreationArtifacts) : (blueprint b d a).Only Record.IsDetail := by
  unfold blueprint
  split
  · exact only_prefixMatch _ d a .null
  · exact (only_debug _).bind fun _ => only_pure _

/-- a fault is reported by the matcher -/
theorem source_record (s : Subject) (target : Option String) (f : Fault) :
    (f.record s target).source = .matcher := by
  unfold Fault.record
  split <;> rfl

theorem only_guarded (s : Subject) (target : Option String) {x : Attempt}
    (hx : x.Only Record.IsDetail) : (guarded s target x).Only (·.source ≠ .batch) := by
  unfold guarded
  refine (hx.mono fun _ h => h.2).bind fun v => ?_
  split
  · exact only_pure _
  · exact ((only_debug _).mono fun _ h => h.2).bind fun _ => only_pure _
  · refine (only_tell ?_).bind fun _ => only_pure _
    rw [source_record]
    decide

theorem level_record (s : Subject) (target : Option String) (f : Fault) :
    (f.record s target).level = .error := by
  unfold Fault.record
  split <;> rfl

/-- an error is on record exactly if the attempt ends in a fault -/
theorem exists_error_guarded_iff (s : Subject) (target : Option String) {x : Attempt}
    (hx : x.Only Record.IsDetail) :
    (∃ r ∈ (guarded s target x).log, r.level = .error) ↔ ∃ f, x.value = .error f := by
  obtain ⟨value, log⟩ := x
  have hlog : ∀ r ∈ log, r.level ≠ .error := by
    intro r hr h
    have hdebug := (hx r hr).1
    rw [h] at hdebug
    cases hdebug
  constructor
  · rintro ⟨r, hr, h⟩
    rcases List.mem_append.mp hr with hr | hr
    · exact absurd h (hlog r hr)
    · cases value with
      | error f => exact ⟨f, rfl⟩
      | ok m =>
        cases m with
        | some m => cases hr
        | none =>
          obtain rfl := List.mem_singleton.mp hr
          cases h
  · rintro ⟨f, rfl⟩
    refine ⟨f.record s target, List.mem_append_right log ?_, level_record s target f⟩
    exact List.mem_singleton.mpr rfl

end Matching

/-! ## targets -/

namespace Verification

open Matching

variable (target : Option String) (b : Option Bytes) (code : RecompiledCode) (artifacts : ArtifactSet)

theorem only_debug (message : String) : (debug message).Only (·.source ≠ .batch) :=
  only_tell (show Source.verification ≠ .batch by decide)

theorem only_matchRuntime : (matchRuntime target b code artifacts).Only (·.source ≠ .batch) := by
  unfold matchRuntime
  split
  · exact (only_debug _).bind fun _ => only_pure _
  · exact (only_debug _).bind fun _ => only_guarded _ _ (only_runtime _ _ _)

theorem only_matchCreation : (matchCreation target b code artifacts).Only (·.source ≠ .batch) := by
  unfold matchCreation
  split
  · exact (only_debug _).bind fun _ => only_pure _
  · exact (only_debug _).bind fun _ => only_guarded _ _ (only_creation _ _ _ _)

theorem only_verifyBlueprint (deployed : OnChainCode) :
    (verifyBlueprint deployed code artifacts target).Only (·.source ≠ .batch) := by
  unfold verifyBlueprint
  split
  · exact (only_debug _).bind fun _ => only_pure _
  · exact (only_guarded _ _ (only_blueprint _ _ _)).bind fun _ => only_pure _

theorem only_verifyTarget (deployed : OnChainCode) (isBlueprint : Bool) :
    (verifyTarget deployed code artifacts isBlueprint target).Only (·.source ≠ .batch) := by
  unfold verifyTarget
  split
  · exact only_verifyBlueprint target code artifacts deployed
  · refine (only_debug _).bind fun _ => ?_
    refine (only_matchRuntime _ _ _ _).bind fun r => ?_
    refine (only_matchCreation _ _ _ _).bind fun m => ?_
    exact (only_debug _).bind fun _ => only_pure _

end Verification

theorem only_verifyContract (compiled : CompiledContract) (t : OnChainContract) :
    (verifyContract compiled t).Only (·.source ≠ .batch) :=
  Verification.only_verifyTarget _ _ _ _ _

theorem only_verifyContracts (compiled : CompiledContract) (cs : List OnChainContract) :
    (verifyContracts compiled cs).Only (·.source ≠ .batch) := by
  induction cs with
  | nil => exact only_pure _
  | cons c cs ih => exact (only_verifyContract compiled c).bind fun _ => ih.bind fun _ => only_pure _

end CodeMatch
