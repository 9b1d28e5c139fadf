import CodeMatch.Proofs.Abi.Faults
import CodeMatch.Proofs.Arguments
import CodeMatch.Proofs.Matching
import CodeMatch.Proofs.Records
import Mathlib

/-!
# Arguments chosen by someone else

What follows the code on chain was put there by whoever deployed it.  If the interface is in order, the check
answers yes or no to nearly all of it: the exceptions are a length that is too large to be read and a text that
is none.

* `Escapes g f`                  the fault `g` of decoding is not answered, and comes out as `f`;
* `argumentsValid_eq_error_iff`  the check ends in a fault exactly if decoding ends in such a one;
* `exists_argumentsValid_eq_ok`  without byte strings and texts among the types that does not happen;
* `answered_unless_escapes`      the check answers, or a word in the arguments says why it does not; matching
                                 faults, and reports an error, with the check and not otherwise;
* `not_answered`                 both exceptions are real.
-/

namespace CodeMatch

open Abi

namespace Constructor

/-- faults of decoding that the check hands on, and what they are called then -/
inductive Escapes : Abi.Fault → Fault → Prop
  | lengthOverflow : Escapes .lengthOverflow .lengthOverflow
  | notText : Escapes .notText .notText

theorem judge_eq_error_iff {ts : List Ty} {b : Bytes} {f : Fault} :
    judge ts b = .error f ↔ ∃ g, decodeArguments ts b = .error g ∧ Escapes g f := by
  unfold judge
  cases decodeArguments ts b with
  | ok vs =>
    refine iff_of_false (fun h => ?_) (by rintro ⟨g, ⟨⟩, _⟩)
    dsimp only at h
    split at h <;> cases h
  | error g =>
    constructor
    · intro h
      cases g with
      | malformed => cases h
      | lengthOverflow =>
        cases h
        exact ⟨_, rfl, .lengthOverflow⟩
      | notText =>
        cases h
        exact ⟨_, rfl, .notText⟩
    · rintro ⟨g', ⟨⟩, hf⟩
      cases hf
      · rfl
      · rfl

section
variable {inputs : List Json} {ts : List Ty} (hts : typesOf (.list inputs) = .ok ts) {b : Bytes}
include hts

theorem argumentsValid_eq_error_iff {f : Fault} :
    (argumentsValid b (.list inputs)).value = .error f ↔
      ∃ g, decodeArguments ts b = .error g ∧ Escapes g f := by
  cases inputs with
  | nil =>
    -- no types, and nothing to decode
    cases hts
    exact iff_of_false (by rintro ⟨⟩) (by rintro ⟨g, ⟨⟩, _⟩)
  | cons v vs =>
    rw [value_argumentsValid_of_ne_nil (List.cons_ne_nil v vs), hts, ← judge_eq_error_iff]
    show (judge ts b).map _ = _ ↔ _
    cases judge ts b with
    | ok r => exact iff_of_false (by rintro ⟨⟩) (by rintro ⟨⟩)
    | error g => simp [Except.map]

/-- the check answers, unless decoding has come to a fault that is not answered -/
theorem answered_or_escapes (b : Bytes) :
    (∃ r, (argumentsValid b (.list inputs)).value = .ok r) ∨
      ∃ g f, decodeArguments ts b = .error g ∧ Escapes g f ∧ Cause b (.tuple ts) g ∧
        (argumentsValid b (.list inputs)).value = .error f := by
  cases hv : (argumentsValid b (.list inputs)).value with
  | ok r => exact .inl ⟨r, rfl⟩
  | error f =>
    obtain ⟨g, hg, hf⟩ := (argumentsValid_eq_error_iff hts).mp hv
    exact .inr ⟨g, f, hg, hf, cause_of_decodeArguments hg, rfl⟩

theorem exists_argumentsValid_eq_ok (hbytes : ¬ Ty.bytes.PartOf (.tuple ts))
    (htext : ¬ Ty.text.PartOf (.tuple ts)) (b : Bytes) :
    ∃ r, (argumentsValid b (.list inputs)).value = .ok r := by
  rcases answered_or_escapes hts b with h | ⟨g, f, _, hf, hc, _⟩
  · exact h
  · cases hc with
    | malformed => cases hf
    | lengthOverflow ht _ _ => exact absurd ht (not_or.mpr ⟨hbytes, htext⟩)
    | notText ht _ _ _ => exact absurd ht htext

end

end Constructor

namespace Matching

open Constructor

/-- **Whoever chose the arguments, the check answers**, unless a length in them is too large to be read, or what
should be a text is none; without byte strings and texts among the types it always does.  Matching creation
code with well-formed ranges ends in a fault exactly if the check of what follows the code does, and exactly
then an error is reported. -/
theorem answered_unless_escapes {inputs : List Json} {ts : List Ty}
    (hts : typesOf (.list inputs) = .ok ts) :
    (∀ b, (∃ r, (argumentsValid b (.list inputs)).value = .ok r) ∨
      ∃ g f, decodeArguments ts b = .error g ∧ Escapes g f ∧ Cause b (.tuple ts) g ∧
        (argumentsValid b (.list inputs)).value = .error f) ∧
    (¬ Ty.bytes.PartOf (.tuple ts) → ¬ Ty.text.PartOf (.tuple ts) →
      ∀ b, ∃ r, (argumentsValid b (.list inputs)).value = .ok r) ∧
    ∀ (b d : Bytes) (a : CreationArtifacts) (i : Option CompilationArtifacts) (target : Option String),
      Region.WellFormed d.length (Region.ofCreation a) → constructorInputs i = .ok inputs →
      ((∃ f, (creation b d a i).value = .error f) ↔
        d.length ≤ b.length ∧ ∃ f, (argumentsValid (b.drop d.length) (.list inputs)).value = .error f) ∧
      ((∃ r ∈ (guarded .creation target (creation b d a i)).log, r.level = .error) ↔
        ∃ f, (creation b d a i).value = .error f) := by
  refine ⟨answered_or_escapes hts, exists_argumentsValid_eq_ok hts, ?_⟩
  intro b d a i target hw hi
  refine ⟨?_, exists_error_guarded_iff .creation target (only_creation b d a i)⟩
  simp only [creation_eq_error_iff hw hi, exists_and_left]
  constructor
  · rintro ⟨hle, f, g, _, hg⟩
    exact ⟨hle, g, hg⟩
  · rintro ⟨hle, g, hg⟩
    exact ⟨hle, _, g, rfl, hg⟩

/-- one number as the input, and seven bytes that are none: a plain mismatch, and no error -/
theorem answered_unless_escapes_number :
    let inputs : List Json := [.object [("type", .text "uint8")]]
    let i : CompilationArtifacts :=
      { abi := some [.ofList [("type", .text "constructor"), ("inputs", .list inputs)]] }
    let d : Bytes := [0x60]
    let junk : Bytes := List.replicate 7 0xFF
    (∃ r, (argumentsValid junk (.list inputs)).value = .ok r) ∧
      (¬ ∃ f, (creation (d ++ junk) d {} (some i)).value = .error f) ∧
      ¬ ∃ r ∈ (guarded .creation none (creation (d ++ junk) d {} (some i))).log, r.level = .error := by
  intro inputs i d junk
  have hts : typesOf (.list inputs) = .ok [.word (.uint 1)] := by cbv
  have hpart : ∀ t : Ty, t.PartOf (.tuple [.word (.uint 1)]) →
      t = .tuple [.word (.uint 1)] ∨ t = .word (.uint 1) := by
    rintro t (_ | _ | ⟨ht, hp⟩)
    · exact .inl rfl
    · cases List.mem_singleton.mp ht
      cases hp
      exact .inr rfl
  have hbytes : ¬ Ty.bytes.PartOf (.tuple [.word (.uint 1)]) := by
    intro h
    rcases hpart _ h with h | h <;> cases h
  have htext : ¬ Ty.text.PartOf (.tuple [.word (.uint 1)]) := by
    intro h
    rcases hpart _ h with h | h <;> cases h
  obtain ⟨_, hanswered, hmatch⟩ := answered_unless_escapes hts
  have hv := hanswered hbytes htext junk
  obtain ⟨hfault, herror⟩ := hmatch (d ++ junk) d {} (some i) none (by decide) (by rfl)
  have hno : ¬ ∃ f, (creation (d ++ junk) d {} (some i)).value = .error f := by
    rw [hfault, List.drop_left]
    rintro ⟨_, f, hf⟩
    obtain ⟨r, hr⟩ := hv
    rw [hr] at hf
    cases hf
  exact ⟨hv, hno, fun h => hno (herror.mp h)⟩

/-- a text of one byte that is none, and a length of half of what a word can say: neither is answered, and
matching the code with the first of them behind it ends in a fault and an error -/
theorem not_answered :
    let inputs : List Json := [.object [("type", .text "string")]]
    let i : CompilationArtifacts :=
      { abi := some [.ofList [("type", .text "constructor"), ("inputs", .list inputs)]] }
    let d : Bytes := [0x60]
    let noText : Bytes := Bytes.ofNat 32 32 ++ Bytes.ofNat 32 1 ++ ([0xFF] ++ Bytes.zeros 31)
    let tooLong : Bytes := Bytes.ofNat 32 32 ++ ([0x80] ++ Bytes.zeros 31)
    typesOf (.list inputs) = .ok [.text] ∧
      (argumentsValid noText (.list inputs)).value = .error .notText ∧
      (argumentsValid tooLong (.list inputs)).value = .error .lengthOverflow ∧
      (creation (d ++ noText) d {} (some i)).value = .error (.arguments .notText) ∧
      ∃ r ∈ (guarded .creation none (creation (d ++ noText) d {} (some i))).log, r.level = .error := by
  intro inputs i d noText tooLong
  have hts : typesOf (.list inputs) = .ok [.text] := by cbv
  have hnoText : (argumentsValid noText (.list inputs)).value = .error .notText := by
    rw [value_argumentsValid_of_ne_nil (List.cons_ne_nil _ _), hts]
    have hj : judge [.text] noText = .error .notText := by decide +kernel
    show (judge [.text] noText).map _ = _
    rw [hj]
    rfl
  have htooLong : (argumentsValid tooLong (.list inputs)).value = .error .lengthOverflow := by
    rw [value_argumentsValid_of_ne_nil (List.cons_ne_nil _ _), hts]
    have hj : judge [.text] tooLong = .error .lengthOverflow := by decide +kernel
    show (judge [.text] tooLong).map _ = _
    rw [hj]
    rfl
  have hcode : (creation (d ++ noText) d {} (some i)).value = .error (.arguments .notText) := by
    have hi : constructorInputs (some i) = .ok inputs := by rfl
    refine (creation_eq_error_iff (by decide) hi).mpr
      ⟨(List.prefix_append d noText).length_le, _, rfl, ?_⟩
    rw [List.drop_left]
    exact hnoText
  refine ⟨hts, hnoText, htooLong, hcode, ?_⟩
  exact (exists_error_guarded_iff _ _ (only_creation _ _ _ _)).mpr ⟨_, hcode⟩

end Matching

end CodeMatch
