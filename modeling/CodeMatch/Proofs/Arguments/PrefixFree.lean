import CodeMatch.Proofs.Abi.Extension
import CodeMatch.Proofs.Arguments
import CodeMatch.Proofs.Matching
import Mathlib

/-!
# Nothing may follow the arguments

The decoder does not look behind what it needs, so that it reads the same arguments with anything appended to
them.  Their encoding is then no longer all there is, and the check refuses them.

* `argumentsValid_eq_true_iff`   accepted are nothing, for a constructor without inputs, and what is judged
                                 to be an encoding;
* `judge_append`                 an encoding with something behind it decodes, but is not canonical;
* `argumentsValid_append`        so it is refused, and without a fault;
* `arguments_prefix_free`        no accepted arguments, and no accepted creation code, are the front of others.
-/

namespace CodeMatch

open Abi

namespace Constructor

theorem argumentsValid_eq_true_iff {b : Bytes} {inputs : List Json} :
    (argumentsValid b (.list inputs)).value = .ok true ↔
      inputs = [] ∧ b = [] ∨
        inputs ≠ [] ∧ ∃ ts, typesOf (.list inputs) = .ok ts ∧ judge ts b = .ok .accepted := by
  by_cases hne : inputs = []
  · subst hne
    rw [argumentsValid_nil]
    cases b with
    | nil => exact iff_of_true rfl (.inl ⟨rfl, rfl⟩)
    | cons x b => exact iff_of_false (by rintro ⟨⟩) (by rintro (⟨_, ⟨⟩⟩ | ⟨h, _⟩); exact h rfl)
  · rw [value_argumentsValid_of_ne_nil hne]
    constructor
    · intro h
      obtain ⟨r, hr, haccepted⟩ := exists_of_map_eq_ok h
      obtain ⟨ts, hts, hr⟩ := exists_of_bind_eq_ok hr
      rw [of_decide_eq_true haccepted] at hr
      exact .inr ⟨hne, ts, hts, hr⟩
    · rintro (⟨h, _⟩ | ⟨_, ts, hts, hr⟩)
      · exact absurd h hne
      · rw [hts]
        show (judge ts b).map _ = _
        rw [hr]
        rfl

theorem judge_append {ts : List Ty} {b x : Bytes} (hx : x ≠ []) (h : judge ts b = .ok .accepted) :
    judge ts (b ++ x) = .ok .notCanonical := by
  obtain ⟨vs, hvs, hcode⟩ := judge_eq_accepted_iff.mp h
  have hne : b ≠ b ++ x := fun heq => hx (List.self_eq_append_right.mp heq)
  unfold judge
  rw [decodeArguments_append hvs x]
  dsimp only
  rw [hcode]
  exact congrArg Except.ok (if_neg hne)

/-- whatever is put behind accepted arguments, they are refused then -/
theorem argumentsValid_append {b x : Bytes} {inputs : List Json} (hx : x ≠ [])
    (h : (argumentsValid b (.list inputs)).value = .ok true) :
    (argumentsValid (b ++ x) (.list inputs)).value = .ok false := by
  rcases argumentsValid_eq_true_iff.mp h with ⟨rfl, rfl⟩ | ⟨hne, ts, hts, hr⟩
  · rw [argumentsValid_nil, List.nil_append, List.isEmpty_eq_false_iff.mpr hx]
    rfl
  · exact value_argumentsValid hne hts (judge_append hx hr)

end Constructor

namespace Matching

open Constructor

/-- creation code that matches ends in accepted arguments -/
theorem accepted_of_creation {b d : Bytes} {a : CreationArtifacts} {i : Option CompilationArtifacts}
    {m : Match} (h : (creation b d a i).value = .ok (some m)) :
    ∃ inputs, constructorInputs i = .ok inputs ∧ Region.WellFormed d.length (Region.ofCreation a) ∧
      d.length ≤ b.length ∧ (argumentsValid (b.drop d.length) (.list inputs)).value = .ok true := by
  obtain ⟨inputs, m', hi, hp, _⟩ := creation_eq_some_iff.mp h
  obtain ⟨hw, hle, hv, _⟩ := prefixMatch_eq_some_iff.mp hp
  exact ⟨inputs, hi, hw, hle, hv⟩

/-- **Nothing may follow the arguments.**  If a byte string is accepted as constructor arguments, no longer one
that begins with it is; and if creation code matches, no longer code that begins with it does, whatever ranges
are declared for it.  With the same ranges that is a plain mismatch, not a fault. -/
theorem arguments_prefix_free :
    (∀ (inputs : List Json) (b x : Bytes), x ≠ [] →
      (argumentsValid b (.list inputs)).value = .ok true →
      (argumentsValid (b ++ x) (.list inputs)).value = .ok false) ∧
    ∀ (b d x : Bytes) (a : CreationArtifacts) (i : Option CompilationArtifacts) (m : Match), x ≠ [] →
      (creation b d a i).value = .ok (some m) →
      (creation (b ++ x) d a i).value = .ok none ∧
      ∀ (a' : CreationArtifacts) (m' : Match), (creation (b ++ x) d a' i).value ≠ .ok (some m') := by
  refine ⟨fun inputs b x hx h => argumentsValid_append hx h, fun b d x a i m hx h => ?_⟩
  obtain ⟨inputs, hi, hw, hle, hv⟩ := accepted_of_creation h
  have hlonger : (argumentsValid ((b ++ x).drop d.length) (.list inputs)).value = .ok false := by
    rw [List.drop_append_of_le_length hle]
    exact argumentsValid_append hx hv
  refine ⟨?_, fun a' m' h' => ?_⟩
  · have hle' : d.length ≤ (b ++ x).length := by
      rw [List.length_append]
      omega
    rw [value_creation_of_le hw hle' hi, hlonger]
    rfl
  · obtain ⟨inputs', hi', _, _, hv'⟩ := accepted_of_creation h'
    obtain rfl : inputs = inputs' := Except.ok.inj (hi.symm.trans hi')
    rw [hlonger] at hv'
    cases hv'

/-- code with one byte string behind it, and a word of padding behind that -/
theorem arguments_prefix_free_padded :
    let inputs : List Json := [.object [("type", .text "bytes")]]
    let i : CompilationArtifacts :=
      { abi := some [.ofList [("type", .text "constructor"), ("inputs", .list inputs)]] }
    let d : Bytes := [0x60]
    let args : Bytes := Bytes.ofNat 32 32 ++ Bytes.ofNat 32 1 ++ ([0xAB] ++ Bytes.zeros 31)
    (argumentsValid args (.list inputs)).value = .ok true ∧
      (argumentsValid (args ++ Bytes.zeros 32) (.list inputs)).value = .ok false ∧
      (∃ m, (creation (d ++ args) d {} (some i)).value = .ok (some m)) ∧
      (creation (d ++ args ++ Bytes.zeros 32) d {} (some i)).value = .ok none := by
  intro inputs i d args
  have hts : typesOf (.list inputs) = .ok [.bytes] := by cbv
  have hv : (argumentsValid args (.list inputs)).value = .ok true :=
    value_argumentsValid (List.cons_ne_nil _ _) hts (r := .accepted) (by decide +kernel)
  have hm : (creation (d ++ args) d {} (some i)).value =
      .ok (some (Match.withArguments { type := .full } args)) := by
    have hle : d.length ≤ (d ++ args).length := (List.prefix_append d args).length_le
    rw [value_creation_of_le (by decide) hle (show constructorInputs (some i) = .ok inputs from rfl),
      List.drop_left, hv]
    rfl
  have hx : Bytes.zeros 32 ≠ [] := List.cons_ne_nil _ _
  obtain ⟨hargs, hcode⟩ := arguments_prefix_free
  exact ⟨hv, hargs inputs args _ hx hv, ⟨_, hm⟩, (hcode _ _ _ {} (some i) _ hx hm).1⟩

end Matching

end CodeMatch
