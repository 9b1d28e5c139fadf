import CodeMatch.Matching
import CodeMatch.Proofs.Match.Settled

/-!
# The outcomes of matching

What each of the three ways to match gives, without the records made on the way: the fault, if there
is one, and otherwise the match that comparing finds.

* `value_runtime`, `value_prefixMatch`, `value_creation`, `value_blueprint`   the outcome as a case
                                     distinction;
* `runtime_eq_some_iff`, …           when there is the match `m`;
* `value_creation_of_le`, `value_creation_of_lt`, `creation_eq_error_iff`   creation code whose ranges and
                                     interface are in order;
* `Law P`                            what holds of every match that comparing finds, whatever arguments are
                                     recorded in it, holds of the matches of all three ways;
* `guarded_eq_some_iff`              guarding keeps exactly the matches.
-/

namespace CodeMatch.Matching

open Log Comparison
open Region (WellFormed ordered checked checked_eq_ok_iff)

/-! ## runtime code -/

theorem value_runtime (b c : Bytes) (a : RuntimeArtifacts) :
    (runtime b c a).value =
      match checked .runtime c.length (Region.ofRuntime a) with
      | .error f => .error (.regions f)
      | .ok rs => .ok (if b.length = c.length then compare b c rs else none) := by
  unfold runtime
  cases checked .runtime c.length (Region.ofRuntime a) with
  | error f => rfl
  | ok rs =>
    by_cases h : b.length = c.length
    · simp only [if_pos h]
      rfl
    · simp only [if_neg h]
      rfl

/-- matching runtime code faults on its ranges only -/
theorem exists_regions_of_runtime {b c : Bytes} {a : RuntimeArtifacts} {f : Fault}
    (h : (runtime b c a).value = .error f) : ∃ g, f = .regions g := by
  rw [value_runtime] at h
  cases hc : checked .runtime c.length (Region.ofRuntime a) with
  | error g =>
    rw [hc] at h
    cases h
    exact ⟨g, rfl⟩
  | ok rs =>
    rw [hc] at h
    cases h

theorem runtime_eq_some_iff {b c : Bytes} {a : RuntimeArtifacts} {m : Match} :
    (runtime b c a).value = .ok (some m) ↔
      WellFormed c.length (Region.ofRuntime a) ∧ b.length = c.length ∧
        compare b c (ordered (Region.ofRuntime a)) = some m := by
  rw [value_runtime]
  by_cases hw : WellFormed c.length (Region.ofRuntime a)
  · rw [Region.checked_of_wellFormed .runtime hw]
    simp [hw]
  · obtain ⟨f, hf⟩ := Region.exists_checked_eq_error .runtime hw
    rw [hf]
    simp [hw]

/-! ## creation code -/

theorem value_prefixMatch (b c : Bytes) (a : CreationArtifacts) (inputs : Json) :
    (prefixMatch b c a inputs).value =
      match checked .creation c.length (Region.ofCreation a) with
      | .error f => .error (.regions f)
      | .ok rs =>
        if b.length < c.length then .ok none
        else
          match (Constructor.argumentsValid (b.drop c.length) inputs).value with
          | .error f => .error (.arguments f)
          | .ok true => .ok (compare (b.take c.length) c rs)
          | .ok false => .ok none := by
  unfold prefixMatch
  cases checked .creation c.length (Region.ofCreation a) with
  | error f => rfl
  | ok rs =>
    by_cases h : b.length < c.length
    · simp only [if_pos h]
      rfl
    · simp only [if_neg h]
      show (Traced.bind (Constructor.argumentsValid (b.drop c.length) inputs) _).value = _
      rw [Traced.value_bind]
      cases (Constructor.argumentsValid (b.drop c.length) inputs).value with
      | error f => rfl
      | ok v => cases v <;> rfl

theorem prefixMatch_eq_some_iff {b c : Bytes} {a : CreationArtifacts} {inputs : Json} {m : Match} :
    (prefixMatch b c a inputs).value = .ok (some m) ↔
      WellFormed c.length (Region.ofCreation a) ∧ c.length ≤ b.length ∧
        (Constructor.argumentsValid (b.drop c.length) inputs).value = .ok true ∧
        compare (b.take c.length) c (ordered (Region.ofCreation a)) = some m := by
  rw [value_prefixMatch]
  by_cases hw : WellFormed c.length (Region.ofCreation a)
  · rw [Region.checked_of_wellFormed .creation hw]
    by_cases h : b.length < c.length
    · simp only [if_pos h]
      exact iff_of_false (by simp) fun h' => absurd h'.2.1 (by omega)
    · rw [← Nat.not_lt]
      simp only [if_neg h]
      cases (Constructor.argumentsValid (b.drop c.length) inputs).value with
      | error f => simp
      | ok v => cases v <;> simp [hw, h]
  · obtain ⟨f, hf⟩ := Region.exists_checked_eq_error .creation hw
    rw [hf]
    simp [hw]

theorem value_creation (b c : Bytes) (a : CreationArtifacts) (i : Option CompilationArtifacts) :
    (creation b c a i).value =
      match constructorInputs i with
      | .error () => .error (.arguments .notIterable)
      | .ok inputs => (prefixMatch b c a (.list inputs)).value.map
          (Option.map (recordArguments (b.drop c.length))) := by
  unfold creation
  cases constructorInputs i with
  | error u => rfl
  | ok inputs => rfl

theorem creation_eq_some_iff {b c : Bytes} {a : CreationArtifacts}
    {i : Option CompilationArtifacts} {m : Match} :
    (creation b c a i).value = .ok (some m) ↔
      ∃ inputs m', constructorInputs i = .ok inputs ∧
        (prefixMatch b c a (.list inputs)).value = .ok (some m') ∧
        m = recordArguments (b.drop c.length) m' := by
  rw [value_creation]
  cases constructorInputs i with
  | error u => simp
  | ok inputs =>
    simp only [Except.ok.injEq]
    cases h : (prefixMatch b c a (.list inputs)).value with
    | error f => simp [Except.map, h]
    | ok o => cases o <;> simp [Except.map, h, eq_comm]

/-- behind well-formed ranges and code that is long enough, the arguments alone decide whether there is a
fault -/
theorem value_creation_of_le {b c : Bytes} {a : CreationArtifacts} {i : Option CompilationArtifacts}
    {inputs : List Json} (hw : WellFormed c.length (Region.ofCreation a)) (hle : c.length ≤ b.length)
    (hi : constructorInputs i = .ok inputs) :
    (creation b c a i).value =
      ((Constructor.argumentsValid (b.drop c.length) (.list inputs)).value.mapError .arguments).map
        fun v => if v then (compare (b.take c.length) c (ordered (Region.ofCreation a))).map
          (recordArguments (b.drop c.length)) else none := by
  rw [value_creation, hi]
  show (prefixMatch b c a (.list inputs)).value.map _ = _
  rw [value_prefixMatch, Region.checked_of_wellFormed .creation hw]
  simp only [if_neg (Nat.not_lt.mpr hle)]
  cases (Constructor.argumentsValid (b.drop c.length) (.list inputs)).value with
  | error f => rfl
  | ok v => cases v <;> rfl

theorem value_creation_of_lt {b c : Bytes} {a : CreationArtifacts} {i : Option CompilationArtifacts}
    {inputs : List Json} (hw : WellFormed c.length (Region.ofCreation a)) (hlt : b.length < c.length)
    (hi : constructorInputs i = .ok inputs) : (creation b c a i).value = .ok none := by
  rw [value_creation, hi]
  show (prefixMatch b c a (.list inputs)).value.map _ = _
  rw [value_prefixMatch, Region.checked_of_wellFormed .creation hw]
  simp only [if_pos hlt]
  rfl

/-- behind well-formed ranges, only arguments that cannot be judged are a fault -/
theorem creation_eq_error_iff {b c : Bytes} {a : CreationArtifacts} {i : Option CompilationArtifacts}
    {inputs : List Json} (hw : WellFormed c.length (Region.ofCreation a))
    (hi : constructorInputs i = .ok inputs) {f : Fault} :
    (creation b c a i).value = .error f ↔ c.length ≤ b.length ∧ ∃ g, f = .arguments g ∧
      (Constructor.argumentsValid (b.drop c.length) (.list inputs)).value = .error g := by
  by_cases hle : c.length ≤ b.length
  · rw [value_creation_of_le hw hle hi]
    cases (Constructor.argumentsValid (b.drop c.length) (.list inputs)).value with
    | error g => simp [Except.mapError, Except.map, hle, eq_comm]
    | ok v => simp [Except.mapError, Except.map]
  · rw [value_creation_of_lt hw (Nat.not_le.mp hle) hi]
    simp [hle]

/-- the recorded arguments are all that follows the recompiled part -/
theorem constructorArguments_recordArguments {arguments : Bytes} {m : Match}
    (h : m.values.constructorArguments = none) :
    ((recordArguments arguments m).values.constructorArguments).getD [] = arguments := by
  unfold recordArguments
  cases arguments with
  | nil => simp [h]
  | cons x l => rfl

theorem transformations_recordArguments (arguments : Bytes) (m : Match) :
    (recordArguments arguments m).transformations = m.transformations := by
  unfold recordArguments
  split <;> rfl

theorem isFull_recordArguments (arguments : Bytes) (m : Match) :
    (recordArguments arguments m).isFull = m.isFull := by
  unfold recordArguments
  split <;> rfl

/-! ## blueprints -/

theorem blueprint_of_parse {b : Bytes} {p : Blueprint} (h : Blueprint.parse b = .ok p)
    (recompiled : Bytes) (a : CreationArtifacts) :
    blueprint b recompiled a = prefixMatch p.initcode recompiled a .null := by
  unfold blueprint
  rw [h]

theorem value_blueprint (b c : Bytes) (a : CreationArtifacts) :
    (blueprint b c a).value =
      match Blueprint.parse b with
      | .ok p => (prefixMatch p.initcode c a .null).value
      | .error _ => .ok none := by
  unfold blueprint
  cases Blueprint.parse b with
  | error f => rfl
  | ok p => rfl

theorem blueprint_eq_some_iff {b c : Bytes} {a : CreationArtifacts} {m : Match} :
    (blueprint b c a).value = .ok (some m) ↔
      ∃ p, Blueprint.parse b = .ok p ∧ (prefixMatch p.initcode c a .null).value = .ok (some m) := by
  rw [value_blueprint]
  cases Blueprint.parse b with
  | error f => simp
  | ok p => simp

/-! ## laws of comparing -/

/-- `P b c rs m` holds of the match `m` that comparing `b` with `c` finds, `rs` being the declared regions,
and recording arguments does not change that -/
structure Law (P : Bytes → Bytes → List Region → Match → Prop) : Prop where
  found : ∀ {b c : Bytes} {rs : List Region} {m : Match}, c.length ≤ b.length →
    WellFormed c.length rs → compare (b.take c.length) c (ordered rs) = some m → P b c rs m
  recorded : ∀ {b c : Bytes} {rs : List Region} {m : Match} (arguments : Bytes), P b c rs m →
    P b c rs (recordArguments arguments m)

section
variable {P : Bytes → Bytes → List Region → Match → Prop} (law : Law P) {b c : Bytes} {m : Match}
include law

theorem Law.runtime {a : RuntimeArtifacts} (h : (runtime b c a).value = .ok (some m)) :
    P b c (Region.ofRuntime a) m := by
  obtain ⟨hw, hlen, hc⟩ := runtime_eq_some_iff.mp h
  refine law.found (Nat.le_of_eq hlen.symm) hw ?_
  rw [← hlen, List.take_length]
  exact hc

theorem Law.prefixMatch {a : CreationArtifacts} {inputs : Json}
    (h : (prefixMatch b c a inputs).value = .ok (some m)) : P b c (Region.ofCreation a) m := by
  obtain ⟨hw, hle, _, hc⟩ := prefixMatch_eq_some_iff.mp h
  exact law.found hle hw hc

theorem Law.creation {a : CreationArtifacts} {i : Option CompilationArtifacts}
    (h : (creation b c a i).value = .ok (some m)) : P b c (Region.ofCreation a) m := by
  obtain ⟨inputs, m', _, hp, rfl⟩ := creation_eq_some_iff.mp h
  exact law.recorded _ (law.prefixMatch hp)

/-- a law holds of the code in a blueprint -/
theorem Law.blueprint {a : CreationArtifacts} (h : (blueprint b c a).value = .ok (some m)) :
    ∃ p, Blueprint.parse b = .ok p ∧ P p.initcode c (Region.ofCreation a) m := by
  obtain ⟨p, hparse, hp⟩ := blueprint_eq_some_iff.mp h
  exact ⟨p, hparse, law.prefixMatch hp⟩

end

/-! ## guarded -/

theorem value_guarded (s : Subject) (target : Option String) (x : Attempt) :
    (guarded s target x).value =
      match x.value with
      | .ok m => m
      | .error _ => none := by
  show (Traced.bind x _).value = _
  rw [Traced.value_bind]
  cases x.value with
  | error f => rfl
  | ok m => cases m <;> rfl

theorem guarded_eq_some_iff {s : Subject} {target : Option String} {x : Attempt} {m : Match} :
    (guarded s target x).value = some m ↔ x.value = .ok (some m) := by
  rw [value_guarded]
  cases x.value with
  | error f => simp
  | ok o => simp

end CodeMatch.Matching
