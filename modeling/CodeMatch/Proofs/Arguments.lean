import CodeMatch.Constructor
import CodeMatch.Proofs.Abi.Decoded
import CodeMatch.Proofs.Abi.RoundTrip
import CodeMatch.Proofs.Interface
import Mathlib

/-!
# Constructor arguments are canonical

The arguments behind creation code are accepted if decoding and encoding leads back to them.  This is
the same as being an encoding at all.

* `usable_of_typesOf`     the types of the inputs are usable, and there are some;
* `Foreign`               the faults that are not reported as a wrong shape;
* `accepted_iff`          what decodes and is accepted, is the encoding of some values;
* `argumentsValid_iff_exists_encoding`   the check accepts the encodings, and nothing else.
-/

namespace CodeMatch.Constructor

open Abi

/-! ## the types of the inputs -/

theorem length_typeTexts {inputs : List Json} {ss : List String} (h : typeTexts inputs = .ok ss) :
    ss.length = inputs.length := by
  rw [typeTexts_eq_mapM] at h
  exact (forall₂_of_mapM_eq_ok h).length_eq.symm

theorem tysOf_eq_ok {ss : List String} {ts : List Ty} (h : tysOf ss = .ok ts) :
    ts.length = ss.length ∧ Ty.AllUsable ts := by
  rw [tysOf_eq_mapM] at h
  refine ⟨(forall₂_of_mapM_eq_ok h).length_eq.symm, Ty.allUsable_iff.mpr ?_⟩
  exact forall_of_mapM_eq_ok h fun s t ht => TypeName.usable_of_tyOf ht

theorem usable_of_typesOf {inputs : List Json} (hne : inputs ≠ []) {ts : List Ty}
    (h : typesOf (.list inputs) = .ok ts) : (Ty.tuple ts).Usable := by
  obtain ⟨ss, hss, hts⟩ := exists_of_bind_eq_ok h
  obtain ⟨hlen, hall⟩ := tysOf_eq_ok (eq_ok_of_mapError_eq_ok hts)
  refine ⟨?_, hall⟩
  rw [← List.length_pos_iff, hlen, length_typeTexts hss]
  exact List.length_pos_iff.mpr hne

/-! ## the judgement -/

/-- faults of decoding that are not reported as a wrong shape -/
def Foreign : Abi.Fault → Prop
  | .malformed => False
  | .lengthOverflow => True
  | .notText => True

theorem judge_eq_ok {ts : List Ty} {b : Bytes}
    (hd : ∀ f, decodeArguments ts b = .error f → ¬ Foreign f) : ∃ r, judge ts b = .ok r := by
  unfold judge
  split
  case h_1 vs _ =>
    split
    · exact ⟨_, rfl⟩
    · exact ⟨_, rfl⟩
  case h_2 => exact ⟨_, rfl⟩
  case h_3 h => exact absurd trivial (hd _ h)
  case h_4 h => exact absurd trivial (hd _ h)

theorem judge_eq_accepted_iff {ts : List Ty} {b : Bytes} :
    judge ts b = .ok .accepted ↔
      ∃ vs, decodeArguments ts b = .ok vs ∧ encodeArguments ts vs = some b := by
  constructor
  · intro h
    unfold judge at h
    split at h
    case h_1 vs hvs =>
      split at h
      case h_1 code hcode =>
        by_cases hb : code = b
        · exact ⟨vs, hvs, by rw [hcode, hb]⟩
        · rw [if_neg hb] at h
          cases h
      case h_2 => cases h
    all_goals cases h
  · rintro ⟨vs, hvs, hcode⟩
    unfold judge
    rw [hvs]
    dsimp only
    rw [hcode]
    exact congrArg Except.ok (if_pos rfl)

/-- what is accepted are the encodings: decoding gives values of the types, and an encoding is decoded
to the values that it came from -/
theorem accepted_iff {ts : List Ty} (hu : (Ty.tuple ts).Usable) {b : Bytes}
    (hd : ∀ f, decodeArguments ts b = .error f → ¬ Foreign f) :
    judge ts b = .ok .accepted ↔ ∃ vs, Ty.HoldsAll ts vs ∧ encodeArguments ts vs = some b := by
  rw [judge_eq_accepted_iff]
  constructor
  · rintro ⟨vs, hvs, hcode⟩
    exact ⟨vs, holdsAll_of_decodeArguments hu hvs, hcode⟩
  · rintro ⟨vs, hall, hcode⟩
    have hback := decodeArguments_encode hu hall hcode []
    rw [List.append_nil] at hback
    rcases hback with h | h
    · exact ⟨vs, h, hcode⟩
    · exact absurd trivial (hd _ h)

/-- with inputs in the interface, the types that they name judge the arguments -/
theorem value_argumentsValid_of_ne_nil {inputs : List Json} (hne : inputs ≠ []) (b : Bytes) :
    (argumentsValid b (.list inputs)).value =
      ((typesOf (.list inputs)).bind fun ts => judge ts b).map fun r => decide (r = .accepted) := by
  have htruthy : (!(Json.list inputs).truthy) = false := by
    cases inputs with
    | nil => exact absurd rfl hne
    | cons v vs => rfl
  unfold argumentsValid
  dsimp only
  rw [htruthy]
  generalize (typesOf (.list inputs)).bind (fun ts => judge ts b) = x
  cases x with
  | error f => rfl
  | ok r => cases r <;> rfl

theorem value_argumentsValid {inputs : List Json} (hne : inputs ≠ []) {ts : List Ty}
    (hts : typesOf (.list inputs) = .ok ts) {b : Bytes} {r : Verdict} (h : judge ts b = .ok r) :
    (argumentsValid b (.list inputs)).value = .ok (decide (r = .accepted)) := by
  rw [value_argumentsValid_of_ne_nil hne, hts]
  show (judge ts b).map _ = _
  rw [h]
  rfl

/-- **Arguments are accepted exactly if they are the encoding of values of the input types**, unless
decoding them meets a fault of another kind. -/
theorem argumentsValid_iff_exists_encoding {inputs : List Json} (hne : inputs ≠ []) {ts : List Ty}
    (hts : typesOf (.list inputs) = .ok ts) (b : Bytes)
    (hd : ∀ f, decodeArguments ts b = .error f → ¬ Foreign f) :
    ∃ r, (argumentsValid b (.list inputs)).value = .ok r ∧
      (r = true ↔ ∃ vs, Ty.HoldsAll ts vs ∧ encodeArguments ts vs = some b) := by
  obtain ⟨r, hr⟩ := judge_eq_ok hd
  refine ⟨_, value_argumentsValid hne hts hr, ?_⟩
  rw [← accepted_iff (usable_of_typesOf hne hts) hd, hr, decide_eq_true_eq, Except.ok.injEq]

/-- a list of pairs of bytes and a number, and a flag -/
theorem argumentsValid_iff_exists_encoding_nested :
    let inputs : List Json :=
      [.object [("type", .text "tuple[]"), ("components", .list
          [.object [("type", .text "bytes")], .object [("type", .text "int8")]])],
        .object [("type", .text "bool")]]
    let ts : List Ty := [.array (.tuple [.bytes, .word (.int 1)]) none, .word .bool]
    let vs : List Value := [.list [.list [.bytes [0xAB], .int (-2)]], .bool true]
    let b : Bytes := Bytes.ofNat 32 64 ++ Bytes.ofNat 32 1 ++ Bytes.ofNat 32 1 ++ Bytes.ofNat 32 32 ++
      Bytes.ofNat 32 64 ++ (List.replicate 31 0xFF ++ [0xFE]) ++ Bytes.ofNat 32 1 ++
      ([0xAB] ++ Bytes.zeros 31)
    inputs ≠ [] ∧ typesOf (.list inputs) = .ok ts ∧ Ty.HoldsAll ts vs ∧
      encodeArguments ts vs = some b ∧ (argumentsValid b (.list inputs)).value = .ok true := by
  intro inputs ts vs b
  have hts : typesOf (.list inputs) = .ok ts := by cbv
  have hcode : encodeArguments ts vs = some b := by decide +kernel
  have hpair : (Ty.tuple [.bytes, .word (.int 1)]).Holds (.list [.bytes [0xAB], .int (-2)]) :=
    ⟨show 1 < Bytes.capacity 32 by decide, ⟨by decide, by decide⟩, trivial⟩
  have hall : Ty.HoldsAll ts vs :=
    ⟨⟨show 1 < Bytes.capacity 32 by decide, fun v hv => by rwa [List.mem_singleton.mp hv]⟩,
      trivial, trivial⟩
  have hback : (decodeArguments ts b).isOk = true := by decide +kernel
  obtain ⟨r, hr, hiff⟩ := argumentsValid_iff_exists_encoding (List.cons_ne_nil _ _) hts b
    fun f hf => by rw [hf] at hback; cases hback
  exact ⟨List.cons_ne_nil _ _, hts, hall, hcode, by rw [hr, hiff.mpr ⟨vs, hall, hcode⟩]⟩

end CodeMatch.Constructor
