import CodeMatch.Proofs.Abi.Unknown
import CodeMatch.Proofs.Arguments
import CodeMatch.Proofs.Interface
import CodeMatch.Proofs.Matching
import Mathlib

/-!
# Interfaces that cannot be used

Inputs that are no list of descriptors, or that name something that is no type, are a fault of the interface.
Creation code is not matched then, whatever it is, and nearly always the fault is reported as what it is.

* `Unfit v`                     the inputs `v` are undescribed, or they name something that is no type;
* `Misreported v f`             the inputs have the fault `f`, which is reported as if it were none of theirs;
* `refused_or_mistaken`         unfit inputs have no types, unless they are mistaken for others;
* `unfit_inputs_refused`        so no code is matched, and it is the same fault for all code;
* `unfit_inputs_not_refused`    the exceptions are real: five other faults, and a match.
-/

namespace CodeMatch

open Abi

namespace Constructor

/-! ## inputs -/

/-- the inputs are no list of descriptors, or one of the types that they name is none -/
def Unfit (v : Json) : Prop :=
  ¬ Described v ∨ ∃ ss s, elementTexts v = .ok ss ∧ s ∈ ss ∧ ∀ t, TypeName.tyOf s ≠ .ok t

theorem unfit_of_ne_list {v : Json} (h : ∀ items, v ≠ .list items) : Unfit v :=
  .inl fun ⟨items, hv, _⟩ => h items hv

theorem unfit_list_of_ne_object {items : List Json} {x : Json} (hx : x ∈ items)
    (h : ∀ ms, x ≠ .object ms) : Unfit (.list items) := by
  refine .inl ?_
  rintro ⟨items', ⟨⟩, hd⟩
  cases hd x hx with
  | plain => exact h _ rfl
  | tuple ht =>
    cases ht
    exact h _ rfl

theorem unfit_of_tyOf_eq_error {v : Json} {ss : List String} {s : String} {f : NameFault}
    (hss : elementTexts v = .ok ss) (hs : s ∈ ss) (h : TypeName.tyOf s = .error f) : Unfit v := by
  refine .inr ⟨ss, s, hss, hs, fun t ht => ?_⟩
  rw [h] at ht
  cases ht

/-- the only input has a name that stands for no type -/
theorem typesOf_plain {s : String} (hs : ¬ IsTuple s) {f : NameFault} (h : TypeName.tyOf s = .error f) :
    typesOf (.list [.object [("type", .text s)]]) = .error (.ofName [s] f) := by
  rw [typesOf, elementTexts_plain hs]
  show (tysOf [s]).mapError _ = _
  rw [tysOf, h]
  rfl

/-- a fault of the inputs that is not reported as theirs, and what brings it about -/
inductive Misreported (v : Json) : Fault → Prop
  | notIterable (h : v.elements? = none) : Misreported v .notIterable
  | notDescriptor (h : Within Stray v) : Misreported v .notDescriptor
  | emptyTuple {ss : List String} {s : String} (hss : elementTexts v = .ok ss) (hs : s ∈ ss)
      (h : ['(', ')'] <:+: s.toList) : Misreported v .emptyTuple
  | longNumber {ss : List String} {s : String} {w : List Char} (hss : elementTexts v = .ok ss)
      (hs : s ∈ ss) (hw : w <:+: s.toList) (hdigits : ∀ c ∈ w, Text.isAsciiDigit c = true)
      (hlen : Text.longestNumeral < w.length) : Misreported v .longNumber
  | fixedBase {ss : List String} {s name : String} {t : TypeName} (hss : elementTexts v = .ok ss)
      (hs : s ∈ ss) (ht : TypeName.parse s = .ok t) (h : t.SizedFunction) :
      Misreported v (.fixedBase name)

theorem reported_of_refusal {v : Json} {ss : List String} {s : String} {g : NameFault}
    (hss : elementTexts v = .ok ss) (hs : s ∈ ss) (h : TypeName.Refusal s g) :
    (Fault.ofName ss g).isMalformed = true ∨ Misreported v (.ofName ss g) := by
  cases h with
  | unreadable => exact .inl rfl
  | badSize => exact .inl rfl
  | unknown => exact .inl rfl
  | emptyTuple h => exact .inr (.emptyTuple hss hs h)
  | longNumber hw hdigits hlen => exact .inr (.longNumber hss hs hw hdigits hlen)
  | fixedBase ht h => exact .inr (.fixedBase hss hs ht h)

/-- unfit inputs have no types, and the reason is known; or they have, because somewhere in them something is
taken for a list of descriptors that is none -/
theorem refused_or_mistaken {v : Json} (hu : Unfit v) :
    (∃ f, typesOf v = .error f ∧ (f.isMalformed = true ∨ Misreported v f)) ∨
      Within Mistaken v ∧ ∃ ts, typesOf v = .ok ts := by
  cases hv : typesOf v with
  | error f =>
    refine .inl ⟨f, rfl, ?_⟩
    rcases eq_error_of_bind_eq_error hv with hf | ⟨ss, hss, hf⟩
    · rcases stray_of_elementTexts hf with ⟨c, rfl⟩ | ⟨rfl, hin⟩
      · exact .inl rfl
      · exact .inr (.notDescriptor hin)
    · obtain ⟨g, hg, rfl⟩ := exists_of_mapError_eq_error hf
      rw [tysOf_eq_mapM] at hg
      obtain ⟨s, hs, hg⟩ := exists_of_mapM_eq_error hg
      exact reported_of_refusal hss hs (TypeName.refusal_of_tyOf hg)
  | ok ts =>
    refine .inr ⟨?_, ts, rfl⟩
    obtain ⟨ss, hss, hts⟩ := exists_of_bind_eq_ok hv
    rcases mistaken_or_described hss with hin | hd
    · exact hin
    · -- all is described, and every name has its type
      rcases hu with hno | ⟨ss', s, hss', hs, hno⟩
      · exact absurd hd hno
      · rw [hss] at hss'
        cases hss'
        have hts := eq_ok_of_mapError_eq_ok hts
        rw [tysOf_eq_mapM] at hts
        obtain ⟨t, ht⟩ := exists_of_mapM_eq_ok hts s hs
        exact absurd ht (hno t)

/-- what is run through has the types of what it is run through for -/
theorem typesOf_list_of_elements {v : Json} {items : List Json} (h : v.elements? = some items) :
    typesOf (.list items) = typesOf v := by
  unfold typesOf
  rw [elementTexts_eq, elementTexts_eq v, h]
  rfl

end Constructor

theorem Json.ne_nil_of_truthy {v : Json} {items : List Json} (ht : v.truthy = true)
    (h : v.elements? = some items) : items ≠ [] := by
  rintro rfl
  cases v with
  | text s =>
    have hs : s.toList = [] := List.map_eq_nil_iff.mp (Option.some.inj h)
    obtain rfl := String.toList_eq_nil_iff.mp hs
    cases ht
  | list items =>
    cases h
    cases ht
  | object ms =>
    obtain rfl : ms = [] := List.map_eq_nil_iff.mp (Option.some.inj h)
    cases ht
  | _ => cases h

namespace Matching

open Constructor
open Comparison (compare)
open Region (WellFormed ordered)

section
variable {c : CompilationArtifacts} {v : Json} (hv : c.inputs? = some v) (ht : v.truthy = true)
variable {b d : Bytes} {a : CreationArtifacts} (hw : WellFormed d.length (Region.ofCreation a))
  (hle : d.length ≤ b.length)
include hv ht

theorem creation_of_elements_eq_none (h : v.elements? = none) :
    (creation b d a (some c)).value = .error (.arguments .notIterable) := by
  rw [value_creation, constructorInputs_of_truthy hv ht, h]
  rfl

include hw hle

theorem creation_of_typesOf_eq_error {items : List Json} (h : v.elements? = some items)
    {f : Constructor.Fault} (hf : typesOf v = .error f) :
    (creation b d a (some c)).value = .error (.arguments f) := by
  refine (creation_eq_error_iff hw (constructorInputs_of_elements hv ht h)).mpr ⟨hle, f, rfl, ?_⟩
  rw [value_argumentsValid_of_ne_nil (Json.ne_nil_of_truthy ht h), typesOf_list_of_elements h, hf]
  rfl

theorem exists_creation_eq_some_iff {items : List Json} (h : v.elements? = some items) {ts : List Ty}
    (hts : typesOf v = .ok ts) :
    (∃ m, (creation b d a (some c)).value = .ok (some m)) ↔
      judge ts (b.drop d.length) = .ok .accepted ∧
        ∃ m, compare (b.take d.length) d (ordered (Region.ofCreation a)) = some m := by
  rw [value_creation_of_le hw hle (constructorInputs_of_elements hv ht h),
    value_argumentsValid_of_ne_nil (Json.ne_nil_of_truthy ht h), typesOf_list_of_elements h, hts]
  show (∃ m, (((judge ts _).map _).mapError _).map _ = _) ↔ _
  cases judge ts (b.drop d.length) with
  | error f => simp [Except.map, Except.mapError]
  | ok r => cases r <;> simp [Except.map, Except.mapError]

end

/-- **Creation code is not matched with unfit inputs.**  All code that is long enough meets the same fault,
and it is reported as one of the interface, with five exceptions; unless the inputs are mistaken for a list
of descriptors, and code is matched with the types that are read into them. -/
theorem unfit_inputs_refused {c : CompilationArtifacts} {v : Json} (hv : c.inputs? = some v)
    (ht : v.truthy = true) (hu : Unfit v) :
    (∃ f, (f.isMalformed = true ∨ Misreported v f) ∧
      ∀ (b d : Bytes) (a : CreationArtifacts), WellFormed d.length (Region.ofCreation a) →
        d.length ≤ b.length → (creation b d a (some c)).value = .error (.arguments f)) ∨
    Within Mistaken v ∧ ∃ ts, typesOf v = .ok ts ∧
      ∀ (b d : Bytes) (a : CreationArtifacts), WellFormed d.length (Region.ofCreation a) →
        d.length ≤ b.length →
        ((∃ m, (creation b d a (some c)).value = .ok (some m)) ↔
          judge ts (b.drop d.length) = .ok .accepted ∧
            ∃ m, compare (b.take d.length) d (ordered (Region.ofCreation a)) = some m) := by
  cases h : v.elements? with
  | none =>
    exact .inl ⟨.notIterable, .inr (.notIterable h),
      fun b d a _ _ => creation_of_elements_eq_none hv ht h⟩
  | some items =>
    rcases refused_or_mistaken hu with ⟨f, hf, hreport⟩ | ⟨hin, ts, hts⟩
    · exact .inl ⟨f, hreport, fun b d a hw hle => creation_of_typesOf_eq_error hv ht hw hle h hf⟩
    · exact .inr ⟨hin, ts, hts, fun b d a hw hle => exists_creation_eq_some_iff hv ht hw hle h hts⟩

/-- a tuple with a component whose type there is not: that is reported of the interface, for all code -/
theorem unfit_inputs_refused_component :
    let v : Json := .list [.object [("type", .text "tuple"), ("components", .list
      [.object [("type", .text "money")]])]]
    let i : CompilationArtifacts :=
      { abi := some [.ofList [("type", .text "constructor"), ("inputs", v)]] }
    i.inputs? = some v ∧ v.truthy = true ∧ Unfit v ∧
      ∃ f : Constructor.Fault, f.isMalformed = true ∧
        ∀ (b d : Bytes) (a : CreationArtifacts), WellFormed d.length (Region.ofCreation a) →
          d.length ≤ b.length → (creation b d a (some i)).value = .error (.arguments f) := by
  intro v i
  have hv : i.inputs? = some v := rfl
  have hss : elementTexts v = .ok ["(money)"] := by cbv
  have hty : TypeName.tyOf "(money)" = .error .unknown := by cbv
  have hf : typesOf v = .error (.types ["(money)"] .unknown) := by cbv
  have hu : Unfit v := unfit_of_tyOf_eq_error hss (List.mem_singleton_self _) hty
  refine ⟨hv, rfl, hu, ?_⟩
  rcases unfit_inputs_refused hv rfl hu with ⟨f, _, h⟩ | ⟨_, ts, hts, _⟩
  · -- one piece of code shows which fault it is
    have hcode := creation_of_typesOf_eq_error (b := []) (d := []) (a := {}) hv rfl (by decide)
      (Nat.le_refl 0) rfl hf
    rw [h [] [] {} (by decide) (Nat.le_refl 0)] at hcode
    cases hcode
    exact ⟨_, rfl, h⟩
  · rw [hf] at hts
    cases hts

/-- unfit inputs of six kinds: five are reported as if the interface were not to blame, and with the sixth,
the name of a type where its descriptor should be, code is matched -/
theorem unfit_inputs_not_refused :
    let i : Json → CompilationArtifacts := fun v =>
      { abi := some [.ofList [("type", .text "constructor"), ("inputs", v)]] }
    let d : Bytes := [0x60]
    let long : List Char := List.replicate (Text.longestNumeral + 1) '1'
    let number : Json := .int 5
    let noDescriptor : Json := .list [.int 5]
    let noParts : Json := .list [.object [("type", .text "tuple"), ("components", .list [])]]
    let longSize : Json := .list [.object [("type", .text (String.ofList ("uint".toList ++ long)))]]
    let sized : Json := .list [.object [("type", .text "function24")]]
    let named : Json := .list [.text "uint256"]
    (∀ v ∈ [number, noDescriptor, noParts, longSize, sized, named],
        (i v).inputs? = some v ∧ v.truthy = true ∧ Unfit v) ∧
      (creation d d {} (some (i number))).value = .error (.arguments .notIterable) ∧
      (creation d d {} (some (i noDescriptor))).value = .error (.arguments .notDescriptor) ∧
      (creation d d {} (some (i noParts))).value = .error (.arguments .emptyTuple) ∧
      (creation d d {} (some (i longSize))).value = .error (.arguments .longNumber) ∧
      (creation d d {} (some (i sized))).value = .error (.arguments (.fixedBase "function24")) ∧
      (∀ f ∈ [Constructor.Fault.notIterable, .notDescriptor, .emptyTuple, .longNumber,
        .fixedBase "function24"], f.isMalformed = false) ∧
      ∃ m, (creation (d ++ Bytes.zeros 32) d {} (some (i named))).value = .ok (some m) := by
  intro i d long number noDescriptor noParts longSize sized named
  have hnoDescriptor : Unfit noDescriptor :=
    unfit_list_of_ne_object (List.mem_singleton_self _) fun _ => Json.noConfusion
  have hnamed : Unfit named :=
    unfit_list_of_ne_object (List.mem_singleton_self _) fun _ => Json.noConfusion
  have hnoParts : Unfit noParts :=
    unfit_of_tyOf_eq_error (s := "()") (f := .emptyTuple) (by cbv) (List.mem_singleton_self _) (by cbv)
  have hsized : Unfit sized :=
    unfit_of_tyOf_eq_error (s := "function24") (f := .fixedBase "function24") (by cbv)
      (List.mem_singleton_self _) (by cbv)
  have hlong : TypeName.tyOf (String.ofList ("uint".toList ++ long)) = .error .longNumber :=
    TypeName.tyOf_eq_longNumber (by decide) (List.all_eq_true.mp (by decide))
      (List.forall_mem_replicate.mpr (.inr (by decide)))
      (by rw [List.head?_replicate, if_neg (Nat.succ_ne_zero _)]; decide)
      (by rw [List.length_replicate]; exact Nat.lt_succ_self _)
  have hplain : ¬ IsTuple (String.ofList ("uint".toList ++ long)) :=
    not_isTuple (by rw [String.toList_ofList]; simp)
  have hlongSize : Unfit longSize :=
    unfit_of_tyOf_eq_error (elementTexts_plain hplain) (List.mem_singleton_self _) hlong
  have herror : ∀ (v : Json) (items : List Json) (f : Constructor.Fault), v.truthy = true →
      v.elements? = some items → typesOf v = .error f →
      (creation d d {} (some (i v))).value = .error (.arguments f) := fun v items f ht he hf =>
    creation_of_typesOf_eq_error (c := i v) rfl ht (by decide) (Nat.le_refl _) he hf
  refine ⟨?_, creation_of_elements_eq_none (c := i number) rfl rfl rfl,
    herror noDescriptor _ _ rfl rfl rfl, herror noParts _ _ rfl rfl (by cbv),
    herror longSize _ _ rfl rfl (typesOf_plain hplain hlong), herror sized _ _ rfl rfl (by cbv), by decide, ?_⟩
  · simp only [List.forall_mem_cons]
    exact ⟨⟨rfl, rfl, unfit_of_ne_list fun _ => Json.noConfusion⟩, ⟨rfl, rfl, hnoDescriptor⟩,
      ⟨rfl, rfl, hnoParts⟩, ⟨rfl, rfl, hlongSize⟩, ⟨rfl, rfl, hsized⟩, ⟨rfl, rfl, hnamed⟩,
      List.forall_mem_nil _⟩
  · have hts : typesOf named = .ok [.word (.uint 32)] := by cbv
    exact (exists_creation_eq_some_iff (c := i named) rfl rfl (by decide) (by decide) rfl hts).mpr
      ⟨by decide +kernel, _, rfl⟩

end Matching

end CodeMatch
