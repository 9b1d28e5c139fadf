import CodeMatch.Constructor
import CodeMatch.Matching
import CodeMatch.Proofs.Success
import Mathlib.Data.List.Basic
import Mathlib.Tactic.Common

/-!
# The inputs that an interface gives

An interface is a list of entries, of which the first constructor counts.  Its inputs should be a list of
descriptors: objects with a text for their type, and with a list of descriptors again for the components of a
tuple.  Anything else may stand there, at any depth, and not all of it is noticed: texts are taken for
descriptors, and texts and objects for lists.

* `CompilationArtifacts.inputs? c`   what the interface has for the constructor's inputs, as it stands there;
* `WithoutInputs i`          nothing is given: no interface, no constructor, or no inputs;
* `Descriptor x`, `Described v`   what is in order: a descriptor, and a list of them;
* `Within P v`               `v`, or the components of a tuple in it at some depth, have the property `P`;
* `Mistaken v`, `Stray v`    what is taken for a list of descriptors, and what stops it being taken for one;
* `mistaken_or_described`    what the types are read from is described, or it is mistaken for that;
* `stray_of_elementTexts`    the types cannot be read, and it is reported so, or something stray is within.
-/

namespace CodeMatch

/-- what the first constructor of the interface has for its inputs -/
def CompilationArtifacts.inputs? (c : CompilationArtifacts) : Option Json :=
  c.abi.bind fun entries =>
    (entries.find? fun e => e.get? "type" == some (.text "constructor")).bind (·.get? "inputs")

namespace Matching

variable {c : CompilationArtifacts}

/-- inputs that count as given are the values that they run through, and it is a fault if they cannot be
run through -/
theorem constructorInputs_of_truthy {v : Json} (hv : c.inputs? = some v) (ht : v.truthy = true) :
    constructorInputs (some c) = v.elements?.elim (.error ()) .ok := by
  obtain ⟨entries, habi, hv⟩ := Option.bind_eq_some_iff.mp hv
  obtain ⟨e, he, hv⟩ := Option.bind_eq_some_iff.mp hv
  show c.constructorInputs.map _ = _
  unfold CompilationArtifacts.constructorInputs
  rw [habi]
  dsimp only
  rw [he]
  dsimp only
  rw [hv, Option.getD_some, if_pos ht]
  cases v.elements? with
  | none => rfl
  | some items => rfl

theorem constructorInputs_of_elements {v : Json} (hv : c.inputs? = some v) (ht : v.truthy = true)
    {items : List Json} (h : v.elements? = some items) : constructorInputs (some c) = .ok items := by
  rw [constructorInputs_of_truthy hv ht, h]
  rfl

/-- there is no interface, or its first constructor, if it has one, is given no inputs -/
def WithoutInputs (i : Option CompilationArtifacts) : Prop :=
  ∀ c v, i = some c → c.inputs? = some v → v.truthy = false

theorem constructorInputs_of_withoutInputs {i : Option CompilationArtifacts} (h : WithoutInputs i) :
    constructorInputs i = .ok [] := by
  cases i with
  | none => rfl
  | some c =>
    show c.constructorInputs.map _ = _
    unfold CompilationArtifacts.constructorInputs
    cases habi : c.abi with
    | none => rfl
    | some entries =>
      dsimp only
      cases he : entries.find? fun e => e.get? "type" == some (.text "constructor") with
      | none => rfl
      | some e =>
        have ht : ((e.get? "inputs").getD .null).truthy = false := by
          cases hv : e.get? "inputs" with
          | none => rfl
          | some v =>
            have hc : c.inputs? = some v := by
              rw [CompilationArtifacts.inputs?, habi, Option.bind_some, he, Option.bind_some, hv]
            exact h c v rfl hc
        dsimp only
        rw [if_neg (by rw [ht]; exact Bool.false_ne_true)]
        rfl

end Matching

end CodeMatch

namespace CodeMatch.Constructor

/-! ## the types of descriptors -/

theorem typeTexts_eq_mapM (items : List Json) : typeTexts items = items.mapM typeText := by
  induction items with
  | nil => rfl
  | cons v vs ih =>
    rw [typeTexts, List.mapM_cons, ih]
    cases typeText v with
    | error f => rfl
    | ok t => cases vs.mapM typeText <;> rfl

theorem tysOf_eq_mapM (ss : List String) :
    tysOf ss = ss.mapM Abi.TypeName.tyOf := by
  induction ss with
  | nil => rfl
  | cons s ss ih =>
    rw [tysOf, List.mapM_cons, ih]
    cases Abi.TypeName.tyOf s with
    | error g => rfl
    | ok t => cases ss.mapM Abi.TypeName.tyOf <;> rfl

/-- a text is taken for the descriptor of the type that it names -/
theorem typeTexts_map_text (ss : List String) : typeTexts (ss.map .text) = .ok ss := by
  induction ss with
  | nil => rfl
  | cons s ss ih => rw [List.map_cons, typeTexts, typeText, ih]

theorem componentTexts_eq (ms : List (String × Json)) :
    componentTexts ms = (ms.lookup "components").map elementTexts := by
  induction ms with
  | nil => rfl
  | cons m ms ih =>
    obtain ⟨k, v⟩ := m
    rw [componentTexts, List.lookup_cons]
    by_cases hk : k = "components"
    · rw [if_pos hk, beq_iff_eq.mpr hk.symm, Option.map_some]
    · rw [if_neg hk, beq_eq_false_iff_ne.mpr (Ne.symm hk), ih]

theorem elementTexts_eq (v : Json) :
    elementTexts v = v.elements?.elim (.error (.inputs (.notIterable (kindName v)))) typeTexts := by
  cases v with
  | text s =>
    have h := typeTexts_map_text (s.toList.map String.singleton)
    rw [List.map_map] at h
    exact h.symm
  | object ms =>
    have h := typeTexts_map_text (ms.map Prod.fst)
    rw [List.map_map] at h
    exact h.symm
  | list items => rfl
  | _ => rfl

/-- a type is a tuple, or an array of tuples, if it begins with that word -/
def IsTuple (s : String) : Prop := "tuple".toList <+: s.toList

theorem not_isTuple {s : String} (h : s.toList.head? ≠ some 't') : ¬ IsTuple s := by
  rintro ⟨rest, hrest⟩
  rw [← hrest] at h
  exact h rfl

/-- the descriptor of a tuple, and its components -/
inductive TupleOf : Json → Json → Prop
  | intro {ms : List (String × Json)} {s : String} {w : Json}
      (htype : ms.lookup "type" = some (.text s)) (hs : IsTuple s)
      (hw : ms.lookup "components" = some w) : TupleOf (.object ms) w

/-- an object has a type of its own, or the type of a tuple with its components, or it is no descriptor and
reported so -/
theorem typeText_object_cases (ms : List (String × Json)) :
    (∃ s, ms.lookup "type" = some (.text s) ∧ ¬ IsTuple s ∧ typeText (.object ms) = .ok s) ∨
      (∃ w rest, TupleOf (.object ms) w ∧
        typeText (.object ms) = (elementTexts w).map (tupleText · rest)) ∨
      ∃ c, typeText (.object ms) = .error (.inputs c) := by
  rw [typeText, componentTexts_eq]
  split
  case h_1 s hs =>
    split
    case h_1 hp =>
      refine .inl ⟨s, hs, fun h => ?_, rfl⟩
      obtain ⟨rest, hrest⟩ := h
      rw [List.isPrefixOf?_eq_some_iff_append_eq.mpr hrest] at hp
      cases hp
    case h_2 rest hp =>
      cases hw : ms.lookup "components" with
      | none => exact .inr (.inr ⟨_, rfl⟩)
      | some w =>
        have htuple : IsTuple s := ⟨rest, List.isPrefixOf?_eq_some_iff_append_eq.mp hp⟩
        exact .inr (.inl ⟨w, rest, .intro hs htuple hw, rfl⟩)
  case h_2 => exact .inr (.inr ⟨_, rfl⟩)

/-- the only input is given by no more than a name -/
theorem elementTexts_plain {s : String} (hs : ¬ IsTuple s) :
    elementTexts (.list [.object [("type", .text s)]]) = .ok [s] := by
  have hp : "tuple".toList.isPrefixOf? s.toList = none := by
    cases hp : "tuple".toList.isPrefixOf? s.toList with
    | none => rfl
    | some rest => exact absurd ⟨rest, List.isPrefixOf?_eq_some_iff_append_eq.mp hp⟩ hs
  simp only [elementTexts, typeTexts, typeText, List.lookup_cons, beq_self_eq_true, hp]

/-! ## tuples in tuples -/

theorem TupleOf.sizeOf_lt {x w : Json} (h : TupleOf x w) : sizeOf w < sizeOf x := by
  obtain ⟨_, _, hw⟩ := h
  obtain ⟨l, l', rfl, _⟩ := List.lookup_eq_some_iff.mp hw
  have hmem : ("components", w) ∈ l ++ ("components", w) :: l' :=
    List.mem_append_right l List.mem_cons_self
  have hlt := List.sizeOf_lt_of_mem hmem
  simp only [Prod.mk.sizeOf_spec, Json.object.sizeOf_spec] at hlt ⊢
  omega

/-- what holds of a list if it holds of the components of all tuples in it, holds of everything -/
theorem induction_on_tuples {P : Json → Prop}
    (step : ∀ v, (∀ items x w, v = .list items → x ∈ items → TupleOf x w → P w) → P v) (v : Json) : P v :=
  step v fun items x w hv hx hw =>
    have hlt : sizeOf w < sizeOf v := by
      have hitem := List.sizeOf_lt_of_mem hx
      have htuple := hw.sizeOf_lt
      simp only [hv, Json.list.sizeOf_spec]
      omega
    induction_on_tuples step w
termination_by sizeOf v

/-! ## descriptors -/

/-- a value describes an input -/
inductive Descriptor : Json → Prop
  | plain {ms : List (String × Json)} {s : String} (htype : ms.lookup "type" = some (.text s))
      (hs : ¬ IsTuple s) : Descriptor (.object ms)
  | tuple {x : Json} {items : List Json} (hx : TupleOf x (.list items))
      (hitems : ∀ y ∈ items, Descriptor y) : Descriptor x

/-- a value is a list of descriptors -/
def Described (v : Json) : Prop := ∃ items, v = .list items ∧ ∀ x ∈ items, Descriptor x

/-- a value, or the components of a tuple at some depth in it, have the property `P` -/
inductive Within (P : Json → Prop) : Json → Prop
  | here {v : Json} (h : P v) : Within P v
  | inside {items : List Json} {x w : Json} (hx : x ∈ items) (hw : TupleOf x w) (h : Within P w) :
      Within P (.list items)

/-- a text or an object is in the place of a list, or a text in the place of a descriptor: neither is
noticed -/
inductive Mistaken : Json → Prop
  | text (s : String) : Mistaken (.text s)
  | object (ms : List (String × Json)) : Mistaken (.object ms)
  | named {items : List Json} {s : String} (hs : .text s ∈ items) : Mistaken (.list items)

/-- something is in the place of a descriptor that is neither an object nor a text -/
inductive Stray : Json → Prop
  | intro {items : List Json} {x : Json} (hx : x ∈ items) (hobject : ∀ ms, x ≠ .object ms)
      (htext : ∀ s, x ≠ .text s) : Stray (.list items)

/-- **What types are read from is a list of descriptors**, or it is mistaken for one somewhere. -/
theorem mistaken_or_described {v : Json} {ss : List String} (h : elementTexts v = .ok ss) :
    Within Mistaken v ∨ Described v := by
  induction v using induction_on_tuples generalizing ss with
  | step v ih =>
    cases v with
    | text s => exact .inl (.here (.text s))
    | object ms => exact .inl (.here (.object ms))
    | list items =>
      rw [elementTexts, typeTexts_eq_mapM] at h
      by_cases hall : ∀ x ∈ items, Descriptor x
      · exact .inr ⟨items, rfl, hall⟩
      · obtain ⟨x, hx⟩ := not_forall.mp hall
        obtain ⟨hx, hno⟩ := Classical.not_imp.mp hx
        obtain ⟨s, hs⟩ := exists_of_mapM_eq_ok h x hx
        left
        cases x with
        | text s => exact .here (.named hx)
        | object ms =>
          rcases typeText_object_cases ms with ⟨s, hs, hp, _⟩ | ⟨w, rest, hw, heq⟩ | ⟨c, hc⟩
          · exact absurd (.plain hs hp) hno
          · rw [heq] at hs
            obtain ⟨parts, hparts, _⟩ := exists_of_map_eq_ok hs
            rcases ih items _ w rfl hx hw hparts with hin | ⟨ws, rfl, hws⟩
            · exact .inside hx hw hin
            · exact absurd (.tuple hw hws) hno
          · rw [hc] at hs
            cases hs
        | _ => cases hs
    | _ => cases h

/-- types that cannot be read are reported as malformed inputs, unless something stray is within -/
theorem stray_of_elementTexts {v : Json} {f : Fault} (h : elementTexts v = .error f) :
    (∃ c, f = .inputs c) ∨ f = .notDescriptor ∧ Within Stray v := by
  induction v using induction_on_tuples generalizing f with
  | step v ih =>
    cases v with
    | text s => cases h
    | object ms => cases h
    | list items =>
      rw [elementTexts, typeTexts_eq_mapM] at h
      obtain ⟨x, hx, hf⟩ := exists_of_mapM_eq_error h
      cases x with
      | text s => cases hf
      | object ms =>
        rcases typeText_object_cases ms with ⟨s, _, _, hs⟩ | ⟨w, rest, hw, heq⟩ | ⟨c, hc⟩
        · rw [hs] at hf
          cases hf
        · rw [heq] at hf
          rcases ih items _ w rfl hx hw (eq_error_of_map_eq_error hf) with hc | ⟨rfl, hin⟩
          · exact .inl hc
          · exact .inr ⟨rfl, .inside hx hw hin⟩
        · rw [hc] at hf
          exact .inl ⟨c, (Except.error.inj hf).symm⟩
      | _ =>
        cases hf
        exact .inr ⟨rfl, .here (.intro hx (fun _ => Json.noConfusion) (fun _ => Json.noConfusion))⟩
    | _ =>
      cases h
      exact .inl ⟨_, rfl⟩

end CodeMatch.Constructor
