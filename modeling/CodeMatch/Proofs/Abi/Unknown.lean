import CodeMatch.Abi.Name
import CodeMatch.Proofs.Success
import CodeMatch.Proofs.Text.Numerals
import Mathlib.Data.List.TakeWhile
import Mathlib.Tactic.Common

/-!
# Texts that stand for no type

A text that stands for no type cannot be taken apart, or what has been taken apart is no type.  Three faults
are set apart from the rest, and each has a shape of its own: a tuple without parts, a number with too many
digits, and the base `function` with a size.

* `TypeName.occurs_iff`       one text occurs in another;
* `TypeName.hasLongNumeral_iff`   more digits than a numeral may have occur in a text;
* `TypeName.SizedFunction t`  the base `function` has a size somewhere in the name `t`;
* `TypeName.Misfit t f`       the fault `f` may be what is wrong with the name `t`;
* `TypeName.misfit_of_build`, `TypeName.misfit_of_resolve`   there is nothing else wrong with a name;
* `TypeName.Refusal s f`, `TypeName.refusal_of_tyOf`         and the same for texts;
* `TypeName.tyOf_eq_longNumber`   a base with too long a number.
-/

namespace CodeMatch.Abi.TypeName

theorem occurs_iff {w s : List Char} : occurs w s = true ↔ w <:+: s := by
  induction s with
  | nil => simp [occurs]
  | cons c s ih => rw [occurs, Bool.or_eq_true, List.isPrefixOf_iff_prefix, ih, List.infix_cons_iff]

theorem hasLongNumeral_iff {s : List Char} :
    hasLongNumeral s = true ↔
      ∃ w, w <:+: s ∧ (∀ c ∈ w, Text.isAsciiDigit c = true) ∧ Text.longestNumeral < w.length := by
  induction s with
  | nil =>
    constructor
    · intro h
      cases h
    · rintro ⟨w, hw, -, hlen⟩
      rw [List.infix_nil.mp hw] at hlen
      cases hlen
  | cons c s ih =>
    rw [hasLongNumeral, Bool.or_eq_true, decide_eq_true_eq, ih]
    constructor
    · rintro (hlen | ⟨w, hw, hdigits, hlen⟩)
      · exact ⟨_, (List.takeWhile_prefix _).isInfix, fun _ => List.mem_takeWhile_imp, hlen⟩
      · exact ⟨w, hw.trans (List.suffix_cons c s).isInfix, hdigits, hlen⟩
    · rintro ⟨w, hw, hdigits, hlen⟩
      rcases List.infix_cons_iff.mp hw with ⟨rest, hrest⟩ | hw
      · -- the digits at the front are at least those of `w`
        left
        rw [← hrest, List.takeWhile_append_of_pos hdigits, List.length_append]
        omega
      · exact .inr ⟨w, hw, hdigits, hlen⟩

/-! ## names -/

/-- the base `function` is written with a size, in the name itself or in a part of it -/
inductive SizedFunction : TypeName → Prop
  | basic {suffix : Suffix} {dims : List (Option Nat)} (h : suffix ≠ .none) :
      SizedFunction (.basic "function" suffix dims)
  | tuple {t : TypeName} {parts : List TypeName} {dims : List (Option Nat)} (ht : t ∈ parts)
      (h : SizedFunction t) : SizedFunction (.tuple parts dims)

/-- what may be wrong with a name -/
inductive Misfit (t : TypeName) : NameFault → Prop
  | badSize : Misfit t .badSize
  | unknown : Misfit t .unknown
  | fixedBase {name : String} (h : t.SizedFunction) : Misfit t (.fixedBase name)

theorem Misfit.tuple {t : TypeName} {parts : List TypeName} {dims : List (Option Nat)} {f : NameFault}
    (ht : t ∈ parts) (h : Misfit t f) : Misfit (.tuple parts dims) f := by
  cases h with
  | badSize => exact .badSize
  | unknown => exact .unknown
  | fixedBase h => exact .fixedBase (.tuple ht h)

theorem basicTy_eq_error {base : String} {suffix : Suffix} {f : NameFault}
    (h : basicTy base suffix = .error f) :
    f = .badSize ∨ f = .unknown ∨ (∃ name, f = .fixedBase name) ∧ base = "function" := by
  unfold basicTy at h
  split at h
  case isTrue hb =>
    cases h
    exact .inr (.inr ⟨⟨_, rfl⟩, hb⟩)
  case isFalse =>
    split at h
    case isTrue =>
      cases h
      exact .inl rfl
    case isFalse =>
      split at h
      case h_10 =>
        cases h
        exact .inr (.inl rfl)
      all_goals cases h

theorem build_basic_eq_error {base : String} {suffix : Suffix} {dims : List (Option Nat)}
    {f : NameFault} (h : build (.basic base suffix dims) = .error f) :
    f = .badSize ∨ f = .unknown ∨ (∃ name, f = .fixedBase name) ∧ base = "function" := by
  rw [build] at h
  split at h
  case isTrue => exact basicTy_eq_error (eq_error_of_map_eq_error h)
  case isFalse =>
    cases h
    exact .inr (.inl rfl)

theorem misfit_of_build_basic {base : String} {suffix : Suffix} {dims : List (Option Nat)}
    {f : NameFault} (hs : suffix ≠ .none) (h : build (.basic base suffix dims) = .error f) :
    Misfit (.basic base suffix dims) f := by
  rcases build_basic_eq_error h with rfl | rfl | ⟨⟨name, rfl⟩, rfl⟩
  · exact .badSize
  · exact .unknown
  · exact .fixedBase (.basic hs)

/-- without a size, the base `function` is another name for a byte string -/
theorem spelledOut_ne_function (base : String) : (spelledOut base).1 ≠ "function" := by
  unfold spelledOut
  split_ifs with h1 h2 h3 h4 h5 h6
  case neg => exact h5
  all_goals decide

mutual

theorem misfit_of_build : (t : TypeName) → ∀ {f : NameFault}, build (canonical t) = .error f → Misfit t f
  | .basic base .none dims, f, h => by
    rcases build_basic_eq_error h with rfl | rfl | ⟨_, hb⟩
    · exact .badSize
    · exact .unknown
    · exact absurd hb (spelledOut_ne_function base)
  | .basic _ (.bits _) _, _, h => misfit_of_build_basic Suffix.noConfusion h
  | .basic _ (.scaled _ _) _, _, h => misfit_of_build_basic Suffix.noConfusion h
  | .tuple parts dims, f, h => by
    rw [canonical, build] at h
    obtain ⟨t, ht, hf⟩ := misfit_of_buildParts parts (eq_error_of_map_eq_error h)
    exact hf.tuple ht

theorem misfit_of_buildParts : (ts : List TypeName) → ∀ {f : NameFault},
    buildParts (canonicalParts ts) = .error f → ∃ t ∈ ts, Misfit t f
  | [], f, h => by cases h
  | t :: ts, f, h => by
    rw [canonicalParts, buildParts] at h
    rcases eq_error_of_bind_eq_error h with h | ⟨u, _, h⟩
    · exact ⟨t, List.mem_cons_self, misfit_of_build t h⟩
    · rcases eq_error_of_bind_eq_error h with h | ⟨us, _, h⟩
      · obtain ⟨t', ht', hf⟩ := misfit_of_buildParts ts h
        exact ⟨t', List.mem_cons_of_mem t ht', hf⟩
      · cases h

end

theorem misfit_of_resolve {t : TypeName} {f : NameFault} (h : resolve t = .error f) : Misfit t f := by
  unfold resolve at h
  split at h
  all_goals split at h
  case h_1.isTrue => exact misfit_of_build _ h
  case h_1.isFalse =>
    cases h
    exact .unknown
  case h_2.isTrue => exact misfit_of_build _ h
  case h_2.isFalse =>
    cases h
    exact .badSize

/-! ## texts -/

/-- what may be wrong with a text -/
inductive Refusal (s : String) : NameFault → Prop
  | unreadable : Refusal s .unreadable
  | badSize : Refusal s .badSize
  | unknown : Refusal s .unknown
  | emptyTuple (h : ['(', ')'] <:+: s.toList) : Refusal s .emptyTuple
  | longNumber {w : List Char} (hw : w <:+: s.toList) (hdigits : ∀ c ∈ w, Text.isAsciiDigit c = true)
      (hlen : Text.longestNumeral < w.length) : Refusal s .longNumber
  | fixedBase {t : TypeName} {name : String} (ht : parse s = .ok t) (h : t.SizedFunction) :
      Refusal s (.fixedBase name)

theorem refusal_of_parse {s : String} {f : NameFault} (h : parse s = .error f) : Refusal s f := by
  unfold parse at h
  dsimp only at h
  split at h
  case h_1 =>
    cases hn : hasLongNumeral s.toList with
    | true =>
      rw [hn] at h
      cases h
      obtain ⟨w, hw, hdigits, hlen⟩ := hasLongNumeral_iff.mp hn
      exact .longNumber hw hdigits hlen
    | false =>
      rw [hn] at h
      cases h
  case h_2 =>
    split at h
    case isTrue ho =>
      cases h
      exact .emptyTuple (occurs_iff.mp ho)
    case isFalse =>
      cases h
      exact .unreadable

/-- **There is nothing else wrong with a text that stands for no type.** -/
theorem refusal_of_tyOf {s : String} {f : NameFault} (h : tyOf s = .error f) : Refusal s f := by
  rcases eq_error_of_bind_eq_error h with h | ⟨t, ht, h⟩
  · exact refusal_of_parse h
  · cases misfit_of_resolve h with
    | badSize => exact .badSize
    | unknown => exact .unknown
    | fixedBase hs => exact .fixedBase ht hs

/-! ## numbers that are too long -/

/-- what does not begin with a parenthesis is no tuple -/
theorem read_eq_readBasic (n : Nat) {s : List Char} (h : s.head? ≠ some '(') :
    read n s = readBasic s := by
  cases n with
  | zero => rfl
  | succ n =>
    unfold read
    split
    case h_1 => exact absurd rfl h
    case h_2 => rfl

theorem isAsciiLetter_of_isAsciiDigit {c : Char} (h : Text.isAsciiDigit c = true) :
    Text.isAsciiLetter c = false := by
  obtain ⟨-, hle⟩ := Text.isAsciiDigit_iff.mp h
  have hlower : ¬ 'a' ≤ c := fun ha => absurd (show 97 ≤ c.toNat from ha) (by omega)
  have hupper : ¬ 'A' ≤ c := fun ha => absurd (show 65 ≤ c.toNat from ha) (by omega)
  simp [Text.isAsciiLetter, hlower, hupper]

section
variable {base ds : List Char} (hne : base ≠ []) (hbase : ∀ c ∈ base, Text.isAsciiLetter c = true)
  (hds : ∀ c ∈ ds, Text.isAsciiDigit c = true) (h0 : ds.head? ≠ some '0')
include hds h0

theorem exists_size? (hd : ds ≠ []) : ∃ n, size? ds = some (n, []) := by
  cases ds with
  | nil => exact absurd rfl hd
  | cons c s =>
    have hc : c ≠ '0' := fun hc => h0 (congrArg some hc)
    obtain ⟨n, hn⟩ := Text.exists_value? hd hds
    have hrun := Text.run_append (t := []) hds fun _ h => nomatch h
    rw [List.append_nil] at hrun
    refine ⟨n, ?_⟩
    rw [size?, if_neg hc, hrun.1, hrun.2, hn]
    rfl

include hne hbase

theorem exists_readBasic (hd : ds ≠ []) :
    ∃ n, readBasic (base ++ ds) = some (.basic (String.ofList base) (.bits n) [], []) := by
  obtain ⟨n, hn⟩ := exists_size? hds h0 hd
  obtain ⟨htake, hdrop⟩ := Text.run_append hbase fun c hc =>
    isAsciiLetter_of_isAsciiDigit (hds c (List.mem_of_mem_head? hc))
  have hsuffix : readSuffix ds = (.bits n, []) := by rw [readSuffix, hn]
  refine ⟨n, ?_⟩
  rw [readBasic, htake, hdrop, hsuffix]
  dsimp only
  rw [if_neg (by rwa [List.isEmpty_iff])]
  rfl

/-- a base with too long a number behind it is refused for that number -/
theorem tyOf_eq_longNumber (hlen : Text.longestNumeral < ds.length) :
    tyOf (String.ofList (base ++ ds)) = .error .longNumber := by
  have hd : ds ≠ [] := List.ne_nil_of_length_pos (by omega)
  have hlong : hasLongNumeral (base ++ ds) = true :=
    hasLongNumeral_iff.mpr ⟨ds, (List.suffix_append base ds).isInfix, hds, hlen⟩
  have hhead : (base ++ ds).head? ≠ some '(' := by
    rw [List.head?_append_of_ne_nil base hne]
    intro h
    have hletter := hbase _ (List.mem_of_mem_head? h)
    cases hletter
  obtain ⟨n, hn⟩ := exists_readBasic hne hbase hds h0 hd
  rw [tyOf, parse, String.toList_ofList, read_eq_readBasic _ hhead, hn, hlong]
  rfl

end

end CodeMatch.Abi.TypeName
