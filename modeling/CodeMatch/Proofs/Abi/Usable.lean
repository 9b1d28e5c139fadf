import CodeMatch.Abi.Codec
import CodeMatch.Abi.Name
import CodeMatch.Proofs.Success

/-!
# Types that names stand for

Not every type has a name: words have at most 32 bytes, arrays of a size have elements and tuples have
parts.  Decoding undoes encoding for such types only.

* `Word.Usable`, `Ty.Usable`     types that a name may stand for;
* `TypeName.Proper`              names without empty tuples and without arrays of size zero;
* `TypeName.proper_of_parse`     reading a text gives such names only;
* `TypeName.usable_of_tyOf`      so every type that a text stands for is usable.
-/

namespace CodeMatch.Abi

def Word.Usable : Word → Prop
  | .uint size => size ≤ wordSize
  | .int size => size ≤ wordSize
  | .bool => True
  | .bytes size => size ≤ wordSize

mutual

def Ty.Usable : Ty → Prop
  | .word w => w.Usable
  | .bytes => True
  | .text => True
  | .array e size => e.Usable ∧ size ≠ some 0
  | .tuple ts => ts ≠ [] ∧ Ty.AllUsable ts

def Ty.AllUsable : List Ty → Prop
  | [] => True
  | t :: ts => t.Usable ∧ Ty.AllUsable ts

end

theorem Ty.allUsable_iff {ts : List Ty} : Ty.AllUsable ts ↔ ∀ t ∈ ts, t.Usable := by
  induction ts with
  | nil => simp [Ty.AllUsable]
  | cons t ts ih => simp [Ty.AllUsable, ih]

namespace TypeName

mutual

/-- no dimension is zero and every tuple has parts -/
def Proper : TypeName → Prop
  | .basic _ _ dims => some 0 ∉ dims
  | .tuple parts dims => parts ≠ [] ∧ AllProper parts ∧ some 0 ∉ dims

def AllProper : List TypeName → Prop
  | [] => True
  | t :: ts => t.Proper ∧ AllProper ts

end

/-! ## reading -/

/-- a number grows as its digits are read -/
theorem le_continue? {d : Char → Option Nat} {s : List Char} {k n : Nat}
    (h : Text.continue? d k s = some n) : k ≤ n := by
  induction s generalizing k with
  | nil =>
    cases h
    exact Nat.le_refl _
  | cons c s ih =>
    rw [Text.continue?] at h
    split at h
    · have hle := ih h
      omega
    · cases h

theorem ascii?_pos {c : Char} {k : Nat} (h : Text.ascii? c = some k) (hc : c ≠ '0') : 0 < k := by
  unfold Text.ascii? at h
  split at h
  case isTrue hr =>
    cases h
    have hle : '0'.toNat ≤ c.toNat := hr.1
    have hne : c.toNat ≠ '0'.toNat := fun heq => hc (Char.toNat_inj.mp heq)
    have h0 : '0'.toNat = 48 := rfl
    omega
  case isFalse => cases h

/-- no size is zero, because none begins with the digit zero -/
theorem size?_pos {s r : List Char} {n : Nat} (h : size? s = some (n, r)) : 0 < n := by
  cases s with
  | nil => cases h
  | cons c s =>
    rw [size?] at h
    split at h
    case isTrue => cases h
    case isFalse hc =>
      obtain ⟨k, hk, hkn⟩ := Option.map_eq_some_iff.mp h
      cases hkn
      unfold Text.value? at hk
      split at hk
      case isTrue => cases hk
      case isFalse hne =>
        by_cases hd : Text.isAsciiDigit c
        · rw [List.takeWhile_cons_of_pos hd, Text.continue?] at hk
          split at hk
          case h_1 k' hk' =>
            have hpos := ascii?_pos hk' hc
            have hle := le_continue? hk
            omega
          case h_2 => cases hk
        · rw [List.takeWhile_cons_of_neg hd] at hne
          exact absurd rfl hne

theorem zero_notMem_readDims (n : Nat) (s : List Char) : some 0 ∉ (readDims n s).1 := by
  induction n generalizing s with
  | zero => exact List.not_mem_nil
  | succ n ih =>
    cases s with
    | nil => exact List.not_mem_nil
    | cons c s =>
      unfold readDims
      split
      case isFalse => exact List.not_mem_nil
      case isTrue hc =>
        split
        case h_1 r => exact List.not_mem_cons_of_ne_of_not_mem (Option.some_ne_none 0) (ih r)
        case h_2 =>
          split
          case h_1 k r hk =>
            have hpos := size?_pos hk
            refine List.not_mem_cons_of_ne_of_not_mem (fun h => ?_) (ih r)
            have hk0 := Option.some.inj h
            omega
          case h_2 => exact List.not_mem_nil

theorem proper_readBasic {s r : List Char} {t : TypeName} (h : readBasic s = some (t, r)) :
    t.Proper := by
  unfold readBasic at h
  dsimp only at h
  split at h
  case isTrue => cases h
  case isFalse =>
    cases h
    exact zero_notMem_readDims _ _

/-- a tuple is closed behind a part only -/
theorem proper_readParts {p : List Char → Option (TypeName × List Char)}
    (hp : ∀ s t r, p s = some (t, r) → t.Proper) {n : Nat} {s r : List Char} {ts : List TypeName}
    (h : readParts p n s = some (ts, r)) : ts ≠ [] ∧ AllProper ts := by
  induction n generalizing s r ts with
  | zero => cases h
  | succ n ih =>
    unfold readParts at h
    split at h
    case h_1 t r' ht =>
      obtain ⟨⟨us, q⟩, hu, heq⟩ := Option.map_eq_some_iff.mp h
      cases heq
      exact ⟨List.cons_ne_nil _ _, hp _ _ _ ht, (ih hu).2⟩
    case h_2 t r' ht =>
      cases h
      exact ⟨List.cons_ne_nil _ _, hp _ _ _ ht, trivial⟩
    case h_3 => cases h

theorem proper_read {n : Nat} {s r : List Char} {t : TypeName} (h : read n s = some (t, r)) :
    t.Proper := by
  induction n generalizing s r t with
  | zero => exact proper_readBasic h
  | succ n ih =>
    unfold read at h
    split at h
    case h_1 s' =>
      obtain ⟨⟨ts, q⟩, hts, heq⟩ := Option.map_eq_some_iff.mp h
      cases heq
      obtain ⟨hne, hall⟩ := proper_readParts (fun s t r => ih) hts
      exact ⟨hne, hall, zero_notMem_readDims _ _⟩
    case h_2 => exact proper_readBasic h

theorem proper_of_parse {s : String} {t : TypeName} (h : parse s = .ok t) : t.Proper := by
  unfold parse at h
  dsimp only at h
  split at h
  case h_1 t' ht =>
    cases hn : hasLongNumeral s.toList with
    | true =>
      rw [hn] at h
      cases h
    | false =>
      rw [hn] at h
      cases h
      exact proper_read ht
  case h_2 => cases h

/-! ## resolving -/

mutual

theorem proper_canonical : (t : TypeName) → t.Proper → t.canonical.Proper
  | .basic _ .none _, h => h
  | .basic _ (.bits _) _, h => h
  | .basic _ (.scaled _ _) _, h => h
  | .tuple parts dims, h => by
    obtain ⟨hne, hall, hd⟩ := h
    refine ⟨?_, allProper_canonicalParts parts hall, hd⟩
    cases parts with
    | nil => exact absurd rfl hne
    | cons t ts => exact List.cons_ne_nil _ _

theorem allProper_canonicalParts : (ts : List TypeName) → AllProper ts → AllProper (canonicalParts ts)
  | [], _ => trivial
  | t :: ts, h => ⟨proper_canonical t h.1, allProper_canonicalParts ts h.2⟩

end

theorem usable_arrays {t : Ty} (ht : t.Usable) {dims : List (Option Nat)} (hd : some 0 ∉ dims) :
    (arrays t dims).Usable := by
  induction dims generalizing t with
  | nil => exact ht
  | cons d dims ih =>
    obtain ⟨h0, hd⟩ := List.ne_and_not_mem_of_not_mem_cons hd
    exact ih (t := .array t d) ⟨ht, h0.symm⟩ hd

theorem le_of_isWidth {n : Nat} (h : isWidth n = true) : n / 8 ≤ wordSize := by
  unfold isWidth at h
  simp only [Bool.and_eq_true, decide_eq_true_eq] at h
  unfold wordSize
  omega

theorem usable_basicTy {base : String} {suffix : Suffix} {t : Ty}
    (h : basicTy base suffix = .ok t) : t.Usable := by
  unfold basicTy at h
  split at h
  case isTrue => cases h
  case isFalse =>
    split at h
    case isTrue => cases h
    case isFalse hok =>
      rw [Bool.not_eq_true, Bool.not_eq_false'] at hok
      split at h
      case h_1 n _ =>
        cases h
        have hn : isWidth n = true := by simpa [allowed] using hok
        exact le_of_isWidth hn
      case h_2 n _ =>
        cases h
        have hn : isWidth n = true := by simpa [allowed] using hok
        exact le_of_isWidth hn
      case h_3 n places _ =>
        cases h
        have hn : (isWidth n = true ∧ 1 ≤ places) ∧ places ≤ 80 := by simpa [allowed] using hok
        exact le_of_isWidth hn.1.1
      case h_4 n places _ =>
        cases h
        have hn : (isWidth n = true ∧ 1 ≤ places) ∧ places ≤ 80 := by simpa [allowed] using hok
        exact le_of_isWidth hn.1.1
      case h_5 =>
        cases h
        exact show 20 ≤ wordSize by decide
      case h_6 =>
        cases h
        exact trivial
      case h_7 n _ =>
        cases h
        have hn : n ≤ 32 := by simpa [allowed] using hok
        exact hn
      case h_8 =>
        cases h
        exact trivial
      case h_9 =>
        cases h
        exact trivial
      case h_10 => cases h

theorem buildParts_cons_eq_ok {t : TypeName} {ts : List TypeName} {tys : List Ty}
    (h : buildParts (t :: ts) = .ok tys) :
    ∃ u us, build t = .ok u ∧ buildParts ts = .ok us ∧ tys = u :: us := by
  rw [buildParts] at h
  obtain ⟨u, hu, h⟩ := exists_of_bind_eq_ok h
  obtain ⟨us, hus, h⟩ := exists_of_bind_eq_ok h
  exact ⟨u, us, hu, hus, (Except.ok.inj h).symm⟩

theorem length_buildParts {ts : List TypeName} {tys : List Ty} (h : buildParts ts = .ok tys) :
    tys.length = ts.length := by
  induction ts generalizing tys with
  | nil =>
    cases h
    rfl
  | cons t ts ih =>
    obtain ⟨u, us, _, hus, rfl⟩ := buildParts_cons_eq_ok h
    exact congrArg (· + 1) (ih hus)

mutual

theorem usable_build : (t : TypeName) → t.Proper → ∀ {ty : Ty}, build t = .ok ty → ty.Usable
  | .basic base suffix dims, hp, ty, h => by
    rw [build] at h
    split at h
    case isTrue =>
      obtain ⟨t, ht, rfl⟩ := exists_of_map_eq_ok h
      exact usable_arrays (usable_basicTy ht) hp
    case isFalse => cases h
  | .tuple parts dims, hp, ty, h => by
    obtain ⟨hne, hall, hd⟩ := hp
    rw [build] at h
    obtain ⟨tys, htys, rfl⟩ := exists_of_map_eq_ok h
    have htne : tys ≠ [] := by
      rw [← List.length_pos_iff, length_buildParts htys]
      exact List.length_pos_iff.mpr hne
    have ht : (Ty.tuple tys).Usable := ⟨htne, allUsable_buildParts parts hall htys⟩
    exact usable_arrays ht hd

theorem allUsable_buildParts : (ts : List TypeName) → AllProper ts →
    ∀ {tys : List Ty}, buildParts ts = .ok tys → Ty.AllUsable tys
  | [], _, tys, h => by
    cases h
    trivial
  | t :: ts, hp, tys, h => by
    obtain ⟨u, us, hu, hus, rfl⟩ := buildParts_cons_eq_ok h
    exact ⟨usable_build t hp.1 hu, allUsable_buildParts ts hp.2 hus⟩

end

theorem usable_resolve {t : TypeName} (hp : t.Proper) {ty : Ty} (h : resolve t = .ok ty) :
    ty.Usable := by
  unfold resolve at h
  split at h
  all_goals
    split at h
    case isTrue => exact usable_build _ (proper_canonical _ hp) h
    case isFalse => cases h

/-- **Every type that a text stands for is usable.** -/
theorem usable_of_tyOf {s : String} {ty : Ty} (h : tyOf s = .ok ty) : ty.Usable := by
  obtain ⟨t, ht, h⟩ := exists_of_bind_eq_ok h
  exact usable_resolve (proper_of_parse ht) h

end TypeName

end CodeMatch.Abi
