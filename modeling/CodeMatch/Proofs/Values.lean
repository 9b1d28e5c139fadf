import CodeMatch.Proofs.Address
import CodeMatch.Proofs.Dict
import CodeMatch.Proofs.Differences
import Mathlib

/-!
# The values of a match sum up its transformations

The values of a match are filled in on the way through the transformations, and the first value of an
identifier stays.  The transformations stand in order, so it is the one that begins first in the code.

* `gathered k f ts`        the values of the transformations with the reason `k`, as `f` writes them;
* `valuesOf_eq`            the values of a match are gathered reason by reason;
* `Lowest b c rs k id r`   of the regions with this reason and identifier in which `b` and `c` differ, `r`
                           begins first;
* `Shows n v s`            the text `s` stands for a library's value `v` of `n` bytes;
* `SumsUp b c rs m`        the values of the match `m` are those of the lowest regions;
* `values_sum_up`          and so they are in all three ways to match.
-/

namespace CodeMatch

namespace Comparison

open Region (record InOrder WellFormed ordered)

/-! ## the first value of each identifier -/

section
variable {α : Type} (k : Reason) (f : Bytes → α)

/-- the values of the transformations with the reason `k`, the first one of an identifier -/
def gathered (ts : List Transformation) : Dict α :=
  (ts.filter fun t => t.reason = k).foldl (fun d t => d.insertIfNew t.id (f t.value)) ∅

theorem gathered_append_singleton (ts : List Transformation) (t : Transformation) :
    gathered k f (ts ++ [t]) =
      if t.reason = k then (gathered k f ts).insertIfNew t.id (f t.value) else gathered k f ts := by
  unfold gathered
  rw [List.filter_append, List.foldl_append]
  by_cases h : t.reason = k
  · rw [if_pos h, List.filter_cons_of_pos (by simpa using h)]
    rfl
  · rw [if_neg h, List.filter_cons_of_neg (by simpa using h)]
    rfl

theorem get?_foldl_insertIfNew (ts : List Transformation) (d : Dict α) (id : String) :
    (ts.foldl (fun d t => d.insertIfNew t.id (f t.value)) d).get? id =
      (d.get? id).or ((ts.find? fun t => t.id = id).map fun t => f t.value) := by
  induction ts generalizing d with
  | nil => simp
  | cons t ts ih =>
    rw [List.foldl_cons, ih, List.find?_cons]
    by_cases h : t.id = id
    · subst h
      rw [Dict.get?_insertIfNew_self]
      cases d.get? t.id <;> simp
    · rw [Dict.get?_insertIfNew_of_ne d (Ne.symm h), decide_eq_false h]

theorem get?_gathered (ts : List Transformation) (id : String) :
    (gathered k f ts).get? id =
      (ts.find? fun t => t.reason = k ∧ t.id = id).map fun t => f t.value := by
  have hempty : (∅ : Dict α).get? id = none := rfl
  unfold gathered
  rw [get?_foldl_insertIfNew, List.find?_filter, hempty, Option.none_or]
  simp only [Bool.decide_and, Bool.decide_eq_true]

theorem mem_keys_gathered_iff {ts : List Transformation} {id : String} :
    id ∈ (gathered k f ts).keys ↔ ∃ t ∈ ts, t.reason = k ∧ t.id = id := by
  rw [Dict.mem_keys_iff, get?_gathered, Option.isSome_map, List.find?_isSome]
  simp only [decide_eq_true_eq]

end

theorem valuesOf_eq (ts : List Transformation) :
    valuesOf ts =
      { immutables := gathered .immutable id ts
        libraries := gathered .library libraryText ts
        auxdata := gathered .auxdata id ts } := by
  induction ts using List.reverseRecOn with
  | nil => rfl
  | append_singleton ts t ih =>
    rw [valuesOf_append_singleton, ih, gathered_append_singleton, gathered_append_singleton,
      gathered_append_singleton]
    unfold addValue
    cases t.reason <;> rfl

theorem values_of_compare {b c : Bytes} {rs : List Region} {m : Match}
    (h : compare b c rs = some m) : m.values = valuesOf m.transformations := by
  rcases compare_eq_some_iff.mp h with ⟨-, rfl⟩ | ⟨-, -, rfl⟩
  · rfl
  · rfl

/-! ## the lowest region of an identifier -/

/-- of the regions with the reason `k` and the identifier `id` in which `b` and `c` differ, `r` begins
first -/
structure Lowest (b c : Bytes) (rs : List Region) (k : Reason) (id : String) (r : Region) : Prop where
  mem : r ∈ rs
  reason_eq : r.reason = k
  id_eq : r.id = id
  differs : r.window b ≠ r.window c
  le : ∀ s ∈ rs, s.reason = k → s.id = id → s.window b ≠ s.window c → r.range.offset ≤ s.range.offset

variable {b c : Bytes} {rs : List Region}

theorem lowest_perm {ss : List Region} (h : rs.Perm ss) {k : Reason} {id : String} {r : Region} :
    Lowest b c rs k id r ↔ Lowest b c ss k id r := by
  constructor
  · intro hr
    exact ⟨h.mem_iff.mp hr.mem, hr.reason_eq, hr.id_eq, hr.differs,
      fun s hs => hr.le s (h.mem_iff.mpr hs)⟩
  · intro hr
    exact ⟨h.mem_iff.mpr hr.mem, hr.reason_eq, hr.id_eq, hr.differs,
      fun s hs => hr.le s (h.mem_iff.mp hs)⟩

/-- the first of the transformations in order is the lowest -/
theorem find?_eq_some_iff_lowest {ts : List Transformation} {p : Transformation → Bool}
    {t : Transformation} (h : ts.Pairwise fun s t => s.offset < t.offset) :
    ts.find? p = some t ↔ t ∈ ts ∧ p t ∧ ∀ s ∈ ts, p s → t.offset ≤ s.offset := by
  induction ts with
  | nil => simp
  | cons x ts ih =>
    obtain ⟨hx, hts⟩ := List.pairwise_cons.mp h
    rw [List.find?_cons]
    cases hp : p x with
    | true =>
      simp only [Option.some.injEq, List.mem_cons, forall_eq_or_imp, hp]
      constructor
      · rintro rfl
        exact ⟨.inl rfl, hp, fun _ => le_rfl, fun s hs _ => (hx s hs).le⟩
      · rintro ⟨rfl | ht, -, hle, -⟩
        · rfl
        · exact absurd (hx t ht) (not_lt.mpr (hle trivial))
    | false =>
      simp only [ih hts, List.mem_cons, forall_eq_or_imp, hp]
      constructor
      · rintro ⟨ht, hpt, hle⟩
        exact ⟨.inr ht, hpt, nofun, hle⟩
      · rintro ⟨rfl | ht, hpt, -, hle⟩
        · rw [hp] at hpt
          cases hpt
        · exact ⟨ht, hpt, hle⟩

theorem find?_recordAll_iff (h : InOrder rs) {k : Reason} {id : String} {t : Transformation} :
    (recordAll b c rs).find? (fun t => t.reason = k ∧ t.id = id) = some t ↔
      ∃ r, Lowest b c rs k id r ∧ t = record b r := by
  rw [find?_eq_some_iff_lowest (pairwise_offset_lt_recordAll h), mem_recordAll_iff]
  simp only [decide_eq_true_eq]
  constructor
  · rintro ⟨⟨r, hr, hd, rfl⟩, ⟨hk, hid⟩, hle⟩
    refine ⟨r, ⟨hr, hk, hid, hd, fun s hs hsk hsid hsd => ?_⟩, rfl⟩
    exact Int.ofNat_le.mp (hle (record b s) (mem_recordAll_iff.mpr ⟨s, hs, hsd, rfl⟩) ⟨hsk, hsid⟩)
  · rintro ⟨r, hr, rfl⟩
    refine ⟨⟨r, hr.mem, hr.differs, rfl⟩, ⟨hr.reason_eq, hr.id_eq⟩, ?_⟩
    rintro s hs ⟨hsk, hsid⟩
    obtain ⟨q, hq, hqd, rfl⟩ := mem_recordAll_iff.mp hs
    exact Int.ofNat_le.mpr (hr.le q hq hsk hsid hqd)

theorem get?_gathered_recordAll_iff {α : Type} {n : Nat} (hw : WellFormed n rs) {k : Reason}
    {f : Bytes → α} {id : String} {x : α} :
    (gathered k f (recordAll b c (ordered rs))).get? id = some x ↔
      ∃ r, Lowest b c rs k id r ∧ x = f (r.window b) := by
  rw [get?_gathered, Option.map_eq_some_iff]
  simp only [find?_recordAll_iff hw.inOrder, lowest_perm (Region.ordered_perm rs)]
  constructor
  · rintro ⟨t, ⟨r, hr, rfl⟩, rfl⟩
    exact ⟨r, hr, rfl⟩
  · rintro ⟨r, hr, rfl⟩
    exact ⟨record b r, ⟨r, hr, rfl⟩, rfl⟩

/-! ## libraries -/

/-- a text for a library's value of `n` bytes: an address in checksum casing, or else plain lower-case
digits -/
def Shows (n : Nat) (v : Bytes) (s : String) : Prop :=
  Hex.decode s = .ok v ∧ if n = Address.width then Address.InCasing v s else s = Hex.encode v

theorem shows_iff {n : Nat} {v : Bytes} (hv : v.length = n) {s : String} :
    Shows n v s ↔ s = libraryText v := by
  subst hv
  unfold Shows libraryText
  by_cases h : v.length = Address.width
  · have hle : v.length ≤ 32 := by
      rw [h]
      decide
    rw [if_pos h, if_pos h, Address.inCasing_iff hle]
    constructor
    · exact And.right
    · rintro rfl
      exact ⟨Address.decode_ofBytes hle, rfl⟩
  · rw [if_neg h, if_neg h]
    constructor
    · exact And.right
    · rintro rfl
      exact ⟨Hex.decode_encode v, rfl⟩

/-! ## the values of a match -/

/-- some transformation of the match has this reason and this identifier -/
def Records (m : Match) (k : Reason) (id : String) : Prop :=
  ∃ t ∈ m.transformations, t.reason = k ∧ t.id = id

/-- the values of `m` are what `b` holds in the lowest ranges of `rs` in which it differs from `c` -/
structure SumsUp (b c : Bytes) (rs : List Region) (m : Match) : Prop where
  keys_immutables : ∀ id, id ∈ m.values.immutables.keys ↔ Records m .immutable id
  keys_libraries : ∀ id, id ∈ m.values.libraries.keys ↔ Records m .library id
  keys_auxdata : ∀ id, id ∈ m.values.auxdata.keys ↔ Records m .auxdata id
  immutables : ∀ id v, m.values.immutables.get? id = some v ↔
    ∃ r, Lowest b c rs .immutable id r ∧ v = r.window b
  libraries : ∀ id s, m.values.libraries.get? id = some s ↔
    ∃ r, Lowest b c rs .library id r ∧ Shows r.range.length (r.window b) s
  auxdata : ∀ id v, m.values.auxdata.get? id = some v ↔
    ∃ r, Lowest b c rs .auxdata id r ∧ v = r.window b

theorem sumsUp_of_compare {m : Match} (hle : c.length ≤ b.length) (hw : WellFormed c.length rs)
    (h : compare (b.take c.length) c (ordered rs) = some m) : SumsUp b c rs m := by
  have hin : ∀ r ∈ ordered rs, r.range.stop ≤ c.length := fun r hr => hw.stop_le_of_mem_ordered hr
  have hts : m.transformations = recordAll b c (ordered rs) := by
    rw [transformations_of_compare h, recordAll_take hin]
  have hvalues := (values_of_compare h).trans (valuesOf_eq _)
  have himmutables := congrArg MatchValues.immutables hvalues
  have hlibraries := congrArg MatchValues.libraries hvalues
  have hauxdata := congrArg MatchValues.auxdata hvalues
  refine ⟨fun id => ?_, fun id => ?_, fun id => ?_, fun id v => ?_, fun id s => ?_, fun id v => ?_⟩
  · rw [himmutables]
    exact mem_keys_gathered_iff _ _
  · rw [hlibraries]
    exact mem_keys_gathered_iff _ _
  · rw [hauxdata]
    exact mem_keys_gathered_iff _ _
  · rw [himmutables, hts]
    exact get?_gathered_recordAll_iff hw
  · rw [hlibraries, hts]
    refine (get?_gathered_recordAll_iff hw).trans (exists_congr fun r => and_congr_right fun hr => ?_)
    exact (shows_iff (Region.length_window (le_trans (hw.1 r hr.mem) hle))).symm
  · rw [hauxdata, hts]
    exact get?_gathered_recordAll_iff hw

end Comparison

namespace Matching

open Comparison

theorem law_sumsUp : Law SumsUp where
  found := sumsUp_of_compare
  recorded := by
    intro b c rs m arguments h
    cases arguments with
    | nil => exact h
    | cons x l =>
      exact ⟨h.keys_immutables, h.keys_libraries, h.keys_auxdata, h.immutables, h.libraries,
        h.auxdata⟩

/-- **The values of a match sum up its transformations.**  Under each reason there is a value for exactly
the identifiers that were recorded with this reason, and it is what the code on chain holds in the lowest
range that differs; a library's value is written in checksum casing if it is an address, and in plain digits
otherwise.  For a blueprint the code on chain is the code in it. -/
theorem values_sum_up (b c : Bytes) (m : Match) :
    (∀ a, (runtime b c a).value = .ok (some m) → SumsUp b c (Region.ofRuntime a) m) ∧
    (∀ a i, (creation b c a i).value = .ok (some m) → SumsUp b c (Region.ofCreation a) m) ∧
    ∀ a, (blueprint b c a).value = .ok (some m) →
      ∃ p, Blueprint.parse b = .ok p ∧ SumsUp p.initcode c (Region.ofCreation a) m := by
  refine ⟨?_, ?_, ?_⟩
  · intro a h
    exact law_sumsUp.runtime h
  · intro a i h
    exact law_sumsUp.creation h
  · intro a h
    exact law_sumsUp.blueprint h

/-- one identifier under all three reasons, an immutable value in two differing ranges of which the second
begins first, and an address of a library; in creation code and in a blueprint a library of two bytes -/
theorem values_sum_up_shared :
    let address : Bytes := List.replicate 20 0xAB
    let b : Bytes := [0x60, 9, 8, 0x57] ++ address ++ [0xA2]
    let d : Bytes := [0x60, 0, 0, 0x57] ++ Bytes.zeros 20 ++ [0xA1]
    let r : RuntimeArtifacts :=
      { immutableReferences := .ofList [("7", [⟨2, 1⟩, ⟨0, 1⟩, ⟨1, 1⟩])],
        linkReferences := .ofList [("7", [⟨4, 20⟩])], cborAuxdata := .ofList [("7", ⟨24, 1⟩)] }
    let a : CreationArtifacts := { linkReferences := .ofList [("a.sol:L", [⟨1, 2⟩])] }
    (∃ m, (runtime b d r).value = .ok (some m) ∧ m.isFull = false ∧
      m.values.immutables.get? "7" = some [9] ∧ m.values.auxdata.get? "7" = some [0xA2] ∧
      ∃ s, m.values.libraries.get? "7" = some s ∧ Hex.decode s = .ok address ∧
        Address.InCasing address s) ∧
    (∃ m, (creation [0x73, 1, 0xFF] [0x73, 0, 0] a none).value = .ok (some m) ∧
      m.values.libraries.get? "a.sol:L" = some "0x01ff") ∧
    ∃ m, (blueprint [0xFE, 0x71, 1, 1, 8, 0x73, 1, 0xFF] [0x73, 0, 0] a).value = .ok (some m) ∧
      m.values.libraries.get? "a.sol:L" = some "0x01ff" := by
  intro address b d r a
  have hr : (runtime b d r).value = .ok (some ⟨.part, _, _⟩) := runtime_eq_some_iff.mpr
    ⟨by decide, by decide, compare_eq_some_iff.mpr (.inr ⟨by decide, by cbv, rfl⟩)⟩
  have hc : ∃ m, (creation [0x73, 1, 0xFF] [0x73, 0, 0] a none).value = .ok (some m) :=
    ⟨_, by cbv⟩
  have hb : ∃ m, (blueprint [0xFE, 0x71, 1, 1, 8, 0x73, 1, 0xFF] [0x73, 0, 0] a).value =
      .ok (some m) := ⟨_, by cbv⟩
  obtain ⟨m', hm'⟩ := hc
  obtain ⟨m'', hm''⟩ := hb
  have hsum := (values_sum_up b d _).1 r hr
  have hsum' := (values_sum_up _ _ m').2.1 a none hm'
  obtain ⟨p, hparse, hsum''⟩ := (values_sum_up _ _ m'').2.2 a hm''
  cases hparse
  have himmutable : Lowest b d (Region.ofRuntime r) .immutable "7" ⟨.immutable, "7", ⟨1, 1⟩⟩ :=
    ⟨by decide, rfl, rfl, by decide, by decide⟩
  have haddress : Lowest b d (Region.ofRuntime r) .library "7" ⟨.library, "7", ⟨4, 20⟩⟩ :=
    ⟨by decide, rfl, rfl, by decide, by decide⟩
  have hauxdata : Lowest b d (Region.ofRuntime r) .auxdata "7" ⟨.auxdata, "7", ⟨24, 1⟩⟩ :=
    ⟨by decide, rfl, rfl, by decide, by decide⟩
  have hlibrary : Lowest [0x73, 1, 0xFF] [0x73, 0, 0] (Region.ofCreation a) .library "a.sol:L"
      ⟨.library, "a.sol:L", ⟨1, 2⟩⟩ := ⟨by decide, rfl, rfl, by decide, by decide⟩
  have hshows : Shows 20 address (libraryText address) := (shows_iff rfl).mpr rfl
  have htext : Shows 2 [1, 0xFF] "0x01ff" := (shows_iff rfl).mpr (by cbv)
  exact ⟨⟨_, hr, rfl, (hsum.immutables _ _).mpr ⟨_, himmutable, rfl⟩,
      (hsum.auxdata _ _).mpr ⟨_, hauxdata, rfl⟩,
      _, (hsum.libraries _ _).mpr ⟨_, haddress, hshows⟩, hshows⟩,
    ⟨m', hm', (hsum'.libraries _ _).mpr ⟨_, hlibrary, htext⟩⟩,
    ⟨m'', hm'', (hsum''.libraries _ _).mpr ⟨_, hlibrary, htext⟩⟩⟩

end Matching

end CodeMatch
