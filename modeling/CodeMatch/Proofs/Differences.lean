import CodeMatch.Proofs.Match.Differing
import CodeMatch.Proofs.Matching
import Mathlib

/-!
# A match lists the differences

The transformations of a match are the declared ranges in which the code on chain and the recompiled
code differ: each of them once, in order, and nothing else.

* `mem_recordAll_iff`      what is recorded, by membership;
* `pairwise_recordAll`     the records of ranges in order are in order, with no overlap;
* `Lists b c rs m`         the match `m` lists the differences of `b` and `c` in the ranges `rs`;
* `lists_of_compare`       comparing gives such a match, also for code that is longer than `c`;
* `law_lists`              which is a law of matching, as constructor arguments and preambles stay out of it;
* `match_lists_differences`   and so do all three ways to match.
-/

namespace CodeMatch

namespace Comparison

open Region (differs record InOrder WellFormed ordered)

variable {b d : Bytes} {rs : List Region}

theorem mem_recordAll_iff {t : Transformation} :
    t ∈ recordAll b d rs ↔ ∃ r ∈ rs, r.window b ≠ r.window d ∧ t = record b r := by
  unfold recordAll
  rw [List.mem_map]
  constructor
  · rintro ⟨r, hr, rfl⟩
    obtain ⟨hmem, hd⟩ := List.mem_filter.mp hr
    exact ⟨r, hmem, differs_iff_window_ne.mp hd, rfl⟩
  · rintro ⟨r, hmem, hd, rfl⟩
    exact ⟨r, List.mem_filter.mpr ⟨hmem, differs_iff_window_ne.mpr hd⟩, rfl⟩

theorem length_recordAll (b d : Bytes) (rs : List Region) :
    (recordAll b d rs).length = rs.countP (differs b d) := by
  unfold recordAll
  rw [List.length_map, List.countP_eq_length_filter]

/-- the records of ranges in order begin one strictly after the other -/
theorem pairwise_offset_lt_recordAll (h : InOrder rs) :
    (recordAll b d rs).Pairwise fun s t => s.offset < t.offset := by
  unfold recordAll
  rw [List.pairwise_map]
  exact (pairwise_offset_lt_filter h).imp fun hlt => Int.ofNat_lt.mpr hlt

/-- and each ends before all later ones begin -/
theorem pairwise_recordAll (h : InOrder rs) :
    (recordAll b d rs).Pairwise fun s t => s.offset + s.length ≤ t.offset := by
  unfold recordAll
  rw [List.pairwise_map]
  exact List.Pairwise.imp (fun hle => Int.ofNat_le.mpr hle) (h.filter (differs b d))

theorem nodup_recordAll (h : InOrder rs) : (recordAll b d rs).Nodup := by
  refine (pairwise_offset_lt_recordAll h).imp fun {s t} hlt => ?_
  rintro rfl
  exact lt_irrefl _ hlt

/-- a recorded range is not empty, and its value is what the code on chain holds there -/
theorem record_of_mem {t : Transformation} (hin : ∀ r ∈ rs, r.range.stop ≤ b.length)
    (ht : t ∈ recordAll b d rs) :
    0 < t.length ∧ t.length = t.value.length ∧
      t.value = b.slice t.offset.toNat t.length.toNat := by
  obtain ⟨r, hr, hd, rfl⟩ := mem_recordAll_iff.mp ht
  have hpos := length_pos_of_differs (differs_iff_window_ne.mpr hd)
  exact ⟨Int.ofNat_lt.mpr hpos, Region.length_record (hin r hr), rfl⟩

/-- `m` lists the ranges of `rs` in which the code `b` on chain differs from the recompiled code `c` -/
structure Lists (b c : Bytes) (rs : List Region) (m : Match) : Prop where
  /-- what is listed is a declared range with different bytes, and the bytes on chain -/
  mem_iff : ∀ t, t ∈ m.transformations ↔ ∃ r ∈ rs, r.window b ≠ r.window c ∧
    t = ⟨r.reason, r.id, r.range.offset, r.range.length, r.window b⟩
  /-- each of them once -/
  nodup : m.transformations.Nodup
  length_eq : m.transformations.length = rs.countP fun r => r.window b ≠ r.window c
  increasing : m.transformations.Pairwise fun s t => s.offset < t.offset
  apart : m.transformations.Pairwise fun s t => s.offset + s.length ≤ t.offset
  value_eq : ∀ t ∈ m.transformations, 0 < t.length ∧ t.length = t.value.length ∧
    t.value = b.slice t.offset.toNat t.length.toNat
  isFull_iff : m.isFull ↔ m.transformations = []
  no_values : m.transformations = [] →
    m.values.immutables = ∅ ∧ m.values.libraries = ∅ ∧ m.values.auxdata = ∅

theorem lists_of_compare {c : Bytes} {rs : List Region} {m : Match} (hle : c.length ≤ b.length)
    (hw : WellFormed c.length rs) (h : compare (b.take c.length) c (ordered rs) = some m) :
    Lists b c rs m := by
  have hin : ∀ r ∈ ordered rs, r.range.stop ≤ c.length := fun r hr => hw.stop_le_of_mem_ordered hr
  have hb : ∀ r ∈ ordered rs, r.range.stop ≤ b.length := fun r hr => le_trans (hin r hr) hle
  have hts : m.transformations = recordAll b c (ordered rs) := by
    rw [transformations_of_compare h, recordAll_take hin]
  have hperm := Region.ordered_perm rs
  have hfull := isFull_iff_transformations_eq_nil h
  refine ⟨fun t => ?_, ?_, ?_, ?_, ?_, fun t ht => ?_, hfull, fun hnil => ?_⟩
  · rw [hts, mem_recordAll_iff]
    simp only [hperm.mem_iff]
    rfl
  · rw [hts]
    exact nodup_recordAll hw.inOrder
  · rw [hts, length_recordAll, hperm.countP_eq]
    rfl
  · rw [hts]
    exact pairwise_offset_lt_recordAll hw.inOrder
  · rw [hts]
    exact pairwise_recordAll hw.inOrder
  · rw [hts] at ht
    exact record_of_mem hb ht
  · rw [values_of_isFull h (hfull.mpr hnil)]
    exact ⟨rfl, rfl, rfl⟩

end Comparison

namespace Matching

open Comparison

theorem law_lists : Law Lists where
  found := lists_of_compare
  recorded := by
    intro b c rs m arguments h
    cases arguments with
    | nil => exact h
    | cons x l =>
      exact ⟨h.mem_iff, h.nodup, h.length_eq, h.increasing, h.apart, h.value_eq, h.isFull_iff,
        h.no_values⟩

/-- **A match lists exactly the declared ranges that differ**: each once, in strictly increasing order and
without overlap, with the bytes on chain, which for a blueprint are those of the code in it.  It is full
exactly if the list is empty, and then it holds no values. -/
theorem match_lists_differences (b c : Bytes) (m : Match) :
    (∀ a, (runtime b c a).value = .ok (some m) → Lists b c (Region.ofRuntime a) m) ∧
    (∀ a i, (creation b c a i).value = .ok (some m) → Lists b c (Region.ofCreation a) m) ∧
    ∀ a, (blueprint b c a).value = .ok (some m) →
      ∃ p, Blueprint.parse b = .ok p ∧ Lists p.initcode c (Region.ofCreation a) m := by
  refine ⟨?_, ?_, ?_⟩
  · intro a h
    exact law_lists.runtime h
  · intro a i h
    exact law_lists.creation h
  · intro a h
    exact law_lists.blueprint h

/-- next to the two ranges that differ, an empty one and one that agrees are not listed; creation code with
the argument 5 matches in full; the two bytes behind the code in a blueprint are not listed either -/
theorem match_lists_differences_adjacent :
    let b : Bytes := [0x60, 9, 0, 0x57, 0xA1, 0x64]
    let d : Bytes := [0x60, 0, 0, 0x57, 0xA2, 0x64]
    let r : RuntimeArtifacts :=
      { immutableReferences := .ofList [("7", [⟨3, 1⟩, ⟨3, 0⟩, ⟨1, 2⟩])],
        cborAuxdata := .ofList [("7", ⟨4, 2⟩)] }
    let a : CreationArtifacts := { linkReferences := .ofList [("a.sol:L", [⟨1, 2⟩])] }
    let i : CompilationArtifacts :=
      { abi := some [.ofList [("type", .text "constructor"),
          ("inputs", .list [.object [("name", .text "n"), ("type", .text "uint8")]])]] }
    let code : Bytes := [0x73, 1, 2] ++ Bytes.zeros 31 ++ [5]
    (∃ m, (runtime b d r).value = .ok (some m) ∧ Lists b d (Region.ofRuntime r) m ∧
      m.transformations =
        [⟨.immutable, "7", 1, 2, [9, 0]⟩, ⟨.auxdata, "7", 4, 2, [0xA1, 0x64]⟩]) ∧
    (∃ m, (creation code [0x73, 1, 2] a (some i)).value = .ok (some m) ∧ m.isFull ∧
      Lists code [0x73, 1, 2] (Region.ofCreation a) m) ∧
    ∃ m p, (blueprint [0xFE, 0x71, 1, 1, 8, 0x73, 1, 2, 7, 7] [0x73, 0, 0] a).value =
        .ok (some m) ∧
      Blueprint.parse [0xFE, 0x71, 1, 1, 8, 0x73, 1, 2, 7, 7] = .ok p ∧
      Lists p.initcode [0x73, 0, 0] (Region.ofCreation a) m := by
  intro b d r a i code
  have hr : ∃ m, m.transformations =
      [⟨.immutable, "7", 1, 2, [9, 0]⟩, ⟨.auxdata, "7", 4, 2, [0xA1, 0x64]⟩] ∧
      (runtime b d r).value = .ok (some m) := by
    refine ⟨_, ?_, by cbv⟩
    rfl
  have hv : (Constructor.argumentsValid (Bytes.zeros 31 ++ [5])
      (.list [.object [("name", .text "n"), ("type", .text "uint8")]])).value = .ok true := by rfl
  have hp : (prefixMatch code [0x73, 1, 2] a
      (.list [.object [("name", .text "n"), ("type", .text "uint8")]])).value =
        .ok (some { type := .full }) :=
    prefixMatch_eq_some_iff.mpr ⟨by decide, by decide, hv, compare_self _ _⟩
  have hc := creation_eq_some_iff.mpr ⟨_, _, (by rfl : constructorInputs (some i) =
    .ok [.object [("name", .text "n"), ("type", .text "uint8")]]), hp, rfl⟩
  have hb : ∃ m, (blueprint [0xFE, 0x71, 1, 1, 8, 0x73, 1, 2, 7, 7] [0x73, 0, 0] a).value =
      .ok (some m) := ⟨_, by cbv⟩
  obtain ⟨m, hts, hm⟩ := hr
  obtain ⟨m', hm'⟩ := hb
  obtain ⟨p, hparse, hl⟩ := (match_lists_differences _ _ m').2.2 a hm'
  refine ⟨⟨m, hm, (match_lists_differences b d m).1 r hm, hts⟩, ⟨_, hc, ?_, ?_⟩, m', p, hm', hparse, hl⟩
  · rw [isFull_recordArguments]
    rfl
  · exact (match_lists_differences _ _ _).2.1 a (some i) hc

end Matching

end CodeMatch
