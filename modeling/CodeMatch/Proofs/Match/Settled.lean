import CodeMatch.Match
import CodeMatch.Proofs.Match.Checked

/-!
# What comparing code decides

Comparing treats two copies of the code, region after region, and asks at the end whether the copies
are equal.  The loop keeps one invariant, index by index:

* `Settled b d done s`     inside the regions `done` the two sides agree, and outside them they are
                           still `b` and `d`;
* `settled_foldl`          it holds after any number of regions, as long as no two overlap: a region
                           finds the code on chain as it was;
* `compare_isSome_iff`     so there is a match exactly if every difference lies in some region;
* `isFull_iff_transformations_eq_nil`   a match is full exactly if it records nothing, and then
                           `values_of_isFull`: it has no values;
* `replay_record`          the records alone say what was on chain: writing them into the recompiled
                           code gives `b` inside the recorded regions and `d` elsewhere;
* `replay_of_compare`      so they turn the recompiled code of a match into the code on chain.
-/

namespace CodeMatch

theorem Region.length_window {b : Bytes} {r : Region} (h : r.range.stop ≤ b.length) :
    (r.window b).length = r.range.length := by
  unfold Region.window
  rw [Bytes.length_slice]
  unfold ByteRange.stop at h
  omega

/-- the value of a record is as long as its region -/
theorem Region.length_record {b : Bytes} {r : Region} (h : r.range.stop ≤ b.length) :
    (r.record b).length = (r.record b).value.length := by
  show (r.range.length : Int) = ((r.window b).length : Int)
  rw [length_window h]

namespace Comparison

open Region (differs record Covered not_covered_nil covered_cons covered_append)

/-- whether two pieces of code differ inside a region, index by index -/
theorem differs_eq_true_iff (b d : Bytes) (r : Region) :
    r.differs b d = true ↔ ∃ i, r.range.Covers i ∧ b[i]? ≠ d[i]? := by
  unfold Region.differs Region.window
  rw [decide_eq_true_iff, ne_eq, Bytes.slice_eq_slice_iff]
  push Not
  rfl

/-- a difference lies in a declared region exactly if it lies in one that differs -/
theorem covered_filter_iff {b d : Bytes} {rs : List Region} {i : Nat} (hi : b[i]? ≠ d[i]?) :
    Covered (rs.filter (differs b d)) i ↔ Covered rs i := by
  unfold Covered
  constructor
  · rintro ⟨r, hr, hc⟩
    exact ⟨r, (List.mem_filter.mp hr).1, hc⟩
  · rintro ⟨r, hr, hc⟩
    exact ⟨r, List.mem_filter.mpr ⟨hr, (differs_eq_true_iff b d r).mpr ⟨i, hc, hi⟩⟩, hc⟩

/-- where no differing region lies, nothing differs -/
theorem getElem?_eq_of_not_covered {b d : Bytes} {rs : List Region}
    (hcov : ∀ i, b[i]? ≠ d[i]? → Covered rs i) {i : Nat}
    (hi : ¬ Covered (rs.filter (differs b d)) i) : b[i]? = d[i]? := by
  by_contra hne
  exact hi ((covered_filter_iff hne).mpr (hcov i hne))

theorem compare_of_ne {b d : Bytes} (h : b ≠ d) (rs : List Region) :
    compare b d rs =
      if (settleAll b d rs).onChain = (settleAll b d rs).recompiled then
        some ⟨.part, recordAll b d rs, valuesOf (recordAll b d rs)⟩
      else none := by
  unfold compare
  rw [if_neg h]

theorem constructorArguments_addValue (v : MatchValues) (t : Transformation) :
    (addValue v t).constructorArguments = v.constructorArguments := by
  unfold addValue
  cases t.reason <;> rfl

theorem constructorArguments_valuesOf (ts : List Transformation) :
    (valuesOf ts).constructorArguments = none := by
  suffices h : ∀ v : MatchValues, (ts.foldl addValue v).constructorArguments =
      v.constructorArguments from h {}
  induction ts with
  | nil => intro v; rfl
  | cons t ts ih => intro v; rw [List.foldl_cons, ih, constructorArguments_addValue]

/-! ## the loop -/

theorem settle_of_auxdata (b : Bytes) (s : Sides) {r : Region} (h : r.reason = .auxdata) :
    s.settle b r = ⟨s.onChain.overwrite r.range.offset (Bytes.zeros r.range.length),
      s.recompiled.overwrite r.range.offset (Bytes.zeros r.range.length)⟩ := by
  unfold Sides.settle
  rw [h]

theorem settle_of_ne_auxdata (b : Bytes) (s : Sides) {r : Region} (h : r.reason ≠ .auxdata) :
    s.settle b r = ⟨s.onChain, s.recompiled.overwrite r.range.offset (r.window b)⟩ := by
  unfold Sides.settle
  split
  · contradiction
  · rfl

/-- inside the regions `done` the two sides agree; outside them they are still `b` and `d` -/
structure Settled (b d : Bytes) (done : List Region) (s : Sides) : Prop where
  length_onChain : s.onChain.length = d.length
  length_recompiled : s.recompiled.length = d.length
  inside : ∀ i, Covered done i → s.onChain[i]? = s.recompiled[i]?
  outside : ∀ i, ¬ Covered done i → s.onChain[i]? = b[i]? ∧ s.recompiled[i]? = d[i]?

variable {b d : Bytes}

theorem settled_nil (hlen : b.length = d.length) : Settled b d [] ⟨b, d⟩ where
  length_onChain := hlen
  length_recompiled := rfl
  inside i h := absurd h (not_covered_nil i)
  outside _ _ := ⟨rfl, rfl⟩

/-- the lengths of the sides stay -/
theorem length_settle (hlen : b.length = d.length) {s : Sides} {done : List Region}
    (h : Settled b d done s) {r : Region} (hr : r.range.stop ≤ d.length) :
    (s.settle b r).onChain.length = d.length ∧ (s.settle b r).recompiled.length = d.length := by
  have h1 := h.length_onChain
  have h2 := h.length_recompiled
  have hw : (r.window b).length = r.range.length := Region.length_window (by rw [hlen]; exact hr)
  unfold ByteRange.stop at hr
  by_cases ha : r.reason = .auxdata
  · rw [settle_of_auxdata b s ha]
    constructor
    · rw [Bytes.length_overwrite (by rw [Bytes.length_zeros]; omega), h1]
    · rw [Bytes.length_overwrite (by rw [Bytes.length_zeros]; omega), h2]
  · rw [settle_of_ne_auxdata b s ha]
    exact ⟨h1, by rw [Bytes.length_overwrite (by omega), h2]⟩

/-- one step: the region has to find the code on chain as it was, so it must overlap no region that
has been treated -/
theorem Settled.settle (hlen : b.length = d.length) {s : Sides} {done : List Region}
    (h : Settled b d done s) {r : Region} (hr : r.range.stop ≤ d.length)
    (hd : ∀ q ∈ done, q.range.Disjoint r.range) : Settled b d (done ++ [r]) (s.settle b r) := by
  have hon : r.range.stop ≤ s.onChain.length := by rw [h.length_onChain]; exact hr
  have hre : r.range.stop ≤ s.recompiled.length := by rw [h.length_recompiled]; exact hr
  have hb : r.range.stop ≤ b.length := by rw [hlen]; exact hr
  have hfresh : ∀ i, r.range.Covers i → ¬ Covered done i := by
    rintro i hi ⟨q, hq, hqi⟩
    exact (hd q hq).not_covers hqi hi
  have hcov : ∀ i, Covered (done ++ [r]) i ↔ Covered done i ∨ r.range.Covers i := by
    intro i
    rw [covered_append, covered_cons, or_iff_left (not_covered_nil i)]
  obtain ⟨hl1, hl2⟩ := length_settle hlen h hr
  by_cases ha : r.reason = .auxdata
  · rw [settle_of_auxdata b s ha] at hl1 hl2 ⊢
    refine ⟨hl1, hl2, fun i hi => ?_, fun i hi => ?_⟩
    · show (Bytes.overwrite s.onChain _ _)[i]? = (Bytes.overwrite s.recompiled _ _)[i]?
      rw [Bytes.getElem?_overwrite_zeros hon, Bytes.getElem?_overwrite_zeros hre]
      by_cases hir : r.range.Covers i
      · rw [if_pos hir, if_pos hir]
      · rw [if_neg hir, if_neg hir]
        exact h.inside i (((hcov i).mp hi).resolve_right hir)
    · obtain ⟨hid, hir⟩ := not_or.mp (mt (hcov i).mpr hi)
      show (Bytes.overwrite s.onChain _ _)[i]? = _ ∧ (Bytes.overwrite s.recompiled _ _)[i]? = _
      rw [Bytes.getElem?_overwrite_zeros hon, Bytes.getElem?_overwrite_zeros hre, if_neg hir,
        if_neg hir]
      exact h.outside i hid
  · rw [settle_of_ne_auxdata b s ha] at hl1 hl2 ⊢
    have hw : ∀ i, (s.recompiled.overwrite r.range.offset (r.window b))[i]? =
        if r.range.Covers i then b[i]? else s.recompiled[i]? :=
      Bytes.getElem?_overwrite_slice hb hre
    refine ⟨hl1, hl2, fun i hi => ?_, fun i hi => ?_⟩
    · show s.onChain[i]? = (Bytes.overwrite s.recompiled _ _)[i]?
      rw [hw]
      by_cases hir : r.range.Covers i
      · rw [if_pos hir]
        exact (h.outside i (hfresh i hir)).1
      · rw [if_neg hir]
        exact h.inside i (((hcov i).mp hi).resolve_right hir)
    · obtain ⟨hid, hir⟩ := not_or.mp (mt (hcov i).mpr hi)
      show s.onChain[i]? = _ ∧ (Bytes.overwrite s.recompiled _ _)[i]? = _
      rw [hw, if_neg hir]
      exact h.outside i hid

theorem settled_foldl (hlen : b.length = d.length) (rs : List Region) :
    ∀ (done : List Region) (s : Sides), Settled b d done s →
      (∀ r ∈ rs, r.range.stop ≤ d.length) →
      ((done ++ rs).Pairwise fun r s => r.range.Disjoint s.range) →
      Settled b d (done ++ rs) (rs.foldl (Sides.settle b) s) := by
  induction rs with
  | nil =>
    intro done s h _ _
    rw [List.append_nil]
    exact h
  | cons r rs ih =>
    intro done s h hin hd
    have hstep : ∀ q ∈ done, q.range.Disjoint r.range := fun q hq =>
      (List.pairwise_append.mp hd).2.2 q hq r List.mem_cons_self
    have h1 := h.settle hlen (hin r List.mem_cons_self) hstep
    have e : done ++ r :: rs = (done ++ [r]) ++ rs := by simp
    rw [e] at hd ⊢
    exact ih _ _ h1 (fun q hq => hin q (List.mem_cons_of_mem _ hq)) hd

section
variable {rs : List Region} (hlen : b.length = d.length) (hin : ∀ r ∈ rs, r.range.stop ≤ d.length)
  (hd : rs.Pairwise fun r s => r.range.Disjoint s.range)
include hlen hin hd

/-- after all regions, the sides agree inside those that differ and are untouched elsewhere -/
theorem settled_settleAll :
    Settled b d (rs.filter (differs b d)) (settleAll b d rs) := by
  have h := settled_foldl hlen (rs.filter (differs b d)) [] ⟨b, d⟩ (settled_nil hlen)
    (fun r hr => hin r ((List.mem_filter.mp hr).1)) (hd.sublist List.filter_sublist)
  exact h

/-- the two sides end up equal exactly if every difference lies in some region -/
theorem settleAll_agree_iff :
    (settleAll b d rs).onChain = (settleAll b d rs).recompiled ↔
      ∀ i, b[i]? ≠ d[i]? → Covered rs i := by
  have hs := settled_settleAll hlen hin hd
  constructor
  · intro heq i hi
    by_contra hc
    have hout := hs.outside i (mt (covered_filter_iff hi).mp hc)
    exact hi (by rw [← hout.1, heq, hout.2])
  · intro hcov
    apply List.ext_getElem?
    intro i
    by_cases hc : Covered (rs.filter (differs b d)) i
    · exact hs.inside i hc
    · have hout := hs.outside i hc
      rw [hout.1, hout.2, getElem?_eq_of_not_covered hcov hc]

/-- **There is a match exactly if every difference lies in some region.** -/
theorem compare_isSome_iff :
    (compare b d rs).isSome ↔ ∀ i, b[i]? ≠ d[i]? → Covered rs i := by
  by_cases hbc : b = d
  · subst hbc
    simp [compare_self]
  · rw [compare_of_ne hbc, ← settleAll_agree_iff hlen hin hd]
    split
    · rename_i h
      exact iff_of_true rfl h
    · rename_i h
      exact iff_of_false Bool.false_ne_true h

end

/-- the two kinds of match -/
theorem compare_eq_some_iff {rs : List Region} {m : Match} :
    compare b d rs = some m ↔
      (b = d ∧ m = { type := .full }) ∨
      (b ≠ d ∧ (settleAll b d rs).onChain = (settleAll b d rs).recompiled ∧
        m = ⟨.part, recordAll b d rs, valuesOf (recordAll b d rs)⟩) := by
  by_cases hbc : b = d
  · subst hbc
    simp [compare_self, eq_comm]
  · rw [compare_of_ne hbc]
    simp [hbc, eq_comm]

/-- a match is full exactly if the code is the same byte for byte -/
theorem isFull_of_compare {rs : List Region} {m : Match} (h : compare b d rs = some m) :
    m.isFull ↔ b = d := by
  rcases compare_eq_some_iff.mp h with ⟨hbc, rfl⟩ | ⟨hbc, _, rfl⟩
  · exact iff_of_true rfl hbc
  · exact iff_of_false Bool.false_ne_true hbc

theorem recordAll_self (b : Bytes) (rs : List Region) : recordAll b b rs = [] := by
  unfold recordAll
  rw [List.map_eq_nil_iff, List.filter_eq_nil_iff]
  intro r _
  simp [Region.differs]

/-- a match records the differing regions and nothing else, a full match none at all -/
theorem transformations_of_compare {rs : List Region} {m : Match} (h : compare b d rs = some m) :
    m.transformations = recordAll b d rs := by
  rcases compare_eq_some_iff.mp h with ⟨rfl, rfl⟩ | ⟨_, _, rfl⟩
  · rw [recordAll_self]
  · rfl

/-- a match is full exactly if it records nothing: otherwise the two sides would still be different -/
theorem isFull_iff_transformations_eq_nil {rs : List Region} {m : Match}
    (h : compare b d rs = some m) : m.isFull ↔ m.transformations = [] := by
  rcases compare_eq_some_iff.mp h with ⟨_, rfl⟩ | ⟨hbd, heq, rfl⟩
  · exact iff_of_true rfl rfl
  · refine iff_of_false Bool.false_ne_true fun hnil => hbd ?_
    have hfilter : rs.filter (differs b d) = [] := List.map_eq_nil_iff.mp hnil
    unfold settleAll at heq
    rw [hfilter] at heq
    exact heq

/-- and then there is no value either -/
theorem values_of_isFull {rs : List Region} {m : Match} (h : compare b d rs = some m)
    (hf : m.isFull) : m.values = {} := by
  rcases compare_eq_some_iff.mp h with ⟨_, rfl⟩ | ⟨_, _, rfl⟩
  · rfl
  · exact absurd hf Bool.false_ne_true

/-- comparing finds no constructor arguments -/
theorem constructorArguments_of_compare {rs : List Region} {m : Match}
    (h : compare b d rs = some m) : m.values.constructorArguments = none := by
  rcases compare_eq_some_iff.mp h with ⟨_, rfl⟩ | ⟨_, _, rfl⟩
  · rfl
  · exact constructorArguments_valuesOf _

/-! ## the way back -/

theorem replay_record_cons (b d : Bytes) (r : Region) (ts : List Transformation) :
    replay d (record b r :: ts) = replay (d.overwrite r.range.offset (r.window b)) ts := rfl

/-- writing records into code gives the bytes on chain inside the recorded regions, and leaves the
rest as it is -/
theorem replay_record (rs : List Region) :
    ∀ d : Bytes, b.length = d.length → (∀ r ∈ rs, r.range.stop ≤ d.length) → ∀ i,
      (Covered rs i → (replay d (rs.map (record b)))[i]? = b[i]?) ∧
      (¬ Covered rs i → (replay d (rs.map (record b)))[i]? = d[i]?) := by
  induction rs with
  | nil =>
    intro d _ _ i
    exact ⟨fun h => absurd h (not_covered_nil i), fun _ => rfl⟩
  | cons r rs ih =>
    intro d hlen hin i
    have hr : r.range.stop ≤ d.length := hin r List.mem_cons_self
    have hb : r.range.stop ≤ b.length := by rw [hlen]; exact hr
    have hw : ∀ i, (d.overwrite r.range.offset (r.window b))[i]? =
        if r.range.Covers i then b[i]? else d[i]? := Bytes.getElem?_overwrite_slice hb hr
    have hwl : (d.overwrite r.range.offset (r.window b)).length = d.length := by
      apply Bytes.length_overwrite
      rw [Region.length_window hb]
      exact hr
    obtain ⟨hins, hout⟩ := ih (d.overwrite r.range.offset (r.window b)) (by rw [hwl, hlen])
      (fun q hq => by rw [hwl]; exact hin q (List.mem_cons_of_mem _ hq)) i
    rw [List.map_cons, replay_record_cons, covered_cons]
    constructor
    · intro h
      by_cases hc : Covered rs i
      · exact hins hc
      · rw [hout hc, hw, if_pos (h.resolve_right hc)]
    · intro h
      obtain ⟨hr', hc⟩ := not_or.mp h
      rw [hout hc, hw, if_neg hr']

/-- **The records of a match turn the recompiled code into the code on chain.** -/
theorem replay_of_compare {rs : List Region} (hlen : b.length = d.length)
    (hin : ∀ r ∈ rs, r.range.stop ≤ d.length)
    (hd : rs.Pairwise fun r s => r.range.Disjoint s.range) {m : Match}
    (h : compare b d rs = some m) : replay d m.transformations = b := by
  have hcov : ∀ i, b[i]? ≠ d[i]? → Covered rs i :=
    (compare_isSome_iff hlen hin hd).mp (by rw [h]; rfl)
  rw [transformations_of_compare h]
  apply List.ext_getElem?
  intro i
  obtain ⟨hins, hout⟩ := replay_record (b := b) (rs.filter (differs b d)) d hlen
    (fun r hr => hin r (List.mem_filter.mp hr).1) i
  by_cases hc : Covered (rs.filter (differs b d)) i
  · exact hins hc
  · exact (hout hc).trans (getElem?_eq_of_not_covered hcov hc).symm

end Comparison

end CodeMatch
