import CodeMatch.Proofs.Match.Settled

/-!
# Only regions that differ matter

Comparing looks at the declared regions one after the other, but a region that does not differ leaves
no trace.  An empty region never differs, and those that do differ stand in one order only.

* `SameDifferences b d rs ss`      `rs` and `ss` have the same members where `b` and `d` differ;
* `compare_ordered_congr`          they compare alike then;
* `isSome_compare_ordered_iff`     there is a match if well-formed regions cover all differences.
-/

namespace CodeMatch.Comparison

open Region (differs Covered InOrder WellFormed ordered ordered_perm)

variable {b d : Bytes}

/-- a comparison depends on the differing regions alone -/
theorem compare_congr {rs ss : List Region}
    (h : rs.filter (differs b d) = ss.filter (differs b d)) : compare b d rs = compare b d ss := by
  unfold compare settleAll recordAll
  rw [h]

theorem differs_iff_window_ne {r : Region} : differs b d r ↔ r.window b ≠ r.window d :=
  decide_eq_true_iff

/-- a region that differs is not empty -/
theorem length_pos_of_differs {r : Region} (h : r.differs b d = true) : 0 < r.range.length := by
  obtain ⟨i, hi, _⟩ := (differs_eq_true_iff b d r).mp h
  have h1 := hi.offset_le
  have h2 : i < r.range.offset + r.range.length := hi.lt_stop
  omega

/-- where regions begin one strictly after the other, none is there twice -/
theorem nodup_of_pairwise_offset_lt {rs : List Region}
    (h : rs.Pairwise fun r s => r.range.offset < s.range.offset) : rs.Nodup := by
  refine List.Pairwise.imp (fun {r s} hlt => ?_) h
  rintro rfl
  exact Nat.lt_irrefl _ hlt

theorem pairwise_offset_lt_filter {rs : List Region} (h : InOrder rs) :
    (rs.filter (differs b d)).Pairwise fun r s => r.range.offset < s.range.offset := by
  refine List.Pairwise.imp_of_mem (fun {r s} hr _ hrs => ?_) (h.filter (differs b d))
  have hpos := length_pos_of_differs (List.mem_filter.mp hr).2
  unfold ByteRange.stop at hrs
  omega

/-- two declarations have the same regions where `b` and `d` differ -/
def SameDifferences (b d : Bytes) (rs ss : List Region) : Prop :=
  ∀ r : Region, r.window b ≠ r.window d → (r ∈ rs ↔ r ∈ ss)

theorem sameDifferences_of_perm {rs ss : List Region} (h : rs.Perm ss) :
    SameDifferences b d rs ss := fun _ _ => h.mem_iff

/-- the differing regions of a well-formed declaration stand in the one order by offset, so they are a
matter of membership -/
theorem filter_differs_ordered {n : Nat} {rs ss : List Region} (hr : WellFormed n rs)
    (hs : WellFormed n ss) (h : SameDifferences b d rs ss) :
    (ordered rs).filter (differs b d) = (ordered ss).filter (differs b d) := by
  have hrs := pairwise_offset_lt_filter (b := b) (d := d) hr.inOrder
  have hss := pairwise_offset_lt_filter (b := b) (d := d) hs.inOrder
  have hnr := nodup_of_pairwise_offset_lt hrs
  have hns := nodup_of_pairwise_offset_lt hss
  have hperm : ((ordered rs).filter (differs b d)).Perm ((ordered ss).filter (differs b d)) := by
    rw [List.perm_ext_iff_of_nodup hnr hns]
    intro r
    rw [List.mem_filter, List.mem_filter, (ordered_perm rs).mem_iff, (ordered_perm ss).mem_iff]
    exact and_congr_left fun hd => h r (differs_iff_window_ne.mp hd)
  -- no two regions can begin after each other, so the order is the same
  exact List.Perm.eq_of_pairwise (fun r s _ _ hrs hsr => absurd hrs (Nat.lt_asymm hsr)) hrs hss hperm

/-- **Comparing depends on the differing regions alone.** -/
theorem compare_ordered_congr {n : Nat} {rs ss : List Region} (hr : WellFormed n rs)
    (hs : WellFormed n ss) (h : SameDifferences b d rs ss) :
    compare b d (ordered rs) = compare b d (ordered ss) :=
  compare_congr (filter_differs_ordered hr hs h)

/-- so the order of declaration does not reach its outcome -/
theorem compare_ordered_perm {n : Nat} {rs ss : List Region} (h : rs.Perm ss)
    (hw : WellFormed n rs) : compare b d (ordered rs) = compare b d (ordered ss) :=
  compare_ordered_congr hw ((WellFormed.perm h).mp hw) (sameDifferences_of_perm h)

/-- in order or not, well-formed regions decide a comparison -/
theorem isSome_compare_ordered_iff {rs : List Region} (hlen : b.length = d.length)
    (hw : WellFormed d.length rs) :
    (compare b d (ordered rs)).isSome ↔ ∀ i, b[i]? ≠ d[i]? → Covered rs i := by
  have hin : ∀ r ∈ ordered rs, r.range.stop ≤ d.length := fun r hr => hw.stop_le_of_mem_ordered hr
  rw [compare_isSome_iff hlen hin hw.inOrder.disjoint]
  simp only [Region.covered_perm (ordered_perm rs)]

/-! ## code that is longer than its regions -/

section
variable {n : Nat} {r : Region} {rs : List Region}

theorem window_take (h : r.range.stop ≤ n) : r.window (b.take n) = r.window b := by
  unfold ByteRange.stop at h
  unfold Region.window Bytes.slice
  rw [List.drop_take, List.take_take, Nat.min_eq_left (by omega)]

theorem differs_take (h : r.range.stop ≤ n) : r.differs (b.take n) d = r.differs b d := by
  unfold Region.differs
  rw [window_take h]

theorem recordAll_take (h : ∀ r ∈ rs, r.range.stop ≤ n) :
    recordAll (b.take n) d rs = recordAll b d rs := by
  have hfilter : rs.filter (differs (b.take n) d) = rs.filter (differs b d) :=
    List.filter_congr fun r hr => differs_take (h r hr)
  unfold recordAll
  rw [hfilter]
  apply List.map_congr_left
  intro r hr
  unfold Region.record
  rw [window_take (h r (List.mem_filter.mp hr).1)]

end

end CodeMatch.Comparison
