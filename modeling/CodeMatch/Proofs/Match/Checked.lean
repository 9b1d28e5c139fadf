import CodeMatch.Match
import CodeMatch.Proofs.Windows

/-!
# The check of declared regions

The check puts the regions in order and compares each one with its neighbour only.  That is enough:
in order, a region that does not begin inside its neighbour begins after all regions before it.

* `Covered rs i`           some region of `rs` holds the index `i`;
* `InOrder rs`             each region ends at or before all later ones begin;
* `fault?_eq_none_iff`     no fault is found exactly if the regions lie inside the code and in order;
* `inOrder_ordered_iff`    regions can be put in order exactly if no two overlap;
* `checked_eq_ok_iff`      the check accepts exactly the well-formed lists, and hands them back in
                           order;
* `WellFormed.perm`        the order of declaration does not matter.
-/

namespace CodeMatch.Region

/-- some region holds the index `i` -/
def Covered (rs : List Region) (i : Nat) : Prop := ∃ r ∈ rs, r.range.Covers i

instance (rs : List Region) (i : Nat) : Decidable (Covered rs i) :=
  inferInstanceAs (Decidable (∃ r ∈ rs, r.range.Covers i))

/-- each region ends at or before all later ones begin -/
def InOrder (rs : List Region) : Prop := rs.Pairwise fun r s => r.range.stop ≤ s.range.offset

theorem not_covered_nil (i : Nat) : ¬ Covered [] i := by
  rintro ⟨r, hr, _⟩
  exact List.not_mem_nil hr

theorem covered_cons {r : Region} {rs : List Region} {i : Nat} :
    Covered (r :: rs) i ↔ r.range.Covers i ∨ Covered rs i := by
  unfold Covered
  simp only [List.mem_cons, exists_eq_or_imp]

theorem covered_append {rs ss : List Region} {i : Nat} :
    Covered (rs ++ ss) i ↔ Covered rs i ∨ Covered ss i := by
  unfold Covered
  simp only [List.mem_append, or_and_right, exists_or]

theorem covered_perm {rs ss : List Region} (h : rs.Perm ss) {i : Nat} :
    Covered rs i ↔ Covered ss i := by
  unfold Covered
  simp only [h.mem_iff]

/-! ## order -/

theorem inOrder_cons_cons {p r : Region} {rs : List Region} :
    InOrder (p :: r :: rs) ↔ p.range.stop ≤ r.range.offset ∧ InOrder (r :: rs) := by
  constructor
  · intro h
    have hp := List.pairwise_cons.mp h
    exact ⟨hp.1 r List.mem_cons_self, hp.2⟩
  · rintro ⟨hpr, h⟩
    refine List.pairwise_cons.mpr ⟨fun s hs => ?_, h⟩
    rcases List.mem_cons.mp hs with rfl | hs
    · exact hpr
    · -- `r` lies between `p` and `s`
      have hrs := (List.pairwise_cons.mp h).1 s hs
      have hr := r.range.offset_le_stop
      omega

theorem InOrder.disjoint {rs : List Region} (h : InOrder rs) :
    rs.Pairwise fun r s => r.range.Disjoint s.range :=
  List.Pairwise.imp (fun h => Or.inl h) h

theorem InOrder.filter {rs : List Region} (h : InOrder rs) (p : Region → Bool) :
    InOrder (rs.filter p) :=
  List.Pairwise.sublist List.filter_sublist h

/-- of two disjoint regions in order, the first ends before the second begins; an empty region that
begins where another one does comes first -/
theorem stop_le_offset {r s : Region} (hle : le r s) (hd : r.range.Disjoint s.range) :
    r.range.stop ≤ s.range.offset := by
  simp only [le, Bool.or_eq_true, Bool.and_eq_true, decide_eq_true_eq] at hle
  unfold ByteRange.Disjoint at hd
  unfold ByteRange.stop at hd ⊢
  omega

theorem pairwise_disjoint_perm {rs ss : List Region} (h : rs.Perm ss) :
    (rs.Pairwise fun r s => r.range.Disjoint s.range) ↔
      ss.Pairwise fun r s => r.range.Disjoint s.range :=
  h.pairwise_iff fun h => h.symm

theorem inOrder_ordered_iff (rs : List Region) :
    InOrder (ordered rs) ↔ rs.Pairwise fun r s => r.range.Disjoint s.range := by
  rw [← pairwise_disjoint_perm (ordered_perm rs)]
  constructor
  · exact InOrder.disjoint
  · intro hd
    have h := List.pairwise_and_iff.mpr ⟨pairwise_ordered rs, hd⟩
    exact h.imp fun h => stop_le_offset h.1 h.2

/-! ## the check -/

theorem fault?_some_cons (kind : CodeKind) (n : Nat) (p r : Region) (rs : List Region) :
    fault? kind n (some p) (r :: rs) =
      if r.range.stop > n then some (.exceeds r kind n)
      else if r.range.offset < p.range.stop then some (.overlaps r p)
      else fault? kind n (some r) rs := rfl

theorem fault?_none_cons (kind : CodeKind) (n : Nat) (r : Region) (rs : List Region) :
    fault? kind n none (r :: rs) =
      if r.range.stop > n then some (.exceeds r kind n) else fault? kind n (some r) rs := rfl

theorem fault?_some_eq_none_iff (kind : CodeKind) (n : Nat) (p : Region) (rs : List Region) :
    fault? kind n (some p) rs = none ↔ (∀ r ∈ rs, r.range.stop ≤ n) ∧ InOrder (p :: rs) := by
  induction rs generalizing p with
  | nil => simp [fault?_nil, InOrder]
  | cons r rs ih =>
    rw [fault?_some_cons, inOrder_cons_cons, List.forall_mem_cons]
    split
    · rename_i h
      simp only [reduceCtorEq, false_iff]
      omega
    · split
      · rename_i h
        simp only [reduceCtorEq, false_iff]
        omega
      · rw [ih r]
        constructor
        · rintro ⟨hin, hord⟩
          exact ⟨⟨by omega, hin⟩, by omega, hord⟩
        · rintro ⟨⟨_, hin⟩, _, hord⟩
          exact ⟨hin, hord⟩

theorem fault?_eq_none_iff (kind : CodeKind) (n : Nat) (rs : List Region) :
    fault? kind n none rs = none ↔ (∀ r ∈ rs, r.range.stop ≤ n) ∧ InOrder rs := by
  cases rs with
  | nil => simp [fault?_nil, InOrder]
  | cons r rs =>
    rw [fault?_none_cons, List.forall_mem_cons]
    split
    · rename_i h
      simp only [reduceCtorEq, false_iff]
      omega
    · rw [fault?_some_eq_none_iff]
      constructor
      · rintro ⟨hin, hord⟩
        exact ⟨⟨by omega, hin⟩, hord⟩
      · rintro ⟨⟨_, hin⟩, hord⟩
        exact ⟨hin, hord⟩

theorem WellFormed.perm {n : Nat} {rs ss : List Region} (h : rs.Perm ss) :
    WellFormed n rs ↔ WellFormed n ss := by
  unfold WellFormed
  rw [pairwise_disjoint_perm h]
  simp only [h.mem_iff]

theorem fault?_ordered_eq_none_iff (kind : CodeKind) (n : Nat) (rs : List Region) :
    fault? kind n none (ordered rs) = none ↔ WellFormed n rs := by
  rw [fault?_eq_none_iff, inOrder_ordered_iff]
  unfold WellFormed
  simp only [(ordered_perm rs).mem_iff]

/-- **The check accepts exactly the well-formed lists of regions**, and hands them back in order. -/
theorem checked_eq_ok_iff (kind : CodeKind) (n : Nat) (rs ss : List Region) :
    checked kind n rs = .ok ss ↔ WellFormed n rs ∧ ss = ordered rs := by
  rw [← fault?_ordered_eq_none_iff kind]
  unfold checked
  split
  · rename_i h
    rw [h, Except.ok.injEq]
    exact ⟨fun h => ⟨rfl, h.symm⟩, fun h => h.2.symm⟩
  · rename_i f h
    simp [h]

theorem checked_of_wellFormed {n : Nat} {rs : List Region} (kind : CodeKind)
    (h : WellFormed n rs) : checked kind n rs = .ok (ordered rs) :=
  (checked_eq_ok_iff kind n rs (ordered rs)).mpr ⟨h, rfl⟩

/-- the check says what is wrong with a list that is not well-formed -/
theorem exists_checked_eq_error {n : Nat} {rs : List Region} (kind : CodeKind)
    (h : ¬ WellFormed n rs) : ∃ f, checked kind n rs = .error f := by
  cases hc : checked kind n rs with
  | error f => exact ⟨f, rfl⟩
  | ok ss => exact absurd ((checked_eq_ok_iff kind n rs ss).mp hc).1 h

theorem WellFormed.stop_le_of_mem_ordered {n : Nat} {rs : List Region} (h : WellFormed n rs)
    {r : Region} (hr : r ∈ ordered rs) : r.range.stop ≤ n :=
  h.1 r ((ordered_perm rs).mem_iff.mp hr)

theorem WellFormed.inOrder {n : Nat} {rs : List Region} (h : WellFormed n rs) :
    InOrder (ordered rs) :=
  (inOrder_ordered_iff rs).mpr h.2

end CodeMatch.Region
