import CodeMatch.Proofs.Json.Spelling
import Mathlib.Tactic.Common

/-!
# What is read keeps to the limits

* `within_unsigned`, `within_scalar`   numbers and values without parts;
* `forall_of_separated`   what holds of every element that is read holds of all of them;
* `within_value`          a value with `d` levels of nesting to go nests at most `d` levels deep, its
                          integers are short enough, and its objects have each key once;
* `within_parse`          a text gives a value within all limits;
* `Within.of_mem_list`, `Within.of_mem_object`   and so are the parts of such a value.
-/

namespace CodeMatch.Json

variable {lim : Limits} {s r : List Char}

theorem natAbs_withSign (negative : Bool) (n : Nat) : (Text.withSign negative n).natAbs = n := by
  cases negative <;> simp [Text.withSign]

theorem within_unsigned {negative : Bool} {v : Json} (h : unsigned lim negative s = some (v, r))
    (d : Nat) : Within lim d v := by
  unfold unsigned at h
  simp only at h
  split at h
  · cases h
  split at h
  · cases h
  split at h
  · cases h
  split at h
  case isTrue =>
    split at h
    · cases h
    case isFalse hlen =>
      obtain ⟨n, hn, hv⟩ := Option.map_eq_some_iff.mp h
      cases hv
      refine .int d ?_
      rw [natAbs_withSign]
      exact Nat.lt_of_lt_of_le (Text.value?_lt hn)
        (Nat.pow_le_pow_right (by decide) (Nat.not_lt.mp hlen))
  case isFalse =>
    obtain ⟨n, _, hv⟩ := Option.map_eq_some_iff.mp h
    cases hv
    exact .float d _

theorem within_number {v : Json} (h : number lim s = some (v, r)) (d : Nat) : Within lim d v := by
  unfold number at h
  split at h
  · split at h
    · cases h
      exact .float d _
    · exact within_unsigned h d
  · exact within_unsigned h d

theorem within_words (d : Nat) : ∀ e ∈ words, Within lim d e.2 := by
  simp only [words, List.forall_mem_cons]
  exact ⟨.null d, .bool d _, .bool d _, .float d _, .float d _, fun _ h => by cases h⟩

theorem within_scalar {v : Json} (h : scalar lim s = some (v, r)) (d : Nat) : Within lim d v := by
  unfold scalar at h
  split at h
  · obtain ⟨x, _, hv⟩ := Option.map_eq_some_iff.mp h
    cases hv
    exact .text d _
  · split at h
    case h_1 hw =>
      cases h
      obtain ⟨e, he, hfound⟩ := List.exists_of_findSome?_eq_some hw
      obtain ⟨_, _, hv⟩ := Option.map_eq_some_iff.mp hfound
      cases hv
      exact within_words d e he
    · exact within_number h d

theorem forall_of_separated {α : Type} {Q : α → Prop} {close : Char}
    {p : List Char → Option (α × List Char)} (hp : ∀ s x r, p s = some (x, r) → Q x) {n : Nat}
    {xs : List α} (h : separated close p n s = some (xs, r)) : ∀ x ∈ xs, Q x := by
  induction n generalizing s xs r with
  | zero => cases h
  | succ n ih =>
    rw [separated] at h
    split at h
    · cases h
    case h_2 x r' hx =>
      split at h
      · cases h
      split at h
      · obtain ⟨⟨ys, r''⟩, hys, hv⟩ := Option.map_eq_some_iff.mp h
        cases hv
        exact List.forall_mem_cons.mpr ⟨hp _ _ _ hx, ih hys⟩
      split at h
      · cases h
        exact List.forall_mem_singleton.mpr (hp _ _ _ hx)
      · cases h

theorem value_of_memberOf {p : List Char → Option (Json × List Char)} {m : String × Json}
    (h : memberOf p s = some (m, r)) : ∃ t, p t = some (m.2, r) := by
  unfold memberOf at h
  split at h
  · split at h
    · cases h
    split at h
    · obtain ⟨⟨v, r'⟩, hv, he⟩ := Option.map_eq_some_iff.mp h
      cases he
      exact ⟨_, hv⟩
    · cases h
  · cases h

/-- what is read with `d` levels to go nests no deeper -/
theorem within_value {d : Nat} {v : Json} (h : value lim d s = some (v, r)) : Within lim d v := by
  induction d generalizing s v r with
  | zero => exact within_scalar h 0
  | succ d ih =>
    unfold value at h
    split at h
    · split at h
      · cases h
        exact .list fun _ h => by cases h
      · obtain ⟨⟨vs, r'⟩, hvs, hv⟩ := Option.map_eq_some_iff.mp h
        cases hv
        rw [items_eq] at hvs
        exact .list (forall_of_separated (fun _ _ _ => ih) hvs)
    · split at h
      · cases h
        exact .object List.nodup_nil fun _ h => by cases h
      · obtain ⟨⟨ms, r'⟩, hms, hv⟩ := Option.map_eq_some_iff.mp h
        cases hv
        rw [members_eq] at hms
        have hall : ∀ m ∈ ms, Within lim d m.2 := forall_of_separated (fun _ _ _ hm => by
          obtain ⟨t, ht⟩ := value_of_memberOf hm
          exact ih ht) hms
        exact .object (Dict.ofList ms).nodup fun m hm => hall m (Dict.mem_toList_ofList hm)
    · exact within_scalar h (d + 1)

/-- **What is read keeps to the limits.** -/
theorem within_parse {text : String} {v : Json} (h : parse lim text = some v) :
    Within lim lim.depth v := by
  unfold parse at h
  split at h
  case h_1 v' r hv =>
    split at h
    · cases h
      exact within_value hv
    · cases h
  · cases h

theorem Within.mono {d d' : Nat} {v : Json} (h : Within lim d v) (hd : d ≤ d') :
    Within lim d' v := by
  induction h generalizing d' with
  | null => exact .null d'
  | bool _ b => exact .bool d' b
  | int _ hn => exact .int d' hn
  | float _ x => exact .float d' x
  | text _ s => exact .text d' s
  | list _ ih =>
    obtain ⟨d', rfl⟩ := Nat.exists_eq_add_of_le' (Nat.lt_of_lt_of_le (Nat.succ_pos _) hd)
    exact .list fun v hv => ih v hv (Nat.le_of_succ_le_succ hd)
  | object hk _ ih =>
    obtain ⟨d', rfl⟩ := Nat.exists_eq_add_of_le' (Nat.lt_of_lt_of_le (Nat.succ_pos _) hd)
    exact .object hk fun m hm => ih m hm (Nat.le_of_succ_le_succ hd)

theorem Within.of_mem_list {d : Nat} {vs : List Json} (h : Within lim d (.list vs)) {v : Json}
    (hv : v ∈ vs) : Within lim d v := by
  cases h with
  | list h => exact (h v hv).mono (Nat.le_succ _)

theorem Within.of_mem_object {d : Nat} {ms : List (String × Json)} (h : Within lim d (.object ms))
    {m : String × Json} (hm : m ∈ ms) : Within lim d m.2 := by
  cases h with
  | object _ h => exact (h m hm).mono (Nat.le_succ _)

end CodeMatch.Json
