import CodeMatch.Dict
import Mathlib.Data.List.Induction
import Mathlib.Tactic.Common

/-!
# Dictionaries and lists of entries

* `values`              the values of a dictionary;
* `mem_keys_iff`        a key is what can be looked up;
* `get?_eq_some_iff`    and what is found there is the value of its entry;
* `mem_toList_ofList`   a dictionary made of entries has no others;
* `toList_ofList`       entries with distinct keys stay as they are;
* `ofList_toList`       so a dictionary is made of its own entries.
-/

namespace CodeMatch

universe u

variable {α : Type u}

theorem keysOf_append (l l' : List (String × α)) : keysOf (l ++ l') = keysOf l ++ keysOf l' :=
  List.map_append

/-- a new key goes to the end -/
theorem setEntry_of_not_mem {k : String} {l : List (String × α)} (h : k ∉ keysOf l) (v : α) :
    setEntry k v l = l ++ [(k, v)] := by
  induction l with
  | nil => rfl
  | cons e l ih =>
    obtain ⟨k', v'⟩ := e
    have hk : k' ≠ k ∧ k ∉ keysOf l := by
      rw [keysOf, List.map_cons, List.mem_cons, not_or] at h
      exact ⟨Ne.symm h.1, h.2⟩
    rw [setEntry, if_neg hk.1, ih hk.2, List.cons_append]

theorem mem_of_mem_setEntry {k : String} {v : α} {l : List (String × α)} {e : String × α}
    (h : e ∈ setEntry k v l) : e = (k, v) ∨ e ∈ l := by
  induction l with
  | nil => exact .inl (List.mem_singleton.mp h)
  | cons e' l ih =>
    obtain ⟨k', v'⟩ := e'
    rw [setEntry] at h
    split at h
    · exact (List.mem_cons.mp h).imp_right (List.mem_cons_of_mem _)
    · rcases List.mem_cons.mp h with rfl | h
      · exact .inr List.mem_cons_self
      · exact (ih h).imp_right (List.mem_cons_of_mem _)

namespace Dict

/-- the values, in the order of their keys -/
def values (d : Dict α) : List α := d.toList.map Prod.snd

theorem mem_keys_iff {d : Dict α} {k : String} : k ∈ d.keys ↔ (d.get? k).isSome := by
  unfold keys get? keysOf
  rw [List.lookup_isSome_iff, List.mem_map]
  simp only [beq_iff_eq]
  exact exists_congr fun e => and_congr_right fun _ => eq_comm

theorem lookup_eq_some_of_mem {l : List (String × α)} (hl : (keysOf l).Nodup) {k : String} {a : α}
    (h : (k, a) ∈ l) : l.lookup k = some a := by
  induction l with
  | nil => cases h
  | cons e l ih =>
    obtain ⟨hk, hl⟩ := List.nodup_cons.mp hl
    rcases List.mem_cons.mp h with rfl | h
    · exact List.lookup_cons_self
    · have hne : k ≠ e.1 := by
        intro heq
        apply hk
        rw [← heq]
        exact List.mem_map_of_mem (f := Prod.fst) h
      rw [List.lookup_cons, beq_false_of_ne hne]
      exact ih hl h

theorem get?_eq_some_iff {d : Dict α} {k : String} {a : α} :
    d.get? k = some a ↔ (k, a) ∈ d.toList := by
  constructor
  · intro h
    obtain ⟨l, l', hd, -⟩ := List.lookup_eq_some_iff.mp h
    show (k, a) ∈ d.entries
    rw [hd]
    exact List.mem_append_right l List.mem_cons_self
  · intro h
    exact lookup_eq_some_of_mem d.nodup h

theorem mem_toList_ofList {l : List (String × α)} {e : String × α} (h : e ∈ (ofList l).toList) :
    e ∈ l := by
  induction l using List.reverseRecOn with
  | nil => cases h
  | append_singleton l e' ih =>
    rw [ofList_append_singleton] at h
    rcases mem_of_mem_setEntry h with rfl | h
    · exact List.mem_append_right _ (List.mem_singleton_self _)
    · exact List.mem_append_left _ (ih h)

theorem toList_ofList {l : List (String × α)} (h : (keysOf l).Nodup) : (ofList l).toList = l := by
  induction l using List.reverseRecOn with
  | nil => rfl
  | append_singleton l e ih =>
    rw [keysOf_append, List.nodup_append] at h
    obtain ⟨hl, -, hne⟩ := h
    have he : e.1 ∉ keysOf (ofList l).toList := by
      rw [ih hl]
      exact fun hm => hne _ hm _ (List.mem_singleton_self _) rfl
    rw [ofList_append_singleton]
    refine (setEntry_of_not_mem he e.2).trans ?_
    rw [ih hl]

theorem ofList_toList (d : Dict α) : ofList d.toList = d := by
  have h : (ofList d.toList).entries = d.entries := toList_ofList d.nodup
  cases d
  generalize ofList _ = d' at h
  cases d'
  cases h
  rfl

end Dict

end CodeMatch
