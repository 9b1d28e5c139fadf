/-!
# Dictionaries in insertion order

A `Dict α` maps texts to values and keeps the order in which its keys first came.  Each key occurs
once; that is part of the type.
-/

namespace CodeMatch

universe u v

/-- the keys of a list of entries -/
def keysOf {α : Type u} (l : List (String × α)) : List String := l.map Prod.fst

/-- the entries with the value at `k` set to `v` -/
def setEntry {α : Type u} (k : String) (v : α) : List (String × α) → List (String × α)
  | [] => [(k, v)]
  | (k', v') :: l => if k' = k then (k, v) :: l else (k', v') :: setEntry k v l

theorem mem_keysOf_setEntry {α : Type u} (k x : String) (v : α) (l : List (String × α)) :
    x ∈ keysOf (setEntry k v l) ↔ x = k ∨ x ∈ keysOf l := by
  induction l with
  | nil => simp [setEntry, keysOf]
  | cons e l ih =>
    obtain ⟨k', v'⟩ := e
    simp only [keysOf, setEntry] at ih ⊢
    split
    · rename_i h
      simp [h]
    · simp only [List.map_cons, List.mem_cons, ih]
      constructor
      · rintro (h | h | h) <;> simp [h]
      · rintro (h | h | h) <;> simp [h]

theorem nodup_keysOf_setEntry {α : Type u} (k : String) (v : α) {l : List (String × α)}
    (h : (keysOf l).Nodup) : (keysOf (setEntry k v l)).Nodup := by
  induction l with
  | nil => simp [setEntry, keysOf]
  | cons e l ih =>
    obtain ⟨k', v'⟩ := e
    have hl : k' ∉ keysOf l ∧ (keysOf l).Nodup := List.nodup_cons.mp h
    simp only [setEntry]
    split
    · rename_i hk
      subst hk
      exact List.nodup_cons.mpr hl
    · rename_i hk
      refine List.nodup_cons.mpr ⟨fun hm => ?_, ih hl.2⟩
      rcases (mem_keysOf_setEntry k k' v l).mp hm with h' | h'
      · exact hk h'
      · exact hl.1 h'

structure Dict (α : Type u) where
  entries : List (String × α)
  nodup : (keysOf entries).Nodup

namespace Dict

variable {α : Type u} {β : Type v}

instance [DecidableEq α] : DecidableEq (Dict α) := fun a b =>
  if h : a.entries = b.entries then .isTrue (by cases a; cases b; cases h; rfl)
  else .isFalse fun h' => h (h' ▸ rfl)

def empty : Dict α := ⟨[], List.nodup_nil⟩

instance : EmptyCollection (Dict α) := ⟨empty⟩
instance : Inhabited (Dict α) := ⟨empty⟩

def toList (d : Dict α) : List (String × α) := d.entries
def keys (d : Dict α) : List String := keysOf d.entries
def get? (d : Dict α) (k : String) : Option α := d.entries.lookup k

def insert (d : Dict α) (k : String) (v : α) : Dict α :=
  ⟨setEntry k v d.entries, nodup_keysOf_setEntry k v d.nodup⟩

def insertIfNew (d : Dict α) (k : String) (v : α) : Dict α :=
  if (d.get? k).isSome then d else d.insert k v

/-- the entries of a list, inserted one after the other -/
def ofList (l : List (String × α)) : Dict α := l.foldl (fun d e => d.insert e.1 e.2) empty

theorem keysOf_map (f : α → β) (l : List (String × α)) :
    keysOf (l.map fun e => (e.1, f e.2)) = keysOf l := by
  simp [keysOf]

/-- the same keys, with `f` applied to the values -/
def map (f : α → β) (d : Dict α) : Dict β :=
  ⟨d.entries.map fun e => (e.1, f e.2), by rw [keysOf_map]; exact d.nodup⟩

/-! ## what the operations do to a look-up -/

theorem lookup_setEntry_self (k : String) (v : α) (l : List (String × α)) :
    (setEntry k v l).lookup k = some v := by
  induction l with
  | nil => simp [setEntry]
  | cons e l ih =>
    obtain ⟨k', v'⟩ := e
    simp only [setEntry]
    split
    · simp
    · rename_i h
      have hk : (k == k') = false := beq_eq_false_iff_ne.mpr (Ne.symm h)
      simp [List.lookup_cons, hk, ih]

theorem lookup_setEntry_of_ne {k k' : String} (h : k' ≠ k) (v : α) (l : List (String × α)) :
    (setEntry k v l).lookup k' = l.lookup k' := by
  have hb : (k' == k) = false := beq_eq_false_iff_ne.mpr h
  induction l with
  | nil => simp [setEntry, List.lookup_cons, hb]
  | cons e l ih =>
    obtain ⟨k'', v''⟩ := e
    simp only [setEntry]
    split
    · rename_i hk
      subst hk
      simp [List.lookup_cons, hb]
    · simp [List.lookup_cons, ih]

theorem get?_insert_self (d : Dict α) (k : String) (v : α) : (d.insert k v).get? k = some v :=
  lookup_setEntry_self k v d.entries

theorem get?_insert_of_ne (d : Dict α) {k k' : String} (h : k' ≠ k) (v : α) :
    (d.insert k v).get? k' = d.get? k' :=
  lookup_setEntry_of_ne h v d.entries

theorem get?_insertIfNew_self (d : Dict α) (k : String) (v : α) :
    (d.insertIfNew k v).get? k = some ((d.get? k).getD v) := by
  unfold insertIfNew
  split
  · rename_i h
    obtain ⟨w, hw⟩ := Option.isSome_iff_exists.mp h
    simp [hw]
  · rename_i h
    simp [get?_insert_self, Option.not_isSome_iff_eq_none.mp h]

theorem get?_insertIfNew_of_ne (d : Dict α) {k k' : String} (h : k' ≠ k) (v : α) :
    (d.insertIfNew k v).get? k' = d.get? k' := by
  unfold insertIfNew
  split
  · rfl
  · exact get?_insert_of_ne d h v

theorem ofList_append_singleton (l : List (String × α)) (e : String × α) :
    ofList (l ++ [e]) = (ofList l).insert e.1 e.2 := by
  simp [ofList, List.foldl_append]

end Dict

end CodeMatch
