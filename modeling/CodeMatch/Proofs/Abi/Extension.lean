import CodeMatch.Proofs.Abi.Frames

/-!
# Bytes behind the data do not matter

A decoder that has succeeded has looked at the data only where there is some, and it has checked each place
against the end of the data.  With more bytes behind the data it finds the same.

* `Persists x y`          what `x` gives, `y` gives as well;
* `Persists.bind`, `Persists.guard`   steps one after the other, and a check that still holds;
* `wordAt_append`, `numberAt_append`, `blob_append`, `checkPointer_append`   the steps that look at the data;
* `decodeAt_append`       every type decodes to the same, from the same position;
* `decodeArguments_append`   so do argument lists.
-/

namespace CodeMatch

/-- a window inside the data is not changed by what comes behind the data -/
theorem Bytes.slice_append_of_le {b : Bytes} {off len : Nat} (h : off + len ≤ b.length) (x : Bytes) :
    slice (b ++ x) off len = slice b off len := by
  rw [slice, slice, List.drop_append_of_le_length (by omega),
    List.take_append_of_le_length (by rw [List.length_drop]; omega)]

namespace Abi

/-- what `x` gives, `y` gives as well -/
def Persists {α : Type} (x y : Except Fault α) : Prop := ∀ a, x = .ok a → y = .ok a

namespace Persists

variable {α β : Type} {x y : Except Fault α}

theorem refl (x : Except Fault α) : Persists x x := fun _ h => h

theorem of_error (f : Fault) (y : Except Fault α) : Persists (.error f) y := by
  intro a h
  cases h

theorem bind {f g : α → Except Fault β} (hx : Persists x y) (hf : ∀ a, Persists (f a) (g a)) :
    Persists (x.bind f) (y.bind g) := by
  intro b h
  obtain ⟨a, ha, hb⟩ := exists_of_bind_eq_ok h
  rw [hx a ha]
  exact hf a b hb

/-- a check that was passed is passed again -/
theorem guard {p q : Prop} [Decidable p] [Decidable q] {f g : Fault} (h : p → q)
    (hx : p → Persists x y) : Persists (if p then x else .error f) (if q then y else .error g) := by
  by_cases hp : p
  · rw [if_pos hp, if_pos (h hp)]
    exact hx hp
  · rw [if_neg hp]
    exact of_error f _

end Persists

section
variable (data x : Bytes)

/-! ## places in the data -/

theorem wordAt_append (pos : Nat) : Persists (wordAt data pos) (wordAt (data ++ x) pos) := by
  have hlen : (data ++ x).length = data.length + x.length := List.length_append
  unfold wordAt
  refine .guard (fun h => by omega) fun h => ?_
  rw [Bytes.slice_append_of_le h]
  exact .refl _

theorem numberAt_append (pos : Nat) : Persists (numberAt data pos) (numberAt (data ++ x) pos) := by
  intro n h
  obtain ⟨b, hb, rfl⟩ := exists_of_map_eq_ok h
  rw [numberAt, wordAt_append data x pos b hb]
  rfl

theorem blob_append (pos : Nat) : Persists (blob data pos) (blob (data ++ x) pos) := by
  have hlen : (data ++ x).length = data.length + x.length := List.length_append
  refine (numberAt_append data x pos).bind fun n => ?_
  dsimp only
  by_cases hover : paddedLength n ≥ lengthBound
  · rw [if_pos hover]
    exact .of_error _ _
  · rw [if_neg hover, if_neg hover]
    by_cases hend : pos + wordSize + paddedLength n > data.length
    · rw [if_pos hend]
      exact .of_error _ _
    · have hn := le_paddedLength n
      have hend' : ¬ pos + wordSize + paddedLength n > (data ++ x).length := by omega
      rw [if_neg hend, if_neg hend', Bytes.slice_append_of_le (by omega),
        Bytes.slice_append_of_le (by omega)]
      exact .refl _

theorem checkPointer_append (base headEnd pos : Nat) :
    Persists (checkPointer data base headEnd pos) (checkPointer (data ++ x) base headEnd pos) := by
  have hlen : (data ++ x).length = data.length + x.length := List.length_append
  refine (numberAt_append data x pos).bind fun offset => ?_
  exact .guard (fun h => ⟨h.1, by omega⟩) fun _ => .refl _

/-! ## types -/

/-- decoding a type gives with `x` behind the data what it gives without -/
def Extends (t : Ty) : Prop :=
  ∀ pos, Persists (decodeAt data t pos) (decodeAt (data ++ x) t pos)

variable {data x}

theorem partAt_append {t : Ty} (ht : Extends data x t) (base pos : Nat) :
    Persists (partAt data base t.isDynamic (decodeAt data t) pos)
      (partAt (data ++ x) base t.isDynamic (decodeAt (data ++ x) t) pos) := by
  unfold partAt
  cases t.isDynamic with
  | true =>
    exact (numberAt_append data x pos).bind fun offset =>
      (ht (base + offset)).bind fun _ => .refl _
  | false => exact ht pos

theorem decodeParts_append {ts : List Ty} (hts : ∀ t ∈ ts, Extends data x t) (base pos : Nat) :
    Persists (decodeParts data base ts pos) (decodeParts (data ++ x) base ts pos) := by
  induction ts generalizing pos with
  | nil => exact .refl _
  | cons t ts ih =>
    have hrest := ih fun u hu => hts u (List.mem_cons_of_mem _ hu)
    rw [decodeParts, decodeParts]
    exact (partAt_append (hts t List.mem_cons_self) base pos).bind fun r =>
      (hrest r.2).bind fun _ => .refl _

theorem checkParts_append {ts : List Ty} (hts : ∀ t ∈ ts, Extends data x t)
    (base headEnd pos : Nat) :
    Persists (checkParts data base headEnd ts pos) (checkParts (data ++ x) base headEnd ts pos) := by
  induction ts generalizing pos with
  | nil => exact .refl _
  | cons t ts ih =>
    have hrest := ih fun u hu => hts u (List.mem_cons_of_mem _ hu)
    rw [checkParts, checkParts]
    cases t.isDynamic with
    | true => exact (checkPointer_append data x base headEnd pos).bind fun _ => hrest _
    | false => exact (hts t List.mem_cons_self pos).bind fun r => hrest r.2

theorem extends_tuple {ts : List Ty} (hts : ∀ t ∈ ts, Extends data x t) :
    Extends data x (.tuple ts) := by
  intro pos
  rw [decodeAt, decodeAt]
  exact (checkParts_append hts _ _ pos).bind fun _ =>
    (decodeParts_append hts _ pos).bind fun _ => .refl _

theorem elementsAt_append {e : Ty} (he : Extends data x e) (n base : Nat) :
    Persists (elementsAt data e.isDynamic (decodeAt data e) n base)
      (elementsAt (data ++ x) e.isDynamic (decodeAt (data ++ x) e) n base) := by
  have hes : ∀ t ∈ List.replicate n e, Extends data x t :=
    List.forall_mem_replicate.mpr (.inr he)
  rw [elementsAt_eq, elementsAt_eq]
  cases e.isDynamic with
  | true => exact extends_tuple hes base
  | false => exact (decodeParts_append hes base base).bind fun _ => .refl _

/-- **Bytes behind the data do not matter** to a decoder that succeeds without them. -/
theorem decodeAt_append (t : Ty) : Extends data x t := by
  induction t using Ty.inductionOn with
  | word w =>
    intro pos
    rw [decodeAt, decodeAt]
    exact (wordAt_append data x pos).bind fun _ => .refl _
  | bytes =>
    intro pos
    rw [decodeAt, decodeAt]
    exact (blob_append data x pos).bind fun _ => .refl _
  | text =>
    intro pos
    rw [decodeAt, decodeAt]
    exact (blob_append data x pos).bind fun _ => .refl _
  | array e size ih =>
    intro pos
    cases size with
    | some n =>
      rw [decodeAt, decodeAt]
      exact elementsAt_append ih n pos
    | none =>
      rw [decodeAt, decodeAt]
      exact (numberAt_append data x pos).bind fun n => elementsAt_append ih n _
  | tuple ts ih => exact extends_tuple ih

theorem decodeArguments_append {ts : List Ty} {vs : List Value}
    (h : decodeArguments ts data = .ok vs) (x : Bytes) : decodeArguments ts (data ++ x) = .ok vs := by
  have hp : Persists (decodeArguments ts data) (decodeArguments ts (data ++ x)) :=
    (decodeAt_append (.tuple ts) 0).bind fun _ => .refl _
  exact hp vs h

end

end Abi

end CodeMatch
