import CodeMatch.Abi.Codec
import CodeMatch.Proofs.Abi.Words

/-!
# Frames

An array is written and read like a tuple whose parts all have the type of its elements, so that what
is said about the parts of tuples holds for arrays as well.

* `Ty.inductionOn`         induction on types; all parts of a tuple come with their hypothesis;
* `encode_array_some`, `encode_array_none`, `fits_array`, `decodeAt_array_some`, `decodeAt_array_none`
                           arrays as tuples;
* `headWords_le_length_encode`   an encoding has at least the words that the pointer check counts;
* `countedHead_le_headLength`    so the head of a tuple is at least as long as that check takes it for.
-/

namespace CodeMatch.Abi

mutual

@[elab_as_elim]
theorem Ty.inductionOn {P : Ty → Prop} (word : ∀ w, P (.word w)) (bytes : P .bytes) (text : P .text)
    (array : ∀ e size, P e → P (.array e size)) (tuple : ∀ ts, (∀ t ∈ ts, P t) → P (.tuple ts)) :
    ∀ t, P t
  | .word w => word w
  | .bytes => bytes
  | .text => text
  | .array e size => array e size (Ty.inductionOn word bytes text array tuple e)
  | .tuple ts => tuple ts (Ty.inductionOn_all word bytes text array tuple ts)

theorem Ty.inductionOn_all {P : Ty → Prop} (word : ∀ w, P (.word w)) (bytes : P .bytes)
    (text : P .text) (array : ∀ e size, P e → P (.array e size))
    (tuple : ∀ ts, (∀ t ∈ ts, P t) → P (.tuple ts)) : ∀ ts : List Ty, ∀ t ∈ ts, P t
  | [] => List.forall_mem_nil _
  | t :: ts => List.forall_mem_cons.mpr ⟨Ty.inductionOn word bytes text array tuple t,
      Ty.inductionOn_all word bytes text array tuple ts⟩

end

/-! ## values by type -/

namespace Ty

variable {v : Value}

theorem holds_bytes : Ty.bytes.Holds v ↔ ∃ b, v = .bytes b ∧ FitsWord b.length := by
  cases v <;> simp [Ty.Holds]

theorem holds_text : Ty.text.Holds v ↔ ∃ s, v = .text s ∧ FitsWord (utf8 s).length := by
  cases v <;> simp [Ty.Holds]

theorem holds_array {e : Ty} {size : Option Nat} : (Ty.array e size).Holds v ↔
    ∃ vs, v = .list vs ∧ HoldsLength size vs.length ∧ ∀ v ∈ vs, e.Holds v := by
  cases v <;> simp [Ty.Holds]

theorem holds_tuple {ts : List Ty} :
    (Ty.tuple ts).Holds v ↔ ∃ vs, v = .list vs ∧ Ty.HoldsAll ts vs := by
  cases v <;> simp [Ty.Holds]

end Ty

/-! ## arrays as tuples -/

section
variable (e : Ty)

theorem holdsAll_replicate {n : Nat} {vs : List Value} :
    Ty.HoldsAll (List.replicate n e) vs ↔ vs.length = n ∧ ∀ v ∈ vs, e.Holds v := by
  induction vs generalizing n with
  | nil =>
    cases n with
    | zero => simp [Ty.HoldsAll]
    | succ n => simp [Ty.HoldsAll, List.replicate_succ]
  | cons v vs ih =>
    cases n with
    | zero => simp [Ty.HoldsAll]
    | succ n =>
      rw [List.replicate_succ, Ty.HoldsAll, ih, List.length_cons, List.forall_mem_cons,
        Nat.add_right_cancel_iff]
      exact and_left_comm

theorem allUsable_replicate {e : Ty} (he : e.Usable) (n : Nat) :
    Ty.AllUsable (List.replicate n e) :=
  Ty.allUsable_iff.mpr (List.forall_mem_replicate.mpr (.inr he))

theorem encodeParts_replicate (vs : List Value) :
    encodeParts (List.replicate vs.length e) vs = vs.map fun v => ⟨e.isDynamic, encode e v⟩ := by
  induction vs with
  | nil => rfl
  | cons v vs ih =>
    rw [List.length_cons, List.replicate_succ, encodeParts, ih, List.map_cons]

theorem fitsAll_replicate (vs : List Value) :
    fitsAll (List.replicate vs.length e) vs = vs.all fun v => fits e v := by
  induction vs with
  | nil => rfl
  | cons v vs ih => rw [List.length_cons, List.replicate_succ, fitsAll, ih, List.all_cons]

theorem encode_array_some (n : Nat) (vs : List Value) :
    encode (.array e (some n)) (.list vs) =
      frame (encodeParts (List.replicate vs.length e) vs) := by
  rw [encode, encodeParts_replicate]

theorem encode_array_none (vs : List Value) :
    encode (.array e none) (.list vs) = Bytes.ofNat wordSize vs.length ++
      frame (encodeParts (List.replicate vs.length e) vs) := by
  rw [encode, encodeParts_replicate]

theorem fits_array (size : Option Nat) (vs : List Value) :
    fits (.array e size) (.list vs) = (fitsAll (List.replicate vs.length e) vs &&
      frameFits (encodeParts (List.replicate vs.length e) vs)) := by
  rw [fits, encodeParts_replicate, fitsAll_replicate]

variable (data : Bytes)

theorem repeatAt_eq_decodeParts (base n pos : Nat) :
    repeatAt (partAt data base e.isDynamic (decodeAt data e)) n pos =
      decodeParts data base (List.replicate n e) pos := by
  induction n generalizing pos with
  | zero => rfl
  | succ n ih =>
    rw [List.replicate_succ, decodeParts, repeatAt]
    simp only [ih]

theorem checkPointers_eq_checkParts {e : Ty} (he : e.isDynamic = true) (base headEnd n pos : Nat) :
    checkPointers data base headEnd n pos =
      checkParts data base headEnd (List.replicate n e) pos := by
  induction n generalizing pos with
  | zero => rfl
  | succ n ih => rw [List.replicate_succ, checkParts, if_pos he, checkPointers, ih]

theorem headWords_of_isDynamic {t : Ty} (h : t.isDynamic = true) : t.headWords = 1 := by
  unfold Ty.headWords
  split
  · exact if_pos h
  · rfl

theorem countedHead_replicate {e : Ty} (he : e.isDynamic = true) (n : Nat) :
    countedHead (List.replicate n e) = wordSize * n := by
  induction n with
  | zero => rfl
  | succ n ih =>
    rw [List.replicate_succ, countedHead, ih, headWords_of_isDynamic he, Nat.mul_one, Nat.mul_succ,
      Nat.add_comm]

/-- dynamic elements are read like the parts of a tuple; for static ones there is nothing to check -/
theorem elementsAt_eq (n base : Nat) :
    elementsAt data e.isDynamic (decodeAt data e) n base =
      if e.isDynamic then decodeAt data (.tuple (List.replicate n e)) base
      else (decodeParts data base (List.replicate n e) base).bind fun (vs, next) =>
        .ok (.list vs, next) := by
  unfold elementsAt
  rw [repeatAt_eq_decodeParts]
  cases he : e.isDynamic with
  | true =>
    rw [checkPointers_eq_checkParts data he, decodeAt, countedHead_replicate he]
    rfl
  | false => rfl

end

/-! ## sizes -/

theorem le_paddedLength (n : Nat) : n ≤ paddedLength n := by
  unfold paddedLength
  omega

theorem headWords_pos {t : Ty} (h : t.Usable) : 0 < t.headWords := by
  unfold Ty.headWords
  split
  case h_1 e n =>
    split
    · exact Nat.one_pos
    · exact Nat.pos_of_ne_zero fun h0 => h.2 (congrArg some h0)
  case h_2 => exact Nat.one_pos

theorem headLength_cons (p : Part) (ps : List Part) :
    headLength (p :: ps) = (if p.dynamic then wordSize else p.code.length) + headLength ps := rfl

theorem length_frame (ps : List Part) :
    (frame ps).length = headLength ps + (tails ps).length := by
  rw [frame, List.length_append, length_heads]

theorem wordSize_mul_length_le {ts : List Ty} (h : Ty.AllUsable ts) :
    wordSize * ts.length ≤ countedHead ts := by
  induction ts with
  | nil => exact Nat.le_refl 0
  | cons t ts ih =>
    have hrest := ih h.2
    have hword : wordSize * 1 ≤ wordSize * t.headWords :=
      Nat.mul_le_mul_left wordSize (headWords_pos h.1)
    rw [countedHead, List.length_cons, Nat.mul_succ]
    omega

/-- static parts are as long as the pointer check takes them to be, and dynamic ones fill one word -/
theorem countedHead_le {ts : List Ty} {vs : List Value} (hv : Ty.HoldsAll ts vs)
    (hlen : ∀ t ∈ ts, ∀ v, t.Holds v → wordSize * t.headWords ≤ (encode t v).length) :
    countedHead ts ≤ headLength (encodeParts ts vs) := by
  induction ts generalizing vs with
  | nil => exact Nat.zero_le _
  | cons t ts ih =>
    cases vs with
    | nil => cases hv
    | cons v vs =>
      have hrest := ih hv.2 fun u hu => hlen u (List.mem_cons_of_mem _ hu)
      have hhead : wordSize * t.headWords ≤
          if t.isDynamic then wordSize else (encode t v).length := by
        split
        case isTrue ht =>
          rw [headWords_of_isDynamic ht]
          exact Nat.le_refl _
        case isFalse => exact hlen t List.mem_cons_self v hv.1
      rw [countedHead, encodeParts, headLength_cons]
      exact Nat.add_le_add hhead hrest

theorem le_length_frame {ts : List Ty} (hu : Ty.AllUsable ts) {vs : List Value}
    (hv : Ty.HoldsAll ts vs)
    (hlen : ∀ t ∈ ts, ∀ v, t.Holds v → wordSize * t.headWords ≤ (encode t v).length) :
    wordSize * ts.length ≤ (frame (encodeParts ts vs)).length := by
  have hhead := wordSize_mul_length_le hu
  have hcounted := countedHead_le hv hlen
  rw [length_frame]
  omega

/-- an encoding has all the words that the pointer check counts -/
theorem headWords_le_length_encode {t : Ty} (hu : t.Usable) {v : Value} (hv : t.Holds v) :
    wordSize * t.headWords ≤ (encode t v).length := by
  induction t using Ty.inductionOn generalizing v with
  | word w =>
    rw [encode, Word.length_encode hu hv]
    exact Nat.le_refl _
  | bytes =>
    obtain ⟨b, rfl, _⟩ := Ty.holds_bytes.mp hv
    rw [encode, List.length_append, Bytes.length_ofNat]
    exact Nat.le_add_right _ _
  | text =>
    obtain ⟨s, rfl, _⟩ := Ty.holds_text.mp hv
    rw [encode, List.length_append, Bytes.length_ofNat]
    exact Nat.le_add_right _ _
  | array e size ih =>
    obtain ⟨vs, rfl, hlen, hall⟩ := Ty.holds_array.mp hv
    cases size with
    | none =>
      rw [encode_array_none, List.length_append, Bytes.length_ofNat]
      exact Nat.le_add_right _ _
    | some n =>
      have hn : vs.length = n := hlen
      have hle := le_length_frame (allUsable_replicate hu.1 vs.length)
        ((holdsAll_replicate e).mpr ⟨rfl, hall⟩)
        (List.forall_mem_replicate.mpr (.inr fun v hv => ih hu.1 hv))
      have hpos : 0 < n := Nat.pos_of_ne_zero fun h0 => hu.2 (congrArg some h0)
      have hwords : (Ty.array e (some n)).headWords ≤ n := by
        rw [Ty.headWords]
        split
        · exact hpos
        · exact Nat.le_refl n
      rw [List.length_replicate, hn] at hle
      rw [encode_array_some, hn]
      exact Nat.le_trans (Nat.mul_le_mul_left _ hwords) hle
  | tuple ts ih =>
    obtain ⟨vs, rfl, hall⟩ := Ty.holds_tuple.mp hv
    have hle := le_length_frame hu.2 hall fun t ht v hv =>
      ih t ht (Ty.allUsable_iff.mp hu.2 t ht) hv
    have hpos : 0 < ts.length := List.length_pos_iff.mpr hu.1
    rw [encode]
    exact Nat.le_trans (Nat.mul_le_mul_left _ hpos) hle

theorem countedHead_le_headLength {ts : List Ty} (hu : Ty.AllUsable ts) {vs : List Value}
    (hv : Ty.HoldsAll ts vs) : countedHead ts ≤ headLength (encodeParts ts vs) :=
  countedHead_le hv fun t ht _ hv => headWords_le_length_encode (Ty.allUsable_iff.mp hu t ht) hv

/-- no encoding is empty -/
theorem length_encode_pos {t : Ty} (hu : t.Usable) {v : Value} (hv : t.Holds v) :
    0 < (encode t v).length := by
  have hle := headWords_le_length_encode hu hv
  have hpos := Nat.mul_pos (show 0 < wordSize by decide) (headWords_pos hu)
  omega

end CodeMatch.Abi
