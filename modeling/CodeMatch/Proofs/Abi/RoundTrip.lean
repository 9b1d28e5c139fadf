import CodeMatch.Proofs.Abi.Frames

/-!
# Decoding undoes encoding

An encoding is decoded in place: it stands somewhere in the data, and what stands around it does not
matter.  A reader then gives the value back, unless a length on the way is too large to be read.

* `Occurs data pos code`    `code` stands in `data` at `pos`;
* `Yields x a`              `x` gives `a`, or a length was too large;
* `FrameAt`                 the heads and tails of a frame stand in the data, and its offsets fit;
* `decodeParts_of_frameAt`, `checkParts_of_frameAt`   the parts of such a frame are read back, and its
                            offsets are approved;
* `decodeAt_encode`         a value is read back from its encoding;
* `decodeArguments_encode`  the same for argument lists, with anything behind them.
-/

namespace CodeMatch.Abi

/-! ## bytes in place -/

/-- `code` stands in `data` at `pos` -/
def Occurs (data : Bytes) (pos : Nat) (code : Bytes) : Prop := code <+: data.drop pos

section
variable {data code : Bytes} {pos : Nat}

theorem occurs_append {a b : Bytes} :
    Occurs data pos (a ++ b) ↔ Occurs data pos a ∧ Occurs data (pos + a.length) b := by
  unfold Occurs
  rw [← List.drop_drop]
  constructor
  · rintro ⟨c, hc⟩
    rw [← hc, List.append_assoc, List.drop_left]
    exact ⟨List.prefix_append _ _, List.prefix_append _ _⟩
  · rintro ⟨⟨c, hc⟩, hb⟩
    rw [← hc, List.drop_left] at hb
    rw [← hc]
    exact (List.prefix_append_right_inj a).mpr hb

theorem Occurs.slice (h : Occurs data pos code) : Bytes.slice data pos code.length = code :=
  (List.prefix_iff_eq_take.mp h).symm

theorem Occurs.le_length (h : Occurs data pos code) (hc : 0 < code.length) :
    pos + code.length ≤ data.length := by
  have hle := h.length_le
  rw [List.length_drop] at hle
  omega

theorem wordAt_of_occurs (h : Occurs data pos code) (hc : code.length = wordSize) :
    wordAt data pos = .ok code := by
  have hle := h.le_length (by rw [hc]; decide)
  have hs := h.slice
  rw [hc] at hle hs
  rw [wordAt, if_pos hle, hs]

theorem numberAt_of_occurs {n : Nat} (h : Occurs data pos (Bytes.ofNat wordSize n))
    (hn : n < Bytes.capacity wordSize) : numberAt data pos = .ok n := by
  rw [numberAt, wordAt_of_occurs h (Bytes.length_ofNat _ _)]
  exact congrArg Except.ok (Bytes.toNat_ofNat_of_lt hn)

end

/-! ## readers -/

/-- `x` gives `a`, unless a length is too large to be read -/
def Yields {α : Type} (x : Except Fault α) (a : α) : Prop := x = .ok a ∨ x = .error .lengthOverflow

section
variable {α β : Type} {x : Except Fault α} {a : α}

theorem yields_ok (a : α) : Yields (.ok a) a := .inl rfl

theorem Yields.bind {f : α → Except Fault β} {b : β} (hx : Yields x a) (hf : Yields (f a) b) :
    Yields (x.bind f) b := by
  rcases hx with rfl | rfl
  · exact hf
  · exact .inr rfl

theorem Yields.of_eq (h : x = .ok a) : Yields x a := .inl h

end

section
variable {data : Bytes} {pos : Nat}

/-- a length, that many bytes and zeros up to a whole number of words -/
theorem blob_of_occurs {b : Bytes} (hb : FitsWord b.length)
    (h : Occurs data pos (Bytes.ofNat wordSize b.length ++ padded b)) :
    Yields (blob data pos) (b, pos + wordSize + paddedLength b.length) := by
  have hlen : (Bytes.ofNat wordSize b.length ++ padded b).length =
      wordSize + paddedLength b.length := by
    rw [List.length_append, Bytes.length_ofNat, length_padded]
  have hend := h.le_length (by rw [hlen]; exact Nat.add_pos_left (by decide) _)
  rw [hlen, ← Nat.add_assoc] at hend
  obtain ⟨hword, hpadded⟩ := occurs_append.mp h
  rw [Bytes.length_ofNat] at hpadded
  obtain ⟨hbytes, hzeros⟩ := occurs_append.mp hpadded
  have hpad := hzeros.slice
  rw [Bytes.length_zeros] at hpad
  refine Yields.bind (.of_eq (numberAt_of_occurs hword hb)) ?_
  dsimp only
  by_cases hover : paddedLength b.length ≥ lengthBound
  · exact .inr (if_pos hover)
  · rw [if_neg hover, if_neg (by omega), hpad, hbytes.slice]
    exact .inl (if_pos (paddedWith_replicate 0 _))

theorem textOf_utf8 (s : String) : textOf (utf8 s) = .ok s := by
  have hs : String.fromUTF8? s.toUTF8 = some s := by
    unfold String.fromUTF8?
    split
    case isTrue => rfl
    case isFalse h => exact absurd s.isValidUTF8 h
  unfold textOf utf8
  rw [Array.toArray_toList, hs]

/-- an offset that points behind the head, to an encoding that is not empty -/
theorem checkPointer_of_occurs {base headEnd off : Nat} {code : Bytes}
    (h : Occurs data pos (Bytes.ofNat wordSize off)) (hoff : off < Bytes.capacity wordSize)
    (hhead : headEnd ≤ base + off) (ht : Occurs data (base + off) code) (hc : 0 < code.length) :
    checkPointer data base headEnd pos = .ok () := by
  have hend := ht.le_length hc
  rw [checkPointer, numberAt_of_occurs h hoff]
  exact if_pos ⟨hhead, by omega⟩

end

/-! ## frames -/

/-- the parts of a frame that starts at `base`: heads from `pos` on, tails from the offset `off` on -/
structure FrameAt (data : Bytes) (base pos off : Nat) (ps : List Part) : Prop where
  heads : Occurs data pos (heads off ps)
  tails : Occurs data (base + off) (tails ps)
  fits : offsetsFit off ps = true

section
variable {data : Bytes} {base pos off : Nat} {ps : List Part}

theorem FrameAt.of_occurs (h : Occurs data pos (frame ps)) (hf : frameFits ps = true) :
    FrameAt data pos pos (headLength ps) ps := by
  obtain ⟨hh, ht⟩ := occurs_append.mp h
  rw [length_heads] at ht
  exact ⟨hh, ht, hf⟩

theorem FrameAt.dynamic {p : Part} (hp : p.dynamic = true) (h : FrameAt data base pos off (p :: ps)) :
    Occurs data pos (Bytes.ofNat wordSize off) ∧ off < Bytes.capacity wordSize ∧
      Occurs data (base + off) p.code ∧
      FrameAt data base (pos + wordSize) (off + p.code.length) ps := by
  obtain ⟨hh, ht, hf⟩ := h
  rw [CodeMatch.Abi.heads, if_pos hp] at hh
  rw [CodeMatch.Abi.tails, if_pos hp] at ht
  rw [offsetsFit, if_pos hp, Bool.and_eq_true, decide_eq_true_eq] at hf
  obtain ⟨hword, hh⟩ := occurs_append.mp hh
  obtain ⟨hcode, ht⟩ := occurs_append.mp ht
  rw [Bytes.length_ofNat] at hh
  rw [Nat.add_assoc] at ht
  exact ⟨hword, hf.1, hcode, hh, ht, hf.2⟩

theorem FrameAt.static {p : Part} (hp : ¬ p.dynamic = true)
    (h : FrameAt data base pos off (p :: ps)) :
    Occurs data pos p.code ∧ FrameAt data base (pos + p.code.length) off ps := by
  obtain ⟨hh, ht, hf⟩ := h
  rw [CodeMatch.Abi.heads, if_neg hp] at hh
  rw [CodeMatch.Abi.tails, if_neg hp, List.nil_append] at ht
  rw [offsetsFit, if_neg hp] at hf
  obtain ⟨hcode, hh⟩ := occurs_append.mp hh
  exact ⟨hcode, hh, ht, hf⟩

/-- the encodings of a type are read back from the data, wherever they stand; after a static one the
reader stands behind it -/
def Reads (data : Bytes) (t : Ty) : Prop :=
  ∀ {v pos}, t.Holds v → fits t v = true → Occurs data pos (encode t v) →
    ∃ next, Yields (decodeAt data t pos) (v, next) ∧
      (t.isDynamic = false → next = pos + (encode t v).length)

/-- one part is read back, and the rest of the frame follows -/
theorem partAt_of_frameAt {t : Ty} (hr : Reads data t) {v : Value} (hv : t.Holds v)
    (hf : fits t v = true) (h : FrameAt data base pos off (⟨t.isDynamic, encode t v⟩ :: ps)) :
    ∃ next off', Yields (partAt data base t.isDynamic (decodeAt data t) pos) (v, next) ∧
      next = pos + (if t.isDynamic then wordSize else (encode t v).length) ∧
      FrameAt data base next off' ps := by
  by_cases ht : t.isDynamic = true
  · obtain ⟨hword, hoff, hcode, hrest⟩ := h.dynamic ht
    obtain ⟨q, hd, _⟩ := hr hv hf hcode
    refine ⟨_, _, ?_, by rw [if_pos ht], hrest⟩
    rw [partAt, if_pos ht]
    exact Yields.bind (.of_eq (numberAt_of_occurs hword hoff)) (hd.bind (yields_ok _))
  · obtain ⟨hcode, hrest⟩ := h.static ht
    obtain ⟨q, hd, hq⟩ := hr hv hf hcode
    have hq := hq (Bool.not_eq_true _ ▸ ht)
    refine ⟨_, _, ?_, by rw [if_neg ht], hrest⟩
    rw [partAt, if_neg ht, ← hq]
    exact hd

theorem decodeParts_of_frameAt {ts : List Ty} {vs : List Value} (hr : ∀ t ∈ ts, Reads data t)
    (hv : Ty.HoldsAll ts vs) (hf : fitsAll ts vs = true)
    (h : FrameAt data base pos off (encodeParts ts vs)) :
    Yields (decodeParts data base ts pos) (vs, pos + headLength (encodeParts ts vs)) := by
  induction ts generalizing vs pos off with
  | nil =>
    cases vs with
    | nil => exact yields_ok _
    | cons v vs => cases hv
  | cons t ts ih =>
    cases vs with
    | nil => cases hv
    | cons v vs =>
      obtain ⟨hfv, hfvs⟩ := Bool.and_eq_true_iff.mp hf
      obtain ⟨next, off', hpart, rfl, hrest⟩ := partAt_of_frameAt (hr t List.mem_cons_self) hv.1 hfv h
      have hparts := ih (fun u hu => hr u (List.mem_cons_of_mem _ hu)) hv.2 hfvs hrest
      rw [decodeParts, encodeParts, headLength_cons, ← Nat.add_assoc]
      exact hpart.bind (hparts.bind (yields_ok _))

/-- every offset points behind the head and into the data -/
theorem checkParts_of_frameAt {ts : List Ty} {vs : List Value} {headEnd : Nat}
    (hu : Ty.AllUsable ts) (hr : ∀ t ∈ ts, Reads data t) (hv : Ty.HoldsAll ts vs)
    (hf : fitsAll ts vs = true) (hhead : headEnd ≤ base + off)
    (h : FrameAt data base pos off (encodeParts ts vs)) :
    Yields (checkParts data base headEnd ts pos) () := by
  induction ts generalizing vs pos off with
  | nil => exact yields_ok _
  | cons t ts ih =>
    cases vs with
    | nil => cases hv
    | cons v vs =>
      obtain ⟨hfv, hfvs⟩ := Bool.and_eq_true_iff.mp hf
      have hrs : ∀ u ∈ ts, Reads data u := fun u hu => hr u (List.mem_cons_of_mem _ hu)
      rw [encodeParts] at h
      rw [checkParts]
      by_cases ht : t.isDynamic = true
      · obtain ⟨hword, hoff, hcode, hrest⟩ := h.dynamic ht
        rw [if_pos ht]
        exact Yields.bind
          (.of_eq (checkPointer_of_occurs hword hoff hhead hcode (length_encode_pos hu.1 hv.1)))
          (ih hu.2 hrs hv.2 hfvs (by omega) hrest)
      · obtain ⟨hcode, hrest⟩ := h.static ht
        obtain ⟨q, hd, hq⟩ := hr t List.mem_cons_self hv.1 hfv hcode
        rw [if_neg ht]
        refine hd.bind ?_
        rw [hq (Bool.not_eq_true _ ▸ ht)]
        exact ih hu.2 hrs hv.2 hfvs hhead hrest

/-- a tuple in place: its parts are read back, and the reader stands behind the head -/
theorem decodeAt_tuple_of_occurs {ts : List Ty} {vs : List Value} (hu : Ty.AllUsable ts)
    (hr : ∀ t ∈ ts, Reads data t) (hv : Ty.HoldsAll ts vs) (hf : fitsAll ts vs = true)
    (hfits : frameFits (encodeParts ts vs) = true)
    (h : Occurs data pos (frame (encodeParts ts vs))) :
    Yields (decodeAt data (.tuple ts) pos)
      (.list vs, pos + headLength (encodeParts ts vs)) := by
  have hframe := FrameAt.of_occurs h hfits
  have hhead := countedHead_le_headLength hu hv
  rw [decodeAt]
  exact (checkParts_of_frameAt hu hr hv hf (by omega) hframe).bind
    ((decodeParts_of_frameAt hr hv hf hframe).bind (yields_ok _))

/-- the elements of an array in place -/
theorem elementsAt_of_occurs {e : Ty} {vs : List Value} (hu : e.Usable) (hr : Reads data e)
    (hv : ∀ v ∈ vs, e.Holds v) (hf : fitsAll (List.replicate vs.length e) vs = true)
    (hfits : frameFits (encodeParts (List.replicate vs.length e) vs) = true)
    (h : Occurs data pos (frame (encodeParts (List.replicate vs.length e) vs))) :
    Yields (elementsAt data e.isDynamic (decodeAt data e) vs.length pos)
      (.list vs, pos + headLength (encodeParts (List.replicate vs.length e) vs)) := by
  have hrs : ∀ t ∈ List.replicate vs.length e, Reads data t :=
    List.forall_mem_replicate.mpr (.inr hr)
  have hvs := (holdsAll_replicate e).mpr ⟨rfl, hv⟩
  rw [elementsAt_eq]
  by_cases he : e.isDynamic = true
  · rw [if_pos he]
    exact decodeAt_tuple_of_occurs (allUsable_replicate hu _) hrs hvs hf hfits h
  · rw [if_neg he]
    exact (decodeParts_of_frameAt hrs hvs hf (.of_occurs h hfits)).bind (yields_ok _)

end

/-- a frame without dynamic parts has no tails -/
theorem tails_of_static {ts : List Ty} (h : Ty.anyDynamic ts = false) (vs : List Value) :
    tails (encodeParts ts vs) = [] := by
  induction ts generalizing vs with
  | nil => rfl
  | cons t ts ih =>
    cases vs with
    | nil => rfl
    | cons v vs =>
      obtain ⟨ht, hts⟩ := (Bool.or_eq_false_iff).mp h
      rw [encodeParts, tails, ht, ih hts]
      rfl

theorem length_frame_of_static {ts : List Ty} (h : Ty.anyDynamic ts = false) (vs : List Value) :
    (frame (encodeParts ts vs)).length = headLength (encodeParts ts vs) := by
  rw [length_frame, tails_of_static h, List.length_nil, Nat.add_zero]

theorem anyDynamic_replicate {e : Ty} (he : e.isDynamic = false) (n : Nat) :
    Ty.anyDynamic (List.replicate n e) = false := by
  induction n with
  | zero => rfl
  | succ n ih => rw [List.replicate_succ, Ty.anyDynamic, he, ih, Bool.or_false]

/-- **Decoding undoes encoding**, whatever stands around the encoding. -/
theorem decodeAt_encode {t : Ty} (hu : t.Usable) (data : Bytes) : Reads data t := by
  induction t using Ty.inductionOn with
  | word w =>
    intro v pos hv _ h
    have hlen := Word.length_encode hu hv
    rw [encode] at h
    refine ⟨pos + wordSize, ?_, fun _ => by rw [encode, hlen]⟩
    rw [decodeAt]
    exact Yields.bind (.of_eq (wordAt_of_occurs h hlen))
      (Yields.bind (.of_eq (Word.decode_encode hu hv)) (yields_ok _))
  | bytes =>
    intro v pos hv _ h
    obtain ⟨b, rfl, hb⟩ := Ty.holds_bytes.mp hv
    rw [decodeAt]
    exact ⟨_, (blob_of_occurs hb h).bind (yields_ok _), fun hs => by cases hs⟩
  | text =>
    intro v pos hv _ h
    obtain ⟨s, rfl, hb⟩ := Ty.holds_text.mp hv
    rw [decodeAt]
    exact ⟨_, (blob_of_occurs hb h).bind (Yields.bind (.of_eq (textOf_utf8 s)) (yields_ok _)),
      fun hs => by cases hs⟩
  | array e size ih =>
    intro v pos hv hf h
    obtain ⟨vs, rfl, hlen, hall⟩ := Ty.holds_array.mp hv
    rw [fits_array, Bool.and_eq_true] at hf
    obtain ⟨hf, hfits⟩ := hf
    cases size with
    | some n =>
      cases hlen
      rw [encode_array_some] at h ⊢
      rw [decodeAt]
      refine ⟨_, elementsAt_of_occurs hu.1 (ih hu.1) hall hf hfits h, fun hs => ?_⟩
      have he : e.isDynamic = false := hs
      rw [length_frame_of_static (anyDynamic_replicate he _)]
    | none =>
      rw [encode_array_none] at h
      obtain ⟨hword, hframe⟩ := occurs_append.mp h
      rw [Bytes.length_ofNat] at hframe
      rw [decodeAt]
      exact ⟨_, Yields.bind (.of_eq (numberAt_of_occurs hword hlen))
        (elementsAt_of_occurs hu.1 (ih hu.1) hall hf hfits hframe), fun hs => by cases hs⟩
  | tuple ts ih =>
    intro v pos hv hf h
    obtain ⟨vs, rfl, hall⟩ := Ty.holds_tuple.mp hv
    obtain ⟨hf, hfits⟩ := Bool.and_eq_true_iff.mp hf
    rw [encode] at h ⊢
    refine ⟨_, decodeAt_tuple_of_occurs hu.2
      (fun t ht => ih t ht (Ty.allUsable_iff.mp hu.2 t ht)) hall hf hfits h, fun hs => ?_⟩
    rw [length_frame_of_static hs]

/-- arguments are read back from their encoding, with anything behind it -/
theorem decodeArguments_encode {ts : List Ty} (hu : (Ty.tuple ts).Usable) {vs : List Value}
    (hv : Ty.HoldsAll ts vs) {code : Bytes} (h : encodeArguments ts vs = some code) (rest : Bytes) :
    Yields (decodeArguments ts (code ++ rest)) vs := by
  obtain ⟨hfits, hcode⟩ := Option.ite_some_none_eq_some.mp h
  have hoccurs : Occurs (code ++ rest) 0 (encode (.tuple ts) (.list vs)) := by
    rw [← hcode]
    exact List.prefix_append _ _
  have hv : (Ty.tuple ts).Holds (.list vs) := hv
  obtain ⟨next, hd, _⟩ := decodeAt_encode hu (code ++ rest) hv hfits hoccurs
  exact hd.bind (yields_ok _)

end CodeMatch.Abi
