import CodeMatch.Proofs.Abi.Frames

/-!
# Decoded values have their types

* `numberAt_lt`          a number in a word fits into a word;
* `exists_of_blob`, `fitsWord_of_blob`   the bytes behind a length word are as many as it says, and no more
                         than a length word can say;
* `utf8_of_textOf`       a text has the bytes that it was read from;
* `holdsAll_of_decodeParts`, `holds_of_decodeAt`   whatever is decoded is a value of the type.
-/

namespace CodeMatch.Abi

section
variable {data : Bytes} {pos : Nat}

theorem length_of_wordAt {b : Bytes} (h : wordAt data pos = .ok b) : b.length = wordSize := by
  obtain ⟨hle, h⟩ := of_guard_eq_ok h
  cases h
  rw [Bytes.length_slice]
  omega

theorem numberAt_lt {n : Nat} (h : numberAt data pos = .ok n) : n < Bytes.capacity wordSize := by
  obtain ⟨b, hb, rfl⟩ := exists_of_map_eq_ok h
  rw [← length_of_wordAt hb]
  exact Bytes.toNat_lt b

/-- the bytes that a length word counts, inside the data -/
theorem exists_of_blob {b : Bytes} {next : Nat} (h : blob data pos = .ok (b, next)) :
    ∃ n, numberAt data pos = .ok n ∧ pos + wordSize + paddedLength n ≤ data.length ∧
      b = Bytes.slice data (pos + wordSize) n := by
  obtain ⟨n, hn, h⟩ := exists_of_bind_eq_ok h
  dsimp only at h
  split at h
  case isTrue => cases h
  case isFalse =>
    split at h
    case isTrue => cases h
    case isFalse hend =>
      obtain ⟨_, h⟩ := of_guard_eq_ok h
      cases h
      exact ⟨n, hn, Nat.not_lt.mp hend, rfl⟩

theorem fitsWord_of_blob {b : Bytes} {next : Nat} (h : blob data pos = .ok (b, next)) :
    FitsWord b.length := by
  obtain ⟨n, hn, _, rfl⟩ := exists_of_blob h
  rw [Bytes.length_slice]
  exact Nat.lt_of_le_of_lt (Nat.min_le_left _ _) (numberAt_lt hn)

theorem utf8_of_textOf {b : Bytes} {s : String} (h : textOf b = .ok s) : utf8 s = b := by
  unfold textOf at h
  split at h
  case h_1 s' hs =>
    cases h
    unfold String.fromUTF8? at hs
    split at hs
    case isTrue => cases hs; rfl
    case isFalse => cases hs
  case h_2 => cases h

/-- a part is decoded somewhere -/
theorem exists_of_partAt {base : Nat} {dynamic : Bool} {decode : Nat → Except Fault (Value × Nat)}
    {v : Value} {next : Nat} (h : partAt data base dynamic decode pos = .ok (v, next)) :
    ∃ p q, decode p = .ok (v, q) := by
  unfold partAt at h
  split at h
  case isTrue =>
    obtain ⟨offset, _, h⟩ := exists_of_bind_eq_ok h
    obtain ⟨⟨v', q⟩, hd, h⟩ := exists_of_bind_eq_ok h
    cases h
    exact ⟨_, _, hd⟩
  case isFalse => exact ⟨_, _, h⟩

theorem holdsAll_of_decodeParts {base : Nat} {ts : List Ty} {vs : List Value} {next : Nat}
    (ih : ∀ t ∈ ts, ∀ {p q v}, decodeAt data t p = .ok (v, q) → t.Holds v)
    (h : decodeParts data base ts pos = .ok (vs, next)) : Ty.HoldsAll ts vs := by
  induction ts generalizing pos vs next with
  | nil =>
    cases h
    trivial
  | cons t ts iht =>
    rw [decodeParts] at h
    obtain ⟨⟨v, p⟩, hv, h⟩ := exists_of_bind_eq_ok h
    obtain ⟨⟨vs', q⟩, hvs, h⟩ := exists_of_bind_eq_ok h
    cases h
    obtain ⟨p', q', hd⟩ := exists_of_partAt hv
    exact ⟨ih t List.mem_cons_self hd,
      iht (fun u hu => ih u (List.mem_cons_of_mem _ hu)) hvs⟩

theorem holds_of_decodeAt_tuple {ts : List Ty} {v : Value} {next : Nat}
    (ih : ∀ t ∈ ts, ∀ {p q v}, decodeAt data t p = .ok (v, q) → t.Holds v)
    (h : decodeAt data (.tuple ts) pos = .ok (v, next)) :
    ∃ vs, v = .list vs ∧ Ty.HoldsAll ts vs := by
  rw [decodeAt] at h
  obtain ⟨_, _, h⟩ := exists_of_bind_eq_ok h
  obtain ⟨⟨vs, q⟩, hvs, h⟩ := exists_of_bind_eq_ok h
  cases h
  exact ⟨vs, rfl, holdsAll_of_decodeParts ih hvs⟩

theorem holds_of_elementsAt {e : Ty} {n : Nat} {v : Value} {next : Nat}
    (ih : ∀ {p q v}, decodeAt data e p = .ok (v, q) → e.Holds v)
    (h : elementsAt data e.isDynamic (decodeAt data e) n pos = .ok (v, next)) :
    ∃ vs, v = .list vs ∧ vs.length = n ∧ ∀ v ∈ vs, e.Holds v := by
  have ihs : ∀ t ∈ List.replicate n e, ∀ {p q v}, decodeAt data t p = .ok (v, q) → t.Holds v :=
    List.forall_mem_replicate.mpr (.inr ih)
  rw [elementsAt_eq] at h
  split at h
  case isTrue =>
    obtain ⟨vs, rfl, hall⟩ := holds_of_decodeAt_tuple ihs h
    exact ⟨vs, rfl, (holdsAll_replicate e).mp hall⟩
  case isFalse =>
    obtain ⟨⟨vs, q⟩, hvs, h⟩ := exists_of_bind_eq_ok h
    cases h
    exact ⟨vs, rfl, (holdsAll_replicate e).mp (holdsAll_of_decodeParts ihs hvs)⟩

/-- **What a type decodes to is a value of the type.** -/
theorem holds_of_decodeAt {t : Ty} (hu : t.Usable) {v : Value} {next : Nat}
    (h : decodeAt data t pos = .ok (v, next)) : t.Holds v := by
  induction t using Ty.inductionOn generalizing pos v next with
  | word w =>
    rw [decodeAt] at h
    obtain ⟨b, hb, h⟩ := exists_of_bind_eq_ok h
    obtain ⟨v', hv, h⟩ := exists_of_bind_eq_ok h
    cases h
    exact Word.holds_of_decode hu (length_of_wordAt hb) hv
  | bytes =>
    rw [decodeAt] at h
    obtain ⟨⟨b, q⟩, hb, h⟩ := exists_of_bind_eq_ok h
    cases h
    exact fitsWord_of_blob hb
  | text =>
    rw [decodeAt] at h
    obtain ⟨⟨b, q⟩, hb, h⟩ := exists_of_bind_eq_ok h
    obtain ⟨s, hs, h⟩ := exists_of_bind_eq_ok h
    cases h
    rw [Ty.Holds, utf8_of_textOf hs]
    exact fitsWord_of_blob hb
  | array e size ih =>
    cases size with
    | some n =>
      rw [decodeAt] at h
      obtain ⟨vs, rfl, hlen, hall⟩ := holds_of_elementsAt (ih hu.1) h
      exact ⟨hlen, hall⟩
    | none =>
      rw [decodeAt] at h
      obtain ⟨n, hn, h⟩ := exists_of_bind_eq_ok h
      obtain ⟨vs, rfl, rfl, hall⟩ := holds_of_elementsAt (ih hu.1) h
      exact ⟨numberAt_lt hn, hall⟩
  | tuple ts ih =>
    obtain ⟨vs, rfl, hall⟩ := holds_of_decodeAt_tuple
      (fun t ht => ih t ht (Ty.allUsable_iff.mp hu.2 t ht)) h
    exact hall

theorem holdsAll_of_decodeArguments {ts : List Ty} (hu : (Ty.tuple ts).Usable) {vs : List Value}
    (h : decodeArguments ts data = .ok vs) : Ty.HoldsAll ts vs := by
  obtain ⟨⟨v, next⟩, hd, h⟩ := exists_of_bind_eq_ok h
  obtain ⟨us, rfl, hall⟩ := Ty.holds_tuple.mp (holds_of_decodeAt hu hd)
  cases h
  exact hall

end

end CodeMatch.Abi
