import CodeMatch.Bytes
import CodeMatch.Document
import Mathlib.Tactic.Common

/-!
# Hexadecimal digits, written and read

Which texts are read as bytes is said here without the reader: pairs of digits, behind one mark or none.

* `digitChars`                the digits of either case, and `isDigit_iff`: no other character is read;
* `ofDigits_digits`, `digits_of_ofDigits`   the digits of a byte string spell it, and what is spelled is written
                              with the same digits in lower case;
* `decode_encode`             so what is written is read back;
* `Spells ds s`               the text `s` is the digits `ds`, two for each byte, with or without a mark;
* `decode_eq_ok_iff_spells`   a text is read as `b` exactly if its digits are those of `b` in some case;
* `bytes_read_exactly`        what this means for every field that holds bytes.
-/

namespace CodeMatch.Hex

def digitChars : List Char :=
  ['0', '1', '2', '3', '4', '5', '6', '7', '8', '9', 'a', 'b', 'c', 'd', 'e', 'f', 'A', 'B', 'C', 'D',
    'E', 'F']

/-! ## single digits -/

theorem digit?_digit {n : Nat} (h : n < 16) : digit? (digit n) = some n := by
  revert n
  decide

theorem toNat_lt_of_digit? {c : Char} {n : Nat} (h : digit? c = some n) : c.toNat < 128 := by
  unfold digit? at h
  split at h
  case isTrue hc => exact Nat.lt_of_le_of_lt (show c.toNat ≤ 57 from hc.2) (by decide)
  case isFalse =>
    split at h
    case isTrue hc => exact Nat.lt_of_le_of_lt (show c.toNat ≤ 102 from hc.2) (by decide)
    case isFalse =>
      split at h
      case isTrue hc => exact Nat.lt_of_le_of_lt (show c.toNat ≤ 70 from hc.2) (by decide)
      case isFalse => cases h

theorem isDigit_iff {c : Char} : isDigit c = true ↔ c ∈ digitChars := by
  constructor
  · intro h
    have hall : ∀ k < 128, isDigit (Char.ofNat k) = true → Char.ofNat k ∈ digitChars := by decide
    obtain ⟨n, hn⟩ := Option.isSome_iff_exists.mp h
    have hc := hall c.toNat (toNat_lt_of_digit? hn)
    rw [Char.ofNat_toNat] at hc
    exact hc h
  · intro h
    have hall : digitChars.all isDigit = true := by decide
    exact List.all_eq_true.mp hall c h

theorem mem_digitChars {c : Char} {n : Nat} (h : digit? c = some n) : c ∈ digitChars :=
  isDigit_iff.mp (Option.isSome_iff_exists.mpr ⟨n, h⟩)

theorem digit_of_digit? {c : Char} {n : Nat} (h : digit? c = some n) :
    n < 16 ∧ digit n = c.toLower := by
  have hall : digitChars.all (fun c =>
      (digit? c).all fun n => n < 16 && digit n = c.toLower) = true := by decide
  have hc := List.all_eq_true.mp hall c (mem_digitChars h)
  rw [h] at hc
  simpa using hc

/-! ## runs of digits -/

theorem ofDigits_digits (b : Bytes) : ofDigits (digits b) = some b := by
  induction b with
  | nil => rfl
  | cons x b ih =>
    have hx : x.toNat < 256 := x.toNat_lt
    have hhigh : digit? (digit (x.toNat / 16)) = some (x.toNat / 16) := digit?_digit (by omega)
    have hlow : digit? (digit (x.toNat % 16)) = some (x.toNat % 16) := digit?_digit (by omega)
    rw [digits_cons, ofDigits, hhigh, hlow, ih]
    simp only
    rw [Nat.div_add_mod, UInt8.ofNat_toNat]

theorem digits_injective {a b : Bytes} (h : digits a = digits b) : a = b := by
  have ha := ofDigits_digits a
  rw [h, ofDigits_digits] at ha
  exact (Option.some_inj.mp ha).symm

section
variable {ds : List Char} {b : Bytes}

theorem exists_ofDigits {ds : List Char} (heven : ds.length % 2 = 0) (h : ∀ c ∈ ds, c ∈ digitChars) :
    ∃ b, ofDigits ds = some b := by
  match ds with
  | [] => exact ⟨[], rfl⟩
  | [_] => cases heven
  | c :: d :: r =>
    obtain ⟨hc, hd, hr⟩ := by simpa only [List.forall_mem_cons] using h
    obtain ⟨m, hm⟩ := Option.isSome_iff_exists.mp (isDigit_iff.mpr hc)
    obtain ⟨n, hn⟩ := Option.isSome_iff_exists.mp (isDigit_iff.mpr hd)
    have hrest : r.length % 2 = 0 := by
      rw [List.length_cons, List.length_cons] at heven
      omega
    obtain ⟨b, hb⟩ := exists_ofDigits hrest hr
    exact ⟨_, by rw [ofDigits, hm, hn, hb]⟩

theorem digits_of_ofDigits (h : ofDigits ds = some b) :
    digits b = ds.map Char.toLower ∧ ∀ c ∈ ds, c ∈ digitChars := by
  induction ds using ofDigits.induct generalizing b with
  | case1 =>
    cases h
    exact ⟨rfl, List.forall_mem_nil _⟩
  | case2 c => cases h
  | case3 c d r hi lo bytes hr hd hc ih =>
    rw [ofDigits, hc, hd, hr] at h
    cases h
    obtain ⟨hdigits, hmem⟩ := ih hr
    obtain ⟨hhi, hhi'⟩ := digit_of_digit? hc
    obtain ⟨hlo, hlo'⟩ := digit_of_digit? hd
    have hbyte : (UInt8.ofNat (16 * hi + lo)).toNat = 16 * hi + lo :=
      UInt8.toNat_ofNat_of_lt' (show 16 * hi + lo < 256 by omega)
    have hhigh : (16 * hi + lo) / 16 = hi := by omega
    have hlow : (16 * hi + lo) % 16 = lo := by omega
    refine ⟨?_, List.forall_mem_cons.mpr ⟨mem_digitChars hc,
      List.forall_mem_cons.mpr ⟨mem_digitChars hd, hmem⟩⟩⟩
    rw [digits_cons, hbyte, hhigh, hlow, hhi', hlo', hdigits]
    rfl
  | case4 c d r hnone ih =>
    rw [ofDigits] at h
    split at h
    case h_1 hc hd hr => exact absurd hr (hnone _ _ _ hc hd)
    case h_2 => cases h

/-- digits that are read come in pairs -/
theorem length_of_ofDigits (h : ofDigits ds = some b) : ds.length = 2 * b.length := by
  rw [← length_digits, (digits_of_ofDigits h).1, List.length_map]

end

/-! ## texts -/

theorem decode_eq_ok_iff {s : String} {b : Bytes} :
    decode s = .ok b ↔ ofDigits (dropMark s.toList) = some b := by
  constructor
  · intro h
    unfold decode at h
    dsimp only at h
    split at h
    case isFalse => cases h
    case isTrue =>
      split at h
      case isTrue => cases h
      case isFalse =>
        split at h
        case h_1 hb =>
          cases h
          exact hb
        case h_2 => cases h
  · intro h
    have hmem := (digits_of_ofDigits h).2
    have hdigits : digitChars.all (fun c => c.toNat < 128) = true := by decide
    have hascii : (dropMark s.toList).all (fun c => c.toNat < 128) = true :=
      List.all_eq_true.mpr fun c hc => List.all_eq_true.mp hdigits c (hmem c hc)
    have hlen := length_of_ofDigits h
    unfold decode
    simp only
    rw [if_pos hascii, if_neg (by omega), h]

theorem decode_encode (b : Bytes) : decode (encode b) = .ok b := by
  rw [decode_eq_ok_iff, encode, String.toList_ofList, dropMark, ofDigits_digits]

/-! ## half bytes -/

/-- the half byte at `i`, the high one of each byte first -/
def halfByte (b : Bytes) (i : Nat) : Nat :=
  let x := (b.getD (i / 2) 0).toNat
  if i % 2 = 0 then x / 16 else x % 16

theorem halfByte_lt (b : Bytes) (i : Nat) : halfByte b i < 16 := by
  have hx := (b.getD (i / 2) 0).toNat_lt
  unfold halfByte
  simp only
  split <;> omega

theorem halfByte_cons_add_two (x : UInt8) (b : Bytes) (i : Nat) :
    halfByte (x :: b) (i + 2) = halfByte b i := by
  have hdiv : (i + 2) / 2 = i / 2 + 1 := by omega
  have hmod : (i + 2) % 2 = i % 2 := by omega
  unfold halfByte
  rw [hdiv, hmod, List.getD_cons_succ]

theorem getElem?_digits {b : Bytes} {i : Nat} (h : i < 2 * b.length) :
    (digits b)[i]? = some (digit (halfByte b i)) := by
  induction b generalizing i with
  | nil => exact absurd h (Nat.not_lt_zero i)
  | cons x b ih =>
    rw [digits_cons]
    match i with
    | 0 => rfl
    | 1 => rfl
    | i + 2 =>
      rw [List.length_cons] at h
      rw [halfByte_cons_add_two, List.getElem?_cons_succ, List.getElem?_cons_succ, ih (by omega)]

/-! ## spellings -/

/-- `ds` without a mark, or behind one of the two -/
def Marked (ds cs : List Char) : Prop := cs = ds ∨ cs = '0' :: 'x' :: ds ∨ cs = '0' :: 'X' :: ds

structure Spells (ds : List Char) (s : String) : Prop where
  even : ds.length % 2 = 0
  chars : ∀ c ∈ ds, c ∈ digitChars
  marked : Marked ds s.toList

theorem marked_dropMark (cs : List Char) : Marked (dropMark cs) cs := by
  unfold dropMark
  split
  case h_1 r => exact .inr (.inl rfl)
  case h_2 r => exact .inr (.inr rfl)
  case h_3 => exact .inl rfl

theorem dropMark_of_marked {ds cs : List Char} (h : ∀ c ∈ ds, c ∈ digitChars) (hm : Marked ds cs) :
    dropMark cs = ds := by
  rcases hm with rfl | rfl | rfl
  · unfold dropMark
    split
    case h_1 r => exact absurd (h 'x' (by simp)) (by decide)
    case h_2 r => exact absurd (h 'X' (by simp)) (by decide)
    case h_3 => rfl
  · rfl
  · rfl

section
variable {s : String} {ds : List Char} {b : Bytes}

theorem Spells.dropMark_eq (h : Spells ds s) : dropMark s.toList = ds :=
  dropMark_of_marked h.chars h.marked

theorem Spells.unique {ds' : List Char} (h : Spells ds s) (h' : Spells ds' s) : ds = ds' := by
  rw [← h.dropMark_eq, h'.dropMark_eq]

theorem decode_eq_ok_iff_spells :
    decode s = .ok b ↔ ∃ ds, Spells ds s ∧ digits b = ds.map Char.toLower := by
  rw [decode_eq_ok_iff]
  constructor
  · intro h
    have hlen := length_of_ofDigits h
    obtain ⟨hdigits, hmem⟩ := digits_of_ofDigits h
    exact ⟨dropMark s.toList, ⟨by omega, hmem, marked_dropMark s.toList⟩, hdigits⟩
  · rintro ⟨ds, hs, hdigits⟩
    obtain ⟨b', hb'⟩ := exists_ofDigits hs.even hs.chars
    rw [hs.dropMark_eq, hb', digits_injective (hdigits.trans (digits_of_ofDigits hb').1.symm)]

theorem exists_decode_iff : (∃ b, decode s = .ok b) ↔ ∃ ds, Spells ds s := by
  simp only [decode_eq_ok_iff]
  constructor
  · rintro ⟨b, hb⟩
    obtain ⟨ds, hs, -⟩ := decode_eq_ok_iff_spells.mp (decode_eq_ok_iff.mpr hb)
    exact ⟨ds, hs⟩
  · rintro ⟨ds, hs⟩
    rw [hs.dropMark_eq]
    exact exists_ofDigits hs.even hs.chars

theorem Spells.digits_eq (hs : Spells ds s) (h : decode s = .ok b) :
    digits b = ds.map Char.toLower := by
  obtain ⟨ds', hs', hdigits⟩ := decode_eq_ok_iff_spells.mp h
  rw [hdigits, hs'.unique hs]

theorem Spells.encode_eq (hs : Spells ds s) (h : decode s = .ok b) :
    encode b = String.ofList ('0' :: 'x' :: ds.map Char.toLower) := by
  rw [encode, hs.digits_eq h]

/-- the letter case is all in which the digits of one byte string can differ -/
theorem Spells.eq_iff {t : String} {es : List Char} {b' : Bytes} (hs : Spells ds s)
    (hb : decode s = .ok b) (ht : Spells es t) (hb' : decode t = .ok b') :
    b = b' ↔ ds.map Char.toLower = es.map Char.toLower := by
  rw [← hs.digits_eq hb, ← ht.digits_eq hb']
  exact ⟨congrArg digits, digits_injective⟩

end

end CodeMatch.Hex

namespace CodeMatch.Document

open Checked Hex

theorem bytes_text_eq_valid {s : String} {b : Bytes} :
    Reader.bytes (.text s) = valid b ↔ decode s = .ok b := by
  rw [Reader.bytes]
  cases decode s with
  | ok b' => simp
  | error f => simp [fail]

/-- **The texts that are read as bytes.**  A field takes exactly the texts that are pairs of digits behind one
mark or none, and there is one way to see them so.  Written bytes are read back; bytes that were read are
written as the mark and the same digits in lower case; so two texts are the same bytes exactly if their digits
agree up to their case. -/
theorem bytes_read_exactly (s : String) :
    ((∃ b, Reader.bytes (.text s) = valid b) ↔ ∃ ds, Spells ds s) ∧
    (∀ ds es, Spells ds s → Spells es s → ds = es) ∧
    (∀ b, Reader.bytes (ofBytes b) = valid b) ∧
    ∀ b ds, Reader.bytes (.text s) = valid b → Spells ds s →
      ofBytes b = .text (String.ofList ('0' :: 'x' :: ds.map Char.toLower)) ∧
      ∀ t b' es, Reader.bytes (.text t) = valid b' → Spells es t →
        (b = b' ↔ ds.map Char.toLower = es.map Char.toLower) := by
  simp only [bytes_text_eq_valid]
  refine ⟨exists_decode_iff, fun ds es hs hs' => hs.unique hs', fun b => ?_, ?_⟩
  · rw [bytes_ofBytes_eq, decode_encode]
  · intro b ds hb hs
    refine ⟨?_, fun t b' es hb' ht => hs.eq_iff hb ht hb'⟩
    rw [ofBytes, hs.encode_eq hb]

/-- two bytes in mixed case behind a capital mark, and without one; a second mark, an odd number of digits
and digits of another script are refused -/
theorem bytes_read_exactly_mixed :
    Reader.bytes (.text "0XaBfF") = valid [0xAB, 0xFF] ∧
    Reader.bytes (.text "ABff") = valid [0xAB, 0xFF] ∧
    ofBytes [0xAB, 0xFF] = .text "0xabff" ∧
    ['a', 'B', 'f', 'F'].map Char.toLower = ['A', 'B', 'f', 'f'].map Char.toLower ∧
    (¬ ∃ ds, Spells ds "0x0xab") ∧ (¬ ∃ ds, Spells ds "0xabc") ∧ ¬ ∃ ds, Spells ds "\u0663\u0663" := by
  have hs : Reader.bytes (.text "0XaBfF") = valid [0xAB, 0xFF] := by rfl
  have ht : Reader.bytes (.text "ABff") = valid [0xAB, 0xFF] := by rfl
  have hds : Spells ['a', 'B', 'f', 'F'] "0XaBfF" := ⟨rfl, by simp [digitChars], .inr (.inr rfl)⟩
  have hes : Spells ['A', 'B', 'f', 'f'] "ABff" := ⟨rfl, by simp [digitChars], .inl rfl⟩
  obtain ⟨hwritten, hsame⟩ := (bytes_read_exactly _).2.2.2 _ _ hs hds
  refine ⟨hs, ht, ?_, (hsame _ _ _ ht hes).mp rfl, ?_, ?_, ?_⟩
  · rw [hwritten]
    rfl
  · rw [← (bytes_read_exactly _).1]
    rintro ⟨b, hb⟩
    cases hb
  · rw [← (bytes_read_exactly _).1]
    rintro ⟨b, hb⟩
    cases hb
  · rw [← (bytes_read_exactly _).1]
    rintro ⟨b, hb⟩
    cases hb

end CodeMatch.Document
