import CodeMatch.Address
import CodeMatch.Proofs.Hex
import CodeMatch.Proofs.Success

/-!
# Addresses in checksum casing, and their spellings

Checksum casing changes nothing but letter case.  An address is 20 bytes; it may be spelled with or without a
mark and in any letter case.

* `InCasing v s`          the rule of the casing: behind the mark, the letter at `i` is a capital exactly
                          if the hash of the lower-case digits has at least 8 at `i`;
* `inCasing_iff`          `ofBytes` writes an address by this rule, and nothing else does;
* `Spells v s`            the text `s` is a spelling of the address `v`;
* `ofText_eq_ok_iff`      the texts that are taken for an address are its spellings, and all of them have one
                          checksum form, which is its own (`ofText_of_ofText`) and which no other address has
                          (`ofBytes_injective`).
-/

namespace CodeMatch.Address

open Hex (digit digit? halfByte)

theorem lowerDigit_eq_toLower {c : Char} (h : c ∈ Hex.digitChars) : lowerDigit c = c.toLower := by
  have hall : Hex.digitChars.all (fun c => lowerDigit c = c.toLower) = true := by decide
  simpa using List.all_eq_true.mp hall c h

theorem map_lowerDigit_eq {ds : List Char} (h : ∀ c ∈ ds, c ∈ Hex.digitChars) :
    ds.map lowerDigit = ds.map Char.toLower :=
  List.map_congr_left fun c hc => lowerDigit_eq_toLower (h c hc)

/-- a digit of either case is the written digit of its half byte once it is in lower case -/
theorem lowerDigit_of_digit? {c : Char} {n : Nat} (h : digit? c = some n) : lowerDigit c = digit n := by
  rw [lowerDigit_eq_toLower (Hex.mem_digitChars h), (Hex.digit_of_digit? h).2]

theorem digit?_upperDigit {n : Nat} (h : n < 16) : digit? (upperDigit (digit n)) = some n := by
  revert n
  decide

/-! ## casing -/

/-- digits in lower case -/
def IsLower (ds : List Char) : Prop := ∀ c ∈ ds, ∃ n < 16, c = digit n

theorem isLower_cons {c : Char} {ds : List Char} :
    IsLower (c :: ds) ↔ (∃ n < 16, c = digit n) ∧ IsLower ds := List.forall_mem_cons

/-- a digit in either case, whatever the mask says about it -/
theorem digit?_ite (p : Prop) [Decidable p] {n : Nat} (h : n < 16) :
    digit? (if p then upperDigit (digit n) else digit n) = some n := by
  split
  · exact digit?_upperDigit h
  · exact Hex.digit?_digit h

theorem map_lowerDigit_applyMask {ds mask : List Char} (h : IsLower ds)
    (hlen : ds.length ≤ mask.length) : (applyMask ds mask).map lowerDigit = ds := by
  induction ds generalizing mask with
  | nil => rw [applyMask_nil, List.map_nil]
  | cons c ds ih =>
    cases mask with
    | nil => exact absurd hlen (Nat.not_succ_le_zero _)
    | cons m mask =>
      obtain ⟨⟨n, hn, rfl⟩, hds⟩ := isLower_cons.mp h
      rw [applyMask_cons, List.map_cons, lowerDigit_of_digit? (digit?_ite _ hn),
        ih hds (Nat.le_of_succ_le_succ hlen)]

theorem all_isDigit_applyMask {ds : List Char} (h : IsLower ds) (mask : List Char) :
    (applyMask ds mask).all Hex.isDigit = true := by
  induction ds generalizing mask with
  | nil => rw [applyMask_nil, List.all_nil]
  | cons c ds ih =>
    cases mask with
    | nil => rfl
    | cons m mask =>
      obtain ⟨⟨n, hn, rfl⟩, hds⟩ := isLower_cons.mp h
      rw [applyMask_cons, List.all_cons, ih hds, Hex.isDigit, digit?_ite _ hn]
      rfl

/-- the hash has a digit for each digit of an address -/
theorem length_mask (ds : List Char) : (mask ds).length = 64 := by
  rw [mask, Hex.length_digits, Keccak.length_hash]

/-- `s` is the mark and the digits of `v`, each in the letter case that the hash of the lower-case digits
gives it -/
structure InCasing (v : Bytes) (s : String) : Prop where
  length : s.length = 2 + 2 * v.length
  mark : s.toList.take 2 = ['0', 'x']
  casing : ∀ i < 2 * v.length, s.toList[2 + i]? = some
    (let hash := Keccak.hash ((Hex.digits v).map fun c => UInt8.ofNat c.toNat)
     if 8 ≤ halfByte hash i then (digit (halfByte v i)).toUpper else digit (halfByte v i))

theorem upperDigit_digit {n : Nat} (h : n < 16) : upperDigit (digit n) = (digit n).toUpper := by
  revert n
  decide

theorem isLower_digits (v : Bytes) : IsLower (Hex.digits v) := by
  intro c hc
  obtain ⟨x, -, hc⟩ := List.mem_flatMap.mp hc
  have hx := x.toNat_lt
  rcases List.mem_cons.mp hc with rfl | hc
  · exact ⟨x.toNat / 16, by omega, rfl⟩
  · rw [List.mem_singleton] at hc
    exact ⟨x.toNat % 16, by omega, hc⟩

section
variable {v : Bytes} (hv : v.length ≤ 32)
include hv

theorem length_digits_le_mask : (Hex.digits v).length ≤ (mask (Hex.digits v)).length := by
  rw [length_mask, Hex.length_digits]
  omega

theorem length_casing : (casing (Hex.digits v)).length = 2 * v.length := by
  have hle := length_digits_le_mask hv
  rw [casing, applyMask, List.length_zipWith, Nat.min_eq_left hle, Hex.length_digits]

theorem getElem?_casing {i : Nat} (hi : i < 2 * v.length) :
    (casing (Hex.digits v))[i]? = some
      (let hash := Keccak.hash ((Hex.digits v).map fun c => UInt8.ofNat c.toNat)
       if 8 ≤ halfByte hash i then (digit (halfByte v i)).toUpper else digit (halfByte v i)) := by
  have hmask : (mask (Hex.digits v))[i]? = some (digit (halfByte
      (Keccak.hash ((Hex.digits v).map fun c => UInt8.ofNat c.toNat)) i)) :=
    Hex.getElem?_digits (by rw [Keccak.length_hash]; omega)
  rw [casing, applyMask, List.getElem?_zipWith, Hex.getElem?_digits hi, hmask]
  simp only [Hex.digit?_digit (Hex.halfByte_lt _ i), Option.getD_some,
    upperDigit_digit (Hex.halfByte_lt v i), ge_iff_le]

/-- **Addresses are written by the rule of the casing**, and nothing else is. -/
theorem inCasing_iff {s : String} : InCasing v s ↔ s = ofBytes v := by
  have hofBytes : (ofBytes v).toList = '0' :: 'x' :: casing (Hex.digits v) := String.toList_ofList
  constructor
  · intro h
    have hlen : s.toList.length = 2 + 2 * v.length := by rw [String.length_toList, h.length]
    have hdrop : s.toList.drop 2 = casing (Hex.digits v) := by
      apply List.ext_getElem?
      intro i
      rw [List.getElem?_drop]
      by_cases hi : i < 2 * v.length
      · rw [h.casing i hi, getElem?_casing hv hi]
      · rw [List.getElem?_eq_none (by omega),
          List.getElem?_eq_none (by rw [length_casing hv]; omega)]
    apply String.toList_injective
    rw [hofBytes, ← List.take_append_drop 2 s.toList, h.mark, hdrop]
    rfl
  · rintro rfl
    refine ⟨?_, by rw [hofBytes]; rfl, fun i hi => ?_⟩
    · rw [← String.length_toList, hofBytes, List.length_cons, List.length_cons, length_casing hv]
      omega
    · rw [hofBytes, Nat.add_comm, List.getElem?_cons_succ, List.getElem?_cons_succ,
        getElem?_casing hv hi]

end

theorem decode_ofBytes {v : Bytes} (hv : v.length ≤ 32) : Hex.decode (ofBytes v) = .ok v := by
  have hlower := isLower_digits v
  have hmem : ∀ c ∈ casing (Hex.digits v), c ∈ Hex.digitChars := fun c hc =>
    Hex.isDigit_iff.mp (List.all_eq_true.mp (all_isDigit_applyMask hlower _) c hc)
  have heven : (casing (Hex.digits v)).length % 2 = 0 := by
    rw [length_casing hv]
    omega
  obtain ⟨b, hb⟩ := Hex.exists_ofDigits heven hmem
  have hdigits : Hex.digits b = Hex.digits v := by
    rw [(Hex.digits_of_ofDigits hb).1, ← map_lowerDigit_eq hmem, casing,
      map_lowerDigit_applyMask hlower (length_digits_le_mask hv)]
  have hbody : Hex.dropMark (ofBytes v).toList = casing (Hex.digits v) := by
    rw [ofBytes, checksum, String.toList_ofList, Hex.dropMark]
  rw [Hex.decode_eq_ok_iff, hbody, hb, Hex.digits_injective hdigits]

/-! ## spellings -/

structure Spells (v : Bytes) (s : String) : Prop where
  length_eq : v.length = width
  decode_eq : Hex.decode s = .ok v

section
variable {v w : Bytes} {s : String}

theorem digitsOf_of_spells (h : Spells v s) : digitsOf s = .ok (Hex.digits v) := by
  have hv := Hex.decode_eq_ok_iff.mp h.decode_eq
  obtain ⟨hdigits, hmem⟩ := Hex.digits_of_ofDigits hv
  have hall : (Hex.dropMark s.toList).all Hex.isDigit = true :=
    List.all_eq_true.mpr fun c hc => Hex.isDigit_iff.mpr (hmem c hc)
  have hlen : (Hex.digits v).length = 2 * width := by rw [Hex.length_digits, h.length_eq]
  unfold digitsOf
  simp only [map_lowerDigit_eq hmem, ← hdigits]
  rw [if_pos hall, if_pos hlen]

theorem exists_spells_of_digitsOf {ds : List Char} (h : digitsOf s = .ok ds) : ∃ v, Spells v s := by
  unfold digitsOf at h
  dsimp only at h
  split at h
  case isFalse => cases h
  case isTrue hall =>
    split at h
    case isFalse => cases h
    case isTrue hlen =>
      have hmem : ∀ c ∈ Hex.dropMark s.toList, c ∈ Hex.digitChars := fun c hc =>
        Hex.isDigit_iff.mp (List.all_eq_true.mp hall c hc)
      rw [List.length_map] at hlen
      obtain ⟨v, hv⟩ := Hex.exists_ofDigits (by rw [hlen]; rfl) hmem
      have hv' := Hex.length_of_ofDigits hv
      exact ⟨v, by omega, Hex.decode_eq_ok_iff.mpr hv⟩

theorem ofText_of_spells (h : Spells v s) : ofText s = .ok (ofBytes v) := by
  rw [ofText, digitsOf_of_spells h]
  rfl

theorem ofText_eq_ok_iff {a : String} : ofText s = .ok a ↔ ∃ v, Spells v s ∧ a = ofBytes v := by
  constructor
  · intro h
    obtain ⟨ds, hds, -⟩ := exists_of_map_eq_ok h
    obtain ⟨v, hv⟩ := exists_spells_of_digitsOf hds
    rw [ofText_of_spells hv] at h
    cases h
    exact ⟨v, hv, rfl⟩
  · rintro ⟨v, hv, rfl⟩
    exact ofText_of_spells hv

theorem length_le_of_width (h : v.length = width) : v.length ≤ 32 := by
  rw [h]
  decide

/-- the checksum form is itself a spelling -/
theorem spells_ofBytes (h : v.length = width) : Spells v (ofBytes v) :=
  ⟨h, decode_ofBytes (length_le_of_width h)⟩

/-- **An address in checksum casing is its own checksum form.** -/
theorem ofText_of_ofText {a : String} (h : ofText s = .ok a) : ofText a = .ok a := by
  obtain ⟨v, hv, rfl⟩ := ofText_eq_ok_iff.mp h
  exact ofText_of_spells (spells_ofBytes hv.length_eq)

theorem ofBytes_injective (hv : v.length = width) (hw : w.length = width)
    (h : ofBytes v = ofBytes w) : v = w := by
  have hdecode := (spells_ofBytes hv).decode_eq
  rw [h, (spells_ofBytes hw).decode_eq] at hdecode
  exact (Except.ok.inj hdecode).symm

theorem length_ofBytes (h : v.length = width) : (ofBytes v).toList.length = 2 + 2 * width := by
  have hcase := (inCasing_iff (length_le_of_width h)).mpr rfl
  rw [String.length_toList, hcase.length, h]

end

end CodeMatch.Address
