import CodeMatch.Proofs.Compiler.Grammar
import CodeMatch.Proofs.Document.Valid
import Mathlib

/-!
# Version texts and their normal form

* `integerOfText_eq_valid`   a run of digits stands for a number exactly if it is a numeral, and then it is
                             the numeral that is written for the number;
* `parts v`                  the parts of a version as they are written;
* `ofText_eq_valid`          a text is taken for the version whose parts it spells, and for no other;
* `text_eq`                  the normal form puts these parts together again;
* `ofText_text`              and is read as the same version.
-/

namespace CodeMatch.CompilerVersion

open Document Checked

namespace Grammar

section
variable {ds : List Char}

/-! ## numbers -/

/-- a run has nothing around it that would be dropped: no sign, no blanks, no fraction, no underscores -/
theorem integerOfText_of_isRun (h : IsRun ds) :
    Reader.integerOfText (String.ofList ds) =
      if ds.all Text.isAsciiDigit then
        if ds.length > Text.longestNumeral then fail .integerTooLong
        else match Text.value? Text.ascii? ds with
          | some n => valid (n : Int)
          | none => fail .badInteger
      else fail .badInteger := by
  have hne : ∀ c : Char, Text.decimal? c = none → c ∉ ds := by
    intro c hc hmem
    have hsome := h.digits c hmem
    rw [hc] at hsome
    cases hsome
  have htrim : Text.trim Text.isSpace ds = ds :=
    Text.trim_of_forall fun c hc => Text.isSpace_of_decimal? (h.digits c hc)
  have hsigned : Text.signed ds = (false, ds) := by
    unfold Text.signed
    split
    case h_1 s => exact absurd List.mem_cons_self (hne '-' (by decide))
    case h_2 s => exact absurd List.mem_cons_self (hne '+' (by decide))
    case h_3 => rfl
  have hpoint : ∀ c ∈ ds, (decide (c ≠ '.')) = true := by
    intro c hc
    have : c ≠ '.' := fun heq => hne '.' (by decide) (heq ▸ hc)
    simpa using this
  have hwhole : Reader.wholePart? ds = some ds := by
    rw [Reader.wholePart?, List.dropWhile_eq_nil_iff.mpr hpoint, List.takeWhile_eq_self_iff.mpr hpoint]
  have hjoined : Text.joined? Text.ascii? ds = if ds.all Text.isAsciiDigit then some ds else none :=
    Text.joined?_of_not_mem (hne '_' (by decide))
  rw [Reader.integerOfText, String.toList_ofList, htrim, hsigned]
  dsimp only
  rw [hwhole, Option.bind_some, hjoined]
  cases ds.all Text.isAsciiDigit <;> rfl

theorem integerOfText_eq_valid (h : IsRun ds) {n : Int} :
    Reader.integerOfText (String.ofList ds) = valid n ↔ IsNumeral ds ∧ Text.integer n = ds := by
  rw [integerOfText_of_isRun h]
  constructor
  · intro hn
    split at hn
    case isFalse => cases hn
    case isTrue hdigits =>
      split at hn
      case isTrue => cases hn
      case isFalse hlen =>
        split at hn
        case h_2 => cases hn
        case h_1 m hm =>
          cases hn
          exact ⟨⟨h.ne_nil, List.all_eq_true.mp hdigits, h.leading, Nat.not_lt.mp hlen⟩,
            Text.natural_of_value? hm h.leading⟩
  · intro ⟨hds, hn⟩
    have hvalue : ∃ m : Nat, Text.value? Text.ascii? ds = some m ∧ n = m := by
      cases n with
      | ofNat m =>
        rw [← hn]
        exact ⟨m, Text.value?_natural m, rfl⟩
      | negSucc m =>
        have hsign : '-' ∈ ds := by
          rw [← hn]
          exact List.mem_cons_self
        exact absurd (hds.digits '-' hsign) (by decide)
    obtain ⟨m, hm, rfl⟩ := hvalue
    rw [if_pos (List.all_eq_true.mpr hds.digits), if_neg (Nat.not_lt.mpr hds.length_le), hm]

theorem IsNumeral.exists_integer (h : IsNumeral ds) : ∃ n : Int, Text.integer n = ds := by
  obtain ⟨m, hm⟩ := Text.exists_value? h.ne_nil h.digits
  exact ⟨m, Text.natural_of_value? hm h.leading⟩

end

end Grammar

open Grammar

/-! ## versions and their parts -/

/-- the parts of a version as they are written -/
def parts (v : CompilerVersion) : Parts :=
  ⟨Text.integer v.major, Text.integer v.minor, Text.integer v.patch,
    v.prerelease.map String.toList, v.build.map String.toList⟩

section
variable {v : CompilerVersion} {p : Parts} {s : String}

theorem exists_parts_eq (h : p.Of IsNumeral) : ∃ v : CompilerVersion, v.parts = p := by
  obtain ⟨major, hmajor⟩ := h.major.exists_integer
  obtain ⟨minor, hminor⟩ := h.minor.exists_integer
  obtain ⟨patch, hpatch⟩ := h.patch.exists_integer
  refine ⟨⟨major, minor, patch, p.prerelease.map String.ofList, p.build.map String.ofList⟩, ?_⟩
  simp [parts, hmajor, hminor, hpatch, Function.comp_def]

theorem ofParts_eq_valid (h : p.Of IsRun) :
    ofParts p = valid v ↔ p.Of IsNumeral ∧ v.parts = p := by
  simp only [ofParts, seq_eq_valid, functor_eq_valid, under_eq_valid,
    integerOfText_eq_valid h.major, integerOfText_eq_valid h.minor, integerOfText_eq_valid h.patch]
  constructor
  · intro ⟨_, ⟨_, ⟨major, ⟨hmajor, emajor⟩, rfl⟩, minor, ⟨hminor, eminor⟩, rfl⟩, patch,
      ⟨hpatch, epatch⟩, hv⟩
    refine ⟨⟨hmajor, hminor, hpatch, h.prerelease, h.build⟩, ?_⟩
    rw [← hv]
    simp [parts, emajor, eminor, epatch, Function.comp_def]
  · intro ⟨hp, hv⟩
    subst hv
    refine ⟨_, ⟨_, ⟨v.major, ⟨hp.major, rfl⟩, rfl⟩, v.minor, ⟨hp.minor, rfl⟩, rfl⟩, v.patch,
      ⟨hp.patch, rfl⟩, ?_⟩
    cases v
    simp [parts, Function.comp_def]

theorem ofText_eq_valid :
    ofText s = valid v ↔ Spells v.parts (Text.trim Text.isBlank s.toList) := by
  rw [ofText]
  constructor
  · intro h
    split at h
    case h_1 p hp =>
      obtain ⟨hn, hv⟩ := (ofParts_eq_valid (parts?_eq_some_iff.mp hp).1).mp h
      rw [hv]
      exact (parts?_eq_some_iff_spells hn).mp hp
    case h_2 => cases h
  · intro h
    rw [(parts?_eq_some_iff_spells h.1).mpr h]
    exact (ofParts_eq_valid h.1.isRun).mpr ⟨h.1, rfl⟩

theorem parts_injective {w : CompilerVersion} (h : v.parts = w.parts) (hv : v.parts.Of IsNumeral) :
    v = w := by
  have hvalid := (ofParts_eq_valid hv.isRun).mpr ⟨hv, rfl⟩
  rw [(ofParts_eq_valid hv.isRun).mpr ⟨hv, h.symm⟩] at hvalid
  cases hvalid
  rfl

/-! ## the normal form -/

theorem isLabelChar_of_mem_body {c : Char} (h : p.Of IsNumeral) (hc : c ∈ p.body) :
    isLabelChar c = true ∨ c = '+' := by
  have hdigits : ∀ ds, IsNumeral ds → c ∈ ds → isLabelChar c = true := by
    intro ds hds hmem
    simp [isLabelChar, hds.digits c hmem]
  have hlabel : ∀ (mark : Char) (o : Option (List Char)), (∀ label ∈ o, IsLabel label) →
      c ∈ labelled mark o → c = mark ∨ isLabelChar c = true := by
    intro mark o ho hmem
    cases o with
    | none => cases hmem
    | some label =>
      rcases List.mem_cons.mp hmem with rfl | hmem
      · exact .inl rfl
      · exact .inr ((ho label rfl).chars c hmem)
  simp only [Parts.body, List.mem_append, List.mem_cons] at hc
  rcases hc with hc | rfl | hc | rfl | hc | hc | hc
  · exact .inl (hdigits _ h.major hc)
  · decide
  · exact .inl (hdigits _ h.minor hc)
  · decide
  · exact .inl (hdigits _ h.patch hc)
  · rcases hlabel '-' _ h.prerelease hc with rfl | hc
    · decide
    · exact .inl hc
  · rcases hlabel '+' _ h.build hc with rfl | hc
    · decide
    · exact .inl hc

theorem isBlank_of_isLabelChar {c : Char} (h : isLabelChar c = true) : Text.isBlank c = false := by
  have hrange : 0x20 < c.toNat ∧ c.toNat < 0x7f := by
    simp only [isLabelChar, Text.isAsciiLetter, Bool.or_eq_true, Bool.and_eq_true,
      decide_eq_true_eq] at h
    rcases h with ((hdigit | hlower | hupper) | rfl) | rfl
    · have := Text.isAsciiDigit_iff.mp hdigit
      omega
    · have ha : 0x61 ≤ c.toNat := hlower.1
      have hz : c.toNat ≤ 0x7a := hlower.2
      omega
    · have ha : 0x41 ≤ c.toNat := hupper.1
      have hz : c.toNat ≤ 0x5a := hupper.2
      omega
    · decide
    · decide
  simp only [Text.isBlank, Text.isSpace, Bool.or_eq_false_iff, Bool.and_eq_false_iff,
    decide_eq_false_iff_not]
  omega

theorem toList_labelText {m : String} {mark : Char} {o : Option String} (hm : m.toList = [mark])
    (h : ∀ label ∈ o.map String.toList, IsLabel label) :
    (labelText m o).toList = labelled mark (o.map String.toList) := by
  cases o with
  | none => rfl
  | some label =>
    have hne : label.isEmpty = false := by
      have := (h label.toList rfl).ne_nil
      simpa using this
    rw [labelText, hne, if_neg (by decide), String.toList_append, hm]
    rfl

theorem text_eq (h : v.parts.Of IsNumeral) : text v = String.ofList ('v' :: v.parts.body) := by
  have hprerelease : (labelText "-" v.prerelease).toList = labelled '-' v.parts.prerelease :=
    toList_labelText rfl h.prerelease
  have hbuild : (labelText "+" v.build).toList = labelled '+' v.parts.build :=
    toList_labelText rfl h.build
  apply String.toList_inj.mp
  simp only [text, Text.integerText, String.toList_append, String.toList_ofList, hprerelease, hbuild]
  simp [Parts.body, parts]

/-- the normal form has no blanks, so nothing is trimmed off it -/
theorem trim_body (h : p.Of IsNumeral) :
    Text.trim Text.isBlank ('v' :: p.body) = 'v' :: p.body := by
  apply Text.trim_of_forall
  intro c hc
  rcases List.mem_cons.mp hc with rfl | hc
  · decide
  · rcases isLabelChar_of_mem_body h hc with hc | rfl
    · exact isBlank_of_isLabelChar hc
    · decide

theorem ofText_text (h : v.parts.Of IsNumeral) : ofText (text v) = valid v := by
  rw [ofText_eq_valid, text_eq h, String.toList_ofList, trim_body h]
  exact ⟨h, .inr rfl⟩

end

/-- **Version texts and their normal form.**  Up to blanks around it a text is taken for a version exactly
if it spells five parts: an optional `v`, three numerals with points between them, and the labels behind
their marks.  It does so in one way only.  The version has these parts, its normal form is the text with a
`v` in front and is read as the same version again, and two texts give one version exactly if they differ
in blanks and the `v` only. -/
theorem ofText_accepts_exactly (s : String) :
    ((∃ v, ofText s = valid v) ↔ ∃ p, Spells p (Text.trim Text.isBlank s.toList)) ∧
    (∀ p q, Spells p (Text.trim Text.isBlank s.toList) → Spells q (Text.trim Text.isBlank s.toList) →
      p = q) ∧
    ∀ v, ofText s = valid v →
      Spells v.parts (Text.trim Text.isBlank s.toList) ∧
      text v = String.ofList ('v' :: dropV (Text.trim Text.isBlank s.toList)) ∧
      ofText (text v) = valid v ∧
      ∀ t w, ofText t = valid w →
        (v = w ↔ dropV (Text.trim Text.isBlank s.toList) = dropV (Text.trim Text.isBlank t.toList)) := by
  refine ⟨⟨?_, ?_⟩, fun p q => Spells.unique, ?_⟩
  · intro ⟨v, hv⟩
    exact ⟨v.parts, ofText_eq_valid.mp hv⟩
  · intro ⟨p, hp⟩
    obtain ⟨v, rfl⟩ := exists_parts_eq hp.1
    exact ⟨v, ofText_eq_valid.mpr hp⟩
  · intro v hv
    have hs := ofText_eq_valid.mp hv
    refine ⟨hs, ?_, ofText_text hs.1, ?_⟩
    · rw [text_eq hs.1, hs.dropV_eq]
    · intro t w hw
      have ht := ofText_eq_valid.mp hw
      constructor
      · intro hvw
        rw [hs.dropV_eq, ht.dropV_eq, hvw]
      · intro hdrop
        -- a text without its `v` is the parts put together, which the scanner takes apart again
        have hbody : v.parts.body = w.parts.body := by rw [← hs.dropV_eq, ← ht.dropV_eq, hdrop]
        have hv' : Spells v.parts v.parts.body := ⟨hs.1, .inl rfl⟩
        have hw' : Spells w.parts v.parts.body := ⟨ht.1, .inl hbody⟩
        exact parts_injective (hv'.unique hw') hs.1

/-- a nightly build, written with blanks and a `v` and without: one version, one normal form -/
theorem ofText_accepts_exactly_nightly :
    let v : CompilerVersion := ⟨0, 8, 24, some "nightly.2024.1.2", some "commit.4b5fa4f5"⟩
    ofText " v0.8.24-nightly.2024.1.2+commit.4b5fa4f5\n" = valid v ∧
    text v = "v0.8.24-nightly.2024.1.2+commit.4b5fa4f5" ∧
    ofText (text v) = valid v ∧
    ofText "0.8.24-nightly.2024.1.2+commit.4b5fa4f5" = valid v ∧
    ofText "01.2.3" = fail (.badVersion "01.2.3") ∧
    ofText "1\u0663.0.0" = (fail .badInteger).under (.key "major") := by
  intro v
  have hs : ofText " v0.8.24-nightly.2024.1.2+commit.4b5fa4f5\n" = valid v := by cbv
  obtain ⟨-, htext, hback, hother⟩ := (ofText_accepts_exactly _).2.2 v hs
  have ht : ofText "0.8.24-nightly.2024.1.2+commit.4b5fa4f5" = valid v := by cbv
  have hsame := (hother _ v ht).mp rfl
  refine ⟨hs, ?_, hback, ht, by cbv, by rfl⟩
  rw [htext, hsame]
  cbv

end CodeMatch.CompilerVersion
