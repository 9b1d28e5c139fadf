import CodeMatch.Proofs.Blueprint.Grammar

/-!
# The width of the length field

Building writes the length of the data in as few bytes as will do.  Parsing takes it in as many as the
head byte says, and forgets how many these were.  So the two are inverse up to that width.

* `fieldWidth b`           the width of the length field, as the head byte of `b` gives it;
* `Narrow b p`             the length field of `b` is no wider than the blueprint `p` in it needs;
* `Spells.eq_iff`          a blueprint is determined by its parts and the width of its length field;
* `build_parse_inverse`    both directions.
-/

namespace CodeMatch.Blueprint

/-- the low two bits of the head byte -/
def fieldWidth (b : Bytes) : Nat := (b.getD 2 0).toNat % 4

/-- no narrower length field would do for the data: two bytes are needed from 256 bytes on -/
def Narrow (b : Bytes) (p : Blueprint) : Prop :=
  fieldWidth b = 0 ∨ fieldWidth b = 1 ∨ (fieldWidth b = 2 ∧ 256 ≤ (p.data.getD []).length)

instance (b : Bytes) (p : Blueprint) : Decidable (Narrow b p) :=
  inferInstanceAs (Decidable (_ ∨ _ ∨ (_ ∧ _)))

section
variable {b : Bytes} {p : Blueprint} {field : Bytes} (h : Spells b p field)
include h

theorem Spells.fieldWidth_eq : fieldWidth b = field.length := by
  rw [h.layout]
  show (UInt8.ofNat (4 * p.version + field.length)).toNat % 4 = field.length
  exact (toNat_head h.version_lt (Nat.lt_succ_of_lt h.width_lt)).2

/-- the length field is determined by its width -/
theorem Spells.field_eq : field = Bytes.ofNat field.length (p.data.getD []).length := by
  rw [h.length_data, Bytes.ofNat_toNat]

/-- **A blueprint is determined by its parts and the width of its length field.** -/
theorem Spells.eq_iff {b' field' : Bytes} (h' : Spells b' p field') :
    b' = b ↔ field'.length = field.length := by
  constructor
  · intro hb
    rw [← h'.fieldWidth_eq, ← h.fieldWidth_eq, hb]
  · intro hlen
    have hfield : field' = field := h'.field_eq.trans (hlen ▸ h.field_eq.symm)
    rw [h'.layout, h.layout, hfield]

/-! ## writing the parts again -/

theorem Spells.length_data_lt : (p.data.getD []).length < Bytes.capacity field.length := by
  rw [h.length_data]
  exact Bytes.toNat_lt field

theorem Spells.width_cases : field.length = 0 ∨ field.length = 1 ∨ field.length = 2 := by
  have hw := h.width_lt
  omega

theorem Spells.writable : Writable p.data p.version where
  nonneg := Int.natCast_nonneg p.version
  version_lt := Int.ofNat_lt.mpr h.version_lt
  length_le d hd := by
    have hlt := h.length_data_lt
    rw [hd] at hlt
    have hle : Bytes.capacity field.length ≤ 65536 := by
      rcases h.width_cases with hw | hw | hw <;> rw [hw] <;> decide
    exact Nat.le_of_lt_succ (Nat.lt_of_lt_of_le hlt hle)

/-- without a length field there is no data, and so none is written -/
theorem Spells.length_lengthField_of_eq_zero (hw : field.length = 0) :
    (lengthField p.data).length = 0 := by
  have hsome := h.isSome_data
  rw [hw] at hsome
  cases hd : p.data with
  | none => rfl
  | some d =>
    rw [hd] at hsome
    exact absurd (hsome.mp rfl) (Nat.lt_irrefl 0)

theorem Spells.exists_data (hw : 0 < field.length) : ∃ d, p.data = some d :=
  Option.isSome_iff_exists.mp (h.isSome_data.mpr hw)

/-- a narrow length field is written in the same width -/
theorem Spells.length_lengthField (hn : Narrow b p) :
    (lengthField p.data).length = field.length := by
  unfold Narrow at hn
  rw [h.fieldWidth_eq] at hn
  have hlt := h.length_data_lt
  have hwr := h.writable.length_le
  rcases hn with hw | hw | ⟨hw, hlen⟩
  · rw [h.length_lengthField_of_eq_zero hw, hw]
  · obtain ⟨d, hd⟩ := h.exists_data (by omega)
    rw [hd, hw] at hlt
    rw [hd, length_lengthField_some, hw]
    exact lengthWidth_of_lt hlt
  · obtain ⟨d, hd⟩ := h.exists_data (by omega)
    rw [hd] at hlen
    rw [hd, length_lengthField_some, hw]
    exact lengthWidth_of_le hlen (hwr d hd)

/-- one that is too wide loses a byte -/
theorem Spells.length_lengthField_succ (hn : ¬ Narrow b p) :
    (lengthField p.data).length + 1 = field.length := by
  unfold Narrow at hn
  rw [h.fieldWidth_eq] at hn
  have hw : field.length = 2 := by
    have hwidth := h.width_lt
    omega
  obtain ⟨d, hd⟩ := h.exists_data (by omega)
  rw [hd] at hn
  have hlen : d.length < 256 := by
    show (Option.getD (some d) []).length < 256
    omega
  rw [hd, length_lengthField_some, hw, lengthWidth_of_lt hlen]

theorem Spells.length_eq : b.length = 3 + field.length + (p.data.getD []).length + p.initcode.length :=
  (laid_of_spells h).length_eq

end

/-- building from the parts of a blueprint lays them out with the narrowest length field -/
theorem exists_rebuild {b field : Bytes} {p : Blueprint} (h : Spells b p field) :
    ∃ b', build p.initcode p.data p.version = .ok b' ∧ Spells b' p (lengthField p.data) := by
  obtain ⟨b', hb'⟩ := exists_build p.initcode h.writable.nonneg h.writable.version_lt
    h.writable.length_le
  exact ⟨b', hb', spells_of_build hb'⟩

/-- **Building and parsing are inverse up to the width of the length field.**  A blueprint can be built
exactly from a version below 64 and data of at most 65535 bytes, and parses to what it was built from.
What has been parsed can be built again: it comes out the same if its length field was narrow, and
otherwise one byte shorter, with the same parts. -/
theorem build_parse_inverse :
    (∀ (initcode : Bytes) (data : Option Bytes) (version : Int),
      ((∃ b, build initcode data version = .ok b) ↔
        (0 ≤ version ∧ version < 64) ∧ ∀ d, data = some d → d.length ≤ 65535) ∧
      ∀ b, build initcode data version = .ok b →
        ∃ v : Nat, (v : Int) = version ∧ parse b = .ok ⟨v, data, initcode⟩) ∧
    ∀ b p, parse b = .ok p →
      ∃ b', build p.initcode p.data p.version = .ok b' ∧ parse b' = .ok p ∧
        (b' = b ↔ Narrow b p) ∧ (¬ Narrow b p → b'.length + 1 = b.length) := by
  refine ⟨fun initcode data version => ⟨⟨?_, ?_⟩, ?_⟩, ?_⟩
  · rintro ⟨b, hb⟩
    obtain ⟨hw, -⟩ := build_eq_ok_iff.mp hb
    exact ⟨⟨hw.nonneg, hw.version_lt⟩, hw.length_le⟩
  · rintro ⟨⟨h0, hv⟩, hd⟩
    exact exists_build initcode h0 hv hd
  · intro b hb
    obtain ⟨hw, -⟩ := build_eq_ok_iff.mp hb
    exact ⟨version.toNat, Int.toNat_of_nonneg hw.nonneg, parse_build hb⟩
  · intro b p hp
    obtain ⟨field, h⟩ := exists_spells_of_parse hp
    obtain ⟨b', hb', h'⟩ := exists_rebuild h
    refine ⟨b', hb', parse_of_spells h', ?_, fun hn => ?_⟩
    · rw [h.eq_iff h']
      refine ⟨fun hlen => ?_, h.length_lengthField⟩
      by_contra hn
      have hsucc := h.length_lengthField_succ hn
      omega
    · have hsucc := h.length_lengthField_succ hn
      rw [h'.length_eq, h.length_eq]
      omega

/-- one byte of data behind a length field of two bytes comes out one byte shorter; empty data is built
and parsed as data; 256 bytes need the two bytes -/
theorem build_parse_inverse_wide :
    let b : Bytes := [0xFE, 0x71, 22, 0, 1, 0xAA, 0x60]
    let p : Blueprint := ⟨5, some [0xAA], [0x60]⟩
    let long : Bytes := [0xFE, 0x71, 2, 1, 0] ++ Bytes.zeros 256
    (parse b = .ok p ∧ ¬ Narrow b p ∧
      ∃ b', build [0x60] (some [0xAA]) 5 = .ok b' ∧ b' ≠ b ∧ b'.length + 1 = b.length ∧
        parse b' = .ok p) ∧
    (∃ b, build [0x60] (some []) 63 = .ok b ∧ parse b = .ok ⟨63, some [], [0x60]⟩) ∧
    ∃ p, parse long = .ok p ∧ build p.initcode p.data p.version = .ok long := by
  intro b p long
  obtain ⟨hbuild, hparse⟩ := build_parse_inverse
  have hp : parse b = .ok p := by rfl
  have hn : ¬ Narrow b p := by decide
  obtain ⟨b', hb', hp', heq, hlen⟩ := hparse b p hp
  obtain ⟨e, he⟩ := (hbuild [0x60] (some []) 63).1.mpr
    ⟨by decide, fun d hd => by cases hd; decide⟩
  obtain ⟨v, hv, hpe⟩ := (hbuild [0x60] (some []) 63).2 e he
  obtain rfl : v = 63 := Int.ofNat.inj hv
  have hzeros : (Bytes.zeros 256).length = 256 := Bytes.length_zeros 256
  have hs : Spells long ⟨0, some (Bytes.zeros 256), []⟩ [1, 0] :=
    ⟨by decide, by decide, by simp, hzeros, (List.append_nil long).symm⟩
  have hl : parse long = .ok ⟨0, some (Bytes.zeros 256), []⟩ := parse_of_spells hs
  obtain ⟨l, hl', -, hleq, -⟩ := hparse long _ hl
  have hnl : Narrow long ⟨0, some (Bytes.zeros 256), []⟩ :=
    .inr (.inr ⟨hs.fieldWidth_eq, Nat.le_of_eq hzeros.symm⟩)
  rw [hleq.mpr hnl] at hl'
  exact ⟨⟨hp, hn, b', hb', mt heq.mp hn, hlen hn, hp'⟩, ⟨e, he, hpe⟩, _, hl, hl'⟩

end CodeMatch.Blueprint
