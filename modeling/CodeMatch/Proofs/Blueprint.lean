import CodeMatch.Blueprint
import CodeMatch.Proofs.Numbers
import Mathlib.Tactic.Common

/-!
# The layout of blueprints

* `Spells b p field`       `b` is the blueprint `p` written with the length field `field`: magic, head
                           byte, length field, data, initcode;
* `exists_spells_of_parse` what parses is laid out that way, so nothing is read past the end of `b`;
* `parse_of_spells`        what is laid out that way parses;
* `lengthWidth_lt_three_iff`   two bytes write the lengths up to 65535;
* `build_eq_ok_iff`        building succeeds exactly on what is `Writable`, with the length field
                           `lengthField`;
* `parse_build`            a blueprint that was built parses to its parts;
* `exists_build`           there is one for each version and each data that can be written.
-/

namespace CodeMatch.Blueprint

/-- `b` is the blueprint `p`, its data length being written in `field` -/
structure Spells (b : Bytes) (p : Blueprint) (field : Bytes) : Prop where
  version_lt : p.version < 64
  width_lt : field.length < 3
  /-- without a length field there is no data at all -/
  isSome_data : p.data.isSome ↔ 0 < field.length
  length_data : (p.data.getD []).length = Bytes.toNat field
  layout : b = preamble p.version field.length field ++ p.data.getD [] ++ p.initcode

/-- the head byte is the version and the width of the length field -/
theorem ofNat_head (head : UInt8) :
    UInt8.ofNat (4 * (head.toNat / 4) + head.toNat % 4) = head := by
  rw [Nat.div_add_mod, UInt8.ofNat_toNat]

theorem preamble_head (head : UInt8) {field : Bytes} (h : field.length = head.toNat % 4) :
    preamble (head.toNat / 4) field.length field = 0xFE :: 0x71 :: head :: field := by
  rw [preamble, h, ofNat_head]

theorem spells_of_parseBody {head : UInt8} {body : Bytes} {p : Blueprint}
    (h : parseBody (head.toNat / 4) (head.toNat % 4) body = .ok p) :
    Spells (0xFE :: 0x71 :: head :: body) p (body.take (head.toNat % 4)) := by
  unfold parseBody at h
  split at h
  · cases h
  rename_i hw
  split at h
  · cases h
  rename_i hlen
  simp only at h
  split at h
  · cases h
  rename_i hdata
  have hhead := head.toNat_lt
  have hfield : (body.take (head.toNat % 4)).length = head.toNat % 4 := by
    rw [List.length_take]
    omega
  have hbody := (List.take_append_drop (head.toNat % 4) body).symm
  generalize body.take (head.toNat % 4) = field at h hdata hfield hbody ⊢
  generalize body.drop (head.toNat % 4) = rest at h hdata hbody
  cases h
  -- without a length field the declared length is zero
  have hd : (if head.toNat % 4 = 0 then none else some (rest.take (Bytes.toNat field))).getD [] =
      rest.take (Bytes.toNat field) := by
    by_cases h0 : head.toNat % 4 = 0
    · have hnil : field = [] := List.eq_nil_of_length_eq_zero (by omega)
      rw [if_pos h0, hnil, Bytes.toNat_nil]
      rfl
    · rw [if_neg h0]
      rfl
  refine ⟨by show head.toNat / 4 < 64; omega, by omega, ?_, ?_, ?_⟩
  · rw [hfield]
    by_cases h0 : head.toNat % 4 = 0
    · simp [h0]
    · simp [h0, Nat.pos_iff_ne_zero]
  · rw [hd, List.length_take]
    omega
  · rw [preamble_head head hfield, hd, hbody, List.append_assoc, List.take_append_drop]
    rfl

/-- **What parses is laid out as a blueprint.** -/
theorem exists_spells_of_parse {b : Bytes} {p : Blueprint} (h : parse b = .ok p) :
    ∃ field, Spells b p field := by
  unfold parse at h
  split at h
  · exact ⟨_, spells_of_parseBody h⟩
  · cases h

/-- the head byte gives the version and the width back -/
theorem toNat_head {version width : Nat} (hv : version < 64) (hw : width < 4) :
    (UInt8.ofNat (4 * version + width)).toNat / 4 = version ∧
      (UInt8.ofNat (4 * version + width)).toNat % 4 = width := by
  rw [UInt8.toNat_ofNat']
  omega

/-- **What is laid out as a blueprint parses.** -/
theorem parse_of_spells {b : Bytes} {p : Blueprint} {field : Bytes} (h : Spells b p field) :
    parse b = .ok p := by
  obtain ⟨version, data, initcode⟩ := p
  have hv := h.version_lt
  have hw := h.width_lt
  have hd := h.length_data
  have hsome := h.isSome_data
  obtain ⟨h4, hm⟩ := toNat_head hv (Nat.lt_succ_of_lt hw)
  have hb : b = 0xFE :: 0x71 :: UInt8.ofNat (4 * version + field.length) ::
      (field ++ (data.getD [] ++ initcode)) := by
    rw [h.layout]
    simp [preamble]
  rw [hb, parse_cons, h4, hm]
  unfold parseBody
  rw [if_neg (by omega), if_neg (by rw [List.length_append]; omega), List.take_left,
    List.drop_left]
  simp only
  simp only at hd hsome
  rw [← hd, if_neg (by rw [List.length_append]; omega), List.take_left, List.drop_left]
  -- data and a length field are there together or not at all
  cases data with
  | none =>
    rw [if_pos (by simpa using hsome)]
  | some d =>
    rw [if_neg (by simpa [Nat.pos_iff_ne_zero] using hsome)]
    rfl

/-! ## building -/

theorem lengthWidth_pos (n : Nat) : 0 < lengthWidth n := by
  rw [lengthWidth]
  split <;> omega

/-- a length can be written in its width -/
theorem lt_capacity_lengthWidth (n : Nat) : n < Bytes.capacity (lengthWidth n) := by
  induction n using Nat.strongRecOn with
  | ind n ih =>
    rw [lengthWidth]
    split
    · assumption
    · have h := ih (n / 256) (by omega)
      rw [Nat.add_comm, Bytes.capacity_succ]
      omega

theorem lengthWidth_lt_three_iff (n : Nat) : lengthWidth n < 3 ↔ n ≤ 65535 := by
  rw [lengthWidth]
  split
  · omega
  · rw [lengthWidth]
    split
    · omega
    · have h := lengthWidth_pos (n / 256 / 256)
      omega

theorem lengthWidth_of_lt {n : Nat} (h : n < 256) : lengthWidth n = 1 := by
  rw [lengthWidth, if_pos h]

theorem lengthWidth_of_le {n : Nat} (h : 256 ≤ n) (hn : n ≤ 65535) : lengthWidth n = 2 := by
  rw [lengthWidth, if_neg (by omega), lengthWidth_of_lt (by omega)]

/-- what can be written: six bits hold the version, and two bytes the length of the data -/
structure Writable (data : Option Bytes) (version : Int) : Prop where
  nonneg : 0 ≤ version
  version_lt : version < 64
  length_le : ∀ d, data = some d → d.length ≤ 65535

/-- the length field that building writes: none without data, else as narrow as can be -/
def lengthField : Option Bytes → Bytes
  | none => []
  | some d => Bytes.ofNat (lengthWidth d.length) d.length

theorem length_lengthField_some (d : Bytes) :
    (lengthField (some d)).length = lengthWidth d.length := Bytes.length_ofNat _ _

theorem toNat_lengthField (data : Option Bytes) :
    Bytes.toNat (lengthField data) = (data.getD []).length := by
  cases data with
  | none => rfl
  | some d => exact Bytes.toNat_ofNat_of_lt (lt_capacity_lengthWidth d.length)

theorem length_lengthField_lt {data : Option Bytes}
    (h : ∀ d, data = some d → d.length ≤ 65535) : (lengthField data).length < 3 := by
  cases data with
  | none => exact Nat.zero_lt_succ 2
  | some d =>
    rw [length_lengthField_some, lengthWidth_lt_three_iff]
    exact h d rfl

/-- **Building succeeds exactly on what can be written**, and lays it out with that length field. -/
theorem build_eq_ok_iff {initcode b : Bytes} {data : Option Bytes} {version : Int} :
    build initcode data version = .ok b ↔ Writable data version ∧
      b = preamble version.toNat (lengthField data).length (lengthField data) ++ data.getD [] ++
        initcode := by
  unfold build
  by_cases hv : 0 ≤ version ∧ version < 64
  · rw [if_pos hv]
    cases data with
    | none =>
      have hw : Writable none version := ⟨hv.1, hv.2, fun d h => by cases h⟩
      simp [hw, lengthField, eq_comm]
    | some d =>
      simp only
      by_cases hd : d.length ≤ 65535
      · have hw : Writable (some d) version := ⟨hv.1, hv.2, fun d' h => by cases h; exact hd⟩
        rw [if_pos ((lengthWidth_lt_three_iff d.length).mpr hd), length_lengthField_some]
        simp [hw, lengthField, eq_comm]
      · rw [if_neg (mt (lengthWidth_lt_three_iff d.length).mp hd)]
        exact iff_of_false (by simp) fun h => hd (h.1.length_le d rfl)
  · rw [if_neg hv]
    exact iff_of_false (by simp) fun h => hv ⟨h.1.nonneg, h.1.version_lt⟩

theorem spells_of_build {initcode b : Bytes} {data : Option Bytes} {version : Int}
    (h : build initcode data version = .ok b) :
    Spells b ⟨version.toNat, data, initcode⟩ (lengthField data) := by
  obtain ⟨hw, hb⟩ := build_eq_ok_iff.mp h
  have h0 := hw.nonneg
  have hv := hw.version_lt
  refine ⟨by show version.toNat < 64; omega, length_lengthField_lt hw.length_le, ?_,
    (toNat_lengthField data).symm, hb⟩
  cases data with
  | none => exact iff_of_false Bool.false_ne_true (Nat.lt_irrefl 0)
  | some d =>
    rw [length_lengthField_some]
    exact iff_of_true rfl (lengthWidth_pos d.length)

/-- **A blueprint that was built parses to its parts.** -/
theorem parse_build {initcode b : Bytes} {data : Option Bytes} {version : Int}
    (h : build initcode data version = .ok b) : parse b = .ok ⟨version.toNat, data, initcode⟩ :=
  parse_of_spells (spells_of_build h)

/-- there is a blueprint for each version that six bits hold and each data whose length two bytes
hold -/
theorem exists_build (initcode : Bytes) {data : Option Bytes} {version : Int} (h0 : 0 ≤ version)
    (hv : version < 64) (hd : ∀ d, data = some d → d.length ≤ 65535) :
    ∃ b, build initcode data version = .ok b :=
  ⟨_, build_eq_ok_iff.mpr ⟨⟨h0, hv, hd⟩, rfl⟩⟩

end CodeMatch.Blueprint
