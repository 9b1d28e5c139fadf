import CodeMatch.Proofs.Blueprint

/-!
# The grammar of blueprints

A blueprint is a magic, a head byte, a length field, data and initcode.  The parser accepts what is laid
out like that and nothing else, and what it gives back are the parts.

* `Laid b v f d i`    `b` has the version `v`, the length field `f`, the data `d` and the initcode `i`;
* `dataOf f d`        data is there if it has a length field, even if there is nothing in it;
* `parse_take_iff`    a cut anywhere before the initcode is noticed;
* `parse_accepts_exactly`   what is accepted, and what it is taken for.
-/

namespace CodeMatch.Blueprint

/-- `b` is laid out in these parts; the head byte holds the version and the width of the length field -/
structure Laid (b : Bytes) (version : Nat) (field data initcode : Bytes) : Prop where
  version_lt : version < 64
  width_lt : field.length < 3
  length_data : data.length = Bytes.toNat field
  layout : b = [0xFE, 0x71] ++ [UInt8.ofNat (4 * version + field.length)] ++ field ++ data ++ initcode

/-- data without a length field is absent, which differs from empty -/
def dataOf (field data : Bytes) : Option Bytes := if field.length = 0 then none else some data

theorem dataOf_nil (data : Bytes) : dataOf [] data = none := rfl

theorem dataOf_cons (x : UInt8) (field data : Bytes) : dataOf (x :: field) data = some data := rfl

theorem isSome_dataOf (field data : Bytes) : (dataOf field data).isSome ↔ 0 < field.length := by
  cases field with
  | nil => simp [dataOf_nil]
  | cons x field => simp [dataOf_cons]

section
variable {b : Bytes} {version : Nat} {field data initcode : Bytes}

/-- without a length field there is nothing that could be lost -/
theorem getD_dataOf (h : data.length = Bytes.toNat field) : (dataOf field data).getD [] = data := by
  cases field with
  | nil =>
    rw [Bytes.toNat_nil] at h
    rw [List.eq_nil_of_length_eq_zero h]
    rfl
  | cons x field => rfl

theorem Laid.spells (h : Laid b version field data initcode) :
    Spells b ⟨version, dataOf field data, initcode⟩ field where
  version_lt := h.version_lt
  width_lt := h.width_lt
  isSome_data := isSome_dataOf field data
  length_data := by
    rw [getD_dataOf h.length_data]
    exact h.length_data
  layout := by
    rw [getD_dataOf h.length_data]
    exact h.layout

theorem laid_of_spells {p : Blueprint} (h : Spells b p field) :
    Laid b p.version field (p.data.getD []) p.initcode :=
  ⟨h.version_lt, h.width_lt, h.length_data, h.layout⟩

theorem Laid.parse (h : Laid b version field data initcode) :
    parse b = .ok ⟨version, dataOf field data, initcode⟩ := parse_of_spells h.spells

theorem exists_parse_iff :
    (∃ p, Blueprint.parse b = .ok p) ↔
      ∃ version field data initcode, Laid b version field data initcode := by
  constructor
  · rintro ⟨p, hp⟩
    obtain ⟨field, h⟩ := exists_spells_of_parse hp
    exact ⟨_, _, _, _, laid_of_spells h⟩
  · rintro ⟨version, field, data, initcode, h⟩
    exact ⟨_, h.parse⟩

/-! ## one layout only -/

theorem Laid.length_eq (h : Laid b version field data initcode) :
    b.length = 3 + field.length + data.length + initcode.length := by
  rw [h.layout]
  simp only [List.length_append, List.length_cons, List.length_nil]

/-- **The parts are determined**: the head byte gives the version and the width of the length field, which
gives the length of the data. -/
theorem Laid.unique (h : Laid b version field data initcode) {version' : Nat}
    {field' data' initcode' : Bytes} (h' : Laid b version' field' data' initcode') :
    version' = version ∧ field' = field ∧ data' = data ∧ initcode' = initcode := by
  have hb := h'.layout.symm.trans h.layout
  simp only [List.cons_append, List.nil_append, List.append_assoc, List.cons.injEq, true_and] at hb
  obtain ⟨hhead, htail⟩ := hb
  obtain ⟨hv, hw⟩ := toNat_head h.version_lt (Nat.lt_succ_of_lt h.width_lt)
  obtain ⟨hv', hw'⟩ := toNat_head h'.version_lt (Nat.lt_succ_of_lt h'.width_lt)
  rw [hhead] at hv' hw'
  obtain ⟨rfl, hbody⟩ := List.append_inj htail (hw'.symm.trans hw)
  have hlen : data'.length = data.length := h'.length_data.trans h.length_data.symm
  obtain ⟨rfl, rfl⟩ := List.append_inj hbody hlen
  exact ⟨hv'.symm.trans hv, rfl, rfl, rfl⟩

/-! ## cuts -/

theorem Laid.append (h : Laid b version field data initcode) (more : Bytes) :
    Laid (b ++ more) version field data (initcode ++ more) where
  version_lt := h.version_lt
  width_lt := h.width_lt
  length_data := h.length_data
  layout := by rw [h.layout, List.append_assoc]

theorem Laid.take (h : Laid b version field data initcode) {k : Nat}
    (hk : 3 + field.length + data.length ≤ k) :
    Laid (b.take k) version field data (initcode.take (k - (3 + field.length + data.length))) where
  version_lt := h.version_lt
  width_lt := h.width_lt
  length_data := h.length_data
  layout := by
    have hlen : ([0xFE, 0x71] ++ [UInt8.ofNat (4 * version + field.length)] ++ field ++ data).length =
        3 + field.length + data.length := by
      simp only [List.length_append, List.length_cons, List.length_nil]
    rw [h.layout, List.take_append, hlen, List.take_of_length_le (Nat.le_trans (Nat.le_of_eq hlen) hk)]

/-- a cut through the preamble leaves no blueprint: otherwise `b` would be laid out in two ways -/
theorem parse_take_iff (h : Laid b version field data initcode) (k : Nat) :
    (∃ p, Blueprint.parse (b.take k) = .ok p) ↔ 3 + field.length + data.length ≤ k := by
  rw [exists_parse_iff]
  constructor
  · rintro ⟨version', field', data', initcode', hcut⟩
    have hwhole := hcut.append (b.drop k)
    rw [List.take_append_drop] at hwhole
    obtain ⟨-, rfl, rfl, -⟩ := h.unique hwhole
    have hlen := hcut.length_eq
    have hle := List.length_take_le k b
    omega
  · intro hk
    exact ⟨_, _, _, _, h.take hk⟩

end

/-- **The parser accepts exactly the grammar.**  Bytes parse if and only if they are laid out as a blueprint;
then they are so in one way only, and the parser gives these parts.  It never reads past the end: cut short
anywhere before its initcode, a blueprint is refused. -/
theorem parse_accepts_exactly (b : Bytes) :
    ((∃ p, parse b = .ok p) ↔ ∃ version field data initcode, Laid b version field data initcode) ∧
    (∀ version field data initcode, Laid b version field data initcode →
      parse b = .ok ⟨version, if field.length = 0 then none else some data, initcode⟩ ∧
      (∀ version' field' data' initcode', Laid b version' field' data' initcode' →
        version' = version ∧ field' = field ∧ data' = data ∧ initcode' = initcode) ∧
      ∀ k, (∃ p, parse (b.take k) = .ok p) ↔ 3 + field.length + data.length ≤ k) ∧
    ((¬ ∃ version field data initcode, Laid b version field data initcode) →
      ∃ f, parse b = .error f) := by
  refine ⟨exists_parse_iff, fun version field data initcode h => ⟨h.parse, ?_, parse_take_iff h⟩,
    fun hno => ?_⟩
  · intro version' field' data' initcode' h'
    exact h.unique h'
  · rw [← exists_parse_iff] at hno
    cases hp : parse b with
    | ok p => exact absurd ⟨p, hp⟩ hno
    | error f => exact ⟨f, rfl⟩

/-- version 5 with a length field of two bytes for one byte of data: whole it parses, without its data it
does not; empty data is still data, and the width 3 is refused -/
theorem parse_accepts_exactly_two_bytes :
    let b : Bytes := [0xFE, 0x71, 22, 0, 1, 0xAA, 0x60]
    Laid b 5 [0, 1] [0xAA] [0x60] ∧ parse b = .ok ⟨5, some [0xAA], [0x60]⟩ ∧
      (¬ ∃ p, parse (b.take 5) = .ok p) ∧
      parse [0xFE, 0x71, 1, 0] = .ok ⟨0, some [], []⟩ ∧ ∃ f, parse [0xFE, 0x71, 3] = .error f := by
  intro b
  have h : Laid b 5 [0, 1] [0xAA] [0x60] := ⟨by decide, by decide, by decide, rfl⟩
  have hempty : Laid [0xFE, 0x71, 1, 0] 0 [0] [] [] := ⟨by decide, by decide, by decide, rfl⟩
  have hreserved : ¬ ∃ version field data initcode, Laid [0xFE, 0x71, 3] version field data initcode := by
    rw [← exists_parse_iff]
    rintro ⟨p, hp⟩
    cases hp
  obtain ⟨hparse, -, hcut⟩ := (parse_accepts_exactly b).2.1 _ _ _ _ h
  refine ⟨h, hparse, ?_, ((parse_accepts_exactly _).2.1 _ _ _ _ hempty).1,
    (parse_accepts_exactly _).2.2 hreserved⟩
  rw [hcut]
  decide

end CodeMatch.Blueprint
