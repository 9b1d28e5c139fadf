import CodeMatch.Json.Text
import CodeMatch.Proofs.Hex
import CodeMatch.Proofs.Json.Spelling
import Mathlib.Tactic.Common

/-!
# Written text is a spelling

What the writer writes for a value is one of the texts that spell it, unless there are doubles in the
value: those are written in decimals, and that is not how they were given.

* `Exact v`          there is no double in `v`;
* `spells_escaped`, `spells_stringText`   a character and a string as they are written;
* `spread g ts`      texts with commas between them, written out with `g` in front of each, and
                     `separated_spread` says that this is a way to separate them;
* `spells_compact`, `spellsText_compact`   a value on one line.
-/

namespace CodeMatch.Json

/-- no number in the value is a double -/
inductive Exact : Json → Prop
  | null : Exact .null
  | bool (b : Bool) : Exact (.bool b)
  | int (n : Int) : Exact (.int n)
  | text (s : String) : Exact (.text s)
  | list {vs : List Json} (h : ∀ v ∈ vs, Exact v) : Exact (.list vs)
  | object {ms : List (String × Json)} (h : ∀ m ∈ ms, Exact m.2) : Exact (.object ms)

/-! ## strings -/

theorem hex4?_hexDigits {n : Nat} (h : n < 0x10000) :
    ∃ a b c d, Text.hexDigits 4 n = [a, b, c, d] ∧ hex4? a b c d = some n := by
  have hdigit : ∀ k, Hex.digit? (Hex.digit (k % 16)) = some (k % 16) :=
    fun k => Hex.digit?_digit (Nat.mod_lt k (by decide))
  refine ⟨Hex.digit (n / 16 / 16 / 16 % 16), Hex.digit (n / 16 / 16 % 16),
    Hex.digit (n / 16 % 16), Hex.digit (n % 16), rfl, ?_⟩
  rw [hex4?, hdigit, hdigit, hdigit, hdigit]
  simp only [Option.some.injEq]
  omega

/-- a character is no surrogate, and lies within seventeen planes -/
theorem toNat_cases (c : Char) : c.toNat < 0xD800 ∨ 0xDFFF < c.toNat ∧ c.toNat < 0x110000 := c.valid

theorem spells_unicodeEscape {c : Char} (h : c.toNat < 0x10000) :
    SpellsChar c (unicodeEscape c.toNat) := by
  obtain ⟨a, b, d, e, hdigits, hread⟩ := hex4?_hexDigits h
  have hs : ¬ (0xD800 ≤ c.toNat ∧ c.toNat < 0xE000) := by
    have hv := toNat_cases c
    omega
  have hc := SpellsChar.unit hread hs
  rw [Char.ofNat_toNat] at hc
  rw [unicodeEscape, hdigits]
  exact hc

theorem spells_pair {c : Char} (h : 0x10000 ≤ c.toNat) :
    SpellsChar c (unicodeEscape (0xD800 + (c.toNat - 0x10000) / 0x400) ++
      unicodeEscape (0xDC00 + (c.toNat - 0x10000) % 0x400)) := by
  have hv := toNat_cases c
  have hlow : (c.toNat - 0x10000) % 0x400 < 0x400 := Nat.mod_lt _ (by decide)
  obtain ⟨a, b, d, e, hdigits, hread⟩ :=
    hex4?_hexDigits (n := 0xD800 + (c.toNat - 0x10000) / 0x400) (by omega)
  obtain ⟨f, g, i, j, hdigits', hread'⟩ :=
    hex4?_hexDigits (n := 0xDC00 + (c.toNat - 0x10000) % 0x400) (by omega)
  have hpair : pairChar? (0xD800 + (c.toNat - 0x10000) / 0x400)
      (0xDC00 + (c.toNat - 0x10000) % 0x400) = some c := by
    unfold pairChar?
    rw [if_pos (by simp; omega)]
    have hsum : 0x10000 + (0xD800 + (c.toNat - 0x10000) / 0x400 - 0xD800) * 0x400 +
        (0xDC00 + (c.toNat - 0x10000) % 0x400 - 0xDC00) = c.toNat := by omega
    rw [hsum, Char.ofNat_toNat]
  rw [unicodeEscape, unicodeEscape, hdigits, hdigits']
  exact .pair hread hread' hpair

theorem spells_escaped (c : Char) : SpellsChar c (escaped c) := by
  unfold escaped
  split
  case isTrue h => exact .short (by rw [h]; rfl)
  split
  case isTrue h => exact .short (by rw [h]; rfl)
  split
  case isTrue h => exact .short (by rw [h]; rfl)
  split
  case isTrue h => exact .short (by rw [h]; rfl)
  split
  case isTrue h => exact .short (by rw [h]; rfl)
  split
  case isTrue h => exact .short (by rw [h]; rfl)
  split
  case isTrue h => exact .short (by rw [h]; rfl)
  rename_i hq hb _ _ _ _ _
  simp only
  split
  case isTrue h =>
    simp only [Bool.and_eq_true, decide_eq_true_eq] at h
    exact .plain h.1 hq hb
  split
  case isTrue h => exact spells_unicodeEscape h
  case isFalse h => exact spells_pair (Nat.not_lt.mp h)

theorem spells_stringText (s : String) : SpellsString s (stringText s) := by
  refine .intro ?_
  induction s.toList with
  | nil => exact .nil
  | cons c s ih => exact .cons (spells_escaped c) ih

/-! ## values -/

theorem gap_nil : Gap [] := fun _ h => by cases h

/-- the texts `ts` with commas between them, and with `g` in front of each -/
def spread (g : List Char) : List (List Char) → List Char
  | [] => []
  | [t] => g ++ t
  | t :: ts => g ++ t ++ ',' :: spread g ts

/-- which is a way to separate them, once the first `g` is set aside; `g'` is the space behind the last -/
theorem separated_spread {α : Type} {P : α → List Char → Prop} {f : α → List Char} {xs : List α}
    (hne : xs ≠ []) (h : ∀ x ∈ xs, P x (f x)) {g g' : List Char} (hg : Gap g) (hg' : Gap g') :
    ∃ t, spread g (xs.map f) ++ g' = g ++ t ∧ Separated P xs t := by
  induction xs with
  | nil => exact absurd rfl hne
  | cons x xs ih =>
    have hx := h x List.mem_cons_self
    cases xs with
    | nil =>
      refine ⟨f x ++ g', ?_, .one hx hg'⟩
      simp [spread]
    | cons y xs =>
      obtain ⟨t, ht, hs⟩ := ih (List.cons_ne_nil y xs) fun z hz => h z (List.mem_cons_of_mem x hz)
      refine ⟨f x ++ ([] ++ ',' :: (g ++ t)), ?_, .more hx gap_nil hg hs⟩
      rw [← ht]
      simp [spread]

def compactMember (m : String × Json) : List Char := stringText m.1 ++ ':' :: compactChars m.2

theorem compactItems_eq (vs : List Json) : compactItems vs = spread [] (vs.map compactChars) := by
  induction vs with
  | nil => rfl
  | cons v vs ih =>
    cases vs with
    | nil => rfl
    | cons w vs =>
      rw [compactItems, ih]
      · rfl
      · exact List.cons_ne_nil w vs

theorem compactMembers_eq (ms : List (String × Json)) :
    compactMembers ms = spread [] (ms.map compactMember) := by
  induction ms with
  | nil => rfl
  | cons m ms ih =>
    obtain ⟨k, v⟩ := m
    cases ms with
    | nil => rfl
    | cons m ms =>
      rw [compactMembers, ih]
      · rfl
      · exact List.cons_ne_nil m ms

theorem spells_compactMember {m : String × Json} (h : Spells m.2 (compactChars m.2)) :
    SpellsMember Spells m (compactMember m) :=
  .intro (spells_stringText m.1) gap_nil gap_nil h

/-- **What is written on one line is a spelling.** -/
theorem spells_compact {v : Json} (h : v.Exact) : Spells v (compactChars v) := by
  induction h with
  | null => exact .null
  | bool b =>
    cases b with
    | false => exact .no
    | true => exact .yes
  | int n => exact .int n
  | text s => exact .text (spells_stringText s)
  | @list vs hvs ih =>
    by_cases hne : vs = []
    case pos =>
      rw [hne]
      exact .emptyList gap_nil
    case neg =>
      obtain ⟨t, ht, hs⟩ := separated_spread hne ih gap_nil gap_nil
      rw [List.append_nil, List.nil_append] at ht
      rw [compactChars, compactItems_eq, ht]
      exact .list gap_nil hs
  | @object ms hms ih =>
    by_cases hne : ms = []
    case pos =>
      rw [hne]
      exact .emptyObject gap_nil
    case neg =>
      have hmembers := fun m hm => spells_compactMember (ih m hm)
      obtain ⟨t, ht, hs⟩ := separated_spread hne hmembers gap_nil gap_nil
      rw [List.append_nil, List.nil_append] at ht
      rw [compactChars, compactMembers_eq, ht]
      exact .object gap_nil hs

theorem spellsText_compact {v : Json} (h : v.Exact) : SpellsText v v.compact := by
  refine ⟨[], compactChars v, [], gap_nil, spells_compact h, gap_nil, ?_⟩
  rw [compact, String.toList_ofList, List.nil_append, List.append_nil]

end CodeMatch.Json
