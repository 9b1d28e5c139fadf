import CodeMatch.Proofs.Document.Valid
import CodeMatch.Proofs.Json.Limits
import CodeMatch.Proofs.Json.Written
import Mathlib.Tactic.Common

/-!
# Documents that survive

A value that was read from a document is written, and what was written is read again.  Nothing is lost
on the way, although there are many documents for one value.

* `Fits d v`             the document keeps to the limits on documents, with `d` levels of nesting;
* `Lossless r w free n`  the reader takes what the writer wrote for any value; what is written for a
                         value that was read fits where the document fitted, if there are at least `n`
                         levels; and it has no doubles but those of the free parts of the value;
* `Stable r w free n`    the same for the values that the reader gives;
* `lossless_*`           values without parts;
* `Lossless.option`, `Lossless.list`, `Lossless.dict`   values with parts that survive;
* `Format.RoundTrips f free`   whatever text a value was read from, its texts are read as that value;
* `Stable.roundTrips`    which is so if its documents survive.
-/

namespace CodeMatch.Document

open Checked
open Json (Within)

/-- a document within the limits on documents, with `d` levels of nesting -/
abbrev Fits (d : Nat) (v : Json) : Prop := Within .standard d v

/-- what is written is read as it was, keeps to the limits that what was read kept to, and has no doubles
but those of its free parts -/
structure Lossless {α : Type} (read : Reader α) (write : α → Json) (free : α → List Json)
    (depth : Nat) : Prop where
  reads : ∀ a, read (write a) = valid a
  fits : ∀ {d v a}, depth ≤ d → Fits d v → read v = valid a → Fits d (write a)
  exact : ∀ a, (∀ v ∈ free a, v.Exact) → (write a).Exact

/-- a value without free parts -/
def fixed {α : Type} (_ : α) : List Json := []

/-! ## values without parts -/

theorem lossless_any : Lossless Reader.any id (fun v => [v]) 0 where
  reads := fun _ => rfl
  fits := by
    rintro d v a _ hv ⟨⟩
    exact hv
  exact := fun v h => h v (List.mem_singleton_self v)

theorem lossless_text : Lossless Reader.text .text fixed 0 where
  reads := fun _ => rfl
  fits := fun _ _ _ => .text _ _
  exact := fun s _ => .text s

theorem lossless_bytes : Lossless Reader.bytes ofBytes fixed 0 where
  reads := by
    intro b
    rw [bytes_ofBytes_eq, Hex.decode_encode]
  fits := fun _ _ _ => .text _ _
  exact := fun _ _ => .text _

theorem lossless_flag : Lossless Reader.flag .bool fixed 0 where
  reads := fun _ => rfl
  fits := fun _ _ _ => .bool _ _
  exact := fun b _ => .bool b

theorem lossless_literal (word : String) :
    Lossless (Reader.literal word) (fun _ => .text word) fixed 0 where
  reads := fun _ => if_pos rfl
  fits := fun _ _ _ => .text _ _
  exact := fun _ _ => .text word

theorem lossless_oneOf {α : Type} {table : List (String × α)} {name : α → String}
    (h : ∀ a, table.lookup (name a) = some a) :
    Lossless (Reader.oneOf table) (fun a => .text (name a)) fixed 0 where
  reads := by
    intro a
    rw [Reader.oneOf, h]
  fits := fun _ _ _ => .text _ _
  exact := fun a _ => .text (name a)

/-! ## integers -/

/-- the integer has no more digits than the reader takes -/
def Short (n : Int) : Prop := n.natAbs < 10 ^ Json.Limits.standard.digits

theorem short_of_lt {n : Int} {k : Nat} (hk : k ≤ Json.Limits.standard.digits)
    (h : n.natAbs < 10 ^ k) : Short n :=
  Nat.lt_of_lt_of_le h (Nat.pow_le_pow_right (by decide) hk)

theorem short_of_integerOfText {s : String} {n : Int} (h : Reader.integerOfText s = valid n) :
    Short n := by
  unfold Reader.integerOfText at h
  simp only at h
  split at h
  · cases h
  split at h
  · cases h
  case isFalse hlen =>
    split at h
    case h_1 m hm =>
      cases h
      refine short_of_lt (Nat.not_lt.mp hlen) ?_
      rw [Json.natAbs_withSign]
      exact Text.value?_lt hm
    · cases h

theorem short_of_integer {d : Nat} {v : Json} {n : Int} (hv : Fits d v)
    (h : Reader.integer v = valid n) : Short n := by
  unfold Reader.integer at h
  split at h
  · cases h
    cases hv with
    | int _ hn => exact hn
  · cases h
    refine short_of_lt (k := 1) (by decide) ?_
    split <;> decide
  · split at h
    · split at h
      case isTrue hlt =>
        cases h
        exact short_of_lt (k := 19) (by decide) (Nat.lt_of_lt_of_le hlt (by decide))
      · cases h
    · cases h
  · cases h
  · exact short_of_integerOfText h
  · cases h

theorem lossless_integer : Lossless Reader.integer .int fixed 0 where
  reads := fun _ => rfl
  fits := fun _ hv h => .int _ (short_of_integer hv h)
  exact := fun n _ => .int n

theorem lossless_natural : Lossless Reader.natural ofNat fixed 0 where
  reads := by
    intro n
    have h : ¬ (n : Int) < 0 := Int.not_lt.mpr (Int.natCast_nonneg n)
    show (if (n : Int) < 0 then fail .negative else valid (n : Int).toNat) = valid n
    rw [if_neg h, Int.toNat_natCast]
  fits := by
    intro d v n _ hv h
    obtain ⟨m, hm, h⟩ := bind_eq_valid.mp h
    split at h
    · cases h
    case isFalse hneg =>
      cases h
      have hcast : (m.toNat : Int) = m := Int.toNat_of_nonneg (Int.not_lt.mp hneg)
      refine .int _ ?_
      rw [hcast]
      exact short_of_integer hv hm
  exact := fun n _ => .int n

/-! ## values with parts -/

section
variable {α : Type} {read : Reader α} {write : α → Json} {free : α → List Json} {depth : Nat}
  (h : Lossless read write free depth)
include h

theorem Lossless.mono {depth' : Nat} (hd : depth ≤ depth') : Lossless read write free depth' where
  reads := h.reads
  fits := fun hd' => h.fits (Nat.le_trans hd hd')
  exact := h.exact

/-- more parts may be called free -/
theorem Lossless.of_free (free' : α → List Json) (hf : ∀ a, ∀ v ∈ free a, v ∈ free' a) :
    Lossless read write free' depth where
  reads := h.reads
  fits := h.fits
  exact := fun a ha => h.exact a fun v hv => ha v (hf a v hv)

/-- nothing is written as `null`, so what is there must not be -/
theorem Lossless.option (hn : ∀ a, write a ≠ .null) :
    Lossless (Reader.option read) (Json.ofOption write) (fun o => o.elim [] free) depth where
  reads := by
    intro o
    cases o with
    | none => rfl
    | some a =>
      show Reader.option read (write a) = _
      unfold Reader.option
      split
      case h_1 hv => exact absurd hv (hn a)
      case h_2 => rw [h.reads, map_valid]
  fits := by
    intro d v o hd hv ho
    cases o with
    | none => exact .null d
    | some a =>
      unfold Reader.option at ho
      split at ho
      · cases ho
      · obtain ⟨a', ha, ha'⟩ := map_eq_valid.mp ho
        cases ha'
        exact h.fits hd hv ha
  exact := by
    intro o ho
    cases o with
    | none => exact .null
    | some a => exact h.exact a ho

theorem Lossless.list :
    Lossless (Reader.list read) (fun as => .list (as.map write)) (fun as => as.flatMap free)
      (depth + 1) where
  reads := by
    intro as
    refine list_eq_valid.mpr ⟨_, rfl, ?_⟩
    rw [List.map_map]
    exact List.map_congr_left fun a _ => h.reads a
  fits := by
    intro d v as hd hv hr
    obtain ⟨vs, rfl, hvs⟩ := list_eq_valid.mp hr
    cases hv with
    | @list d _ hv =>
      refine .list fun w hw => ?_
      obtain ⟨a, ha, rfl⟩ := List.mem_map.mp hw
      have hmem : valid a ∈ vs.map read := hvs ▸ List.mem_map_of_mem ha
      obtain ⟨v, hvm, hva⟩ := List.mem_map.mp hmem
      exact h.fits (Nat.le_of_succ_le_succ hd) (hv v hvm) hva
  exact := by
    intro as hfree
    refine .list fun w hw => ?_
    obtain ⟨a, ha, rfl⟩ := List.mem_map.mp hw
    exact h.exact a fun v hv => hfree v (List.mem_flatMap.mpr ⟨a, ha, hv⟩)

theorem Lossless.dict :
    Lossless (Reader.dict read) (Json.ofDict write) (fun d => d.toList.flatMap (free ·.2))
      (depth + 1) where
  reads := by
    intro d
    have hentries : (d.toList.map fun e => (e.1, write e.2)).map (Reader.entry read) =
        d.toList.map valid := by
      rw [List.map_map]
      exact List.map_congr_left fun e _ => entry_eq_valid.mpr ⟨rfl, h.reads e.2⟩
    show (Checked.all _).map Dict.ofList = _
    rw [hentries, all_map_valid, map_valid, Dict.ofList_toList]
  fits := by
    intro d v a hd hv hr
    unfold Reader.dict at hr
    split at hr
    case h_1 ms =>
      obtain ⟨es, hes, rfl⟩ := map_eq_valid.mp hr
      rw [all_eq_valid] at hes
      cases hv with
      | @object d _ hk hv =>
        refine .object ?_ fun m hm => ?_
        · rw [Dict.keysOf_map]
          exact (Dict.ofList es).nodup
        · obtain ⟨e, he, rfl⟩ := List.mem_map.mp hm
          have hmem : valid e ∈ ms.map (Reader.entry read) :=
            hes ▸ List.mem_map_of_mem (Dict.mem_toList_ofList he)
          obtain ⟨m, hmm, hme⟩ := List.mem_map.mp hmem
          exact h.fits (Nat.le_of_succ_le_succ hd) (hv m hmm) (entry_eq_valid.mp hme).2
    case h_2 => cases hr
  exact := by
    intro d hfree
    refine .object fun m hm => ?_
    obtain ⟨e, he, rfl⟩ := List.mem_map.mp hm
    exact h.exact e.2 fun v hv => hfree v (List.mem_flatMap.mpr ⟨e, he, hv⟩)

end

theorem lossless_anyDict : Lossless (Reader.dict .any) (Json.ofDict id) Dict.values 1 :=
  lossless_any.dict.of_free Dict.values fun d v hv => by
    simpa [Dict.values, List.mem_flatMap, eq_comm] using hv

/-! ## texts -/

/-- the same as `Lossless` for values that were read -/
structure Stable {α : Type} (read : Reader α) (write : α → Json) (free : α → List Json)
    (depth : Nat) : Prop where
  reads : ∀ {v a}, read v = valid a → read (write a) = valid a
  fits : ∀ {d v a}, depth ≤ d → Fits d v → read v = valid a → Fits d (write a)
  exact : ∀ a, (∀ v ∈ free a, v.Exact) → (write a).Exact

theorem Lossless.stable {α : Type} {read : Reader α} {write : α → Json} {free : α → List Json}
    {depth : Nat} (h : Lossless read write free depth) : Stable read write free depth where
  reads := fun _ => h.reads _
  fits := h.fits
  exact := h.exact

namespace Format

variable {α : Type}

/-- whatever text a value was read from: if there are no doubles in its free parts, then the text that is
written for it is read as the same value, and so is every other text of the same document -/
def RoundTrips (f : Format α) (free : α → List Json) : Prop :=
  ∀ (text : String) (a : α) (style : KeyStyle), f.readText text = valid a →
    (∀ v ∈ free a, v.Exact) →
    f.readText (f.writeText style a) = valid a ∧
      ∀ s, Json.SpellsText (f.write style a) s → f.readText s = valid a

end Format

theorem Stable.roundTrips {α : Type} {f : Format α} {free : α → List Json} {depth : Nat}
    (h : ∀ style, Stable f.read (f.write style) free depth)
    (hd : depth ≤ Json.Limits.standard.depth) : f.RoundTrips free := by
  intro text a style hread hfree
  have hall : ∀ s, Json.SpellsText (f.write style a) s → f.readText s = valid a := by
    intro s hs
    unfold Format.readText at hread ⊢
    split at hread
    case h_1 v hv =>
      have hfits := (h style).fits hd (Json.within_parse hv) hread
      rw [Json.parse_of_spells (by decide) hfits hs]
      exact (h style).reads hread
    case h_2 => cases hread
  exact ⟨hall _ (Json.spellsText_compact ((h style).exact a hfree)), hall⟩

end CodeMatch.Document
