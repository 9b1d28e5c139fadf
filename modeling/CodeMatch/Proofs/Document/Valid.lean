import CodeMatch.Document
import CodeMatch.Proofs.Dict
import Mathlib.Data.List.Forall2
import Mathlib.Tactic.Common

/-!
# Results without faults

A result that was put together is valid exactly if its parts are; `*_eq_valid` says so for each way of
putting results together, and for lists and dictionaries.
-/

namespace CodeMatch.Document

open Checked (valid)

namespace Checked

universe u v

variable {α : Type u} {β : Type v}

theorem map_eq_valid {f : α → β} {c : Checked α} {b : β} :
    c.map f = valid b ↔ ∃ a, c = valid a ∧ f a = b := by
  cases c <;> simp [map]

theorem under_eq_valid {s : Step} {c : Checked α} {a : α} : c.under s = valid a ↔ c = valid a := by
  cases c <;> simp [under]

theorem bind_eq_valid {f : α → Checked β} {c : Checked α} {b : β} :
    c.bind f = valid b ↔ ∃ a, c = valid a ∧ f a = valid b := by
  cases c <;> simp [bind]

theorem both_eq_valid {c : Checked α} {c' : Checked β} {p : α × β} :
    both c c' = valid p ↔ c = valid p.1 ∧ c' = valid p.2 := by
  obtain ⟨a, b⟩ := p
  cases c <;> cases c' <;> simp [both]

theorem all_eq_valid {cs : List (Checked α)} {as : List α} :
    all cs = valid as ↔ cs = as.map valid := by
  induction cs generalizing as with
  | nil => cases as <;> simp [all]
  | cons c cs ih =>
    rw [all, map_eq_valid]
    constructor
    · rintro ⟨⟨a, bs⟩, h, rfl⟩
      obtain ⟨hc, hcs⟩ := both_eq_valid.mp h
      rw [hc, ih.mp hcs, List.map_cons]
    · intro h
      cases as with
      | nil => cases h
      | cons a as =>
        rw [List.map_cons, List.cons.injEq] at h
        exact ⟨(a, as), both_eq_valid.mpr ⟨h.1, ih.mpr h.2⟩, rfl⟩

section
variable {γ δ : Type}

theorem functor_eq_valid {f : γ → δ} {c : Checked γ} {b : δ} :
    f <$> c = valid b ↔ ∃ a, c = valid a ∧ f a = b := map_eq_valid

theorem seq_eq_valid {cf : Checked (γ → δ)} {c : Checked γ} {b : δ} :
    cf <*> c = valid b ↔ ∃ f, cf = valid f ∧ ∃ a, c = valid a ∧ f a = b := by
  show (both cf c).map _ = valid b ↔ _
  rw [map_eq_valid]
  constructor
  · rintro ⟨⟨f, a⟩, h, hb⟩
    obtain ⟨hf, ha⟩ := both_eq_valid.mp h
    exact ⟨f, hf, a, ha, hb⟩
  · rintro ⟨f, hf, a, ha, hb⟩
    exact ⟨(f, a), both_eq_valid.mpr ⟨hf, ha⟩, hb⟩

end

end Checked

open Checked

/-! ## lists and dictionaries -/

theorem itemsFrom_eq_map_valid {α : Type} {r : Reader α} {n : Nat} {vs : List Json} {as : List α}
    (h : Reader.itemsFrom r n vs = as.map valid) : vs.map r = as.map valid := by
  induction vs generalizing n as with
  | nil => exact h
  | cons v vs ih =>
    cases as with
    | nil => cases h
    | cons a as =>
      rw [Reader.itemsFrom, List.map_cons, List.cons.injEq] at h
      rw [List.map_cons, List.map_cons, under_eq_valid.mp h.1, ih h.2]

theorem itemsFrom_of_map_valid {α : Type} {r : Reader α} {vs : List Json} {as : List α}
    (h : vs.map r = as.map valid) (n : Nat) : Reader.itemsFrom r n vs = as.map valid := by
  induction vs generalizing n as with
  | nil => exact h
  | cons v vs ih =>
    cases as with
    | nil => cases h
    | cons a as =>
      rw [List.map_cons, List.map_cons, List.cons.injEq] at h
      rw [Reader.itemsFrom, h.1, ih h.2, under_valid, List.map_cons]

theorem list_eq_valid {α : Type} {r : Reader α} {v : Json} {as : List α} :
    Reader.list r v = valid as ↔ ∃ vs, v = .list vs ∧ vs.map r = as.map valid := by
  constructor
  · intro h
    unfold Reader.list at h
    split at h
    case h_1 vs => exact ⟨vs, rfl, itemsFrom_eq_map_valid (all_eq_valid.mp h)⟩
    case h_2 => cases h
  · rintro ⟨vs, rfl, h⟩
    exact all_eq_valid.mpr (itemsFrom_of_map_valid h 0)

theorem entry_eq_valid {α : Type} {r : Reader α} {m : String × Json} {e : String × α} :
    Reader.entry r m = valid e ↔ e.1 = m.1 ∧ r m.2 = valid e.2 := by
  rw [Reader.entry, map_eq_valid]
  constructor
  · rintro ⟨a, ha, rfl⟩
    exact ⟨rfl, under_eq_valid.mp ha⟩
  · rintro ⟨hk, hv⟩
    exact ⟨e.2, under_eq_valid.mpr hv, Prod.ext hk.symm rfl⟩

theorem entries_eq_map_valid {α : Type} {r : Reader α} {ms : List (String × Json)}
    {es : List (String × α)} :
    ms.map (Reader.entry r) = es.map valid ↔
      List.Forall₂ (fun e m => e.1 = m.1 ∧ r m.2 = valid e.2) es ms := by
  induction ms generalizing es with
  | nil => cases es <;> simp
  | cons m ms ih =>
    cases es with
    | nil => simp
    | cons e es =>
      rw [List.map_cons, List.map_cons, List.cons.injEq, List.forall₂_cons, entry_eq_valid, ih]

/-- from an object with distinct keys come its own entries, in their order -/
theorem dict_eq_valid {α : Type} {r : Reader α} {ms : List (String × Json)} (hms : (keysOf ms).Nodup)
    {d : Dict α} :
    Reader.dict r (.object ms) = valid d ↔
      List.Forall₂ (fun e m => e.1 = m.1 ∧ r m.2 = valid e.2) d.toList ms := by
  rw [Reader.dict, map_eq_valid]
  constructor
  · intro ⟨es, hes, hd⟩
    have hentries := entries_eq_map_valid.mp (all_eq_valid.mp hes)
    have hkeys : keysOf es = keysOf ms := by
      rw [keysOf, keysOf, ← List.forall₂_eq_eq_eq, List.forall₂_map_left_iff, List.forall₂_map_right_iff]
      exact hentries.imp fun e m h => h.1
    rw [← hd, Dict.toList_ofList (hkeys ▸ hms)]
    exact hentries
  · intro h
    exact ⟨d.toList, all_eq_valid.mpr (entries_eq_map_valid.mpr h), Dict.ofList_toList d⟩

end CodeMatch.Document
