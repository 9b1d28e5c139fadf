import CodeMatch.Proofs.Document.Lossless
import Mathlib.Data.List.Nodup
import Mathlib.Tactic.Common

/-!
# Records that survive

* `Slot α`               one part of a record, with its names, its reader and writer, and its default;
* `Slot.required`, `Slot.defaulted`, `Slot.keyed`   a part under one name that has to be there, one that
                         has a default, and one whose name depends on the style of keys;
* `Slot.readIn`, `Slot.writeOf`   how the part is read among the members of an object, and the member that
                         it is written as;
* `Slot.Sound f n`       the part survives, and so does its default;
* `present?_writeOf`     among the members of a written record each part is found under its own name;
* `readIn_cases`         a part is read from a member, or takes its default;
* `Lossless.record`      a record survives if its parts do.
-/

namespace CodeMatch.Document

open Checked

/-- one part of a record: where it stands, how it is read and written, and what it is if it is absent -/
structure Slot (α : Type) where
  {β : Type}
  /-- the names under which it is looked for -/
  names : List String
  /-- the name under which it is written -/
  name : String
  default : Option β
  read : Reader β
  write : β → Json
  part : α → β
  free : β → List Json

namespace Slot

variable {α β : Type}

def required (name : String) (read : Reader β) (write : β → Json) (part : α → β)
    (free : β → List Json := fixed) : Slot α :=
  ⟨[name], name, none, read, write, part, free⟩

def defaulted (name : String) (default : β) (read : Reader β) (write : β → Json) (part : α → β)
    (free : β → List Json := fixed) : Slot α :=
  ⟨[name], name, some default, read, write, part, free⟩

def keyed (style : KeyStyle) (k : Key) (default : β) (read : Reader β) (write : β → Json)
    (part : α → β) : Slot α :=
  ⟨k.names, k.spelled style, some default, read, write, part, fixed⟩

def readIn (f : Slot α) (ms : Reader.Members) : Checked f.β :=
  match f.default with
  | none => Reader.required f.names f.read ms
  | some b => Reader.defaulted f.names b f.read ms

def writeOf (a : α) (f : Slot α) : String × Json := (f.name, f.write (f.part a))

/-- the part survives, and so does its default, since some document gives it -/
structure Sound (f : Slot α) (depth : Nat) : Prop where
  name : f.name ∈ f.names
  lossless : Lossless f.read f.write f.free depth
  default : ∀ b, f.default = some b → ∃ v, Fits depth v ∧ f.read v = valid b

section
variable {read : Reader β} {write : β → Json} {free : β → List Json} {depth : Nat} {default : β}
  (h : Lossless read write free depth) (part : α → β)
include h

theorem sound_required (name : String) : (required name read write part free).Sound depth where
  name := List.mem_singleton_self name
  lossless := h
  default := nofun

theorem sound_defaulted (name : String) (hd : ∃ v, Fits depth v ∧ read v = valid default) :
    (defaulted name default read write part free).Sound depth where
  name := List.mem_singleton_self name
  lossless := h
  default := by
    rintro b ⟨⟩
    exact hd

end

theorem sound_keyed {read : Reader β} {write : β → Json} {depth : Nat} {default : β}
    (h : Lossless read write fixed depth) (part : α → β) (style : KeyStyle) (k : Key)
    (hd : ∃ v, Fits depth v ∧ read v = valid default) :
    (keyed style k default read write part).Sound depth where
  name := by cases style <;> simp [keyed, Key.spelled, Key.names]
  lossless := h
  default := by
    rintro b ⟨⟩
    exact hd

end Slot

section
variable {α : Type} {slots : List (Slot α)}

theorem lookup_eq_none_of_names {k : String} (hname : ∀ f ∈ slots, f.name ∈ f.names)
    (hk : ∀ f ∈ slots, k ∉ f.names) (a : α) :
    (slots.map (Slot.writeOf a)).lookup k = none := by
  rw [List.lookup_eq_none_iff]
  intro p hp
  obtain ⟨f, hf, rfl⟩ := List.mem_map.mp hp
  rw [bne_iff_ne]
  rintro rfl
  exact hk f hf (hname f hf)

/-- under the names of a slot there is nothing but its part -/
theorem lookup_names (hn : (slots.flatMap Slot.names).Nodup)
    (hname : ∀ f ∈ slots, f.name ∈ f.names) {f : Slot α} (hf : f ∈ slots) {k : String}
    (hk : k ∈ f.names) (a : α) :
    (slots.map (Slot.writeOf a)).lookup k =
      if k = f.name then some (f.write (f.part a)) else none := by
  induction slots with
  | nil => cases hf
  | cons g slots ih =>
    rw [List.flatMap_cons, List.nodup_append] at hn
    obtain ⟨-, hrest, hne⟩ := hn
    have hnames : ∀ f ∈ slots, f.name ∈ f.names := fun f hf => hname f (List.mem_cons_of_mem _ hf)
    rw [List.map_cons, List.lookup_cons]
    rcases List.mem_cons.mp hf with rfl | hf
    · by_cases h : k = f.name
      · rw [if_pos h, show (k == (Slot.writeOf a f).1) = true from beq_iff_eq.mpr h]
        rfl
      · rw [if_neg h, show (k == (Slot.writeOf a f).1) = false from beq_false_of_ne h]
        exact lookup_eq_none_of_names hnames
          (fun g hg hkg => hne k hk k (List.mem_flatMap.mpr ⟨g, hg, hkg⟩) rfl) a
    · have h : k ≠ g.name := by
        rintro rfl
        exact hne _ (hname g List.mem_cons_self) _ (List.mem_flatMap.mpr ⟨f, hf, hk⟩) rfl
      rw [show (k == (Slot.writeOf a g).1) = false from beq_false_of_ne h]
      exact ih hrest hnames hf

theorem present?_writeOf (hn : (slots.flatMap Slot.names).Nodup)
    (hname : ∀ f ∈ slots, f.name ∈ f.names) {f : Slot α} (hf : f ∈ slots) (a : α) :
    Reader.present? f.names (slots.map (Slot.writeOf a)) =
      some (f.name, f.write (f.part a)) := by
  have hlookup := fun k (hk : k ∈ f.names) => lookup_names hn hname hf hk a
  have hnodup : f.names.Nodup := (List.nodup_flatMap.mp hn).1 f hf
  obtain ⟨l, l', hsplit⟩ := List.append_of_mem (hname f hf)
  refine List.findSome?_eq_some_iff.mpr ⟨l, f.name, l', hsplit, ?_, fun k hk => ?_⟩
  · rw [hlookup _ (hname f hf), if_pos rfl]
    rfl
  · have hne : k ≠ f.name := by
      rw [hsplit, List.nodup_append] at hnodup
      exact hnodup.2.2 k hk _ List.mem_cons_self
    rw [hlookup k (hsplit ▸ List.mem_append_left _ hk), if_neg hne]
    rfl

theorem nodup_keysOf_writeOf (hn : (slots.flatMap Slot.names).Nodup)
    (hname : ∀ f ∈ slots, f.name ∈ f.names) (a : α) :
    (keysOf (slots.map (Slot.writeOf a))).Nodup := by
  induction slots with
  | nil => exact List.nodup_nil
  | cons f slots ih =>
    rw [List.flatMap_cons, List.nodup_append] at hn
    obtain ⟨-, hrest, hne⟩ := hn
    have hnames : ∀ f ∈ slots, f.name ∈ f.names := fun f hf => hname f (List.mem_cons_of_mem _ hf)
    refine List.nodup_cons.mpr ⟨fun hm => ?_, ih hrest hnames⟩
    obtain ⟨e, he, hname'⟩ := List.mem_map.mp hm
    obtain ⟨g, hg, rfl⟩ := List.mem_map.mp he
    exact hne _ (hname f List.mem_cons_self) _
      (List.mem_flatMap.mpr ⟨g, hg, hnames g hg⟩) hname'.symm

theorem readIn_of_present {f : Slot α} {ms : Reader.Members} {k : String} {v : Json} {b : f.β}
    (h : Reader.present? f.names ms = some (k, v)) (hv : f.read v = valid b) :
    f.readIn ms = valid b := by
  unfold Slot.readIn
  split
  · rw [Reader.required, h]
    exact under_eq_valid.mpr hv
  · rw [Reader.defaulted, h]
    exact under_eq_valid.mpr hv

theorem mem_of_present? {names : List String} {ms : Reader.Members} {m : String × Json}
    (h : Reader.present? names ms = some m) : m ∈ ms := by
  obtain ⟨k, _, hk⟩ := List.exists_of_findSome?_eq_some h
  obtain ⟨v, hv, rfl⟩ := Option.map_eq_some_iff.mp hk
  obtain ⟨l, l', rfl, _⟩ := List.lookup_eq_some_iff.mp hv
  exact List.mem_append_right _ List.mem_cons_self

theorem exists_mem_of_required {β : Type} {names : List String} {r : Reader β}
    {ms : Reader.Members} {b : β} (h : Reader.required names r ms = valid b) :
    ∃ m ∈ ms, r m.2 = valid b := by
  unfold Reader.required at h
  split at h
  case h_1 hp => exact ⟨_, mem_of_present? hp, under_eq_valid.mp h⟩
  case h_2 => cases h

theorem exists_mem_of_defaulted {β : Type} {names : List String} {default : β} {r : Reader β}
    {ms : Reader.Members} {b : β} (h : Reader.defaulted names default r ms = valid b) :
    (∃ m ∈ ms, r m.2 = valid b) ∨ default = b := by
  unfold Reader.defaulted at h
  split at h
  case h_1 hp => exact .inl ⟨_, mem_of_present? hp, under_eq_valid.mp h⟩
  case h_2 =>
    cases h
    exact .inr rfl

/-- a part is read from a member, or takes its default -/
theorem readIn_cases {f : Slot α} {ms : Reader.Members} {b : f.β} (h : f.readIn ms = valid b) :
    (∃ m ∈ ms, f.read m.2 = valid b) ∨ f.default = some b := by
  unfold Slot.readIn at h
  split at h
  case h_1 => exact .inl (exists_mem_of_required h)
  case h_2 hd =>
    rw [hd]
    exact (exists_mem_of_defaulted h).imp_right (congrArg some)

/-- **A record survives if its parts do.**  It is read part by part, and no two slots share a name. -/
theorem Lossless.record (slots : List (Slot α)) {p : Reader.Members → Checked α} {depth : Nat}
    (hp : ∀ ms a, p ms = valid a ↔ ∀ f ∈ slots, f.readIn ms = valid (f.part a))
    (hn : (slots.flatMap Slot.names).Nodup) (hf : ∀ f ∈ slots, f.Sound depth) :
    Lossless (Reader.record p) (fun a => .object (slots.map (Slot.writeOf a)))
      (fun a => slots.flatMap fun f => f.free (f.part a)) (depth + 1) where
  reads := by
    intro a
    refine (hp _ a).mpr fun f hfm => ?_
    exact readIn_of_present (present?_writeOf hn (fun f hf' => (hf f hf').name) hfm a)
      ((hf f hfm).lossless.reads _)
  fits := by
    intro d v a hd hv hr
    unfold Reader.record at hr
    split at hr
    case h_1 ms =>
      cases hv with
      | @object d _ hk hv =>
        have hd' : depth ≤ d := Nat.le_of_succ_le_succ hd
        refine .object (nodup_keysOf_writeOf hn (fun f hf' => (hf f hf').name) a) fun m hm => ?_
        obtain ⟨f, hfm, rfl⟩ := List.mem_map.mp hm
        rcases readIn_cases ((hp ms a).mp hr f hfm) with ⟨m, hmm, hread⟩ | hdefault
        · exact (hf f hfm).lossless.fits hd' (hv m hmm) hread
        · obtain ⟨w, hw, hread⟩ := (hf f hfm).default _ hdefault
          exact ((hf f hfm).lossless.fits (Nat.le_refl _) hw hread).mono hd'
    case h_2 => cases hr
  exact := by
    intro a hfree
    refine .object fun m hm => ?_
    obtain ⟨f, hfm, rfl⟩ := List.mem_map.mp hm
    exact (hf f hfm).lossless.exact _ fun v hv => hfree v (List.mem_flatMap.mpr ⟨f, hfm, hv⟩)

end

/-! ## common parts and defaults -/

section
variable {α : Type}

theorem lossless_optionalText : Lossless (Reader.option .text) (Json.ofOption .text) fixed 0 :=
  (lossless_text.option nofun).of_free fixed fun o _ hv => by cases o <;> cases hv

theorem lossless_optionalBytes : Lossless (Reader.option .bytes) (Json.ofOption ofBytes) fixed 0 :=
  (lossless_bytes.option nofun).of_free fixed fun o _ hv => by cases o <;> cases hv

theorem Lossless.fixedList {read : Reader α} {write : α → Json} {depth : Nat}
    (h : Lossless read write fixed depth) :
    Lossless (Reader.list read) (fun as => .list (as.map write)) fixed (depth + 1) :=
  h.list.of_free fixed fun as v hv => by simp [fixed] at hv

theorem Lossless.fixedDict {read : Reader α} {write : α → Json} {depth : Nat}
    (h : Lossless read write fixed depth) :
    Lossless (Reader.dict read) (Json.ofDict write) fixed (depth + 1) :=
  h.dict.of_free fixed fun as v hv => by simp [fixed] at hv

theorem exists_null (r : Reader α) (d : Nat) :
    ∃ v, Fits d v ∧ Reader.option r v = valid none := ⟨.null, .null d, rfl⟩

theorem exists_emptyObject (r : Reader α) (a : α) (h : r (.object []) = valid a) (d : Nat) :
    ∃ v, Fits (d + 1) v ∧ r v = valid a := ⟨.object [], .object List.nodup_nil nofun, h⟩

end

end CodeMatch.Document
