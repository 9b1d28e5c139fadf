import CodeMatch.Proofs.Document.Record
import CodeMatch.Verification
import Mathlib.Tactic.Common

/-!
# Matches and verdicts survive

* `Transformation.lossless`, `MatchValues.lossless`, `Match.lossless`   records with fixed parts;
* `Verdict.parts`           the matches that a verdict rests on;
* `Verdict.readParts_cases` a record of some kind holds the matches of that kind;
* `Verdict.stable_readOf`   the form of one kind survives;
* `Verdict.lossless`        so does the form of all kinds.
-/

namespace CodeMatch

open Document Document.Checked

namespace Transformation

def slots : List (Slot Transformation) :=
  [.defaulted "type" () (.literal "replace") (fun _ => .text "replace") (fun _ => ()),
   .required "reason" (.oneOf Reason.table) (fun r => .text r.name) reason,
   .required "id" .text .text id,
   .required "offset" .integer .int offset,
   .required "length" .integer .int length,
   .required "value" .bytes ofBytes value]

theorem lossless : Lossless read write fixed 1 := by
  refine Lossless.record slots (fun ms t => ?_) (by decide) ?_
  · cases t
    simp [slots, Slot.readIn, Slot.required, Slot.defaulted, functor_eq_valid, seq_eq_valid,
      and_assoc, Unique.exists_iff]
  · simp only [slots, List.forall_mem_cons]
    have htype : ∃ v, Fits 0 v ∧ Reader.literal "replace" v = valid () :=
      ⟨.text "replace", .text 0 _, rfl⟩
    exact ⟨Slot.sound_defaulted (lossless_literal "replace") (fun _ => ()) "type" htype,
      Slot.sound_required (lossless_oneOf Reason.lookup_name) reason "reason",
      Slot.sound_required lossless_text id "id",
      Slot.sound_required lossless_integer offset "offset",
      Slot.sound_required lossless_integer length "length",
      Slot.sound_required lossless_bytes value "value", List.forall_mem_nil _⟩

end Transformation

namespace MatchValues

def slots : List (Slot MatchValues) :=
  [.defaulted "constructor_arguments" none (.option .bytes) (.ofOption ofBytes)
     constructorArguments,
   .defaulted "immutables" ∅ (.dict .bytes) (.ofDict ofBytes) immutables,
   .defaulted "libraries" ∅ (.dict .text) (.ofDict .text) libraries,
   .defaulted "cbor_auxdata" ∅ (.dict .bytes) (.ofDict ofBytes) auxdata]

theorem lossless : Lossless read write fixed 2 := by
  have harguments := lossless_optionalBytes.mono (Nat.zero_le 1)
  refine Lossless.record slots (fun ms v => ?_) (by decide) ?_
  · cases v
    simp [slots, Slot.readIn, Slot.defaulted, functor_eq_valid, seq_eq_valid, and_assoc]
  · simp only [slots, List.forall_mem_cons]
    exact ⟨Slot.sound_defaulted harguments constructorArguments _ (exists_null _ _),
      Slot.sound_defaulted lossless_bytes.fixedDict immutables _
        (exists_emptyObject (.dict .bytes) ∅ rfl 0),
      Slot.sound_defaulted lossless_text.fixedDict libraries _
        (exists_emptyObject (.dict .text) ∅ rfl 0),
      Slot.sound_defaulted lossless_bytes.fixedDict auxdata _
        (exists_emptyObject (.dict .bytes) ∅ rfl 0), List.forall_mem_nil _⟩

end MatchValues

namespace Match

def slots : List (Slot Match) :=
  [.required "match_type" (.oneOf MatchType.table) (fun t => .text t.name) type,
   .defaulted "transformations" [] (.list Transformation.read)
     (fun ts => .list (ts.map Transformation.write)) transformations,
   .defaulted "values" {} MatchValues.read MatchValues.write values]

theorem lossless : Lossless read write fixed 3 := by
  have htype := (lossless_oneOf MatchType.lookup_name).mono (Nat.zero_le 2)
  refine Lossless.record slots (fun ms m => ?_) (by decide) ?_
  · cases m
    simp [slots, Slot.readIn, Slot.required, Slot.defaulted, functor_eq_valid, seq_eq_valid]
  · simp only [slots, List.forall_mem_cons]
    have hnil : ∃ v, Fits 2 v ∧ Reader.list Transformation.read v = valid [] :=
      ⟨.list [], .list (List.forall_mem_nil _), rfl⟩
    exact ⟨Slot.sound_required htype type "match_type",
      Slot.sound_defaulted Transformation.lossless.fixedList transformations _ hnil,
      Slot.sound_defaulted MatchValues.lossless values _
        (exists_emptyObject MatchValues.read {} rfl 1), List.forall_mem_nil _⟩

end Match

namespace Verdict

/-- the matches that a verdict rests on -/
def parts (v : Verdict) : List Match := v.runtime?.toList ++ v.creation?.toList

theorem readParts_cases {ms : Reader.Members} {k : Kind} {v : Verdict}
    (h : readParts ms k = valid v) :
    v.kind = k ∧ ∀ r ∈ v.parts, ∃ m ∈ ms, Match.read m.2 = valid r := by
  cases k with
  | failure =>
    cases h
    exact ⟨rfl, List.forall_mem_nil _⟩
  | runtimeMatch =>
    obtain ⟨r, hr, rfl⟩ := functor_eq_valid.mp h
    exact ⟨rfl, List.forall_mem_singleton.mpr (exists_mem_of_required hr)⟩
  | creationMatch =>
    obtain ⟨c, hc, rfl⟩ := functor_eq_valid.mp h
    exact ⟨rfl, List.forall_mem_singleton.mpr (exists_mem_of_required hc)⟩
  | completeMatch =>
    obtain ⟨_, hf, c, hc, rfl⟩ := seq_eq_valid.mp h
    obtain ⟨r, hr, rfl⟩ := functor_eq_valid.mp hf
    exact ⟨rfl, List.forall_mem_cons.mpr ⟨exists_mem_of_required hr,
      List.forall_mem_singleton.mpr (exists_mem_of_required hc)⟩⟩

/-- the members of a written verdict -/
def members (v : Verdict) : Reader.Members :=
  ("kind", .text v.kind.name) ::
    match v with
    | failure => []
    | runtimeMatch r => [("runtime_match", r.write)]
    | creationMatch c => [("creation_match", c.write)]
    | completeMatch r c => [("runtime_match", r.write), ("creation_match", c.write)]

theorem write_eq (v : Verdict) : v.write = .object v.members := rfl

theorem readParts_members (v : Verdict) : readParts v.members v.kind = valid v := by
  cases v with
  | failure => rfl
  | runtimeMatch r =>
    refine functor_eq_valid.mpr ⟨r, ?_, rfl⟩
    exact under_eq_valid.mpr (Match.lossless.reads r)
  | creationMatch c =>
    refine functor_eq_valid.mpr ⟨c, ?_, rfl⟩
    exact under_eq_valid.mpr (Match.lossless.reads c)
  | completeMatch r c =>
    refine seq_eq_valid.mpr ⟨_, functor_eq_valid.mpr ⟨r, ?_, rfl⟩, c, ?_, rfl⟩
    · exact under_eq_valid.mpr (Match.lossless.reads r)
    · exact under_eq_valid.mpr (Match.lossless.reads c)

theorem nodup_keysOf_members (v : Verdict) : (keysOf v.members).Nodup := by
  cases v with
  | failure => exact List.nodup_singleton "kind"
  | runtimeMatch r => exact show ["kind", "runtime_match"].Nodup by decide
  | creationMatch c => exact show ["kind", "creation_match"].Nodup by decide
  | completeMatch r c => exact show ["kind", "runtime_match", "creation_match"].Nodup by decide

theorem mem_members {v : Verdict} {m : String × Json} (hm : m ∈ v.members) :
    m.2 = .text v.kind.name ∨ ∃ r ∈ v.parts, m.2 = r.write := by
  rcases List.mem_cons.mp hm with rfl | hm
  · exact .inl rfl
  right
  cases v with
  | failure => cases hm
  | runtimeMatch r => exact ⟨r, List.mem_cons_self, by rw [List.mem_singleton.mp hm]⟩
  | creationMatch c => exact ⟨c, List.mem_cons_self, by rw [List.mem_singleton.mp hm]⟩
  | completeMatch r c =>
    rcases List.mem_cons.mp hm with rfl | hm
    · exact ⟨r, List.mem_cons_self, rfl⟩
    · exact ⟨c, List.mem_cons_of_mem _ List.mem_cons_self, by rw [List.mem_singleton.mp hm]⟩

theorem fits_of_parts {d : Nat} {v : Verdict} (h : ∀ r ∈ v.parts, Fits d r.write) :
    Fits (d + 1) v.write := by
  refine .object v.nodup_keysOf_members fun m hm => ?_
  rcases mem_members hm with hkind | ⟨r, hr, hw⟩
  · rw [hkind]
    exact .text d _
  · rw [hw]
    exact h r hr

/-- what is written for a verdict that was read from the members of an object -/
theorem fits_write {d : Nat} (hd : 4 ≤ d) {ms : Reader.Members} {k : Kind} {v : Verdict}
    (hms : Fits d (.object ms)) (h : readParts ms k = valid v) : Fits d v.write := by
  cases hms with
  | @object d _ hk hms =>
    refine fits_of_parts fun r hr => ?_
    obtain ⟨m', hm', hread⟩ := (readParts_cases h).2 r hr
    exact Match.lossless.fits (Nat.le_of_succ_le_succ hd) (hms m' hm') hread

theorem exact_write (v : Verdict) : v.write.Exact := by
  refine .object fun m hm => ?_
  rcases mem_members hm with hkind | ⟨r, hr, hw⟩
  · rw [hkind]
    exact .text _
  · rw [hw]
    exact Match.lossless.exact r (List.forall_mem_nil _)

theorem readParts_of_readOf {k : Kind} {v : Json} {a : Verdict} (h : readOf k v = valid a) :
    ∃ ms, v = .object ms ∧ readParts ms k = valid a := by
  unfold readOf Reader.record at h
  split at h
  case h_1 ms =>
    obtain ⟨f, hf, a', hparts, rfl⟩ := seq_eq_valid.mp h
    obtain ⟨_, _, rfl⟩ := functor_eq_valid.mp hf
    exact ⟨ms, rfl, hparts⟩
  case h_2 => cases h

theorem readOf_write (v : Verdict) : readOf v.kind v.write = valid v := by
  refine seq_eq_valid.mpr ⟨_, functor_eq_valid.mpr ⟨(), ?_, rfl⟩, v, v.readParts_members, rfl⟩
  exact under_eq_valid.mpr ((lossless_literal v.kind.name).reads ())

/-- the form of one kind -/
theorem stable_readOf (k : Kind) : Stable (readOf k) write fixed 4 where
  reads := by
    intro v a h
    obtain ⟨ms, rfl, hparts⟩ := readParts_of_readOf h
    obtain ⟨rfl, -⟩ := readParts_cases hparts
    exact a.readOf_write
  fits := by
    intro d v a hd hv h
    obtain ⟨ms, rfl, hparts⟩ := readParts_of_readOf h
    exact fits_write hd hv hparts
  exact := fun v _ => v.exact_write

/-- the form of all kinds -/
theorem lossless : Lossless read write fixed 4 where
  reads := by
    intro v
    have hkind : v.members.lookup "kind" = some (.text v.kind.name) := rfl
    rw [write_eq, read, hkind]
    simp only [Kind.ofName?_name]
    exact under_eq_valid.mpr v.readParts_members
  fits := by
    intro d v a hd hv h
    unfold read at h
    split at h
    case h_1 ms =>
      split at h
      · cases h
      · split at h
        · exact fits_write hd hv (under_eq_valid.mp h)
        · cases h
      · cases h
    case h_2 => cases h
  exact := fun v _ => v.exact_write

end Verdict

end CodeMatch
