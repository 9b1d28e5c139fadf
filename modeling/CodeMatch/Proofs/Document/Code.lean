import CodeMatch.Code
import CodeMatch.Proofs.Document.Record
import Mathlib.Tactic.Common

/-!
# Code and artifacts survive

Each type has its `slots`, the parts of its record, and `lossless`, which says that its documents
survive.

* `flattenLinks_of_flat`       references to libraries that are flat already stay as they are;
* `fits_flattenLinks`          flattening makes nothing deeper;
* `CompilationArtifacts.free`  the parts of artifacts that may hold anything.
-/

namespace CodeMatch

open Document Document.Checked

/-! ## code on chain -/

namespace OnChainCode

def slots : List (Slot OnChainCode) :=
  [.defaulted "runtime" none (.option .bytes) (.ofOption ofBytes) runtime,
   .defaulted "creation" none (.option .bytes) (.ofOption ofBytes) creation]

theorem of?_eq_some_iff {r c : Option Bytes} {code : OnChainCode} :
    of? r c = some code ↔ code.runtime = r ∧ code.creation = c := by
  constructor
  · intro h
    unfold of? at h
    split at h
    · cases h
      exact ⟨rfl, rfl⟩
    · cases h
  · rintro ⟨rfl, rfl⟩
    exact of?_eq_some code

theorem lossless : Lossless read write fixed 1 := by
  refine Lossless.record slots (fun ms c => ?_) (by decide) ?_
  · simp only [slots, List.forall_mem_cons]
    constructor
    · intro h
      obtain ⟨⟨r, c'⟩, hparts, hcode⟩ := bind_eq_valid.mp h
      obtain ⟨hr, hc⟩ := both_eq_valid.mp hparts
      split at hcode
      case h_1 hof =>
        cases hcode
        obtain ⟨rfl, rfl⟩ := of?_eq_some_iff.mp hof
        exact ⟨hr, hc, List.forall_mem_nil _⟩
      case h_2 => cases hcode
    · rintro ⟨hr, hc, -⟩
      refine bind_eq_valid.mpr ⟨(c.runtime, c.creation), both_eq_valid.mpr ⟨hr, hc⟩, ?_⟩
      simp only [of?_eq_some]
  · simp only [slots, List.forall_mem_cons]
    exact ⟨Slot.sound_defaulted lossless_optionalBytes runtime "runtime" (exists_null _ _),
      Slot.sound_defaulted lossless_optionalBytes creation "creation" (exists_null _ _),
      List.forall_mem_nil _⟩

end OnChainCode

namespace OnChainContract

def slots : List (Slot OnChainContract) :=
  [.required "id" .text .text id,
   .required "code" OnChainCode.read OnChainCode.write code,
   .defaulted "is_blueprint" false .flag .bool isBlueprint]

theorem lossless : Lossless read write fixed 2 := by
  refine Lossless.record slots (fun ms c => ?_) (by decide) ?_
  · cases c
    simp [slots, Slot.readIn, Slot.required, Slot.defaulted, functor_eq_valid, seq_eq_valid,
      -Bool.exists_bool]
  · simp only [slots, List.forall_mem_cons]
    have hflag : ∃ v, Fits 1 v ∧ Reader.flag v = valid false := ⟨.bool false, .bool 1 false, rfl⟩
    exact ⟨Slot.sound_required (lossless_text.mono (Nat.zero_le 1)) id "id",
      Slot.sound_required OnChainCode.lossless code "code",
      Slot.sound_defaulted (lossless_flag.mono (Nat.zero_le 1)) isBlueprint "is_blueprint" hflag,
      List.forall_mem_nil _⟩

end OnChainContract

/-! ## artifacts -/

namespace ByteRange

def slots : List (Slot ByteRange) :=
  [⟨["offset", "start"], "offset", none, .natural, ofNat, offset, fixed⟩,
   .required "length" .natural ofNat length]

theorem lossless : Lossless read write fixed 1 := by
  refine Lossless.record slots (fun ms r => ?_) (by decide) ?_
  · cases r
    simp [slots, Slot.readIn, Slot.required, functor_eq_valid, seq_eq_valid]
  · simp only [slots, List.forall_mem_cons]
    exact ⟨⟨List.mem_cons_self, lossless_natural, nofun⟩,
      Slot.sound_required lossless_natural length "length", List.forall_mem_nil _⟩

end ByteRange

theorem lossless_ranges : Lossless readRanges writeRanges fixed 3 :=
  ByteRange.lossless.fixedList.fixedDict

theorem lossless_auxdata : Lossless readAuxdata writeAuxdata fixed 2 := ByteRange.lossless.fixedDict

theorem flatMap_flattenEntry {ms : List (String × Json)}
    (h : ∀ m ∈ ms, ∀ libraries, m.2 ≠ .object libraries) : ms.flatMap flattenEntry = ms := by
  induction ms with
  | nil => rfl
  | cons m ms ih =>
    obtain ⟨k, v⟩ := m
    have hentry : flattenEntry (k, v) = [(k, v)] := by
      cases v with
      | object libraries => exact absurd rfl (h _ List.mem_cons_self libraries)
      | _ => rfl
    rw [List.flatMap_cons, hentry, ih fun m hm => h m (List.mem_cons_of_mem _ hm)]
    rfl

/-- references without objects in them are flat already, and stay as they are -/
theorem flattenLinks_of_flat {ms : List (String × Json)} (hms : (keysOf ms).Nodup)
    (h : ∀ m ∈ ms, ∀ libraries, m.2 ≠ .object libraries) :
    flattenLinks (.object ms) = .object ms := by
  rw [flattenLinks, flatMap_flattenEntry h, Dict.toList_ofList hms]

/-- what was flattened before stays as it is -/
theorem flattenLinks_writeRanges (d : Ranges) : flattenLinks (writeRanges d) = writeRanges d := by
  have hkeys : (keysOf (d.toList.map fun e => (e.1, Json.list (e.2.map ByteRange.write)))).Nodup :=
    (d.map fun rs : List ByteRange => Json.list (rs.map ByteRange.write)).nodup
  refine flattenLinks_of_flat hkeys ?_
  intro m hm libraries heq
  obtain ⟨e, -, rfl⟩ := List.mem_map.mp hm
  cases heq

theorem fits_flattenEntry {d : Nat} {m e : String × Json} (hm : Fits d m.2)
    (he : e ∈ flattenEntry m) : Fits d e.2 := by
  unfold flattenEntry at he
  split at he
  case h_1 file libraries =>
    obtain ⟨l, hl, rfl⟩ := List.mem_map.mp he
    cases hm with
    | object hk hv => exact (hv l hl).mono (Nat.le_succ _)
  case h_2 =>
    rw [List.mem_singleton] at he
    rw [he]
    exact hm

theorem fits_flattenLinks {d : Nat} {v : Json} (hv : Fits d v) : Fits d (flattenLinks v) := by
  unfold flattenLinks
  split
  case h_1 ms =>
    cases hv with
    | object hk hms =>
      refine .object (Dict.ofList _).nodup fun e he => ?_
      obtain ⟨m, hm, hem⟩ := List.mem_flatMap.mp (Dict.mem_toList_ofList he)
      exact fits_flattenEntry (hms m hm) hem
  case h_2 => exact hv

theorem lossless_links : Lossless readLinks writeRanges fixed 3 where
  reads := by
    intro d
    rw [readLinks, flattenLinks_writeRanges]
    exact lossless_ranges.reads d
  fits := fun hd hv hr => lossless_ranges.fits hd (fits_flattenLinks hv) hr
  exact := lossless_ranges.exact

namespace CompilationArtifacts

/-- the interface and the sources may hold anything -/
def free (c : CompilationArtifacts) : List Json :=
  c.abi.elim [] (fun entries => entries.flatMap Dict.values) ++ c.sources.elim [] Dict.values

def slots (style : KeyStyle) : List (Slot CompilationArtifacts) :=
  [.defaulted "abi" none (.option (.list (.dict .any)))
     (.ofOption fun entries => .list (entries.map (Json.ofDict id))) abi
     (fun o => o.elim [] fun entries => entries.flatMap Dict.values),
   .defaulted "sources" none (.option (.dict .any)) (.ofOption (Json.ofDict id)) sources
     (fun o => o.elim [] Dict.values),
   .keyed style settingsDigestKey none (.option .text) (.ofOption .text) settingsDigest]

theorem lossless (style : KeyStyle) : Lossless read (write style) free 3 := by
  have htext := lossless_optionalText.mono (Nat.zero_le 2)
  have habi : Lossless (Reader.option (.list (.dict .any))) _ _ 2 :=
    lossless_anyDict.list.option fun _ h => by cases h
  have hsources : Lossless (Reader.option (.dict .any)) _ _ 2 :=
    (lossless_anyDict.option fun _ h => by cases h).mono (Nat.le_succ 1)
  refine (Lossless.record (slots style) (fun ms c => ?_) (by cases style <;> decide)
    ?_).of_free free fun c v hv => ?_
  · cases c
    simp [slots, Slot.readIn, Slot.defaulted, Slot.keyed, functor_eq_valid, seq_eq_valid]
  · simp only [slots, List.forall_mem_cons]
    exact ⟨Slot.sound_defaulted habi abi "abi" (exists_null _ _),
      Slot.sound_defaulted hsources sources "sources" (exists_null _ _),
      Slot.sound_keyed htext settingsDigest style settingsDigestKey (exists_null _ _),
      List.forall_mem_nil _⟩
  · simpa [slots, Slot.defaulted, Slot.keyed, fixed, free] using hv

end CompilationArtifacts

namespace CreationArtifacts

def slots (style : KeyStyle) : List (Slot CreationArtifacts) :=
  [.keyed style linkReferencesKey ∅ readLinks writeRanges linkReferences,
   .keyed style cborAuxdataKey ∅ readAuxdata writeAuxdata cborAuxdata,
   .keyed style sourceMapKey none (.option .text) (.ofOption .text) sourceMap]

theorem lossless (style : KeyStyle) : Lossless read (write style) fixed 4 := by
  have htext := lossless_optionalText.mono (Nat.zero_le 3)
  have haux := lossless_auxdata.mono (Nat.le_succ 2)
  refine Lossless.record (slots style) (fun ms a => ?_) (by cases style <;> decide) ?_
  · cases a
    simp [slots, Slot.readIn, Slot.keyed, functor_eq_valid, seq_eq_valid]
  · simp only [slots, List.forall_mem_cons]
    exact ⟨Slot.sound_keyed lossless_links linkReferences style _
        (exists_emptyObject readLinks ∅ rfl 2),
      Slot.sound_keyed haux cborAuxdata style _ (exists_emptyObject readAuxdata ∅ rfl 2),
      Slot.sound_keyed htext sourceMap style _ (exists_null _ _), List.forall_mem_nil _⟩

end CreationArtifacts

namespace RuntimeArtifacts

def slots (style : KeyStyle) : List (Slot RuntimeArtifacts) :=
  [.keyed style immutableReferencesKey ∅ readRanges writeRanges immutableReferences,
   .keyed style linkReferencesKey ∅ readLinks writeRanges linkReferences,
   .keyed style cborAuxdataKey ∅ readAuxdata writeAuxdata cborAuxdata,
   .keyed style sourceMapKey none (.option .text) (.ofOption .text) sourceMap]

theorem lossless (style : KeyStyle) : Lossless read (write style) fixed 4 := by
  have htext := lossless_optionalText.mono (Nat.zero_le 3)
  have haux := lossless_auxdata.mono (Nat.le_succ 2)
  refine Lossless.record (slots style) (fun ms a => ?_) (by cases style <;> decide) ?_
  · cases a
    simp [slots, Slot.readIn, Slot.keyed, functor_eq_valid, seq_eq_valid, and_assoc]
  · simp only [slots, List.forall_mem_cons]
    exact ⟨Slot.sound_keyed lossless_ranges immutableReferences style _
        (exists_emptyObject readRanges ∅ rfl 2),
      Slot.sound_keyed lossless_links linkReferences style _
        (exists_emptyObject readLinks ∅ rfl 2),
      Slot.sound_keyed haux cborAuxdata style _ (exists_emptyObject readAuxdata ∅ rfl 2),
      Slot.sound_keyed htext sourceMap style _ (exists_null _ _), List.forall_mem_nil _⟩

end RuntimeArtifacts

namespace ArtifactSet

def free (a : ArtifactSet) : List Json := a.compilation.free

def slots (style : KeyStyle) : List (Slot ArtifactSet) :=
  [.defaulted "compilation" {} CompilationArtifacts.read (CompilationArtifacts.write style)
     compilation CompilationArtifacts.free,
   .defaulted "creation" {} CreationArtifacts.read (CreationArtifacts.write style) creation,
   .defaulted "runtime" {} RuntimeArtifacts.read (RuntimeArtifacts.write style) runtime]

theorem lossless (style : KeyStyle) : Lossless read (write style) free 5 := by
  have hcompilation := (CompilationArtifacts.lossless style).mono (Nat.le_succ 3)
  refine (Lossless.record (slots style) (fun ms a => ?_) (by cases style <;> decide)
    ?_).of_free free fun a v hv => ?_
  · cases a
    simp [slots, Slot.readIn, Slot.defaulted, functor_eq_valid, seq_eq_valid]
  · simp only [slots, List.forall_mem_cons]
    exact ⟨Slot.sound_defaulted hcompilation compilation "compilation"
        (exists_emptyObject CompilationArtifacts.read {} rfl 3),
      Slot.sound_defaulted (CreationArtifacts.lossless style) creation "creation"
        (exists_emptyObject CreationArtifacts.read {} rfl 3),
      Slot.sound_defaulted (RuntimeArtifacts.lossless style) runtime "runtime"
        (exists_emptyObject RuntimeArtifacts.read {} rfl 3), List.forall_mem_nil _⟩
  · simpa [slots, Slot.defaulted, fixed, free] using hv

end ArtifactSet

/-! ## compiled code -/

namespace RecompiledCode

def slots : List (Slot RecompiledCode) :=
  [.required "runtime" .bytes ofBytes runtime, .required "creation" .bytes ofBytes creation]

theorem lossless : Lossless read write fixed 1 := by
  refine Lossless.record slots (fun ms c => ?_) (by decide) ?_
  · cases c
    simp [slots, Slot.readIn, Slot.required, functor_eq_valid, seq_eq_valid]
  · simp only [slots, List.forall_mem_cons]
    exact ⟨Slot.sound_required lossless_bytes runtime "runtime",
      Slot.sound_required lossless_bytes creation "creation", List.forall_mem_nil _⟩

end RecompiledCode

namespace CompiledContract

def free (c : CompiledContract) : List Json := c.artifacts.free

def slots (style : KeyStyle) : List (Slot CompiledContract) :=
  [.required "recompiled" RecompiledCode.read RecompiledCode.write recompiled,
   .defaulted "artifacts" {} ArtifactSet.read (ArtifactSet.write style) artifacts ArtifactSet.free]

theorem lossless (style : KeyStyle) : Lossless read (write style) free 6 := by
  have hcode := RecompiledCode.lossless.mono (show 1 ≤ 5 by omega)
  refine (Lossless.record (slots style) (fun ms c => ?_) (by cases style <;> decide)
    ?_).of_free free fun c v hv => ?_
  · cases c
    simp [slots, Slot.readIn, Slot.required, Slot.defaulted, functor_eq_valid, seq_eq_valid]
  · simp only [slots, List.forall_mem_cons]
    exact ⟨Slot.sound_required hcode recompiled "recompiled",
      Slot.sound_defaulted (ArtifactSet.lossless style) artifacts "artifacts"
        (exists_emptyObject ArtifactSet.read {} rfl 4), List.forall_mem_nil _⟩
  · simpa [slots, Slot.required, Slot.defaulted, fixed, free] using hv

end CompiledContract

end CodeMatch
