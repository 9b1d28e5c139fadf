import CodeMatch.Document

/-!
# Deployed and compiled code

The code that stands on chain, the code that the compiler made, and what the compiler says about it: its
interface, and the ranges in which libraries, immutable values and metadata stand.  Ranges are listed by
identifier, in the order of the document; that a target has some code is part of its type.
-/

namespace CodeMatch

open Document Checked

/-! ## byte ranges -/

/-- the window `[offset, offset + length)` of some code -/
structure ByteRange where
  offset : Nat
  length : Nat
deriving DecidableEq, Repr

namespace ByteRange

def stop (r : ByteRange) : Nat := r.offset + r.length

def Disjoint (r s : ByteRange) : Prop := r.stop ≤ s.offset ∨ s.stop ≤ r.offset

instance (r s : ByteRange) : Decidable (Disjoint r s) :=
  inferInstanceAs (Decidable (_ ∨ _))

theorem Disjoint.symm {r s : ByteRange} (h : Disjoint r s) : Disjoint s r := Or.symm h

def read : Reader ByteRange := Reader.record fun ms =>
  mk <$> Reader.required ["offset", "start"] .natural ms
    <*> Reader.required ["length"] .natural ms

def write (r : ByteRange) : Json :=
  .object [("offset", ofNat r.offset), ("length", ofNat r.length)]

def format : Format ByteRange := ⟨read, fun _ => write⟩

end ByteRange

/-! ## what the compiler says about its code -/

structure CompilationArtifacts where
  abi : Option (List (Dict Json)) := none
  sources : Option (Dict Json) := none
  settingsDigest : Option String := none
deriving DecidableEq

namespace CompilationArtifacts

/-- the descriptors of the constructor's inputs: `none` without an interface, and a fault if the
first constructor of the interface gives inputs that cannot be run through -/
def constructorInputs (c : CompilationArtifacts) : Except Unit (Option (List Json)) :=
  match c.abi with
  | none => .ok none
  | some entries =>
    match entries.find? fun e => e.get? "type" == some (.text "constructor") with
    | none => .ok (some [])
    | some e =>
      let inputs := (e.get? "inputs").getD .null
      if inputs.truthy then
        match inputs.elements? with
        | some items => .ok (some items)
        | none => .error ()
      else .ok (some [])

def settingsDigestKey : Key := ⟨"settings_digest", "settingsDigest"⟩

def read : Reader CompilationArtifacts := Reader.record fun ms =>
  mk <$> Reader.defaulted ["abi"] none (.option (.list (.dict .any))) ms
    <*> Reader.defaulted ["sources"] none (.option (.dict .any)) ms
    <*> Reader.defaulted settingsDigestKey.names none (.option .text) ms

def write (style : KeyStyle) (c : CompilationArtifacts) : Json :=
  .object
    [("abi", .ofOption (fun entries => .list (entries.map (Json.ofDict id))) c.abi),
     ("sources", .ofOption (Json.ofDict id) c.sources),
     (settingsDigestKey.spelled style, .ofOption .text c.settingsDigest)]

def format : Format CompilationArtifacts := ⟨read, write⟩

end CompilationArtifacts

/-- the entries that one entry of a list of library references stands for -/
def flattenEntry : String × Json → List (String × Json)
  | (file, .object libraries) =>
    libraries.map fun (library, ranges) => (file ++ ":" ++ library, ranges)
  | e => [e]

def flattenLinks : Json → Json
  | .object ms => .object (Dict.ofList (ms.flatMap flattenEntry)).toList
  | v => v

abbrev Ranges := Dict (List ByteRange)

def readRanges : Reader Ranges := .dict (.list ByteRange.read)

def readLinks : Reader Ranges := fun v => readRanges (flattenLinks v)

def readAuxdata : Reader (Dict ByteRange) := .dict ByteRange.read

def writeRanges (d : Ranges) : Json := .ofDict (fun rs => .list (rs.map ByteRange.write)) d

def writeAuxdata (d : Dict ByteRange) : Json := .ofDict ByteRange.write d

def linkReferencesKey : Key := ⟨"link_references", "linkReferences"⟩
def immutableReferencesKey : Key := ⟨"immutable_references", "immutableReferences"⟩
def cborAuxdataKey : Key := ⟨"cbor_auxdata", "cborAuxdata"⟩
def sourceMapKey : Key := ⟨"source_map", "sourceMap"⟩

structure CreationArtifacts where
  linkReferences : Ranges := ∅
  cborAuxdata : Dict ByteRange := ∅
  sourceMap : Option String := none
deriving DecidableEq

namespace CreationArtifacts

def read : Reader CreationArtifacts := Reader.record fun ms =>
  mk <$> Reader.defaulted linkReferencesKey.names ∅ readLinks ms
    <*> Reader.defaulted cborAuxdataKey.names ∅ readAuxdata ms
    <*> Reader.defaulted sourceMapKey.names none (.option .text) ms

def write (style : KeyStyle) (a : CreationArtifacts) : Json :=
  .object
    [(linkReferencesKey.spelled style, writeRanges a.linkReferences),
     (cborAuxdataKey.spelled style, writeAuxdata a.cborAuxdata),
     (sourceMapKey.spelled style, .ofOption .text a.sourceMap)]

def format : Format CreationArtifacts := ⟨read, write⟩

end CreationArtifacts

structure RuntimeArtifacts where
  immutableReferences : Ranges := ∅
  linkReferences : Ranges := ∅
  cborAuxdata : Dict ByteRange := ∅
  sourceMap : Option String := none
deriving DecidableEq

namespace RuntimeArtifacts

def read : Reader RuntimeArtifacts := Reader.record fun ms =>
  mk <$> Reader.defaulted immutableReferencesKey.names ∅ readRanges ms
    <*> Reader.defaulted linkReferencesKey.names ∅ readLinks ms
    <*> Reader.defaulted cborAuxdataKey.names ∅ readAuxdata ms
    <*> Reader.defaulted sourceMapKey.names none (.option .text) ms

def write (style : KeyStyle) (a : RuntimeArtifacts) : Json :=
  .object
    [(immutableReferencesKey.spelled style, writeRanges a.immutableReferences),
     (linkReferencesKey.spelled style, writeRanges a.linkReferences),
     (cborAuxdataKey.spelled style, writeAuxdata a.cborAuxdata),
     (sourceMapKey.spelled style, .ofOption .text a.sourceMap)]

def format : Format RuntimeArtifacts := ⟨read, write⟩

end RuntimeArtifacts

structure ArtifactSet where
  compilation : CompilationArtifacts := {}
  creation : CreationArtifacts := {}
  runtime : RuntimeArtifacts := {}
deriving DecidableEq

namespace ArtifactSet

def read : Reader ArtifactSet := Reader.record fun ms =>
  mk <$> Reader.defaulted ["compilation"] {} CompilationArtifacts.read ms
    <*> Reader.defaulted ["creation"] {} CreationArtifacts.read ms
    <*> Reader.defaulted ["runtime"] {} RuntimeArtifacts.read ms

def write (style : KeyStyle) (a : ArtifactSet) : Json :=
  .object
    [("compilation", a.compilation.write style),
     ("creation", a.creation.write style),
     ("runtime", a.runtime.write style)]

def format : Format ArtifactSet := ⟨read, write⟩

end ArtifactSet

/-! ## compiled code -/

structure RecompiledCode where
  runtime : Bytes
  creation : Bytes
deriving DecidableEq

namespace RecompiledCode

def read : Reader RecompiledCode := Reader.record fun ms =>
  mk <$> Reader.required ["runtime"] .bytes ms <*> Reader.required ["creation"] .bytes ms

def write (c : RecompiledCode) : Json :=
  .object [("runtime", ofBytes c.runtime), ("creation", ofBytes c.creation)]

def format : Format RecompiledCode := ⟨read, fun _ => write⟩

end RecompiledCode

structure CompiledContract where
  recompiled : RecompiledCode
  artifacts : ArtifactSet := {}
deriving DecidableEq

namespace CompiledContract

def read : Reader CompiledContract := Reader.record fun ms =>
  mk <$> Reader.required ["recompiled"] RecompiledCode.read ms
    <*> Reader.defaulted ["artifacts"] {} ArtifactSet.read ms

def write (style : KeyStyle) (c : CompiledContract) : Json :=
  .object [("recompiled", c.recompiled.write), ("artifacts", c.artifacts.write style)]

def format : Format CompiledContract := ⟨read, write⟩

end CompiledContract

/-! ## deployed code -/

structure OnChainCode where
  runtime : Option Bytes
  creation : Option Bytes
  present : runtime.isSome || creation.isSome

deriving instance DecidableEq for OnChainCode

namespace OnChainCode

def of? (runtime creation : Option Bytes) : Option OnChainCode :=
  if h : runtime.isSome || creation.isSome then some ⟨runtime, creation, h⟩ else none

theorem of?_eq_some (c : OnChainCode) : of? c.runtime c.creation = some c := by
  simp [of?, c.present]

def read : Reader OnChainCode := Reader.record fun ms =>
  bind (both (Reader.defaulted ["runtime"] none (.option .bytes) ms)
    (Reader.defaulted ["creation"] none (.option .bytes) ms)) fun (runtime, creation) =>
      match of? runtime creation with
      | some c => valid c
      | none => fail .noCode

def write (c : OnChainCode) : Json :=
  .object [("runtime", .ofOption ofBytes c.runtime), ("creation", .ofOption ofBytes c.creation)]

def format : Format OnChainCode := ⟨read, fun _ => write⟩

end OnChainCode

structure OnChainContract where
  id : String
  code : OnChainCode
  isBlueprint : Bool := false
deriving DecidableEq

namespace OnChainContract

def read : Reader OnChainContract := Reader.record fun ms =>
  mk <$> Reader.required ["id"] .text ms
    <*> Reader.required ["code"] OnChainCode.read ms
    <*> Reader.defaulted ["is_blueprint"] false .flag ms

def write (c : OnChainContract) : Json :=
  .object [("id", .text c.id), ("code", c.code.write), ("is_blueprint", .bool c.isBlueprint)]

def format : Format OnChainContract := ⟨read, fun _ => write⟩

end OnChainContract

end CodeMatch
