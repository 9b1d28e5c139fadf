import CodeMatch.Address
import CodeMatch.Code
import CodeMatch.Document

/-!
# Comparing code

The artifacts declare where recompiled code may differ from the code on chain.  All regions of a piece of code
are put in order and checked before they are used: each lies inside the code, and no two overlap.

Two pieces of code of one length match if they are equal once these regions are out of the way.  Where a
region differs, a value from the chain is copied into the recompiled code; metadata is blanked out on both
sides.  The match says which regions differed, and what they hold.
-/

namespace CodeMatch

open Document

/-! ## matches -/

/-- why a range may differ: an immutable value, a library's address, or metadata -/
inductive Reason where
  | immutable
  | library
  | auxdata
deriving DecidableEq, Repr

namespace Reason

def name : Reason → String
  | .immutable => "immutable"
  | .library => "library"
  | .auxdata => "cborAuxdata"

def table : List (String × Reason) :=
  [("immutable", .immutable), ("library", .library), ("cborAuxdata", .auxdata)]

theorem lookup_name (r : Reason) : table.lookup r.name = some r := by cases r <;> decide

end Reason

structure Transformation where
  reason : Reason
  id : String
  offset : Int
  length : Int
  value : Bytes
deriving DecidableEq, Repr

namespace Transformation

def read : Reader Transformation := Reader.record fun ms =>
  (fun (_ : Unit) => mk) <$> Reader.defaulted ["type"] () (.literal "replace") ms
    <*> Reader.required ["reason"] (.oneOf Reason.table) ms
    <*> Reader.required ["id"] .text ms
    <*> Reader.required ["offset"] .integer ms
    <*> Reader.required ["length"] .integer ms
    <*> Reader.required ["value"] .bytes ms

def write (t : Transformation) : Json :=
  .object
    [("type", .text "replace"), ("reason", .text t.reason.name), ("id", .text t.id),
     ("offset", .int t.offset), ("length", .int t.length), ("value", ofBytes t.value)]

def format : Format Transformation := ⟨read, fun _ => write⟩

end Transformation

/-- what the differing ranges hold, by identifier -/
structure MatchValues where
  constructorArguments : Option Bytes := none
  immutables : Dict Bytes := ∅
  /-- addresses in checksum casing -/
  libraries : Dict String := ∅
  auxdata : Dict Bytes := ∅
deriving DecidableEq

namespace MatchValues

def read : Reader MatchValues := Reader.record fun ms =>
  mk <$> Reader.defaulted ["constructor_arguments"] none (.option .bytes) ms
    <*> Reader.defaulted ["immutables"] ∅ (.dict .bytes) ms
    <*> Reader.defaulted ["libraries"] ∅ (.dict .text) ms
    <*> Reader.defaulted ["cbor_auxdata"] ∅ (.dict .bytes) ms

def write (v : MatchValues) : Json :=
  .object
    [("constructor_arguments", .ofOption ofBytes v.constructorArguments),
     ("immutables", .ofDict ofBytes v.immutables),
     ("libraries", .ofDict .text v.libraries),
     ("cbor_auxdata", .ofDict ofBytes v.auxdata)]

def format : Format MatchValues := ⟨read, fun _ => write⟩

end MatchValues

inductive MatchType where
  /-- the same byte for byte -/
  | full
  /-- the same after the recorded transformations -/
  | part
deriving DecidableEq, Repr

namespace MatchType

def name : MatchType → String
  | .full => "full"
  | .part => "partial"

def table : List (String × MatchType) := [("full", .full), ("partial", .part)]

theorem lookup_name (t : MatchType) : table.lookup t.name = some t := by cases t <;> decide

end MatchType

structure Match where
  type : MatchType
  transformations : List Transformation := []
  values : MatchValues := {}
deriving DecidableEq

namespace Match

def isFull (m : Match) : Bool := m.type = .full

def withArguments (m : Match) (arguments : Bytes) : Match :=
  { m with values := { m.values with constructorArguments := some arguments } }

def read : Reader Match := Reader.record fun ms =>
  mk <$> Reader.required ["match_type"] (.oneOf MatchType.table) ms
    <*> Reader.defaulted ["transformations"] [] (.list Transformation.read) ms
    <*> Reader.defaulted ["values"] {} MatchValues.read ms

def write (m : Match) : Json :=
  .object
    [("match_type", .text m.type.name),
     ("transformations", .list (m.transformations.map Transformation.write)),
     ("values", m.values.write)]

def format : Format Match := ⟨read, fun _ => write⟩

end Match

/-! ## regions -/

inductive CodeKind where
  | runtime
  | creation
deriving DecidableEq, Repr

def CodeKind.name : CodeKind → String
  | .runtime => "runtime"
  | .creation => "creation"

structure Region where
  reason : Reason
  id : String
  range : ByteRange
deriving DecidableEq, Repr

namespace Region

def ofRanges (reason : Reason) (ranges : Ranges) : List Region :=
  ranges.toList.flatMap fun (id, rs) => rs.map fun r => ⟨reason, id, r⟩

def ofAuxdata (auxdata : Dict ByteRange) : List Region :=
  auxdata.toList.map fun (id, r) => ⟨.auxdata, id, r⟩

def ofRuntime (a : RuntimeArtifacts) : List Region :=
  ofRanges .immutable a.immutableReferences ++ ofRanges .library a.linkReferences ++
    ofAuxdata a.cborAuxdata

def ofCreation (a : CreationArtifacts) : List Region :=
  ofRanges .library a.linkReferences ++ ofAuxdata a.cborAuxdata

/-! ## order -/

/-- by offset, and by length where the offsets agree -/
def le (r s : Region) : Bool :=
  r.range.offset < s.range.offset ||
    (r.range.offset = s.range.offset && r.range.length ≤ s.range.length)

theorem le_total (r s : Region) : le r s || le s r := by
  simp only [le, Bool.or_eq_true, Bool.and_eq_true, decide_eq_true_eq]
  omega

theorem le_trans {r s t : Region} (h : le r s) (h' : le s t) : le r t := by
  simp only [le, Bool.or_eq_true, Bool.and_eq_true, decide_eq_true_eq] at h h' ⊢
  omega

/-- equal regions keep their order -/
def ordered (rs : List Region) : List Region := rs.mergeSort le

theorem ordered_perm (rs : List Region) : (ordered rs).Perm rs := List.mergeSort_perm rs le

theorem pairwise_ordered (rs : List Region) : (ordered rs).Pairwise fun r s => le r s :=
  @List.pairwise_mergeSort Region le (fun _ _ _ => le_trans) le_total rs

/-- the regions lie inside `n` bytes of code, and no two overlap -/
def WellFormed (n : Nat) (rs : List Region) : Prop :=
  (∀ r ∈ rs, r.range.stop ≤ n) ∧ rs.Pairwise fun r s => r.range.Disjoint s.range

instance (n : Nat) (rs : List Region) : Decidable (WellFormed n rs) :=
  inferInstanceAs (Decidable (_ ∧ _))

inductive Fault where
  | exceeds (r : Region) (kind : CodeKind) (length : Nat)
  | overlaps (r previous : Region)
deriving DecidableEq, Repr

def label (r : Region) : String := r.reason.name ++ " '" ++ r.id ++ "'"

def Fault.message : Fault → String
  | .exceeds r kind length =>
    label r ++ " at [" ++ Text.naturalText r.range.offset ++ ", " ++
      Text.naturalText r.range.stop ++ ") exceeds " ++ kind.name ++ " code length " ++
      Text.naturalText length
  | .overlaps r previous =>
    label r ++ " at offset " ++ Text.naturalText r.range.offset ++ " overlaps " ++
      label previous ++ " ending at " ++ Text.naturalText previous.range.stop

/-- the first fault of ordered regions; `previous` is the region before them -/
def fault? (kind : CodeKind) (length : Nat) : Option Region → List Region → Option Fault
  | _, [] => none
  | previous, r :: rs =>
    if r.range.stop > length then some (.exceeds r kind length)
    else
      match previous with
      | none => fault? kind length (some r) rs
      | some p =>
        if r.range.offset < p.range.stop then some (.overlaps r p)
        else fault? kind length (some r) rs

def checked (kind : CodeKind) (length : Nat) (rs : List Region) : Except Fault (List Region) :=
  match fault? kind length none (ordered rs) with
  | none => .ok (ordered rs)
  | some f => .error f

theorem fault?_nil (kind : CodeKind) (length : Nat) (previous : Option Region) :
    fault? kind length previous [] = none := by
  cases previous <;> rfl

def window (r : Region) (b : Bytes) : Bytes := b.slice r.range.offset r.range.length

def differs (b c : Bytes) (r : Region) : Bool := r.window b ≠ r.window c

def record (b : Bytes) (r : Region) : Transformation :=
  ⟨r.reason, r.id, r.range.offset, r.range.length, r.window b⟩

end Region

/-! ## comparing -/

namespace Comparison

open Region (differs record)

/-- the code on chain and the recompiled code, while regions are treated -/
structure Sides where
  onChain : Bytes
  recompiled : Bytes
deriving DecidableEq

/-- one differing region out of the way; `b` is the code on chain as it was -/
def Sides.settle (b : Bytes) (s : Sides) (r : Region) : Sides :=
  match r.reason with
  | .auxdata =>
    let blank := Bytes.zeros r.range.length
    ⟨s.onChain.overwrite r.range.offset blank, s.recompiled.overwrite r.range.offset blank⟩
  | _ => ⟨s.onChain, s.recompiled.overwrite r.range.offset (r.window b)⟩

def settleAll (b c : Bytes) (rs : List Region) : Sides :=
  (rs.filter (differs b c)).foldl (Sides.settle b) ⟨b, c⟩

def recordAll (b c : Bytes) (rs : List Region) : List Transformation :=
  (rs.filter (differs b c)).map (record b)

/-- a library's value: an address in checksum casing, or plain digits if it is none -/
def libraryText (b : Bytes) : String :=
  if b.length = Address.width then Address.ofBytes b else Hex.encode b

/-- enters the value of a transformation, unless its identifier has one -/
def addValue (v : MatchValues) (t : Transformation) : MatchValues :=
  match t.reason with
  | .immutable => { v with immutables := v.immutables.insertIfNew t.id t.value }
  | .library => { v with libraries := v.libraries.insertIfNew t.id (libraryText t.value) }
  | .auxdata => { v with auxdata := v.auxdata.insertIfNew t.id t.value }

def valuesOf (ts : List Transformation) : MatchValues := ts.foldl addValue {}

/-- the match of two pieces of code of one length, `b` on chain and `c` recompiled -/
def compare (b c : Bytes) (rs : List Region) : Option Match :=
  if b = c then some { type := .full }
  else
    let sides := settleAll b c rs
    if sides.onChain = sides.recompiled then
      let ts := recordAll b c rs
      some ⟨.part, ts, valuesOf ts⟩
    else none

theorem valuesOf_append_singleton (ts : List Transformation) (t : Transformation) :
    valuesOf (ts ++ [t]) = addValue (valuesOf ts) t := by
  simp [valuesOf, List.foldl_append]

theorem compare_self (b : Bytes) (rs : List Region) : compare b b rs = some { type := .full } := by
  simp [compare]

/-- `c` with each transformation written into it -/
def replay (c : Bytes) (ts : List Transformation) : Bytes :=
  ts.foldl (fun c t => c.overwrite t.offset.toNat t.value) c

end Comparison

end CodeMatch
