import CodeMatch.Code
import CodeMatch.Json.Text
import CodeMatch.Match
import CodeMatch.Matching

/-!
# Verifying targets

A target is verified by matching the code found for it, the runtime code and the creation code each on
its own; the verdict folds the two matches into one.  A blueprint has creation code only; its match counts for
both.
-/

namespace CodeMatch

open Document Checked

/-! ## verdicts -/

inductive Verdict where
  | failure
  | runtimeMatch (runtime : Match)
  | creationMatch (creation : Match)
  | completeMatch (runtime creation : Match)
deriving DecidableEq

namespace Verdict

def ofMatches : Option Match → Option Match → Verdict
  | none, none => failure
  | some r, none => runtimeMatch r
  | none, some c => creationMatch c
  | some r, some c => completeMatch r c

def runtime? : Verdict → Option Match
  | runtimeMatch r => some r
  | completeMatch r _ => some r
  | _ => none

def creation? : Verdict → Option Match
  | creationMatch c => some c
  | completeMatch _ c => some c
  | _ => none

theorem runtime?_ofMatches (r c : Option Match) : (ofMatches r c).runtime? = r := by
  cases r <;> cases c <;> rfl

theorem creation?_ofMatches (r c : Option Match) : (ofMatches r c).creation? = c := by
  cases r <;> cases c <;> rfl

inductive Kind where
  | failure
  | runtimeMatch
  | creationMatch
  | completeMatch
deriving DecidableEq, Repr

def Kind.name : Kind → String
  | .failure => "Failure"
  | .runtimeMatch => "RuntimeMatch"
  | .creationMatch => "CreationMatch"
  | .completeMatch => "CompleteMatch"

def Kind.all : List Kind := [.failure, .runtimeMatch, .creationMatch, .completeMatch]

/-- the kind with the given name -/
def Kind.ofName? (name : String) : Option Kind := Kind.all.find? fun k => k.name = name

theorem Kind.ofName?_name (k : Kind) : Kind.ofName? k.name = some k := by cases k <;> decide

def kind : Verdict → Kind
  | failure => .failure
  | runtimeMatch _ => .runtimeMatch
  | creationMatch _ => .creationMatch
  | completeMatch _ _ => .completeMatch

def readRuntime : Reader.Members → Checked Match := Reader.required ["runtime_match"] Match.read
def readCreation : Reader.Members → Checked Match := Reader.required ["creation_match"] Match.read

/-- the members of a record of the given kind, the kind itself apart -/
def readParts (ms : Reader.Members) : Kind → Checked Verdict
  | .failure => valid failure
  | .runtimeMatch => runtimeMatch <$> readRuntime ms
  | .creationMatch => creationMatch <$> readCreation ms
  | .completeMatch => completeMatch <$> readRuntime ms <*> readCreation ms

/-- a record of one kind, which it may leave unsaid -/
def readOf (k : Kind) : Reader Verdict := Reader.record fun ms =>
  (fun (_ : Unit) v => v) <$> Reader.defaulted ["kind"] () (.literal k.name) ms <*> readParts ms k

/-- a record that says its kind -/
def read : Reader Verdict
  | .object ms =>
    match ms.lookup "kind" with
    | none => fail .untagged
    | some (.text name) =>
      match Kind.ofName? name with
      | some k => (readParts ms k).under (.key name)
      | none => fail .unknownTag
    | some _ => fail .unknownTag
  | _ => fail .notMap

def write (v : Verdict) : Json :=
  .object (("kind", .text v.kind.name) ::
    match v with
    | failure => []
    | runtimeMatch r => [("runtime_match", r.write)]
    | creationMatch c => [("creation_match", c.write)]
    | completeMatch r c => [("runtime_match", r.write), ("creation_match", c.write)])

def formatOf (k : Kind) : Format Verdict := ⟨readOf k, fun _ => write⟩

def format : Format Verdict := ⟨read, fun _ => write⟩

end Verdict

/-! ## targets -/

open Log Traced

namespace Verification

def debug (message : String) : Traced Unit := tell ⟨.debug, .verification, message, none⟩

/-- the target as it is named in messages -/
def targetText (target : Option String) : String := "target=" ++ target.getD "None"

/-- a match as it is named in messages -/
def describe : Option Match → String
  | none => "none"
  | some m => m.type.name

/-- the match of runtime code, if there is any -/
def matchRuntime (target : Option String) (b : Option Bytes) (code : RecompiledCode)
    (artifacts : ArtifactSet) : Traced (Option Match) :=
  match b with
  | none => do
    debug ("No runtime code on chain " ++ targetText target ++ ", skipping runtime")
    return none
  | some b => do
    debug ("Verifying runtime code " ++ targetText target ++ " length=" ++
      Text.naturalText b.length)
    Matching.guarded .runtime target (Matching.runtime b code.runtime artifacts.runtime)

/-- the match of creation code, if there is any -/
def matchCreation (target : Option String) (b : Option Bytes) (code : RecompiledCode)
    (artifacts : ArtifactSet) : Traced (Option Match) :=
  match b with
  | none => do
    debug ("No creation code on chain " ++ targetText target ++ ", skipping creation")
    return none
  | some b => do
    debug ("Verifying creation code " ++ targetText target ++ " length=" ++
      Text.naturalText b.length)
    Matching.guarded .creation target
      (Matching.creation b code.creation artifacts.creation (some artifacts.compilation))

end Verification

open Verification

def verifyBlueprint (deployed : OnChainCode) (code : RecompiledCode) (artifacts : ArtifactSet)
    (target : Option String) : Traced Verdict :=
  match deployed.creation with
  | none => do
    debug ("Blueprint " ++ targetText target ++ " has no initcode, nothing to verify")
    return .failure
  | some b => do
    let m ← Matching.guarded .blueprint target
      (Matching.blueprint b code.creation artifacts.creation)
    return .ofMatches m m

def verifyTarget (deployed : OnChainCode) (code : RecompiledCode) (artifacts : ArtifactSet)
    (isBlueprint : Bool) (target : Option String) : Traced Verdict :=
  if isBlueprint then verifyBlueprint deployed code artifacts target
  else do
    debug ("Starting contract verification " ++ targetText target)
    let r ← matchRuntime target deployed.runtime code artifacts
    let c ← matchCreation target deployed.creation code artifacts
    debug ("Finished contract verification " ++ targetText target ++ " runtime_match=" ++
      describe r ++ " creation_match=" ++ describe c)
    return .ofMatches r c

def verifyContract (compiled : CompiledContract) (contract : OnChainContract) : Traced Verdict :=
  verifyTarget contract.code compiled.recompiled compiled.artifacts contract.isBlueprint
    (some contract.id)

def verifyContracts (compiled : CompiledContract) : List OnChainContract → Traced (List Verdict)
  | [] => return []
  | c :: cs => do
    let v ← verifyContract compiled c
    let vs ← verifyContracts compiled cs
    return v :: vs

theorem value_verifyContracts (compiled : CompiledContract) (cs : List OnChainContract) :
    (verifyContracts compiled cs).value = cs.map fun c => (verifyContract compiled c).value := by
  induction cs with
  | nil => rfl
  | cons c cs ih => exact congrArg (_ :: ·) ih

/-! ## reports -/

namespace Report

def entry (c : OnChainContract) (v : Verdict) : Json :=
  .object [("id", .text c.id), ("result", v.write)]

def document (cs : List OnChainContract) (vs : List Verdict) : Json :=
  .list (List.zipWith entry cs vs)

def text (cs : List OnChainContract) (vs : List Verdict) : String := (document cs vs).pretty

def failures (vs : List Verdict) : Nat := (vs.filter fun v => v.kind = .failure).length

end Report

end CodeMatch
