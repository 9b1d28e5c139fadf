import CodeMatch.Blueprint
import CodeMatch.Code
import CodeMatch.Constructor
import CodeMatch.Match

/-!
# Matching deployed code against recompiled code

There are three ways to match, one for each kind of code on chain.  Runtime code has the length of the
recompiled code.  What follows recompiled creation code has to be the encoding of constructor arguments, and is
recorded in the match; whatever follows the creation code in a blueprint is accepted.
-/

namespace CodeMatch.Matching

open Log Traced Comparison

inductive Fault where
  | regions (fault : Region.Fault)
  | arguments (fault : Constructor.Fault)
deriving DecidableEq, Repr

namespace Fault

/-- the name of a fault that the artifacts are not to blame for -/
def trace : Fault → Option String
  | .regions _ => none
  | .arguments f => if f.isMalformed then none else some f.name

def message : Fault → String
  | .regions f => f.message
  | .arguments f => f.message

end Fault

/-- a match, none, or a fault, with the records made on the way -/
abbrev Attempt := Traced (Except Fault (Option Match))

def debug (message : String) : Traced Unit := tell ⟨.debug, .matcher, message, none⟩

def lengths (b c : Bytes) : String :=
  "on_chain=" ++ Text.naturalText b.length ++ " recompiled=" ++ Text.naturalText c.length

def runtime (b c : Bytes) (a : RuntimeArtifacts) : Attempt :=
  match Region.checked .runtime c.length (Region.ofRuntime a) with
  | .error f => return .error (.regions f)
  | .ok rs =>
    if b.length = c.length then return .ok (compare b c rs)
    else do
      debug ("Runtime length mismatch " ++ lengths b c)
      return .ok none

/-- creation code `b` against recompiled code `c`, which it has to begin with up to the declared
regions; what follows is judged as constructor arguments for `inputs` -/
def prefixMatch (b c : Bytes) (a : CreationArtifacts) (inputs : Json) : Attempt :=
  match Region.checked .creation c.length (Region.ofCreation a) with
  | .error f => return .error (.regions f)
  | .ok rs =>
    if b.length < c.length then do
      debug ("Creation code shorter than recompiled " ++ lengths b c)
      return .ok none
    else do
      let arguments := b.drop c.length
      match ← Constructor.argumentsValid arguments inputs with
      | .error f => return .error (.arguments f)
      | .ok true => return .ok (compare (b.take c.length) c rs)
      | .ok false =>
        debug ("Constructor arguments rejected (" ++ Text.naturalText arguments.length ++ " bytes)")
        return .ok none

def recordArguments (arguments : Bytes) (m : Match) : Match :=
  if arguments.isEmpty then m else m.withArguments arguments

/-- the inputs that an interface gives a constructor; an unknown interface gives none -/
def constructorInputs : Option CompilationArtifacts → Except Unit (List Json)
  | none => .ok []
  | some c => c.constructorInputs.map fun inputs => inputs.getD []

def creation (b c : Bytes) (a : CreationArtifacts) (i : Option CompilationArtifacts) : Attempt :=
  match constructorInputs i with
  | .error () => return .error (.arguments .notIterable)
  | .ok inputs =>
    (prefixMatch b c a (.list inputs)).map fun r =>
      r.map (Option.map (recordArguments (b.drop c.length)))

def blueprint (b c : Bytes) (a : CreationArtifacts) : Attempt :=
  match Blueprint.parse b with
  | .ok p => prefixMatch p.initcode c a .null
  | .error f => do
    debug ("Blueprint preamble rejected: " ++ f.message)
    return .ok none

/-! ## without faults -/

inductive Subject where
  | runtime
  | creation
  | blueprint
deriving DecidableEq, Repr

def Subject.name : Subject → String
  | .runtime => "runtime"
  | .creation => "creation"
  | .blueprint => "blueprint_initcode"

/-- what a record is about; a target without a name is not mentioned -/
def about (s : Subject) (target : Option String) : String :=
  "(" ++ s.name ++ " code)" ++
    match target with
    | some t => if t.isEmpty then "" else " target=" ++ t
    | none => ""

def Fault.record (s : Subject) (target : Option String) (f : Fault) : Record :=
  match f.trace with
  | none => ⟨.error, .matcher, about s target ++ " malformed artifacts: " ++ f.message, none⟩
  | some name => ⟨.error, .matcher, about s target ++ " error while verifying", some name⟩

def guarded (s : Subject) (target : Option String) (x : Attempt) : Traced (Option Match) := do
  match ← x with
  | .ok (some m) => return some m
  | .ok none =>
    debug (about s target ++ " verification failed")
    return none
  | .error f =>
    tell (f.record s target)
    return none

end CodeMatch.Matching
