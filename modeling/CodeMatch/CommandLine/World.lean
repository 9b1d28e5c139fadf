import CodeMatch.CommandLine.Options
import CodeMatch.Node
import CodeMatch.Settings

/-!
# The world of a command, and how it ends

A command sees the environment, the files and perhaps a node.  One that is stopped on the way prints no
results and writes no file.
-/

namespace CodeMatch.CommandLine

inductive Entry where
  | absent
  | directory
  | file (text : String)
  /-- a file that holds no text -/
  | undecodable
deriving DecidableEq, Repr

structure World where
  env : Environment
  entry : String → Entry
  /-- the node that answers, if there is one -/
  node : Option Node

def pieces : List Char → List (List Char)
  | [] => [[]]
  | c :: cs =>
    if c = '/' then [] :: pieces cs
    else match pieces cs with
      | [] => [[c]]
      | p :: ps => (c :: p) :: ps

def components (path : String) : List String :=
  ((pieces path.toList).map String.ofList).filter fun name => name ≠ "" && name ≠ "."

def joinPath (absolute : Bool) (names : List String) : String :=
  if absolute then "/" ++ "/".intercalate names
  else if names.isEmpty then "." else "/".intercalate names

def isAbsolute (path : String) : Bool := path.toList.head? = some '/'

def plainPath (path : String) : String := joinPath (isAbsolute path) (components path)

def parentPath (path : String) : String := joinPath (isAbsolute path) (components path).dropLast

def writeFault? (w : World) (path : String) : Option String :=
  if w.entry (plainPath path) = .directory then some "IsADirectoryError"
  else
    match w.entry (parentPath path) with
    | .directory => none
    | .absent => some "FileNotFoundError"
    | _ => some "NotADirectoryError"

/-! ## a directory of files -/

/-- what stands at a path, seen from a directory that holds the given files -/
def entryAmong (files : List (String × String)) (path : String) : Entry :=
  let names := components path
  let isDirectory := names.isEmpty || files.any fun f =>
    names.isPrefixOf (components f.1) && names ≠ components f.1
  if path = "" || isAbsolute path then .absent
  else if isDirectory then .directory
  else
    match files.find? fun f => components f.1 = names with
    | some f => if path.toList.getLast? = some '/' then .absent else .file f.2
    | none => .absent

/-! ## outcomes -/

inductive Command where
  | program
  | matchTargets
  | fetchCode
deriving DecidableEq, Repr

namespace Command

def path : Command → String
  | program => "cli"
  | matchTargets => "cli match"
  | fetchCode => "cli fetch-code"

/-- what may follow the name of a command -/
def operands : Command → String
  | program => "[OPTIONS] COMMAND [ARGS]..."
  | _ => "[OPTIONS]"

/-- the lines in front of the text of a misuse -/
def usage (c : Command) : String :=
  "Usage: " ++ c.path ++ " " ++ c.operands ++ "\nTry '" ++ c.path ++ " --help' for help.\n\n"

def ofName? (name : String) : Option Command :=
  if name = "match" then some matchTargets
  else if name = "fetch-code" then some fetchCode
  else none

end Command

inductive Misuse where
  | option (fault : OptionFault)
  | missingOption (name : String)
  | noChoice (name given : String) (choices : List String)
  | noFile (name path : String)
  | isDirectory (name path : String)
  | missingCommand
  | noCommand (name : String)
  | operands (extra : List String)
  | noTargets
  | noRpcUrl
deriving DecidableEq, Repr

/-- a value that its option does not allow -/
def badValue (name reason : String) : String :=
  "Invalid value for " ++ Text.quoted name ++ ": " ++ reason

def Misuse.message : Misuse → String
  | .option f => f.message
  | .missingOption name => "Missing option " ++ Text.quoted name ++ "."
  | .noChoice name given choices =>
    badValue name (Text.quoted given ++ " is not one of " ++
      ", ".intercalate (choices.map Text.quoted) ++ ".")
  | .noFile name path => badValue name ("File " ++ Text.quoted path ++ " does not exist.")
  | .isDirectory name path => badValue name ("File " ++ Text.quoted path ++ " is a directory.")
  | .missingCommand => "Missing command."
  | .noCommand name => "No such command " ++ Text.quoted name ++ "."
  | .operands extra =>
    "Got unexpected extra argument" ++ (if extra.length = 1 then "" else "s") ++ " (" ++
      " ".intercalate extra ++ ")"
  | .noTargets => "--targets or --address is required"
  | .noRpcUrl => "--rpc-url or VERIFIER_RPC_URL is required"

inductive Stop where
  | misuse (command : Command) (cause : Misuse)
  | fault (message : String)
  | uncaught (name : String)
deriving DecidableEq, Repr

structure Trail where
  /-- the nodes connected to, with their timeouts -/
  connections : List (String × Int) := []
  requested : List String := []
  log : List Log.Record := []

structure Outcome where
  exitCode : Nat := 0
  stdout : String := ""
  stderr : String := ""
  /-- the file that was written -/
  written : Option (String × String) := none
  connections : List (String × Int) := []
  requested : List String := []
  /-- the name of a fault that was not caught -/
  uncaught : Option String := none
deriving DecidableEq, Repr

/-- the records that pass a threshold, as they are printed -/
def logText (t : Threshold) (log : List Log.Record) : String :=
  String.join ((log.filter t.passes).map Log.Record.lines)

def Outcome.stop (t : Threshold) (trail : Trail) (s : Stop) : Outcome :=
  let log := logText t trail.log
  let base : Outcome :=
    { exitCode := 1, stderr := log, connections := trail.connections, requested := trail.requested }
  match s with
  | .misuse c m =>
    { base with exitCode := 2, stderr := log ++ c.usage ++ "Error: " ++ m.message ++ "\n" }
  | .fault message => { base with stderr := log ++ "Error: " ++ message ++ "\n" }
  | .uncaught name => { base with uncaught := some name }

theorem exitCode_stop_ne_zero (t : Threshold) (trail : Trail) (s : Stop) :
    (Outcome.stop t trail s).exitCode ≠ 0 := by
  cases s <;> simp [Outcome.stop]

theorem stdout_stop (t : Threshold) (trail : Trail) (s : Stop) :
    (Outcome.stop t trail s).stdout = "" := by
  cases s <;> rfl

theorem written_stop (t : Threshold) (trail : Trail) (s : Stop) :
    (Outcome.stop t trail s).written = none := by
  cases s <;> rfl

end CodeMatch.CommandLine
