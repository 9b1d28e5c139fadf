import CodeMatch.CommandLine.Run

/-!
# The program

Runs the command line in the world as it is: looks up the environment variables and the paths that the
arguments name, runs the command, and then writes what it is to write.
-/

namespace CodeMatch

open CommandLine

def entryAt (path : String) : IO Entry := do
  try
    let bytes ← IO.FS.readBinFile path
    match String.fromUTF8? bytes with
    | some text => return .file text
    | none => return .undecodable
  catch
    | .noFileOrDirectory .. => return .absent
    | _ => return .directory

/-- the paths that a command line may ask about -/
def pathsIn (args : List String) : List String :=
  let named := args ++ args.filterMap fun a => (splitValue a).2
  named ++ named.map plainPath ++ named.map parentPath

def world (args : List String) : IO World := do
  let mut entries : List (String × Entry) := []
  for path in pathsIn args do
    entries := (path, ← entryAt path) :: entries
  let mut set : List (Variable × String) := []
  for var in [Variable.logLevel, .matchWorkers, .rpcUrl, .rpcTimeout] do
    if let some value ← IO.getEnv var.name then
      set := (var, value) :: set
  let found := entries
  let env := set
  return ⟨fun var => List.lookup var env, fun path => (List.lookup path found).getD .absent, none⟩

end CodeMatch

def main (args : List String) : IO UInt32 := do
  let outcome := CodeMatch.CommandLine.run (← CodeMatch.world args) args
  if let some (path, text) := outcome.written then
    IO.FS.writeFile path text
  IO.print outcome.stdout
  IO.eprint outcome.stderr
  if let some fault := outcome.uncaught then
    IO.eprintln fault
  return UInt32.ofNat outcome.exitCode
