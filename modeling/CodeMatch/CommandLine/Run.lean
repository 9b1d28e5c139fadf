import CodeMatch.Address
import CodeMatch.CommandLine.World
import CodeMatch.Verification

/-!
# The commands of the program

`match` reads compiled code and targets, fetches more targets from a node, matches them all and reports;
`fetch-code` prints the code at an address and its hash.  The settings are read before the options of the
command are.
-/

namespace CodeMatch.CommandLine

open Document

structure MatchOptions where
  compiled : String
  targets : Option String
  addresses : List String
  rpcUrl : Option String
  isBlueprint : Bool
  /-- where the report goes; a dash is the standard output -/
  out : String
deriving DecidableEq, Repr

/-- the text of a file that was found before -/
def textAt (w : World) (path : String) : Except Stop String :=
  match w.entry path with
  | .file s => .ok s
  | .undecodable => .error (.uncaught "UnicodeDecodeError")
  | .directory => .error (.uncaught "IsADirectoryError")
  | .absent => .error (.uncaught "FileNotFoundError")

/-- the first line of a report on a document that cannot be read -/
def invalidText (what path type : String) (faults : List Document.Fault) : String :=
  "Invalid " ++ what ++ " " ++ path ++ ": " ++ Text.naturalText faults.length ++
    (if faults.length = 1 then " validation error for " else " validation errors for ") ++ type

def documentAt {α : Type} (w : World) (f : Format α) (what type path : String) : Except Stop α :=
  match textAt w path with
  | .error s => .error s
  | .ok s =>
    match f.readText s with
    | .valid a => .ok a
    | .invalid faults => .error (.fault (invalidText what path type faults))

def compiledAt (w : World) (path : String) : Except Stop CompiledContract :=
  documentAt w CompiledContract.format "compiled contract" "CompiledContract" path

def targetsAt (w : World) : Option String → Except Stop (List OnChainContract)
  | none => .ok []
  | some path => documentAt w OnChainContract.format.list "targets" "list[OnChainContract]" path

/-- the node to connect to: the option, or the setting if the option is absent or empty -/
def rpcUrlFor (c : Command) (s : Settings) (given : Option String) : Except Stop String :=
  let url := if given.getD "" = "" then s.rpcUrl else given.getD ""
  if url = "" then .error (.misuse c .noRpcUrl) else .ok url

/-- the fault that is reported for an address -/
def fetchStop (address : String) : FetchFault → Stop
  | .address f => .fault f.message
  | .noCode => .fault ("No code deployed at " ++ address)

/-- the targets at the addresses, up to the first that cannot be had -/
def fetchAll (n : Node) (isBlueprint : Bool) (trail : Trail) :
    List String → Except Stop (List OnChainContract) × Trail
  | [] => (.ok [], trail)
  | a :: as =>
    let x := fetchContract n a none isBlueprint
    let trail := { trail with
      requested := trail.requested ++ x.requested, log := trail.log ++ x.log }
    match x.outcome with
    | .error f => (.error (fetchStop a f), trail)
    | .ok c =>
      let (rest, trail) := fetchAll n isBlueprint trail as
      (rest.map (c :: ·), trail)

/-- the targets at the addresses that are asked for -/
def fetchTargets (w : World) (s : Settings) (a : MatchOptions) :
    Except Stop (List OnChainContract) × Trail :=
  if a.addresses.isEmpty then (.ok [], {})
  else
    match rpcUrlFor .matchTargets s a.rpcUrl with
    | .error stop => (.error stop, {})
    | .ok url =>
      let trail : Trail := { connections := [(url, s.rpcTimeout)] }
      match w.node with
      | none => (.error (.uncaught "ConnectionError"), trail)
      | some n => fetchAll n a.isBlueprint trail a.addresses

/-- the last line when targets did not match -/
def failureLine (failures total : Nat) : String :=
  if failures = 0 then ""
  else "❌ " ++ Text.naturalText failures ++ "/" ++ Text.naturalText total ++
    " targets did not match\n"

def report (w : World) (s : Settings) (out : String) (trail : Trail) (cs : List OnChainContract)
    (vs : List Verdict) : Outcome :=
  let text := Report.text cs vs ++ "\n"
  let failures := Report.failures vs
  let done : Outcome :=
    { exitCode := if failures = 0 then 0 else 1
      stderr := logText s.logLevel trail.log ++ failureLine failures vs.length
      connections := trail.connections
      requested := trail.requested }
  if out = "-" then { done with stdout := text }
  else
    match writeFault? w out with
    | some fault => .stop s.logLevel trail (.uncaught fault)
    | none =>
      { done with
        stdout := "✅ Wrote " ++ Text.naturalText cs.length ++ " results to " ++ out ++ "\n"
        written := some (plainPath out, text) }

def matchTargets (w : World) (s : Settings) (a : MatchOptions) : Outcome :=
  let inputs : Except Stop (CompiledContract × List OnChainContract) :=
    if a.targets.isNone && a.addresses.isEmpty then .error (.misuse .matchTargets .noTargets)
    else
      match compiledAt w a.compiled with
      | .error stop => .error stop
      | .ok compiled => (targetsAt w a.targets).map fun targets => (compiled, targets)
  match inputs with
  | .error stop => .stop s.logLevel {} stop
  | .ok (compiled, targets) =>
    match fetchTargets w s a with
    | (.error stop, trail) => .stop s.logLevel trail stop
    | (.ok fetched, trail) =>
      let cs := targets ++ fetched
      let vs := verifyContracts compiled cs
      report w s a.out { trail with log := trail.log ++ vs.log } cs vs.value

/-! ## code at an address -/

def codeHash (code : Bytes) : String := Hex.encode (Keccak.hash code)

def codeDocument (address : String) (code : Bytes) : Json :=
  .object
    [("address", .text address), ("runtime", ofBytes code), ("codehash", .text (codeHash code))]

def fetchCode (w : World) (s : Settings) (rpcUrl : Option String) (address : String) : Outcome :=
  match rpcUrlFor .fetchCode s rpcUrl with
  | .error stop => .stop s.logLevel {} stop
  | .ok url =>
    let connections := [(url, s.rpcTimeout)]
    match w.node with
    | none => .stop s.logLevel { connections } (.uncaught "ConnectionError")
    | some n =>
      let x := CodeMatch.fetchCode n address
      let trail : Trail := ⟨connections, x.requested, x.log⟩
      match x.outcome with
      | .error f => .stop s.logLevel trail (fetchStop address f)
      | .ok code =>
        { stdout := (codeDocument address code).pretty ++ "\n"
          stderr := logText s.logLevel x.log
          connections
          requested := x.requested }

/-! ## the program's own options -/

def programOptions : List Declaration := [("--log-level", .value)]

def matchOptions : List Declaration :=
  [("--compiled", .value), ("--targets", .value), ("--address", .value), ("--rpc-url", .value),
   ("--blueprint", .switch), ("--out", .value)]

def fetchOptions : List Declaration := [("--rpc-url", .value), ("--address", .value)]

def levels : List (String × Threshold) :=
  [("debug", .debug), ("info", .info), ("warning", .warning), ("error", .error),
   ("critical", .critical)]

def readLevel (given : Option String) : Except Misuse (Option Threshold) :=
  match given with
  | none => .ok none
  | some s =>
    match levels.lookup (s.map Char.toLower) with
    | some t => .ok (some t)
    | none => .error (.noChoice "--log-level" s (levels.map Prod.fst))

/-- the program's own part of a command line: the chosen threshold and what follows -/
def readProgram (as : List String) : Except Misuse (Option Threshold × List String) :=
  match readArguments programOptions false as with
  | .error f => .error (.option f)
  | .ok args => (readLevel (args.last? "--log-level")).map fun t => (t, args.operands)

/-- the command that is named and its arguments; the name of no command is read once more as an
option -/
def readCommand : List String → Except Misuse (Command × List String)
  | [] => .error .missingCommand
  | name :: as =>
    match Command.ofName? name with
    | some c => .ok (c, as)
    | none =>
      match readProgram (name :: as) with
      | .error m => .error m
      | .ok _ => .error (.noCommand name)

def settingsFor (w : World) (chosen : Option Threshold) : Except Stop Settings :=
  match Settings.load w.env with
  | .ok s => .ok { s with logLevel := chosen.getD s.logLevel }
  | .error f => .error (.fault ("Invalid configuration: " ++ f.message))

/-! ## the options of the commands -/

/-- what is wrong with the path of a file to be read -/
def pathFault? (w : World) (name : String) (path : Option String) (isRequired : Bool) :
    Option Misuse :=
  match path with
  | none => if isRequired then some (.missingOption name) else none
  | some p =>
    match w.entry p with
    | .absent => some (.noFile name p)
    | .directory => some (.isDirectory name p)
    | _ => none

/-- the arguments of a command, if `fault?` finds nothing wrong with any option and there are no
operands -/
def accepted (declared : List Declaration) (fault? : Arguments → String → Option Misuse)
    (as : List String) : Except Misuse Arguments :=
  match readArguments declared true as with
  | .error f => .error (.option f)
  | .ok args =>
    match (args.order declared).findSome? (fault? args) with
    | some m => .error m
    | none => if args.operands.isEmpty then .ok args else .error (.operands args.operands)

/-- what is wrong with an option of the command that matches -/
def matchFault? (w : World) (args : Arguments) (name : String) : Option Misuse :=
  if name = "--compiled" then pathFault? w name (args.last? name) true
  else if name = "--targets" then pathFault? w name (args.last? name) false
  else none

def matchOptionsOf (w : World) (as : List String) : Except Misuse MatchOptions :=
  (accepted matchOptions (matchFault? w) as).map fun args =>
    { compiled := (args.last? "--compiled").getD ""
      targets := args.last? "--targets"
      addresses := args.values "--address"
      rpcUrl := args.last? "--rpc-url"
      isBlueprint := args.has "--blueprint"
      out := (args.last? "--out").getD "-" }

/-- what is wrong with an option of the command that fetches -/
def fetchFault? (args : Arguments) (name : String) : Option Misuse :=
  if name = "--address" && (args.last? name).isNone then some (.missingOption name) else none

/-! ## the program -/

def runCommand (w : World) (s : Settings) (as : List String) : Command → Outcome
  | .fetchCode =>
    match accepted fetchOptions fetchFault? as with
    | .error m => .stop s.logLevel {} (.misuse .fetchCode m)
    | .ok args => fetchCode w s (args.last? "--rpc-url") ((args.last? "--address").getD "")
  | _ =>
    match matchOptionsOf w as with
    | .error m => .stop s.logLevel {} (.misuse .matchTargets m)
    | .ok a => matchTargets w s a

def run (w : World) (as : List String) : Outcome :=
  let chosen : Except Misuse (Option Threshold × Command × List String) := do
    let (level, rest) ← readProgram as
    let (command, rest) ← readCommand rest
    return (level, command, rest)
  match chosen with
  | .error m => .stop .info {} (.misuse .program m)
  | .ok (level, command, rest) =>
    match settingsFor w level with
    | .error stop => .stop .info {} stop
    | .ok s => runCommand w s rest command

end CodeMatch.CommandLine
