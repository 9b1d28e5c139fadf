import CodeMatch.Log
import CodeMatch.Text

/-!
# Settings

Four environment variables configure the program, and each has a default.  The log level is looked at first,
then the number of workers, then the timeout.  A number may be written in the digits of any script, with blanks
around it and single underscores between its digits; a blank one counts as not set.
-/

namespace CodeMatch

inductive Variable where
  | logLevel
  | matchWorkers
  | rpcUrl
  | rpcTimeout
deriving DecidableEq, Repr

def Variable.name : Variable → String
  | .logLevel => "VERIFIER_LOG_LEVEL"
  | .matchWorkers => "VERIFIER_MATCH_WORKERS"
  | .rpcUrl => "VERIFIER_RPC_URL"
  | .rpcTimeout => "VERIFIER_RPC_TIMEOUT"

abbrev Environment := Variable → Option String

inductive Threshold where
  | critical
  | fatal
  | error
  | warn
  | warning
  | info
  | debug
  | notSet
deriving DecidableEq, Repr

namespace Threshold

def all : List Threshold := [critical, fatal, error, warn, warning, info, debug, notSet]

def name : Threshold → String
  | critical => "CRITICAL"
  | fatal => "FATAL"
  | error => "ERROR"
  | warn => "WARN"
  | warning => "WARNING"
  | info => "INFO"
  | debug => "DEBUG"
  | notSet => "NOTSET"

def rank : Threshold → Nat
  | critical => Log.Level.critical.rank
  | fatal => Log.Level.critical.rank
  | error => Log.Level.error.rank
  | warn => Log.Level.warning.rank
  | warning => Log.Level.warning.rank
  | info => Log.Level.info.rank
  | debug => Log.Level.debug.rank
  | notSet => 0

def ofName? (s : String) : Option Threshold := all.find? fun t => t.name = s

theorem ofName?_name (t : Threshold) : ofName? t.name = some t := by cases t <;> decide

def passes (t : Threshold) (r : Log.Record) : Bool := t.rank ≤ r.level.rank

end Threshold

structure Settings where
  logLevel : Threshold := .info
  matchWorkers : Int := 1
  rpcUrl : String := ""
  /-- in seconds -/
  rpcTimeout : Int := 8
deriving DecidableEq, Repr

namespace Settings

inductive Fault where
  | notInteger (var : Variable) (given : String)
  | tooSmall (var : Variable) (least n : Int)
  | noLevel (var : Variable) (given : String)
deriving DecidableEq, Repr

def Fault.message : Fault → String
  | .notInteger var given =>
    "Env var " ++ var.name ++ " must be an integer, got " ++ Text.quoted given
  | .tooSmall var least n =>
    "Env var " ++ var.name ++ " must be >= " ++ Text.integerText least ++ ", got " ++
      Text.integerText n
  | .noLevel var given =>
    "Env var " ++ var.name ++ " is not a logging level: " ++ Text.quoted given

/-- the integer that a numeral without blanks around it stands for -/
def integer? (s : List Char) : Option Int :=
  let (negative, body) := Text.signed s
  match Text.joined? Text.decimal? body with
  | some digits =>
    if digits.length ≤ Text.longestNumeral then
      (Text.value? Text.decimal? digits).map (Text.withSign negative)
    else none
  | none => none

/-- the value of a variable that holds an integer of at least `least` -/
def loadInteger (env : Environment) (var : Variable) (default least : Int) : Except Fault Int :=
  match env var with
  | none => .ok default
  | some s =>
    let body := Text.trim Text.isBlank s.toList
    if body.isEmpty then .ok default
    else
      match integer? body with
      | none => .error (.notInteger var s)
      | some n => if n < least then .error (.tooSmall var least n) else .ok n

def loadThreshold (env : Environment) (var : Variable) (default : Threshold) :
    Except Fault Threshold :=
  match env var with
  | none => .ok default
  | some s =>
    let name := String.ofList (Text.upper (Text.trim Text.isBlank s.toList))
    match Threshold.ofName? name with
    | some t => .ok t
    | none => .error (.noLevel var name)

def load (env : Environment) : Except Fault Settings := do
  let logLevel ← loadThreshold env .logLevel .info
  let matchWorkers ← loadInteger env .matchWorkers 1 1
  let rpcTimeout ← loadInteger env .rpcTimeout 8 1
  return { logLevel, matchWorkers, rpcUrl := (env .rpcUrl).getD "", rpcTimeout }

end Settings

end CodeMatch
