/-!
# Log records

The library does not print.  A computation that has something to report hands its records back with
its result.
-/

namespace CodeMatch.Log

inductive Level where
  | debug
  | info
  | warning
  | error
  | critical
deriving DecidableEq, Repr

def Level.name : Level → String
  | .debug => "DEBUG"
  | .info => "INFO"
  | .warning => "WARNING"
  | .error => "ERROR"
  | .critical => "CRITICAL"

def Level.rank : Level → Nat
  | .debug => 10
  | .info => 20
  | .warning => 30
  | .error => 40
  | .critical => 50

inductive Source where
  | matcher
  | constructor
  | verification
  | chain
  | batch
deriving DecidableEq, Repr

def Source.name : Source → String
  | .matcher => "evm_verifier.matcher"
  | .constructor => "evm_verifier.constructor"
  | .verification => "evm_verifier.verification"
  | .chain => "evm_verifier.chain"
  | .batch => "evm_verifier.batch"

structure Record where
  level : Level
  source : Source
  message : String
  /-- the name of the fault that is reported with its trace -/
  trace : Option String := none
deriving DecidableEq, Repr

/-- the lines of a record as they are printed -/
def Record.lines (r : Record) : String :=
  r.level.name ++ " " ++ r.source.name ++ ": " ++ r.message ++ "\n" ++
    match r.trace with
    | some fault => "Traceback " ++ fault ++ "\n"
    | none => ""

universe u v

structure Traced (α : Type u) where
  value : α
  log : List Record := []

namespace Traced

variable {α : Type u} {β : Type v}

def bind (x : Traced α) (f : α → Traced β) : Traced β :=
  let y := f x.value
  ⟨y.value, x.log ++ y.log⟩

def map (f : α → β) (x : Traced α) : Traced β := ⟨f x.value, x.log⟩

instance : Monad Traced where
  pure a := ⟨a, []⟩
  bind := bind

/-- one record -/
def tell (r : Record) : Traced Unit := ⟨(), [r]⟩

theorem value_bind (x : Traced α) (f : α → Traced β) : (x.bind f).value = (f x.value).value := rfl

end Traced

end CodeMatch.Log
