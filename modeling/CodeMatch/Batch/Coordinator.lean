import CodeMatch.Batch.Race
import CodeMatch.Compiler
import CodeMatch.Settings
import CodeMatch.Verification

/-!
# The batch coordinator

A batch is compiled once and all its targets are matched against the one result.  The compiler is
somebody else's: the coordinator calls a pool and takes what it gets.  What else a request meets is in
its `Conditions`, and how it went in its `Run`.

The targets are matched in turn if there is at most one of them or at most one worker.  A cancelled
request takes its effect at the next point of cancellation, which the last target has too.
-/

namespace CodeMatch

open Document hiding Fault
open Log Traced

/-! ## requests -/

structure BatchVerificationRequest where
  contracts : List OnChainContract
  version : CompilerVersion
  content : CompilerInput
deriving DecidableEq

namespace BatchVerificationRequest

def read : Reader BatchVerificationRequest := Reader.record fun ms =>
  mk <$> Reader.required ["contracts"] (.list OnChainContract.read) ms
    <*> Reader.required ["compiler_version"] CompilerVersion.read ms
    <*> Reader.required ["content"] CompilerInput.read ms

def write (r : BatchVerificationRequest) : Json :=
  .object
    [("contracts", .list (r.contracts.map OnChainContract.write)),
     ("compiler_version", r.version.write), ("content", r.content.write)]

def format : Format BatchVerificationRequest := ⟨read, fun _ => write⟩

end BatchVerificationRequest

structure VerificationRequest where
  contract : OnChainContract
  version : CompilerVersion
  content : CompilerInput
deriving DecidableEq

namespace VerificationRequest

def batch (r : VerificationRequest) : BatchVerificationRequest :=
  ⟨[r.contract], r.version, r.content⟩

def read : Reader VerificationRequest := Reader.record fun ms =>
  mk <$> Reader.required ["contract"] OnChainContract.read ms
    <*> Reader.required ["compiler_version"] CompilerVersion.read ms
    <*> Reader.required ["content"] CompilerInput.read ms

def write (r : VerificationRequest) : Json :=
  .object
    [("contract", r.contract.write), ("compiler_version", r.version.write),
     ("content", r.content.write)]

def format : Format VerificationRequest := ⟨read, fun _ => write⟩

end VerificationRequest

/-! ## metrics -/

structure Metrics where
  counters : Dict Int := ∅
  gauges : Dict Binary64 := ∅
deriving DecidableEq

namespace Metrics

def count (m : Metrics) (name : String) : Int := (m.counters.get? name).getD 0

def add (m : Metrics) (name : String) (n : Int) : Metrics :=
  { m with counters := m.counters.insert name (m.count name + n) }

def observe (m : Metrics) (name : String) (x : Binary64) : Metrics :=
  { m with gauges := m.gauges.insert name x }

theorem count_add_self (m : Metrics) (name : String) (n : Int) :
    (m.add name n).count name = m.count name + n := by
  simp [count, add, Dict.get?_insert_self]

theorem count_add_of_ne (m : Metrics) {name name' : String} (h : name' ≠ name) (n : Int) :
    (m.add name n).count name' = m.count name' := by
  simp [count, add, Dict.get?_insert_of_ne _ h]

theorem count_observe (m : Metrics) (name name' : String) (x : Binary64) :
    (m.observe name x).count name' = m.count name' := rfl

end Metrics

/-! ## the pool -/

/-- what a failing pool raises: an error of any class, with the text that the class gives it -/
structure PoolError where
  kind : String
  message : String
deriving DecidableEq, Repr

inductive Cancellation where
  | never
  | duringCompile
  /-- while the target with the given number is being matched, counted from one -/
  | duringMatch (number : Nat)
  /-- while several workers are matching, after so many of their moves -/
  | duringRace (moves : Nat)
deriving DecidableEq, Repr

def Cancellation.number? : Cancellation → Option Nat
  | .duringMatch k => some k
  | _ => none

/-- the moves after which a race of so many workers for so many targets is cancelled: there is such a
race, and it is not over by then -/
def Cancellation.moves? (workers : Int) (targets : Nat) : Cancellation → Option Nat
  | .duringRace n => if 1 < workers ∧ 1 < targets ∧ n ≤ 2 * targets then some n else none
  | _ => none

/-- what a request meets -/
structure Conditions where
  pool : Except PoolError CompiledContract
  /-- how long the pool takes, in milliseconds -/
  elapsed : Binary64 := .finite false 0 0
  cancellation : Cancellation := .never
  /-- which of the things that can happen next with several workers does happen -/
  schedule : List Nat := []
  /-- what the coordinator receives of the list of all results -/
  received : List Verdict → List Verdict := id
  /-- what a request for one target receives of the results of its batch -/
  handedOn : List Verdict → List Verdict := id

namespace Batch

inductive Fault where
  | compilation (version reason : String) (cause : PoolError)
  | wrongCount (targets results : Nat)
  | notSingle (results : Nat)
  | cancelled
deriving DecidableEq, Repr

def Fault.message : Fault → String
  | .compilation version reason _ => "COMPILATION_FAILED version=" ++ version ++ ": " ++ reason
  | .wrongCount targets results =>
    "verified " ++ Text.naturalText targets ++ " contracts but got " ++
      Text.naturalText results ++ " results"
  | .notSingle results =>
    "expected exactly one verification result, got " ++ Text.naturalText results
  | .cancelled => ""

structure PoolCall where
  version : CompilerVersion
  content : CompilerInput
  cancelled : Bool

/-- how a request went -/
structure Run (α : Type) where
  outcome : Except Fault α
  metrics : Metrics
  calls : List PoolCall
  begun : List String
  log : List Record

def info (message : String) : Record := ⟨.info, .batch, message, none⟩
def error (message : String) : Record := ⟨.error, .batch, message, none⟩

/-! ## matching -/

/-- the targets whose match was begun, and the verdicts unless there was a cancellation -/
structure Progress where
  begun : List String
  verdicts : Option (List Verdict)

/-- the targets in turn; a cancellation strikes during the one with the number `k` -/
def inTurn (compiled : CompiledContract) : Option Nat → List OnChainContract → Traced Progress
  | _, [] => return ⟨[], some []⟩
  | k, c :: cs => do
    let v ← verifyContract compiled c
    if k = some 1 then return ⟨[c.id], none⟩
    else do
      let p ← inTurn compiled (k.map (· - 1)) cs
      return ⟨c.id :: p.begun, p.verdicts.map (v :: ·)⟩

def matchAll (workers : Int) (k : Option Nat) (schedule : List Nat) (compiled : CompiledContract)
    (cs : List OnChainContract) : Traced Progress :=
  if workers ≤ 1 ∨ cs.length ≤ 1 then inTurn compiled k cs
  else do
    let vs ← Race.gather (verifyContract compiled) workers.toNat schedule cs
    return ⟨cs.map (·.id), some vs⟩

/-- several workers until a cancellation after `n` moves: no further target is begun then, and those
that were begun are matched to the end, but nobody waits for them -/
def cutRace (workers : Nat) (n : Nat) (schedule : List Nat) (compiled : CompiledContract)
    (cs : List OnChainContract) : Traced Progress := do
  let p ← Race.Pool.run (verifyContract compiled) workers n schedule (Race.Pool.ofList cs)
  let _ ← Race.Pool.run (verifyContract compiled) workers p.running.length (schedule.drop n)
    { p with waiting := [] }
  let begun := (Race.numbered 0 cs).filter fun t => p.waiting.all (·.place ≠ t.place)
  return ⟨begun.map (·.input.id), none⟩

def matchUnder (workers : Int) (cond : Conditions) (compiled : CompiledContract)
    (cs : List OnChainContract) : Traced Progress :=
  match cond.cancellation.moves? workers cs.length with
  | none => matchAll workers cond.cancellation.number? cond.schedule compiled cs
  | some n => cutRace workers.toNat n cond.schedule compiled cs

def resultCounter : Verdict.Kind → String
  | .failure => "results_failure_total"
  | .runtimeMatch => "results_runtime_match_total"
  | .creationMatch => "results_creation_match_total"
  | .completeMatch => "results_complete_match_total"

def countResults (m : Metrics) (vs : List Verdict) : Metrics :=
  vs.foldl (fun m v => m.add (resultCounter v.kind) 1)
    (m.add "targets_verified_total" vs.length)

def countCompilation (m : Metrics) (elapsed : Binary64) : Metrics :=
  (m.add "compilations_total" 1).observe "compile_ms" elapsed

/-! ## the course of a request -/

def summary (cs : List OnChainContract) (vs : List Verdict) : String :=
  ", ".intercalate (List.zipWith (fun c v => c.id ++ "=" ++ v.kind.name) cs vs)

def afterCompilation (workers : Int) (cond : Conditions) (m : Metrics) (compiled : CompiledContract)
    (cs : List OnChainContract) : Traced (Except Fault (List Verdict) × Metrics × List String) := do
  let p ← matchUnder workers cond compiled cs
  match p.verdicts with
  | none => return (.error .cancelled, m, p.begun)
  | some vs =>
    let vs := cond.received vs
    if vs.length = cs.length then do
      tell (info ("Finished batch verification: " ++ summary cs vs))
      return (.ok vs, countResults m vs, p.begun)
    else return (.error (.wrongCount cs.length vs.length), m, p.begun)

end Batch

open Batch

structure Coordinator where
  workers : Int := 1
  metrics : Metrics := {}
deriving DecidableEq

namespace Coordinator

def ofSettings (s : Settings) : Coordinator := { workers := s.matchWorkers }

def verifyBatch (co : Coordinator) (cond : Conditions) (r : BatchVerificationRequest) :
    Run (List Verdict) :=
  let version := r.version.text
  let start := info ("Starting batch verification for " ++ Text.naturalText r.contracts.length ++
    " contracts, compiler_version=" ++ version)
  let call (cancelled : Bool) : PoolCall := ⟨r.version, r.content, cancelled⟩
  if cond.cancellation = .duringCompile then
    ⟨.error .cancelled, co.metrics, [call true], [], [start]⟩
  else
    match cond.pool with
    | .error e =>
      ⟨.error (.compilation version e.message e), co.metrics.add "compilation_errors_total" 1,
        [call false], [],
        [start, Batch.error ("Compilation failed for " ++ version ++ ": " ++ e.message)]⟩
    | .ok compiled =>
      let rest := afterCompilation co.workers cond (countCompilation co.metrics cond.elapsed)
        compiled r.contracts
      ⟨rest.value.1, rest.value.2.1, [call false], rest.value.2.2, start :: rest.log⟩

def single (vs : List Verdict) : Except Fault Verdict :=
  match vs with
  | [v] => .ok v
  | vs => .error (.notSingle vs.length)

def verify (co : Coordinator) (cond : Conditions) (r : VerificationRequest) : Run Verdict :=
  let run := co.verifyBatch cond r.batch
  { run with outcome := run.outcome.bind fun vs => single (cond.handedOn vs) }

def after {α : Type} (co : Coordinator) (run : Run α) : Coordinator :=
  { co with metrics := run.metrics }

end Coordinator

/-! ## histories -/

inductive Event where
  | workers (n : Int)
  | batch (cond : Conditions) (r : Checked BatchVerificationRequest)
  | one (cond : Conditions) (r : Checked VerificationRequest)

def Event.accepted : Event → Bool
  | .batch _ (.valid _) => true
  | .one _ (.valid _) => true
  | _ => false

namespace Batch

/-- a request, the conditions it met, and how its batch went; one target is a batch too -/
structure Served where
  request : BatchVerificationRequest
  conditions : Conditions
  run : Run (List Verdict)

end Batch

open Batch

namespace Coordinator

def step (co : Coordinator) : Event → Coordinator
  | .workers n => { co with workers := n }
  | .batch cond (.valid r) => co.after (co.verifyBatch cond r)
  | .one cond (.valid r) => co.after (co.verify cond r)
  | _ => co

def steps (co : Coordinator) (es : List Event) : Coordinator := es.foldl step co

def serve? (co : Coordinator) : Event → Option Served
  | .batch cond (.valid r) => some ⟨r, cond, co.verifyBatch cond r⟩
  | .one cond (.valid r) =>
    some ⟨r.batch, cond, { co.verify cond r with outcome := (co.verifyBatch cond r.batch).outcome }⟩
  | _ => none

def served (co : Coordinator) : List Event → List Served
  | [] => []
  | e :: es => (co.serve? e).toList ++ (co.step e).served es

theorem steps_nil (co : Coordinator) : co.steps [] = co := rfl
theorem steps_cons (co : Coordinator) (e : Event) (es : List Event) :
    co.steps (e :: es) = (co.step e).steps es := rfl
theorem served_nil (co : Coordinator) : co.served [] = [] := rfl
theorem served_cons (co : Coordinator) (e : Event) (es : List Event) :
    co.served (e :: es) = (co.serve? e).toList ++ (co.step e).served es := rfl

end Coordinator

end CodeMatch
