import CodeMatch.Batch.Coordinator
import CodeMatch.Proofs.Batch.Order
import Mathlib

/-!
# The metrics keep a ledger

Counters are added to in three places, with points of cancellation between them.  Whatever happens to a
coordinator, they agree with what it did.

* `count_countResults`         what a list of results does to a counter;
* `Fate`, `fate`               what became of a compilation, read off the conditions of a request;
* `countFate`, `countReturned` the two steps in which a request counts;
* `verifyBatch_counts`         a request does nothing else to the metrics;
* `fates`, `targets`, `results`, `calls`   what the metrics are about, for a list of served requests;
* `Balanced m rs`              the metrics agree with the requests served so far;
* `Balanced.verifyBatch`, `Balanced.step`   one more request, one more event keep them in agreement;
* `Balanced.steps`             so does any list of events;
* `ledger`                     what the counters say at any time.
-/

namespace CodeMatch

open Document

namespace Batch

/-! ## counters -/

theorem resultCounter_injective : Function.Injective resultCounter := by
  intro k k' h
  cases k <;> cases k' <;> first | rfl | exact absurd h (by decide)

theorem resultCounter_ne_targets (k : Verdict.Kind) :
    resultCounter k ≠ "targets_verified_total" := by cases k <;> decide

theorem resultCounter_ne_compilations (k : Verdict.Kind) :
    resultCounter k ≠ "compilations_total" := by cases k <;> decide

theorem resultCounter_ne_errors (k : Verdict.Kind) :
    resultCounter k ≠ "compilation_errors_total" := by cases k <;> decide

section
variable (m : Metrics) (vs : List Verdict)

/-- each result counts once, where its kind is counted -/
theorem count_countResults (name : String) :
    (countResults m vs).count name =
      (m.add "targets_verified_total" vs.length).count name +
        vs.countP (resultCounter ·.kind = name) := by
  unfold countResults
  generalize m.add "targets_verified_total" vs.length = m
  induction vs generalizing m with
  | nil => exact (Int.add_zero _).symm
  | cons v vs ih =>
    rw [List.foldl_cons, ih, List.countP_cons]
    by_cases h : resultCounter v.kind = name
    · rw [← h, m.count_add_self, if_pos (decide_eq_true rfl)]
      push_cast
      ring
    · rw [m.count_add_of_ne (Ne.symm h), if_neg (by simpa using h), Nat.add_zero]

/-- a counter that is not for results of some kind -/
theorem count_countResults_of_ne {name : String} (h : ∀ k, resultCounter k ≠ name) :
    (countResults m vs).count name = (m.add "targets_verified_total" vs.length).count name := by
  have h0 : vs.countP (resultCounter ·.kind = name) = 0 :=
    List.countP_eq_zero.mpr fun v _ => by simpa using h v.kind
  rw [count_countResults, h0, Nat.cast_zero, add_zero]

theorem count_countResults_kind (k : Verdict.Kind) :
    (countResults m vs).count (resultCounter k) =
      m.count (resultCounter k) + vs.countP (·.kind = k) := by
  rw [count_countResults, m.count_add_of_ne (resultCounter_ne_targets k)]
  simp only [resultCounter_injective.eq_iff]

theorem gauges_countResults : (countResults m vs).gauges = m.gauges := by
  unfold countResults
  show _ = (m.add "targets_verified_total" vs.length).gauges
  generalize m.add "targets_verified_total" vs.length = m
  induction vs generalizing m with
  | nil => rfl
  | cons v vs ih => rw [List.foldl_cons, ih]; rfl

end

/-! ## one request -/

/-- what became of a compilation -/
inductive Fate where
  | cancelled
  | failed
  | compiled
deriving DecidableEq, Repr

def fate (cond : Conditions) : Fate :=
  if cond.cancellation = .duringCompile then .cancelled
  else
    match cond.pool with
    | .error _ => .failed
    | .ok _ => .compiled

/-- the metrics after a compilation of that fate -/
def countFate (m : Metrics) (elapsed : Binary64) : Fate → Metrics
  | .cancelled => m
  | .failed => m.add "compilation_errors_total" 1
  | .compiled => countCompilation m elapsed

/-- the metrics after the results, or after none -/
def countReturned (m : Metrics) : Option (List Verdict) → Metrics
  | none => m
  | some vs => countResults m vs

section
variable (m : Metrics) (elapsed : Binary64) (f : Fate)

theorem count_countFate_compilations :
    (countFate m elapsed f).count "compilations_total" =
      m.count "compilations_total" + if f = .compiled then 1 else 0 := by
  cases f with
  | cancelled => exact (Int.add_zero _).symm
  | failed => exact (m.count_add_of_ne (by decide) 1).trans (Int.add_zero _).symm
  | compiled => exact m.count_add_self _ 1

theorem count_countFate_errors :
    (countFate m elapsed f).count "compilation_errors_total" =
      m.count "compilation_errors_total" + if f = .failed then 1 else 0 := by
  cases f with
  | cancelled => exact (Int.add_zero _).symm
  | failed => exact m.count_add_self _ 1
  | compiled => exact (m.count_add_of_ne (by decide) 1).trans (Int.add_zero _).symm

theorem count_countFate_of_ne {name : String} (hc : name ≠ "compilations_total")
    (he : name ≠ "compilation_errors_total") :
    (countFate m elapsed f).count name = m.count name := by
  cases f with
  | cancelled => rfl
  | failed => exact m.count_add_of_ne he 1
  | compiled => exact m.count_add_of_ne hc 1

/-- only a compilation sets the gauge -/
theorem gauge_countFate :
    ((countFate m elapsed f).gauges.get? "compile_ms").isSome ↔
      (m.gauges.get? "compile_ms").isSome ∨ f = .compiled := by
  cases f with
  | cancelled => simp [countFate]
  | failed => simp [countFate, Metrics.add]
  | compiled => simp [countFate, countCompilation, Metrics.observe, Dict.get?_insert_self]

variable (o : Option (List Verdict))

theorem count_countReturned_targets :
    (countReturned m o).count "targets_verified_total" =
      m.count "targets_verified_total" + o.elim 0 List.length := by
  cases o with
  | none => exact (Int.add_zero _).symm
  | some vs => exact (count_countResults_of_ne m vs resultCounter_ne_targets).trans (m.count_add_self _ _)

theorem count_countReturned_kind (k : Verdict.Kind) :
    (countReturned m o).count (resultCounter k) =
      m.count (resultCounter k) + o.elim 0 (·.countP (·.kind = k)) := by
  cases o with
  | none => exact (Int.add_zero _).symm
  | some vs => exact count_countResults_kind m vs k

theorem count_countReturned_of_ne {name : String} (ht : name ≠ "targets_verified_total")
    (h : ∀ k, resultCounter k ≠ name) : (countReturned m o).count name = m.count name := by
  cases o with
  | none => rfl
  | some vs => exact (count_countResults_of_ne m vs h).trans (m.count_add_of_ne ht _)

theorem gauges_countReturned : (countReturned m o).gauges = m.gauges := by
  cases o with
  | none => rfl
  | some vs => exact gauges_countResults m vs

end

/-- after a compilation there are results, as many as targets, and they are counted, or there are none -/
theorem afterCompilation_counts (workers : Int) (cond : Conditions) (m : Metrics)
    (compiled : CompiledContract) (cs : List OnChainContract) :
    let x := (afterCompilation workers cond m compiled cs).value
    x.2.1 = countReturned m x.1.toOption ∧ ∀ vs, x.1.toOption = some vs → vs.length = cs.length := by
  rw [value_afterCompilation]
  dsimp only
  generalize (matchUnder workers cond compiled cs).value.verdicts.map cond.received = o
  cases o with
  | none => exact ⟨rfl, fun _ h => by cases h⟩
  | some vs =>
    by_cases hl : vs.length = cs.length
    · simp only [if_pos hl]
      refine ⟨rfl, fun _ h => ?_⟩
      cases h
      exact hl
    · simp only [if_neg hl]
      exact ⟨rfl, fun _ h => by cases h⟩

section
variable (co : Coordinator) (cond : Conditions) (r : BatchVerificationRequest)

/-- a request counts its compilation and what came back -/
theorem verifyBatch_counts :
    let run := co.verifyBatch cond r
    run.metrics =
        countReturned (countFate co.metrics cond.elapsed (fate cond)) run.outcome.toOption ∧
      ∀ vs, run.outcome.toOption = some vs → vs.length = r.contracts.length := by
  unfold Coordinator.verifyBatch fate
  by_cases hc : cond.cancellation = .duringCompile
  · rw [if_pos hc, if_pos hc]
    exact ⟨rfl, fun _ h => by cases h⟩
  · rw [if_neg hc, if_neg hc]
    cases cond.pool with
    | error e => exact ⟨rfl, fun _ h => by cases h⟩
    | ok compiled => exact afterCompilation_counts _ _ _ _ _

/-- the pool is called once, whatever comes of it -/
theorem length_calls_verifyBatch : (co.verifyBatch cond r).calls.length = 1 := by
  unfold Coordinator.verifyBatch
  split
  · rfl
  · cases cond.pool <;> rfl

end

/-! ## all requests -/

namespace Served

def fate (s : Served) : Fate := Batch.fate s.conditions

/-- the list of results, if compiling and matching came to one -/
def results? (s : Served) : Option (List Verdict) := s.run.outcome.toOption

end Served

/-- how many requests had compilations of that fate -/
def fates (f : Fate) (rs : List Served) : Nat := rs.countP (·.fate = f)

/-- the targets of all requests that came to a list of results -/
def targets (rs : List Served) : Nat :=
  ((rs.filter (·.results?.isSome)).map (·.request.contracts.length)).sum

/-- all results, one request after the other -/
def results (rs : List Served) : List Verdict := (rs.filterMap Served.results?).flatten

/-- all calls of the pool -/
def calls (rs : List Served) : List PoolCall := rs.flatMap (·.run.calls)

/-- the counters are those of the requests, and each target of a result list has one result -/
structure Balanced (m : Metrics) (rs : List Served) : Prop where
  complete : targets rs = (results rs).length
  targets : m.count "targets_verified_total" = targets rs
  results : ∀ k, m.count (resultCounter k) = (results rs).countP (·.kind = k)
  compilations : m.count "compilations_total" = fates .compiled rs
  errors : m.count "compilation_errors_total" = fates .failed rs
  gauge : (m.gauges.get? "compile_ms").isSome ↔ 1 ≤ m.count "compilations_total"

section
variable (rs : List Served) (s : Served)

theorem fates_append_singleton (f : Fate) :
    fates f (rs ++ [s]) = fates f rs + if s.fate = f then 1 else 0 := by
  simp [fates, List.countP_append, List.countP_singleton]

theorem results_append_singleton : results (rs ++ [s]) = results rs ++ s.results?.getD [] := by
  cases h : s.results? <;> simp [results, h]

theorem countP_results_append_singleton (k : Verdict.Kind) :
    (results (rs ++ [s])).countP (·.kind = k) =
      (results rs).countP (·.kind = k) + s.results?.elim 0 (·.countP (·.kind = k)) := by
  rw [results_append_singleton, List.countP_append]
  cases s.results? <;> rfl

theorem targets_append_singleton
    (h : ∀ vs, s.results? = some vs → vs.length = s.request.contracts.length) :
    targets (rs ++ [s]) = targets rs + s.results?.elim 0 List.length := by
  cases hr : s.results? with
  | none => simp [targets, hr]
  | some vs => simp [targets, hr, h vs hr]

end

theorem balanced_nil : Balanced {} [] where
  complete := rfl
  targets := rfl
  results := fun _ => rfl
  compilations := rfl
  errors := rfl
  gauge := by decide

section
variable {co : Coordinator} {rs : List Served}

/-- a request leaves the metrics in agreement with all requests including itself -/
theorem Balanced.verifyBatch (h : Balanced co.metrics rs) (cond : Conditions)
    (r : BatchVerificationRequest) :
    Balanced (co.verifyBatch cond r).metrics (rs ++ [⟨r, cond, co.verifyBatch cond r⟩]) := by
  obtain ⟨hm, hl⟩ := verifyBatch_counts co cond r
  rw [hm]
  refine ⟨?_, ?_, fun k => ?_, ?_, ?_, ?_⟩
  · rw [targets_append_singleton rs ⟨r, cond, co.verifyBatch cond r⟩ hl, results_append_singleton,
      List.length_append, h.complete]
    cases (Served.results? _) <;> rfl
  · rw [count_countReturned_targets, count_countFate_of_ne _ _ _ (by decide) (by decide), h.targets,
      targets_append_singleton rs ⟨r, cond, co.verifyBatch cond r⟩ hl, Nat.cast_add]
    rfl
  · rw [count_countReturned_kind, count_countFate_of_ne _ _ _ (resultCounter_ne_compilations k)
      (resultCounter_ne_errors k), h.results, countP_results_append_singleton, Nat.cast_add]
    rfl
  · rw [count_countReturned_of_ne _ _ (by decide) resultCounter_ne_compilations,
      count_countFate_compilations, h.compilations, fates_append_singleton, Nat.cast_add,
      Nat.cast_ite]
    rfl
  · rw [count_countReturned_of_ne _ _ (by decide) resultCounter_ne_errors, count_countFate_errors,
      h.errors, fates_append_singleton, Nat.cast_add, Nat.cast_ite]
    rfl
  · rw [gauges_countReturned, gauge_countFate,
      count_countReturned_of_ne _ _ (by decide) resultCounter_ne_compilations,
      count_countFate_compilations, h.gauge, h.compilations]
    split
    case isTrue hf =>
      have h1 : (1 : Int) ≤ fates .compiled rs + 1 := by omega
      exact iff_of_true (.inr hf) h1
    case isFalse hf => rw [Int.add_zero, or_iff_left hf]

theorem Balanced.step (h : Balanced co.metrics rs) (e : Event) :
    Balanced (co.step e).metrics (rs ++ (co.serve? e).toList) := by
  rcases e with n | ⟨cond, r | fs⟩ | ⟨cond, r | fs⟩
  case batch.valid => exact h.verifyBatch cond r
  case one.valid => exact h.verifyBatch cond r.batch
  all_goals
    rw [show co.serve? _ = none from rfl, Option.toList_none, List.append_nil]
    exact h

theorem Balanced.steps (h : Balanced co.metrics rs) (es : List Event) :
    Balanced (co.steps es).metrics (rs ++ co.served es) := by
  induction es generalizing co rs with
  | nil => rwa [Coordinator.steps_nil, Coordinator.served_nil, List.append_nil]
  | cons e es ih =>
    rw [Coordinator.steps_cons, Coordinator.served_cons, ← List.append_assoc]
    exact ih (h.step e)

/-- the pool is called once for each request that was accepted -/
theorem length_served (co : Coordinator) (es : List Event) :
    (co.served es).length = es.countP Event.accepted := by
  induction es generalizing co with
  | nil => rfl
  | cons e es ih =>
    rw [Coordinator.served_cons, List.length_append, ih, List.countP_cons, Nat.add_comm]
    rcases e with n | ⟨cond, r | fs⟩ | ⟨cond, r | fs⟩ <;> rfl

theorem length_calls_of_mem_served {es : List Event} {s : Served} (hs : s ∈ co.served es) :
    s.run.calls.length = 1 := by
  induction es generalizing co with
  | nil => cases hs
  | cons e es ih =>
    rw [Coordinator.served_cons, List.mem_append] at hs
    rcases hs with hs | hs
    · rcases e with n | ⟨cond, r | fs⟩ | ⟨cond, r | fs⟩
      case batch.valid =>
        cases List.mem_singleton.mp hs
        exact length_calls_verifyBatch co cond r
      case one.valid =>
        cases List.mem_singleton.mp hs
        exact length_calls_verifyBatch co cond r.batch
      all_goals cases hs
    · exact ih hs

end

/-- every request has one of the fates -/
theorem length_eq_fates (rs : List Served) :
    rs.length = fates .compiled rs + fates .failed rs + fates .cancelled rs := by
  induction rs with
  | nil => rfl
  | cons s rs ih =>
    simp only [fates, List.countP_cons, List.length_cons] at ih ⊢
    rw [ih]
    cases s.fate <;> simp <;> omega

/-- every result is of one of the kinds -/
theorem length_eq_kinds (vs : List Verdict) :
    vs.length = vs.countP (·.kind = .failure) + vs.countP (·.kind = .runtimeMatch) +
      vs.countP (·.kind = .creationMatch) + vs.countP (·.kind = .completeMatch) := by
  induction vs with
  | nil => rfl
  | cons v vs ih =>
    simp only [List.countP_cons, List.length_cons]
    rw [ih]
    cases v.kind <;> simp <;> omega

theorem length_calls {rs : List Served} (h : ∀ s ∈ rs, s.run.calls.length = 1) :
    (calls rs).length = rs.length := by
  rw [calls, List.length_flatMap, List.map_congr_left h, List.map_const', List.sum_replicate,
    smul_eq_mul, Nat.mul_one]

end Batch

open Batch

/-- **The metrics keep a ledger.**  Whatever has happened to a coordinator since its metrics were empty,
its counters say how many targets have results, how many results there are of each kind, and what became
of the calls of the pool, one for each request; there is a time of compilation once there was one. -/
theorem ledger (workers : Int) (es : List Event) :
    let co : Coordinator := { workers }
    let m := (co.steps es).metrics
    let rs := co.served es
    m.count "targets_verified_total" =
        m.count "results_failure_total" + m.count "results_runtime_match_total" +
          m.count "results_creation_match_total" + m.count "results_complete_match_total" ∧
      (m.count "targets_verified_total" = targets rs ∧
        ∀ k, m.count (resultCounter k) = (results rs).countP (·.kind = k)) ∧
      ((∀ s ∈ rs, s.run.calls.length = 1) ∧
        (calls rs).length = es.countP Event.accepted ∧
        (calls rs).length = m.count "compilations_total" + m.count "compilation_errors_total" +
          fates .cancelled rs) ∧
      ((m.gauges.get? "compile_ms").isSome ↔ 1 ≤ m.count "compilations_total") := by
  intro co m rs
  have h0 : Balanced co.metrics [] := balanced_nil
  have h : Balanced m rs := h0.steps es
  have hcalls : ∀ s ∈ rs, s.run.calls.length = 1 := fun s hs => length_calls_of_mem_served hs
  refine ⟨?_, ⟨h.targets, h.results⟩, ⟨hcalls, ?_, ?_⟩, h.gauge⟩
  · have hkinds := length_eq_kinds (results rs)
    rw [h.targets, h.complete, hkinds, ← show resultCounter .failure = "results_failure_total" from rfl,
      ← show resultCounter .runtimeMatch = "results_runtime_match_total" from rfl,
      ← show resultCounter .creationMatch = "results_creation_match_total" from rfl,
      ← show resultCounter .completeMatch = "results_complete_match_total" from rfl,
      h.results, h.results, h.results, h.results]
    push_cast
    rfl
  · rw [length_calls hcalls, length_served]
  · rw [length_calls hcalls, length_eq_fates, h.compilations, h.errors]
    push_cast
    rfl

/-- a failing pool, a cancelled race, and a batch of two whose targets match and fail -/
example :
    let compiled : CompiledContract := { recompiled := ⟨[0x60], [0x73]⟩ }
    let a : OnChainContract := ⟨"a", ⟨some [0x60], none, rfl⟩, false⟩
    let b : OnChainContract := ⟨"b", ⟨some [0x61], none, rfl⟩, false⟩
    let r : BatchVerificationRequest :=
      ⟨[a, b], { major := 0, minor := 8, patch := 24 }, { sources := ∅ }⟩
    let m := (Coordinator.steps {} [
      .batch { pool := .error ⟨"ValueError", "bad input"⟩ } (.valid r), .workers 2,
      .batch { pool := .ok compiled, cancellation := .duringRace 3 } (.valid r),
      .batch { pool := .ok compiled } (.valid r)]).metrics
    m.counters.toList = [("compilation_errors_total", 1), ("compilations_total", 2),
      ("targets_verified_total", 2), ("results_runtime_match_total", 1),
      ("results_failure_total", 1)] := by cbv

end CodeMatch
