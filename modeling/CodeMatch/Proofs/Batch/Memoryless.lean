import CodeMatch.Proofs.Batch.Ledger
import Mathlib

/-!
# A coordinator has no memory

Requests come one after the other, some fail, some are cancelled, and the number of workers changes.  None of
this shows in the answer to a later request: it is fixed by the request and by what the pool makes of it.

* `answer pool r`             what the request `r` comes to;
* `Fault.Reports f version e`   the fault `f` hands on the error `e` of the pool, and the text of it;
* `outcome_verifyBatch_eq`    a request that nothing disturbs comes to that, whatever the coordinator has been
                              through;
* `Metrics.Uniform g`         the update `g` adds the same to each counter, whatever the counters were;
* `history_leaves_no_trace`   two coordinators with any two histories.
-/

namespace CodeMatch

namespace Metrics

/-- the update adds the same to each counter, whatever the counters were before -/
def Uniform (g : Metrics → Metrics) : Prop :=
  ∀ m m' name, (g m).count name - m.count name = (g m').count name - m'.count name

theorem uniform_id : Uniform fun m => m := fun _ _ _ => by rw [sub_self, sub_self]

theorem uniform_add (name : String) (n : Int) : Uniform (·.add name n) := by
  intro m m' name'
  by_cases h : name' = name
  · rw [h, count_add_self, count_add_self, add_sub_cancel_left, add_sub_cancel_left]
  · rw [m.count_add_of_ne h, m'.count_add_of_ne h, sub_self, sub_self]

theorem uniform_observe (name : String) (x : Binary64) : Uniform (·.observe name x) := by
  intro m m' name'
  rw [count_observe, count_observe, sub_self, sub_self]

theorem Uniform.comp {f g : Metrics → Metrics} (hg : Uniform g) (hf : Uniform f) :
    Uniform fun m => g (f m) := by
  intro m m' name
  have h1 := hf m m' name
  have h2 := hg (f m) (f m') name
  show (g (f m)).count name - m.count name = (g (f m')).count name - m'.count name
  omega

theorem uniform_foldl {α : Type} {f : Metrics → α → Metrics} (hf : ∀ a, Uniform (f · a))
    (as : List α) : Uniform (as.foldl f ·) := by
  induction as with
  | nil => exact uniform_id
  | cons a as ih => exact ih.comp (hf a)

end Metrics

namespace Batch

open Metrics

/-! ## counting -/

theorem uniform_countResults (vs : List Verdict) : Uniform (countResults · vs) := by
  have hone : ∀ v : Verdict, Uniform (·.add (resultCounter v.kind) 1) := fun v => uniform_add _ 1
  exact (uniform_foldl hone vs).comp (uniform_add "targets_verified_total" vs.length)

theorem uniform_countFate (elapsed : Binary64) (f : Fate) : Uniform (countFate · elapsed f) := by
  cases f with
  | cancelled => exact uniform_id
  | failed => exact uniform_add _ 1
  | compiled => exact (uniform_observe _ elapsed).comp (uniform_add _ 1)

theorem uniform_countReturned (o : Option (List Verdict)) : Uniform (countReturned · o) := by
  cases o with
  | none => exact uniform_id
  | some vs => exact uniform_countResults vs

/-- how long the pool takes does not count -/
theorem count_countFate_elapsed (m : Metrics) (elapsed elapsed' : Binary64) (f : Fate) (name : String) :
    (countFate m elapsed f).count name = (countFate m elapsed' f).count name := by
  cases f <;> rfl

/-! ## one request -/

/-- what a request comes to, by what the pool makes of it -/
def answer (pool : Except PoolError CompiledContract) (r : BatchVerificationRequest) :
    Except Fault (List Verdict) :=
  match pool with
  | .ok compiled => .ok (r.contracts.map fun c => (verifyContract compiled c).value)
  | .error e => .error (.compilation r.version.text e.message e)

/-- a fault says for which version compiling has failed, and why: with the error's own words, and with the
error itself -/
structure Fault.Reports (f : Fault) (version : String) (e : PoolError) : Prop where
  carries : f = .compilation version e.message e
  message : f.message = "COMPILATION_FAILED version=" ++ version ++ ": " ++ e.message

theorem reports_compilation (version : String) (e : PoolError) :
    (Fault.compilation version e.message e).Reports version e := ⟨rfl, rfl⟩

/-- a request that is not cancelled calls the pool once, for itself -/
theorem calls_verifyBatch (co : Coordinator) {cond : Conditions}
    (hc : cond.cancellation ≠ .duringCompile) (r : BatchVerificationRequest) :
    (co.verifyBatch cond r).calls = [⟨r.version, r.content, false⟩] := by
  unfold Coordinator.verifyBatch
  rw [if_neg hc]
  cases cond.pool <;> rfl

section
variable (co : Coordinator) (pool : Except PoolError CompiledContract) (elapsed : Binary64)
  (schedule : List Nat)

theorem outcome_verifyBatch_eq (r : BatchVerificationRequest) :
    (co.verifyBatch { pool, elapsed, schedule } r).outcome = answer pool r := by
  cases pool with
  | error e => rfl
  | ok compiled =>
    have hcalm := @outcome_verifyBatch compiled { pool := .ok compiled, elapsed, schedule } rfl rfl co r
    rcases hcalm with h | ⟨-, hn⟩
    · exact h
    · exact absurd rfl hn

/-- a request for one target comes to the only verdict of its batch -/
theorem outcome_verify_eq (r : VerificationRequest) :
    (co.verify { pool, elapsed, schedule } r).outcome =
      match pool with
      | .ok compiled => .ok (verifyContract compiled r.contract).value
      | .error e => .error (.compilation r.version.text e.message e) := by
  show Except.bind _ _ = _
  rw [outcome_verifyBatch_eq]
  cases pool <;> rfl

/-- what a request adds to the counters is fixed by the request and the pool -/
theorem uniform_verifyBatch (co' : Coordinator) (elapsed' : Binary64) (schedule' : List Nat)
    (r : BatchVerificationRequest) (name : String) :
    (co.verifyBatch { pool, elapsed, schedule } r).metrics.count name - co.metrics.count name =
      (co'.verifyBatch { pool, elapsed := elapsed', schedule := schedule' } r).metrics.count name -
        co'.metrics.count name := by
  rw [(verifyBatch_counts co _ r).1, (verifyBatch_counts co' _ r).1, outcome_verifyBatch_eq,
    outcome_verifyBatch_eq]
  have hfate := uniform_countFate elapsed (fate { pool, elapsed, schedule }) co.metrics co'.metrics name
  rw [count_countFate_elapsed co'.metrics elapsed elapsed'] at hfate
  have hreturned := uniform_countReturned (answer pool r).toOption
    (countFate co.metrics elapsed (fate { pool, elapsed, schedule }))
    (countFate co'.metrics elapsed' (fate { pool, elapsed, schedule })) name
  exact calc
    _ = _ := (sub_add_sub_cancel _ _ _).symm
    _ = _ := congrArg₂ _ hreturned hfate
    _ = _ := sub_add_sub_cancel _ _ _

end

end Batch

open Batch

/-- **A coordinator has no memory.**  Whatever happened before, to this coordinator or to another one, with
however many workers: a request that is not cancelled comes to the verdicts on its targets if the pool
compiles its code, and to a fault that reports the pool's error if not; it calls the pool once, for itself;
and a request for one target comes to the only verdict of its batch, and counts as that batch does. -/
theorem history_leaves_no_trace (pool : Except PoolError CompiledContract) (co co' : Coordinator)
    (es es' : List Event) (elapsed elapsed' : Binary64) (schedule schedule' : List Nat) :
    let now := co.steps es
    let now' := co'.steps es'
    let cond : Conditions := { pool, elapsed, schedule }
    let cond' : Conditions := { pool, elapsed := elapsed', schedule := schedule' }
    (∀ r : BatchVerificationRequest,
      let run := now.verifyBatch cond r
      (∀ compiled, pool = .ok compiled →
        run.outcome = .ok (r.contracts.map fun c => (verifyContract compiled c).value)) ∧
      (∀ e, pool = .error e → ∃ f, run.outcome = .error f ∧ f.Reports r.version.text e) ∧
      run.calls = [⟨r.version, r.content, false⟩] ∧
      run.outcome = (now'.verifyBatch cond' r).outcome) ∧
    ∀ r : VerificationRequest,
      let run := now.verify cond r
      let batch := now'.verifyBatch cond' r.batch
      (∀ compiled, pool = .ok compiled →
        run.outcome = .ok (verifyContract compiled r.contract).value) ∧
      (∀ e, pool = .error e → ∃ f, run.outcome = .error f ∧ f.Reports r.version.text e) ∧
      run.calls = [⟨r.version, r.content, false⟩] ∧
      run.outcome = (now'.verify cond' r).outcome ∧
      batch.outcome = run.outcome.map (fun v => [v]) ∧
      ∀ name, run.metrics.count name - now.metrics.count name =
        batch.metrics.count name - now'.metrics.count name := by
  intro now now' cond cond'
  have hc : cond.cancellation ≠ .duringCompile := show Cancellation.never ≠ _ by decide
  refine ⟨fun r => ⟨?_, ?_, ?_, ?_⟩, fun r => ⟨?_, ?_, ?_, ?_, ?_, fun name => ?_⟩⟩
  · rintro compiled rfl
    exact outcome_verifyBatch_eq now _ elapsed schedule r
  · rintro e rfl
    exact ⟨_, outcome_verifyBatch_eq now _ elapsed schedule r, reports_compilation _ e⟩
  · exact calls_verifyBatch now hc r
  · exact (outcome_verifyBatch_eq now _ _ _ r).trans (outcome_verifyBatch_eq now' _ _ _ r).symm
  · rintro compiled rfl
    exact outcome_verify_eq now _ elapsed schedule r
  · rintro e rfl
    exact ⟨_, outcome_verify_eq now _ elapsed schedule r, reports_compilation _ e⟩
  · exact calls_verifyBatch now hc r.batch
  · exact (outcome_verify_eq now _ _ _ r).trans (outcome_verify_eq now' _ _ _ r).symm
  · show (now'.verifyBatch cond' r.batch).outcome = (now.verify cond r).outcome.map _
    rw [outcome_verifyBatch_eq, outcome_verify_eq]
    cases pool <;> rfl
  · exact uniform_verifyBatch now pool elapsed schedule now' elapsed' schedule' r.batch name

/-- a coordinator that has seen a failing pool and a cancelled request and has three workers by now, and one
that is new: both give the same two verdicts, and both report the same error -/
theorem history_leaves_no_trace_cancelled :
    let compiled : CompiledContract := { recompiled := ⟨[0x60], [0x73]⟩ }
    let a : OnChainContract := ⟨"a", ⟨some [0x60], none, rfl⟩, false⟩
    let b : OnChainContract := ⟨"b", ⟨some [0x61], none, rfl⟩, false⟩
    let r : BatchVerificationRequest :=
      ⟨[a, b], { major := 0, minor := 8, patch := 24 }, { sources := ∅ }⟩
    let e : PoolError := ⟨"FileNotFoundError", "[Errno 2] No such file or directory: 'solc'"⟩
    let used := Coordinator.steps {} [.batch { pool := .error e } (.valid r),
      .batch { pool := .ok compiled, cancellation := .duringMatch 1 } (.valid r), .workers 3]
    let verdicts := [a, b].map fun c => (verifyContract compiled c).value
    used.metrics.count "compilation_errors_total" = 1 ∧
      (used.verifyBatch { pool := .ok compiled } r).outcome = .ok verdicts ∧
      (Coordinator.verifyBatch {} { pool := .ok compiled } r).outcome = .ok verdicts ∧
      (∃ f, (used.verifyBatch { pool := .error e } r).outcome = .error f ∧ f.Reports "v0.8.24" e) ∧
      (used.verify { pool := .ok compiled } ⟨b, r.version, r.content⟩).outcome =
        .ok (verifyContract compiled b).value := by
  intro compiled a b r e used verdicts
  have hpast (pool : Except PoolError CompiledContract) := history_leaves_no_trace pool {} {}
    [.batch { pool := .error e } (.valid r),
      .batch { pool := .ok compiled, cancellation := .duringMatch 1 } (.valid r), .workers 3] []
    (.finite false 0 0) (.finite false 0 0) [] []
  obtain ⟨hbatch, -, -, hsame⟩ := (hpast (.ok compiled)).1 r
  refine ⟨?_, hbatch compiled rfl, hsame.symm.trans (hbatch compiled rfl), ?_, ?_⟩
  · cbv
  · have hversion : r.version.text = "v0.8.24" := by cbv
    rw [← hversion]
    exact ((hpast (.error e)).1 r).2.1 e rfl
  · exact ((hpast (.ok compiled)).2 ⟨b, r.version, r.content⟩).1 compiled rfl

end CodeMatch
