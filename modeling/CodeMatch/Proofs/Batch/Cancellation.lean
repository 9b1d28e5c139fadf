import CodeMatch.Proofs.Batch.Ledger
import CodeMatch.Proofs.Records
import Mathlib

/-!
# Where a cancellation strikes

A request that matches its targets in turn can be cancelled while the pool compiles, and after each target.

* `inTurn_during`       with a cancellation during target `k`, exactly the first `k` targets are matched;
* `inTurn_beyond`       with one during a target that is not there, nothing is different;
* `matchUnder_inTurn`   the conditions of a request matter only through that number;
* `afterCompilation_cut`   after a cut there is no result, and nothing is counted or reported;
* `verifyBatch_congr`   a request depends on the pool and on how its targets are matched;
* `cancelled_in_turn`   what a cancellation does to a request, wherever it strikes.
-/

namespace CodeMatch

open Log Traced

namespace Batch

/-! ## targets in turn -/

section
variable (compiled : CompiledContract)

/-- a target that no cancellation strikes is followed by the others -/
theorem inTurn_cons_of_ne {k : Option Nat} (hk : k ≠ some 1) (c : OnChainContract)
    (cs : List OnChainContract) :
    inTurn compiled k (c :: cs) = (do
      let v ← verifyContract compiled c
      let p ← inTurn compiled (k.map (· - 1)) cs
      return ⟨c.id :: p.begun, p.verdicts.map (v :: ·)⟩) := by
  rw [inTurn]
  simp only [if_neg hk]

theorem inTurn_during {k : Nat} {cs : List OnChainContract} (h1 : 1 ≤ k) (hk : k ≤ cs.length) :
    inTurn compiled (some k) cs =
      (verifyContracts compiled (cs.take k)).map fun _ => ⟨(cs.take k).map (·.id), none⟩ := by
  induction cs generalizing k with
  | nil => exact absurd (Nat.le_trans h1 hk) (by decide)
  | cons c cs ih =>
    match k with
    | 1 => rfl
    | k + 2 =>
      have hne : some (k + 2) ≠ some 1 := by simp
      rw [inTurn_cons_of_ne compiled hne, Option.map_some, Nat.add_sub_cancel_right (k + 1) 1,
        ih (Nat.le_add_left 1 k) (Nat.le_of_succ_le_succ hk)]
      rfl

theorem inTurn_beyond {k : Nat} {cs : List OnChainContract} (hk : cs.length < k) :
    inTurn compiled (some k) cs = inTurn compiled none cs := by
  induction cs generalizing k with
  | nil => rfl
  | cons c cs ih =>
    rw [List.length_cons] at hk
    have hne : some k ≠ some 1 := by
      rw [ne_eq, Option.some.injEq]
      omega
    rw [inTurn_cons_of_ne compiled hne, inTurn_cons_of_ne compiled (Option.some_ne_none 1).symm,
      Option.map_some, Option.map_none, ih (by omega)]

end

/-! ## one request -/

section
variable {workers : Int} {cs : List OnChainContract} (hturn : workers ≤ 1 ∨ cs.length ≤ 1)
include hturn

/-- in turn there is no race that could be cut -/
theorem moves?_inTurn (x : Cancellation) : x.moves? workers cs.length = none := by
  cases x with
  | duringRace n =>
    have hno : ¬ (1 < workers ∧ 1 < cs.length ∧ n ≤ 2 * cs.length) := by omega
    exact if_neg hno
  | never => rfl
  | duringCompile => rfl
  | duringMatch k => rfl

theorem matchUnder_inTurn (cond : Conditions) (compiled : CompiledContract) :
    matchUnder workers cond compiled cs = inTurn compiled cond.cancellation.number? cs := by
  unfold matchUnder
  rw [moves?_inTurn hturn]
  exact if_pos hturn

end

section
variable {workers : Int} {cond cond' : Conditions} {m : Metrics} {compiled : CompiledContract}
  {cs : List OnChainContract}

/-- targets that are not all matched leave nothing but their records -/
theorem afterCompilation_cut {x : Traced (List Verdict)} {begun : List String}
    (h : matchUnder workers cond compiled cs = x.map fun _ => ⟨begun, none⟩) :
    (afterCompilation workers cond m compiled cs).value = (.error .cancelled, m, begun) ∧
      (afterCompilation workers cond m compiled cs).log = x.log := by
  unfold afterCompilation
  rw [h]
  exact ⟨rfl, List.append_nil _⟩

theorem afterCompilation_congr
    (h : matchUnder workers cond' compiled cs = matchUnder workers cond compiled cs)
    (hr : cond'.received = cond.received) :
    afterCompilation workers cond' m compiled cs = afterCompilation workers cond m compiled cs := by
  unfold afterCompilation
  rw [h, hr]

end

/-- the first record of a request -/
def start (r : BatchVerificationRequest) : Record :=
  info ("Starting batch verification for " ++ Text.naturalText r.contracts.length ++
    " contracts, compiler_version=" ++ r.version.text)

section
variable (co : Coordinator) {cond cond' : Conditions} (r : BatchVerificationRequest)

theorem verifyBatch_compiled (hc : cond.cancellation ≠ .duringCompile) {compiled : CompiledContract}
    (hp : cond.pool = .ok compiled) :
    co.verifyBatch cond r =
      let rest := afterCompilation co.workers cond (countCompilation co.metrics cond.elapsed) compiled
        r.contracts
      ⟨rest.value.1, rest.value.2.1, [⟨r.version, r.content, false⟩], rest.value.2.2,
        start r :: rest.log⟩ := by
  unfold Coordinator.verifyBatch
  rw [if_neg hc, hp]
  rfl

/-- a cancellation after the pool has failed comes too late -/
theorem verifyBatch_failed (hc : cond.cancellation ≠ .duringCompile)
    (hc' : cond'.cancellation ≠ .duringCompile) {e : PoolError} (hp : cond.pool = .error e)
    (hp' : cond'.pool = .error e) : co.verifyBatch cond' r = co.verifyBatch cond r := by
  unfold Coordinator.verifyBatch
  rw [if_neg hc, if_neg hc', hp, hp']

theorem verifyBatch_congr (hc : cond.cancellation ≠ .duringCompile)
    (hc' : cond'.cancellation ≠ .duringCompile) (hp : cond'.pool = cond.pool)
    (he : cond'.elapsed = cond.elapsed) (hr : cond'.received = cond.received)
    (hm : ∀ compiled, matchUnder co.workers cond' compiled r.contracts =
      matchUnder co.workers cond compiled r.contracts) :
    co.verifyBatch cond' r = co.verifyBatch cond r := by
  cases hpool : cond.pool with
  | error e => exact verifyBatch_failed co r hc hc' hpool (hp.trans hpool)
  | ok compiled =>
    rw [verifyBatch_compiled co r hc hpool, verifyBatch_compiled co r hc' (hp.trans hpool),
      afterCompilation_congr (hm compiled) hr, he]

end

/-- the coordinator makes no other record while it matches -/
theorem info_notMem_log (r : BatchVerificationRequest) (compiled : CompiledContract)
    (cs : List OnChainContract) {message : String} (h : info message ≠ start r) :
    info message ∉ start r :: (verifyContracts compiled cs).log := by
  intro hmem
  rcases List.mem_cons.mp hmem with heq | hlog
  · exact h heq
  · exact only_verifyContracts compiled cs _ hlog rfl

/-- the first record differs from the last one of a request in its first letter -/
theorem finished_ne_start (r : BatchVerificationRequest) (text : String) :
    info ("Finished batch verification: " ++ text) ≠ start r := by
  intro h
  have hmessage := congrArg (fun x => x.message.toList.head?) h
  simp [info, start, String.toList_append] at hmessage

/-- a cut after target `k`, whatever the pool has taken -/
theorem verifyBatch_during (co : Coordinator) {cond : Conditions} {r : BatchVerificationRequest}
    (hturn : co.workers ≤ 1 ∨ r.contracts.length ≤ 1) {compiled : CompiledContract}
    (hp : cond.pool = .ok compiled) {k : Nat} (h1 : 1 ≤ k) (hk : k ≤ r.contracts.length)
    (hc : cond.cancellation = .duringMatch k) :
    co.verifyBatch cond r =
      ⟨.error .cancelled, countCompilation co.metrics cond.elapsed, [⟨r.version, r.content, false⟩],
        (r.contracts.take k).map (·.id),
        start r :: (verifyContracts compiled (r.contracts.take k)).log⟩ := by
  have hne : cond.cancellation ≠ .duringCompile := by
    rw [hc]
    simp
  have hcut : matchUnder co.workers cond compiled r.contracts =
      (verifyContracts compiled (r.contracts.take k)).map
        fun _ => ⟨(r.contracts.take k).map (·.id), none⟩ := by
    rw [matchUnder_inTurn hturn, hc]
    exact inTurn_during compiled h1 hk
  obtain ⟨hvalue, hlog⟩ := afterCompilation_cut (m := countCompilation co.metrics cond.elapsed) hcut
  rw [verifyBatch_compiled co r hne hp]
  simp only [hvalue, hlog]

end Batch

open Batch

/-- **A cancellation leaves nothing half done.**  While the pool compiles, it cancels the call, and neither a
target nor a counter has been touched.  During target `k` it ends the request after exactly the first `k`
targets, also if that is the last one: there is no result, no report of an end, and nothing is counted but the
compilation.  It makes no difference if there are fewer targets or the pool has failed before. -/
theorem cancelled_in_turn (co : Coordinator) (cond : Conditions) (r : BatchVerificationRequest)
    (hturn : co.workers ≤ 1 ∨ r.contracts.length ≤ 1) :
    let run (x : Cancellation) := co.verifyBatch { cond with cancellation := x } r
    ((run .duringCompile).outcome = .error .cancelled ∧
      (run .duringCompile).calls = [⟨r.version, r.content, true⟩] ∧
      (run .duringCompile).begun = [] ∧ (run .duringCompile).metrics = co.metrics) ∧
    (∀ compiled k, cond.pool = .ok compiled → 1 ≤ k → k ≤ r.contracts.length →
      let cut := run (.duringMatch k)
      cut.outcome = .error .cancelled ∧
      cut.begun = (r.contracts.take k).map (·.id) ∧
      cut.log = start r :: (verifyContracts compiled (r.contracts.take k)).log ∧
      cut.metrics.count "compilations_total" = co.metrics.count "compilations_total" + 1 ∧
      (∀ name, name ≠ "compilations_total" → cut.metrics.count name = co.metrics.count name) ∧
      ∀ text, info ("Finished batch verification: " ++ text) ∉ cut.log) ∧
    (∀ k, r.contracts.length < k → run (.duringMatch k) = run .never) ∧
    (∀ n, run (.duringRace n) = run .never) ∧
    ∀ e k, cond.pool = .error e → run (.duringMatch k) = run .never := by
  intro run
  refine ⟨⟨rfl, rfl, rfl, rfl⟩, fun compiled k hp h1 hk => ?_, fun k hk => ?_, fun n => ?_,
    fun e k hp => ?_⟩
  · have hcut := @verifyBatch_during co { cond with cancellation := .duringMatch k } r hturn compiled hp k
      h1 hk rfl
    intro cut
    rw [show cut = _ from hcut]
    refine ⟨rfl, rfl, rfl, ?_, fun name hname => ?_, fun text => ?_⟩
    · exact co.metrics.count_add_self _ 1
    · exact co.metrics.count_add_of_ne hname 1
    · exact info_notMem_log r compiled _ (finished_ne_start r text)
  · refine verifyBatch_congr co r (by simp) (by simp) rfl rfl rfl fun compiled => ?_
    rw [matchUnder_inTurn hturn, matchUnder_inTurn hturn]
    exact inTurn_beyond compiled hk
  · refine verifyBatch_congr co r (by simp) (by simp) rfl rfl rfl fun compiled => ?_
    rw [matchUnder_inTurn hturn, matchUnder_inTurn hturn]
    rfl
  · exact verifyBatch_failed co r (by simp) (by simp) hp hp

/-- two targets in turn, cancelled during the second and last one: both are begun, and there is no result -/
theorem cancelled_in_turn_last :
    let compiled : CompiledContract := { recompiled := ⟨[0x60], [0x73]⟩ }
    let a : OnChainContract := ⟨"a", ⟨some [0x60], none, rfl⟩, false⟩
    let b : OnChainContract := ⟨"b", ⟨some [0x61], none, rfl⟩, false⟩
    let r : BatchVerificationRequest :=
      ⟨[a, b], { major := 0, minor := 8, patch := 24 }, { sources := ∅ }⟩
    let run (x : Cancellation) :=
      Coordinator.verifyBatch {} { pool := .ok compiled, cancellation := x } r
    (run (.duringMatch 2)).outcome = .error .cancelled ∧ (run (.duringMatch 2)).begun = ["a", "b"] ∧
      (run (.duringMatch 2)).metrics.count "compilations_total" = 1 ∧
      (run (.duringMatch 2)).metrics.count "targets_verified_total" = 0 ∧
      run (.duringMatch 3) = run .never := by
  intro compiled a b r run
  obtain ⟨-, hduring, hbeyond, -⟩ :=
    cancelled_in_turn {} { pool := .ok compiled } r (.inl (by decide))
  obtain ⟨ho, hb, -, hcompiled, hothers, -⟩ := hduring compiled 2 rfl (by decide) (by decide)
  exact ⟨ho, hb, hcompiled, hothers _ (by decide), hbeyond 3 (by decide)⟩

end CodeMatch
