import CodeMatch.Batch.Coordinator
import CodeMatch.Proofs.Batch.Race
import Mathlib

/-!
# Verdicts come in the order of the targets

The coordinator matches its targets in turn or on several workers.  Both give the plain map.

* `verdicts_inTurn`       in turn: the map, unless a cancellation leaves nothing;
* `verdicts_matchAll`     the same with any number of workers, under any schedule;
* `outcome_verifyBatch`   a request with compiled code ends with the map, or is cancelled;
* `outcome_verify`        a request for one target ends with its verdict, or is cancelled;
* `Fault.Internal`        the coordinator has miscounted;
* `matchAll_agrees`       the plain map, the workers, the command line and the requests agree.
-/

namespace CodeMatch

open Log Relation

namespace Batch

/-- a fault of the coordinator itself: the number of results is wrong -/
def Fault.Internal : Fault → Prop
  | .wrongCount _ _ => True
  | .notSingle _ => True
  | .compilation _ _ _ => False
  | .cancelled => False

section
variable (compiled : CompiledContract)

theorem value_inTurn_cons (k : Option Nat) (c : OnChainContract) (cs : List OnChainContract) :
    (inTurn compiled k (c :: cs)).value =
      if k = some 1 then ⟨[c.id], none⟩
      else
        let p := (inTurn compiled (k.map (· - 1)) cs).value
        ⟨c.id :: p.begun, p.verdicts.map ((verifyContract compiled c).value :: ·)⟩ := by
  show (ite _ (_ : Traced Progress) _).value = _
  split
  · rfl
  · rfl

/-- in turn nothing is lost or moved, but a cancellation leaves nothing at all -/
theorem verdicts_inTurn (k : Option Nat) (cs : List OnChainContract) :
    (inTurn compiled k cs).value.verdicts =
        some (cs.map fun c => (verifyContract compiled c).value) ∨
      (inTurn compiled k cs).value.verdicts = none ∧ k.isSome := by
  induction cs generalizing k with
  | nil => exact .inl rfl
  | cons c cs ih =>
    rw [value_inTurn_cons]
    by_cases hk : k = some 1
    · rw [if_pos hk]
      exact .inr ⟨rfl, by rw [hk]; rfl⟩
    · rw [if_neg hk]
      show Option.map _ _ = _ ∨ Option.map _ _ = _ ∧ _
      rcases ih (k.map (· - 1)) with h | ⟨h, hs⟩
      · rw [h]
        exact .inl rfl
      · rw [h]
        exact .inr ⟨rfl, by rwa [Option.isSome_map] at hs⟩

/-- on several workers there is no point of cancellation -/
theorem verdicts_matchAll (workers : Int) (k : Option Nat) (schedule : List Nat)
    (cs : List OnChainContract) :
    (matchAll workers k schedule compiled cs).value.verdicts =
        some (cs.map fun c => (verifyContract compiled c).value) ∨
      (matchAll workers k schedule compiled cs).value.verdicts = none ∧ k.isSome := by
  unfold matchAll
  by_cases h : workers ≤ 1 ∨ cs.length ≤ 1
  · rw [if_pos h]
    exact verdicts_inTurn compiled k cs
  · rw [if_neg h]
    have hw : 0 < workers.toNat := by omega
    exact .inl (congrArg some (Race.gather_eq_map (verifyContract compiled) hw schedule cs))

theorem verdicts_matchAll_none (workers : Int) (schedule : List Nat) (cs : List OnChainContract) :
    (matchAll workers none schedule compiled cs).value.verdicts =
      some (cs.map fun c => (verifyContract compiled c).value) := by
  rcases verdicts_matchAll compiled workers none schedule cs with h | ⟨_, h⟩
  · exact h
  · cases h

end

/-! ## requests -/

section
variable {workers : Int} {cond : Conditions} {m : Metrics} {compiled : CompiledContract}
  {cs : List OnChainContract}

variable (workers cond compiled cs) in
theorem verdicts_matchUnder :
    (matchUnder workers cond compiled cs).value.verdicts =
        some (cs.map fun c => (verifyContract compiled c).value) ∨
      (matchUnder workers cond compiled cs).value.verdicts = none ∧
        cond.cancellation ≠ .never := by
  unfold matchUnder
  split
  · refine (verdicts_matchAll compiled workers _ cond.schedule cs).imp_right ?_
    rintro ⟨h, hs⟩
    refine ⟨h, fun hn => ?_⟩
    rw [hn] at hs
    cases hs
  case h_2 n hm =>
    refine .inr ⟨rfl, fun hn => ?_⟩
    rw [hn] at hm
    cases hm

/-- the targets are matched, what comes of it is received, and the results are counted -/
theorem value_afterCompilation :
    (afterCompilation workers cond m compiled cs).value =
      let p := (matchUnder workers cond compiled cs).value
      match p.verdicts.map cond.received with
      | none => (.error .cancelled, m, p.begun)
      | some vs =>
        if vs.length = cs.length then (.ok vs, countResults m vs, p.begun)
        else (.error (.wrongCount cs.length vs.length), m, p.begun) := by
  unfold afterCompilation
  generalize matchUnder workers cond compiled cs = x
  obtain ⟨⟨begun, _ | vs⟩, log⟩ := x
  · rfl
  · show Traced.value (ite _ _ _) = ite _ _ _
    split <;> rfl

theorem outcome_afterCompilation_none
    (h : (matchUnder workers cond compiled cs).value.verdicts = none) :
    (afterCompilation workers cond m compiled cs).value.1 = .error .cancelled := by
  rw [value_afterCompilation]
  simp only [h]
  rfl

theorem outcome_afterCompilation_some {vs : List Verdict}
    (h : (matchUnder workers cond compiled cs).value.verdicts = some vs)
    (hr : cond.received = id) (hlen : vs.length = cs.length) :
    (afterCompilation workers cond m compiled cs).value.1 = .ok vs := by
  rw [value_afterCompilation]
  simp only [h, hr, Option.map_some, id, if_pos hlen]

end

section
variable {compiled : CompiledContract} {cond : Conditions} (hp : cond.pool = .ok compiled)
  (hr : cond.received = id) (co : Coordinator)
include hp hr

/-- a request whose code is compiled counts right -/
theorem outcome_verifyBatch (r : BatchVerificationRequest) :
    (co.verifyBatch cond r).outcome =
        .ok (r.contracts.map fun c => (verifyContract compiled c).value) ∨
      (co.verifyBatch cond r).outcome = .error .cancelled ∧ cond.cancellation ≠ .never := by
  unfold Coordinator.verifyBatch
  by_cases hc : cond.cancellation = .duringCompile
  · rw [if_pos hc, hc]
    exact .inr ⟨rfl, by decide⟩
  · rw [if_neg hc, hp]
    show (afterCompilation _ _ _ _ _).value.1 = _ ∨ (afterCompilation _ _ _ _ _).value.1 = _ ∧ _
    rcases verdicts_matchUnder co.workers cond compiled r.contracts with h | ⟨h, hn⟩
    · refine .inl (outcome_afterCompilation_some h hr ?_)
      rw [List.length_map]
    · exact .inr ⟨outcome_afterCompilation_none h, hn⟩

theorem outcome_verify (hh : cond.handedOn = id) (r : VerificationRequest) :
    (co.verify cond r).outcome = .ok (verifyContract compiled r.contract).value ∨
      (co.verify cond r).outcome = .error .cancelled ∧ cond.cancellation ≠ .never := by
  show Except.bind _ _ = _ ∨ Except.bind _ _ = _ ∧ _
  rcases outcome_verifyBatch hp hr co r.batch with h | ⟨h, hc⟩
  · rw [h, hh]
    exact .inl rfl
  · rw [h]
    exact .inr ⟨rfl, hc⟩

end

end Batch

open Batch Race

/-- **Verdicts come in the order of the targets.**  However many workers there are and in whatever
order the targets are begun and finished, matching gives the plain map, as the command line does; every such
order is that of a schedule, and a request whose code is compiled never finds that it has miscounted. -/
theorem matchAll_agrees (compiled : CompiledContract) (cs : List OnChainContract) :
    let verdicts := cs.map fun c => (verifyContract compiled c).value
    (∀ workers schedule,
      (matchAll workers none schedule compiled cs).value.verdicts = some verdicts) ∧
    (∀ workers p, 0 < workers →
      ReflTransGen (Pool.Step (verifyContract compiled) workers) (Pool.ofList cs) p →
      (∀ q, ¬ p.Step (verifyContract compiled) workers q) → p.slots = verdicts.map some ∧
        ∃ schedule, (Pool.run (verifyContract compiled) workers (2 * cs.length) schedule
          (Pool.ofList cs)).value = p) ∧
    (verifyContracts compiled cs).value = verdicts ∧
    ∀ (co : Coordinator) elapsed cancellation schedule,
      let cond : Conditions := { pool := .ok compiled, elapsed, cancellation, schedule }
      (∀ r : BatchVerificationRequest, r.contracts = cs →
        (cancellation = .never → (co.verifyBatch cond r).outcome = .ok verdicts) ∧
        ∀ e, (co.verifyBatch cond r).outcome = .error e → ¬ e.Internal) ∧
      (∀ r : VerificationRequest,
        (cancellation = .never →
          (co.verify cond r).outcome = .ok (verifyContract compiled r.contract).value) ∧
        ∀ e, (co.verify cond r).outcome = .error e → ¬ e.Internal) := by
  refine ⟨fun workers schedule => verdicts_matchAll_none compiled workers schedule cs,
    fun workers p hw hrun hstuck => ⟨Pool.slots_of_stuck hw hrun hstuck,
      Pool.exists_schedule_of_stuck hw hrun hstuck⟩,
    value_verifyContracts compiled cs, fun co elapsed cancellation schedule => ?_⟩
  intro cond
  refine ⟨?_, fun r => ?_⟩
  · rintro r rfl
    rcases @outcome_verifyBatch compiled cond rfl rfl co r with h | ⟨h, hc⟩
    · exact ⟨fun _ => h, fun e he => by rw [h] at he; cases he⟩
    · exact ⟨fun hn => absurd hn hc, fun e he => by rw [h] at he; cases he; exact id⟩
  · rcases @outcome_verify compiled cond rfl rfl co rfl r with h | ⟨h, hc⟩
    · exact ⟨fun _ => h, fun e he => by rw [h] at he; cases he⟩
    · exact ⟨fun hn => absurd hn hc, fun e he => by rw [h] at he; cases he; exact id⟩

/-- two workers begin both targets, and the second one finishes first -/
theorem matchAll_agrees_crossed :
    let compiled : CompiledContract := { recompiled := ⟨[0x60], [0x73]⟩ }
    let a : OnChainContract := ⟨"a", ⟨some [0x60], none, rfl⟩, false⟩
    let b : OnChainContract := ⟨"b", ⟨some [0x61], none, rfl⟩, false⟩
    let va := (verifyContract compiled a).value
    let vb := (verifyContract compiled b).value
    let p : Pool OnChainContract Verdict := ⟨[], [], [some va, some vb]⟩
    let r : BatchVerificationRequest :=
      ⟨[a, b], { major := 0, minor := 8, patch := 24 }, { sources := ∅ }⟩
    va.kind ≠ vb.kind ∧
      ReflTransGen (Pool.Step (verifyContract compiled) 2) (Pool.ofList [a, b]) p ∧
      p.slots = [va, vb].map some ∧
      (Coordinator.verifyBatch { workers := 2 } { pool := .ok compiled, schedule := [0, 0, 1] }
        r).outcome = .ok [va, vb] := by
  intro compiled a b va vb p r
  have hrun : ReflTransGen (Pool.Step (verifyContract compiled) 2) (Pool.ofList [a, b]) p := by
    refine .head (b := ⟨[⟨1, b⟩], [⟨0, a⟩], [none, none]⟩) ⟨.start 0, by decide, rfl⟩ ?_
    refine .head (b := ⟨[], [⟨0, a⟩, ⟨1, b⟩], [none, none]⟩) ⟨.start 0, by decide, rfl⟩ ?_
    refine .head (b := ⟨[], [⟨0, a⟩], [none, some vb]⟩) ⟨.finish 1, by decide, rfl⟩ ?_
    exact .single ⟨.finish 0, by decide, rfl⟩
  have hstuck : ∀ q, ¬ p.Step (verifyContract compiled) 2 q := fun q ⟨m, hm, _⟩ =>
    List.not_mem_nil hm
  have ha : (verifyContract compiled a).value.kind = .runtimeMatch := by cbv
  have hb : (verifyContract compiled b).value.kind = .failure := by cbv
  have hne : va.kind ≠ vb.kind := by
    show (verifyContract compiled a).value.kind ≠ (verifyContract compiled b).value.kind
    rw [ha, hb]
    decide
  obtain ⟨-, hpool, -, hrequest⟩ := matchAll_agrees compiled [a, b]
  exact ⟨hne, hrun, (hpool 2 p (by decide) hrun hstuck).1,
    ((hrequest { workers := 2 } _ .never [0, 0, 1]).1 r rfl).1 rfl⟩

end CodeMatch
