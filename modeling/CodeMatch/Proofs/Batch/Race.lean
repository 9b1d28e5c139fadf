import CodeMatch.Batch.Race
import Mathlib.Data.List.Perm.Basic
import Mathlib.Logic.Relation
import Mathlib.Tactic.Common

/-!
# A race ends in order

Whatever begins and finishes first, each result comes to the place of its task.

* `Pool.Step f n p q`     one move of `n` workers leads from `p` to `q`;
* `Pool.Step.cases`       what a move does: a waiting task runs, or a running one fills its slot;
* `Pool.Sound g xs p`     each slot holds the result for its element, or a task for it is outstanding;
* `Pool.Sound.of_run`     this holds after any number of moves;
* `Pool.effort p`         how many moves are left; each one takes one off, and while there are workers
                          and outstanding tasks there is a move (`Pool.exists_step`);
* `Pool.slots_of_stuck`   a pool in which nothing can happen any more holds all results, in order;
* `Pool.exists_schedule`, `Pool.exists_schedule_of_stuck`   every run is the run of a schedule;
* `gather_eq_map`         a race gives what the plain map gives.
-/

namespace CodeMatch.Race

open Log Relation

section
variable {α β : Type}

/-! ## tasks and slots -/

theorem getElem?_numbered (n : Nat) (xs : List α) (i : Nat) :
    (numbered n xs)[i]? = xs[i]?.map fun x => ⟨n + i, x⟩ := by
  induction xs generalizing n i with
  | nil => rfl
  | cons x xs ih =>
    cases i with
    | zero => rfl
    | succ i =>
      rw [numbered_cons, List.getElem?_cons_succ, List.getElem?_cons_succ, ih,
        Nat.add_right_comm, Nat.add_assoc]

theorem mem_numbered_zero {xs : List α} {t : Task α} :
    t ∈ numbered 0 xs ↔ xs[t.place]? = some t.input := by
  rw [List.mem_iff_getElem?]
  constructor
  · rintro ⟨i, hi⟩
    rw [getElem?_numbered, Option.map_eq_some_iff] at hi
    obtain ⟨x, hx, rfl⟩ := hi
    rwa [Nat.zero_add]
  · intro h
    refine ⟨t.place, ?_⟩
    rw [getElem?_numbered, h, Option.map_some, Nat.zero_add]

theorem length_put (i : Nat) (b : β) (slots : List (Option β)) :
    (put i b slots).length = slots.length := List.length_set

theorem getElem?_put_self {i : Nat} {slots : List (Option β)} (h : i < slots.length) (b : β) :
    (put i b slots)[i]? = some (some b) := List.getElem?_set_self h

theorem getElem?_put_ne {i j : Nat} (h : i ≠ j) (b : β) (slots : List (Option β)) :
    (put i b slots)[j]? = slots[j]? := List.getElem?_set_ne h

end

namespace Pool

variable {α β : Type} {f : α → Traced β} {workers : Nat} {xs : List α} {p q : Pool α β}

/-! ## one move -/

def outstanding (p : Pool α β) : List (Task α) := p.waiting ++ p.running

/-- a waiting task has to begin and to finish, a running one only to finish -/
def effort (p : Pool α β) : Nat := 2 * p.waiting.length + p.running.length

/-- something happens in a pool with so many workers -/
def Step (f : α → Traced β) (workers : Nat) (p q : Pool α β) : Prop :=
  ∃ m ∈ p.moves workers, (p.make f m).value = q

theorem mem_moves_start {i : Nat} :
    Move.start i ∈ p.moves workers ↔ p.running.length < workers ∧ i < p.waiting.length := by
  unfold moves starts finishes
  split
  case isTrue h => simp [h]
  case isFalse h => simp [h]

theorem mem_moves_finish {i : Nat} : Move.finish i ∈ p.moves workers ↔ i < p.running.length := by
  unfold moves starts finishes
  split
  all_goals simp

/-- a waiting task runs, or a running task is gone and its result has come -/
theorem Step.cases (h : p.Step f workers q) :
    (∃ t, (t :: q.waiting).Perm p.waiting ∧ q.running = p.running ++ [t] ∧ q.slots = p.slots) ∨
    (∃ t, q.waiting = p.waiting ∧ (t :: q.running).Perm p.running ∧
      q.slots = put t.place (f t.input).value p.slots) := by
  obtain ⟨m, hm, rfl⟩ := h
  cases m with
  | start i =>
    obtain ⟨_, hi⟩ := mem_moves_start.mp hm
    refine .inl ⟨p.waiting[i], ?_⟩
    rw [make, List.getElem?_eq_getElem hi]
    exact ⟨List.getElem_cons_eraseIdx_perm hi, rfl, rfl⟩
  | finish i =>
    have hi := mem_moves_finish.mp hm
    refine .inr ⟨p.running[i], ?_⟩
    rw [make, List.getElem?_eq_getElem hi]
    exact ⟨rfl, List.getElem_cons_eraseIdx_perm hi, rfl⟩

/-- only a result takes a task away from the outstanding ones -/
theorem Step.outstanding (h : p.Step f workers q) :
    (p.outstanding.Perm q.outstanding ∧ q.slots = p.slots) ∨
    (∃ t, p.outstanding.Perm (t :: q.outstanding) ∧
      q.slots = put t.place (f t.input).value p.slots) := by
  unfold Pool.outstanding
  rcases h.cases with ⟨t, hw, hr, hs⟩ | ⟨t, hw, hr, hs⟩
  · refine .inl ⟨?_, hs⟩
    have h1 : (p.waiting ++ p.running).Perm (t :: (q.waiting ++ p.running)) := hw.symm.append_right _
    rw [hr, ← List.append_assoc]
    exact h1.trans (List.perm_append_singleton t _).symm
  · refine .inr ⟨t, ?_, hs⟩
    rw [hw]
    exact (hr.symm.append_left _).trans List.perm_middle

theorem Step.effort (h : p.Step f workers q) : q.effort + 1 = p.effort := by
  unfold Pool.effort
  rcases h.cases with ⟨t, hw, hr, -⟩ | ⟨t, hw, hr, -⟩
  · have hl := hw.length_eq
    rw [List.length_cons] at hl
    rw [hr, List.length_append, List.length_singleton]
    omega
  · have hl := hr.length_eq
    rw [List.length_cons] at hl
    rw [hw]
    omega

theorem effort_le_of_run (hr : ReflTransGen (Step f workers) p q) : q.effort ≤ p.effort := by
  induction hr with
  | refl => exact Nat.le_refl _
  | tail _ hs ih =>
    have he := hs.effort
    omega

/-- a worker that is there has something to do while tasks are outstanding -/
theorem exists_step (f : α → Traced β) (hw : 0 < workers) (h : p.outstanding ≠ []) :
    ∃ q, p.Step f workers q := by
  by_cases hr : p.running = []
  · have hp : 0 < p.waiting.length := by
      refine List.length_pos_iff.mpr fun h0 => h ?_
      rw [Pool.outstanding, h0, hr, List.append_nil]
    have hm : Move.start 0 ∈ p.moves workers := by
      rw [mem_moves_start, hr]
      exact ⟨hw, hp⟩
    exact ⟨_, _, hm, rfl⟩
  · exact ⟨_, _, mem_moves_finish.mpr (List.length_pos_iff.mpr hr), rfl⟩

theorem outstanding_eq_nil_iff : p.outstanding = [] ↔ p.effort = 0 := by
  unfold Pool.outstanding Pool.effort
  rw [List.append_eq_nil_iff, ← List.length_eq_zero_iff, ← List.length_eq_zero_iff]
  omega

/-! ## what every run keeps -/

/-- outstanding tasks are about elements of `xs`, and every other element has its result in place -/
structure Sound (g : α → β) (xs : List α) (p : Pool α β) : Prop where
  length : p.slots.length = xs.length
  input : ∀ t ∈ p.outstanding, xs[t.place]? = some t.input
  settled : ∀ i, (∃ t ∈ p.outstanding, t.place = i) ∨ p.slots[i]? = xs[i]?.map fun x => some (g x)

theorem outstanding_ofList (xs : List α) :
    (ofList xs : Pool α β).outstanding = numbered 0 xs := List.append_nil _

theorem effort_ofList (xs : List α) : (ofList xs : Pool α β).effort = 2 * xs.length := by
  show 2 * (numbered 0 xs).length + 0 = _
  rw [length_numbered, Nat.add_zero]

theorem sound_ofList (g : α → β) (xs : List α) : (ofList xs).Sound g xs where
  length := List.length_replicate
  input := by
    intro t ht
    rw [outstanding_ofList] at ht
    exact mem_numbered_zero.mp ht
  settled := by
    intro i
    rw [outstanding_ofList]
    cases hx : xs[i]? with
    | some x => exact .inl ⟨⟨i, x⟩, mem_numbered_zero.mpr hx, rfl⟩
    | none =>
      refine .inr (List.getElem?_eq_none ?_)
      rw [ofList, List.length_replicate]
      exact List.getElem?_eq_none_iff.mp hx

/-- nothing is lost when a task begins, and a task that finishes settles its own place -/
theorem Sound.step (h : p.Sound (fun x => (f x).value) xs) (hs : p.Step f workers q) :
    q.Sound (fun x => (f x).value) xs := by
  rcases hs.outstanding with ⟨ho, hq⟩ | ⟨t, ho, hq⟩
  · refine ⟨by rw [hq, h.length], fun u hu => h.input u (ho.mem_iff.mpr hu), fun i => ?_⟩
    rw [hq]
    refine (h.settled i).imp_left fun ⟨u, hu, hi⟩ => ⟨u, ho.mem_iff.mp hu, hi⟩
  · have hin : ∀ u ∈ t :: q.outstanding, xs[u.place]? = some u.input :=
      fun u hu => h.input u (ho.mem_iff.mpr hu)
    have ht : xs[t.place]? = some t.input := hin t List.mem_cons_self
    refine ⟨by rw [hq, length_put, h.length], fun u hu => hin u (List.mem_cons_of_mem _ hu),
      fun i => ?_⟩
    rw [hq]
    by_cases hi : t.place = i
    · right
      have hlt : t.place < p.slots.length := by
        rw [h.length]
        exact (List.getElem?_eq_some_iff.mp ht).1
      rw [← hi, getElem?_put_self hlt, ht]
      rfl
    · rw [getElem?_put_ne hi]
      refine (h.settled i).imp_left fun ⟨u, hu, hui⟩ => ?_
      rcases List.mem_cons.mp (ho.mem_iff.mp hu) with rfl | hq
      · exact absurd hui hi
      · exact ⟨u, hq, hui⟩

theorem Sound.of_run (h : p.Sound (fun x => (f x).value) xs)
    (hr : ReflTransGen (Step f workers) p q) : q.Sound (fun x => (f x).value) xs := by
  induction hr with
  | refl => exact h
  | tail _ hs ih => exact ih.step hs

/-- with nothing outstanding all results are there -/
theorem Sound.slots_eq {g : α → β} (h : p.Sound g xs) (ho : p.outstanding = []) :
    p.slots = (xs.map g).map some := by
  rw [List.map_map]
  refine List.ext_getElem? fun i => ?_
  rw [List.getElem?_map]
  rcases h.settled i with ⟨t, ht, _⟩ | hi
  · rw [ho] at ht
    cases ht
  · exact hi

/-- a pool in which nothing can happen any more has nothing to do -/
theorem outstanding_of_stuck (hw : 0 < workers) (hstuck : ∀ q, ¬ p.Step f workers q) :
    p.outstanding = [] := by
  by_contra ho
  obtain ⟨q, hq⟩ := exists_step f hw ho
  exact hstuck q hq

/-- **Every race ends in order**: when nothing can happen any more, the slots hold all results. -/
theorem slots_of_stuck (hw : 0 < workers) (hr : ReflTransGen (Step f workers) (ofList xs) p)
    (hstuck : ∀ q, ¬ p.Step f workers q) :
    p.slots = (xs.map fun x => (f x).value).map some :=
  ((sound_ofList _ xs).of_run hr).slots_eq (outstanding_of_stuck hw hstuck)

/-! ## schedules -/

theorem run_succ_none {n : Nat} {schedule : List Nat}
    (h : (p.moves workers)[schedule.headD 0 % (p.moves workers).length]? = none) :
    run f workers (n + 1) schedule p = pure p := by
  rw [run, h]

theorem value_run_succ_some {n : Nat} {schedule : List Nat} {m : Move}
    (h : (p.moves workers)[schedule.headD 0 % (p.moves workers).length]? = some m) :
    (run f workers (n + 1) schedule p).value =
      (run f workers n schedule.tail (p.make f m).value).value := by
  rw [run, h]
  rfl

/-- a schedule makes moves only -/
theorem reaches_run (f : α → Traced β) (workers n : Nat) (schedule : List Nat) (p : Pool α β) :
    ReflTransGen (Step f workers) p (run f workers n schedule p).value := by
  induction n generalizing schedule p with
  | zero => exact .refl
  | succ n ih =>
    cases h : (p.moves workers)[schedule.headD 0 % (p.moves workers).length]? with
    | none =>
      rw [run_succ_none h]
      exact .refl
    | some m =>
      rw [value_run_succ_some h]
      exact (ih _ _).head ⟨m, List.mem_of_getElem? h, rfl⟩

/-- a schedule with enough moves leaves nothing outstanding -/
theorem outstanding_run (f : α → Traced β) (hw : 0 < workers) {n : Nat} (schedule : List Nat)
    (hn : p.effort ≤ n) : (run f workers n schedule p).value.outstanding = [] := by
  induction n generalizing schedule p with
  | zero => exact outstanding_eq_nil_iff.mpr (Nat.le_zero.mp hn)
  | succ n ih =>
    cases h : (p.moves workers)[schedule.headD 0 % (p.moves workers).length]? with
    | none =>
      rw [run_succ_none h]
      by_contra ho
      obtain ⟨q, m, hm, _⟩ := exists_step f hw (p := p) ho
      have hlt := Nat.mod_lt (schedule.headD 0) (List.length_pos_of_mem hm)
      exact absurd (List.getElem?_eq_none_iff.mp h) (Nat.not_le.mpr hlt)
    | some m =>
      rw [value_run_succ_some h]
      have hs : p.Step f workers (p.make f m).value := ⟨m, List.mem_of_getElem? h, rfl⟩
      have he := hs.effort
      exact ih _ (by omega)

/-- whatever can happen, happens under some schedule -/
theorem exists_schedule (hr : ReflTransGen (Step f workers) p q) :
    ∃ schedule, (run f workers (p.effort - q.effort) schedule p).value = q := by
  induction hr using ReflTransGen.head_induction_on with
  | refl => exact ⟨[], by rw [Nat.sub_self]; rfl⟩
  | @head p r hs hr ih =>
    obtain ⟨schedule, ih⟩ := ih
    obtain ⟨m, hm, hmake⟩ := id hs
    obtain ⟨i, hi, hget⟩ := List.mem_iff_getElem.mp hm
    have hn : p.effort - q.effort = r.effort - q.effort + 1 := by
      have he := hs.effort
      have hle := effort_le_of_run hr
      omega
    refine ⟨i :: schedule, ?_⟩
    have hpick : (p.moves workers)[(i :: schedule).headD 0 % (p.moves workers).length]? = some m := by
      rw [List.headD_cons, Nat.mod_eq_of_lt hi, List.getElem?_eq_getElem hi, hget]
    rw [hn, value_run_succ_some hpick, hmake]
    exact ih

/-- a race that is over has been run under some schedule -/
theorem exists_schedule_of_stuck (hw : 0 < workers)
    (hr : ReflTransGen (Step f workers) (ofList xs) p) (hstuck : ∀ q, ¬ p.Step f workers q) :
    ∃ schedule, (run f workers (2 * xs.length) schedule (ofList xs)).value = p := by
  have he : p.effort = 0 := outstanding_eq_nil_iff.mp (outstanding_of_stuck hw hstuck)
  have hs := exists_schedule hr
  rwa [effort_ofList, he, Nat.sub_zero] at hs

end Pool

variable {α β : Type}

/-- **A race gives what the plain map gives**, whatever the schedule says. -/
theorem gather_eq_map (f : α → Traced β) {workers : Nat} (hw : 0 < workers) (schedule : List Nat)
    (xs : List α) : (gather f workers schedule xs).value = xs.map fun x => (f x).value := by
  have hend := Pool.outstanding_run f hw (n := 2 * xs.length) schedule
    (Nat.le_of_eq (Pool.effort_ofList xs))
  have hsound := (Pool.sound_ofList _ xs).of_run
    (Pool.reaches_run f workers (2 * xs.length) schedule (Pool.ofList xs))
  show (Pool.slots _).filterMap id = _
  rw [hsound.slots_eq hend, List.filterMap_map]
  exact List.filterMap_some

end CodeMatch.Race
