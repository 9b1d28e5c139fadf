import CodeMatch.Log

/-!
# Tasks that finish in any order

Several workers run tasks at the same time.  A task that runs may finish before others that were begun
earlier; each knows its place, so results can be put into order whenever they come (`gather`).  The next
number of a schedule, modulo the number of moves, picks the one that is made.
-/

namespace CodeMatch.Race

open Log

variable {α β : Type}

structure Task (α : Type) where
  place : Nat
  input : α

def numbered (n : Nat) : List α → List (Task α)
  | [] => []
  | x :: xs => ⟨n, x⟩ :: numbered (n + 1) xs

theorem numbered_cons (n : Nat) (x : α) (xs : List α) :
    numbered n (x :: xs) = ⟨n, x⟩ :: numbered (n + 1) xs := rfl

theorem length_numbered (n : Nat) (xs : List α) : (numbered n xs).length = xs.length := by
  induction xs generalizing n with
  | nil => rfl
  | cons x xs ih => simp [numbered_cons, ih]

def put (i : Nat) (b : β) (slots : List (Option β)) : List (Option β) := slots.set i (some b)

structure Pool (α β : Type) where
  waiting : List (Task α)
  running : List (Task α)
  slots : List (Option β)

inductive Move where
  /-- a worker takes the waiting task with this index -/
  | start (i : Nat)
  /-- the running task with this index is done -/
  | finish (i : Nat)
deriving DecidableEq, Repr

namespace Pool

def ofList (xs : List α) : Pool α β := ⟨numbered 0 xs, [], List.replicate xs.length none⟩

def starts (workers : Nat) (p : Pool α β) : List Move :=
  if p.running.length < workers then (List.range p.waiting.length).map .start else []

def finishes (p : Pool α β) : List Move := (List.range p.running.length).map .finish

def moves (workers : Nat) (p : Pool α β) : List Move := p.starts workers ++ p.finishes

def make (f : α → Traced β) (p : Pool α β) : Move → Traced (Pool α β)
  | .start i =>
    match p.waiting[i]? with
    | none => return p
    | some t => return { p with waiting := p.waiting.eraseIdx i, running := p.running ++ [t] }
  | .finish i =>
    match p.running[i]? with
    | none => return p
    | some t => do
      let b ← f t.input
      return { p with running := p.running.eraseIdx i, slots := put t.place b p.slots }

/-- `n` moves, or fewer if nothing can happen any more -/
def run (f : α → Traced β) (workers : Nat) : Nat → List Nat → Pool α β → Traced (Pool α β)
  | 0, _, p => return p
  | n + 1, schedule, p =>
    match (p.moves workers)[schedule.headD 0 % (p.moves workers).length]? with
    | none => return p
    | some m => do
      let q ← p.make f m
      run f workers n schedule.tail q

end Pool

/-- the results of `f` on `xs`; each task begins once and finishes once -/
def gather (f : α → Traced β) (workers : Nat) (schedule : List Nat) (xs : List α) :
    Traced (List β) := do
  let p ← Pool.run f workers (2 * xs.length) schedule (Pool.ofList xs)
  return p.slots.filterMap id

end CodeMatch.Race
