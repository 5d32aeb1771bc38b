/-
# Execution

Tasks are executed one after the other, up to the first that fails, or all
together. Together, a schedule says which strand takes the next step; every
schedule leads to an end.
-/

import Rollout.Remote.Strand

namespace Rollout

variable {σ ε α : Type}

/-- Executes tasks one after the other, up to the first that fails. -/
def executeInOrder (remote : Remote σ) :
    (position : Nat) → List (Task ε α) → σ → Nat → Run σ (List (Outcome ε α))
  | _, [], s, t => ⟨some [], [], s, t⟩
  | position, task :: tasks, s, t =>
    (task.run remote position s t).andThen fun outcome s t =>
      if outcome.succeeded then
        (executeInOrder remote (position + 1) tasks s t).map (outcome :: ·)
      else ⟨some [outcome], [], s, t⟩

/-- A strand that can take a step, and its clock. -/
structure Turn where
  position : Nat
  time : Nat
  deriving DecidableEq

/-- The strands that can take a step. -/
def turns (position : Nat) : List (Strand ε α) → List Turn
  | [] => []
  | x :: xs =>
    if x.stage.canStep then ⟨position, x.time⟩ :: turns (position + 1) xs
    else turns (position + 1) xs

/-- A schedule chooses among the strands that can take a step; it may look at
the number of steps taken so far. -/
abbrev Schedule := Nat → List Turn → Turn

/-- The strand whose clock is earliest; of several, the first. -/
def Schedule.earliest : Schedule := fun _ ts =>
  ts.tail.foldl (fun best t => if t.time < best.time then t else best) (ts.headD ⟨0, 0⟩)

/-- One strand to its end, then the next. -/
def Schedule.oneByOne : Schedule := fun _ ts =>
  ts.headD ⟨0, 0⟩

/-- The outcomes of strands that have all finished. -/
def outcomes? : List (Strand ε α) → Option (List (Outcome ε α))
  | [] => some []
  | x :: xs =>
    match x.stage with
    | .finished r => (outcomes? xs).map (⟨x.host, r⟩ :: ·)
    | _ => none

/-- The latest clock. -/
def latest (start : Nat) (xs : List (Strand ε α)) : Nat :=
  xs.foldl (fun t x => max t x.time) start

/-- The position of the strand that takes the next step: the one that the
schedule chooses, or the first if the choice cannot take a step. -/
def nextPosition? (schedule : Schedule) (taken : Nat) (xs : List (Strand ε α)) : Option Nat :=
  let ts := turns 0 xs
  let choice := schedule taken ts
  if ts.contains choice then some choice.position else ts.head?.map Turn.position

/-- Steps strands, as a schedule orders them, until none can take a step. -/
def runStrands (remote : Remote σ) (schedule : Schedule) (start : Nat) (taken : Nat)
    (xs : List (Strand ε α)) (s : σ) : Run σ (List (Outcome ε α)) :=
  match nextPosition? schedule taken xs with
  | none => ⟨outcomes? xs, [], s, latest start xs⟩
  | some i =>
    match h : xs[i]? with
    | none => ⟨outcomes? xs, [], s, latest start xs⟩
    | some x =>
      if hs : x.stage.canStep = true then
        let step := x.step remote i s
        (runStrands remote schedule start (taken + 1) (xs.set i step.strand) step.state).after
          step.events
      else ⟨outcomes? xs, [], s, latest start xs⟩
termination_by Advanced.wellFounded.wrap xs
decreasing_by exact Advanced.set h (Strand.next_step remote i s x hs)

/-- Executes tasks together, in the order of a schedule. -/
def executeTogether (remote : Remote σ) (schedule : Schedule) (tasks : List (Task ε α)) (s : σ)
    (t : Nat) : Run σ (List (Outcome ε α)) :=
  runStrands remote schedule t 0 (tasks.map fun task => ⟨task.host, t, .fresh task.program⟩) s

end Rollout
