/-
# Programs of remote calls

A program is a tree: it has ended, or it makes a call and goes on with the
reply, waits, or asks for the time. A branch on which the program would go on
without end is cut off and says so. One program knows nothing of other
programs, so it can be run alone or among others.
-/

import Rollout.Remote.Call

namespace Rollout

/-- A program that ends with a result of type `α` or an error of type `ε`. -/
inductive Program (ε α : Type) where
  | ended (result : Except ε α)
  /-- The branch is cut off here. -/
  | unfinished
  | call (c : Call) (next : Reply → Program ε α)
  /-- Waits for some milliseconds. -/
  | sleep (ms : Nat) (next : Program ε α)
  /-- Goes on with the time in milliseconds. -/
  | clock (next : Nat → Program ε α)

namespace Program

variable {ε ε' α β : Type}

/-- Ends with an error. -/
def fail (e : ε) : Program ε α :=
  .ended (.error e)

/-- Goes on with a result, or ends with the error. -/
def resume (k : α → Program ε β) : Except ε α → Program ε β
  | .ok a => k a
  | .error e => fail e

/-- The second program after the first has ended with a result. -/
def bind (p : Program ε α) (k : α → Program ε β) : Program ε β :=
  match p with
  | .ended r => resume k r
  | .unfinished => .unfinished
  | .call c next => .call c fun r => (next r).bind k
  | .sleep ms next => .sleep ms (next.bind k)
  | .clock next => .clock fun t => (next t).bind k

instance : Monad (Program ε) where
  pure a := .ended (.ok a)
  bind := bind

/-- The program with another way to end. -/
def ending (f : Except ε α → Except ε' β) : Program ε α → Program ε' β
  | .ended r => .ended (f r)
  | .unfinished => .unfinished
  | .call c next => .call c fun r => (next r).ending f
  | .sleep ms next => .sleep ms (next.ending f)
  | .clock next => .clock fun t => (next t).ending f

/-- The program with its error as a result. -/
def attempt (p : Program ε α) : Program ε (Except ε α) :=
  p.ending .ok

/-- Runs a program for every element of a list and collects the results. -/
def each (f : α → Program ε β) : List α → Program ε (List β)
  | [] => pure []
  | a :: as => do
    let b ← f a
    let bs ← each f as
    return b :: bs

/-- Waits for some milliseconds. -/
def pause (ms : Nat) : Program ε Unit :=
  .sleep ms (pure ())

/-- The time in milliseconds. -/
def now : Program ε Nat :=
  .clock pure

/-- Makes a call; a reply that is no answer becomes the program's error. -/
def perform (failure : Call → CallError → ε) (c : Call) : Program ε String :=
  .call c fun
    | .ok answer => pure answer
    | .error e => fail (failure c e)

end Program
end Rollout
