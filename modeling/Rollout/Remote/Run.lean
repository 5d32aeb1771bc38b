/-
# Runs

A remote answers calls from a state that every call may change. A run of a
program is what happened in it, in order, and what it leaves: the state of the
remote and the time, which only waits and the latency of calls advance.
-/

import Rollout.Remote.Program

namespace Rollout

/-- What answers calls: how long a call takes, its reply, and the state that
the call leaves. -/
structure Remote (σ : Type) where
  latency : σ → Call → Nat
  answer : σ → Call → Reply × σ

/-- What happens in an execution, with the position of the task. Calls are
issued and return at a time on the clock of their task. -/
inductive Event where
  | started (position : Nat)
  | issued (position time : Nat) (call : Call)
  | returned (position time : Nat) (call : Call) (reply : Reply)
  | finished (position : Nat)

/-- The call that an event issues. -/
def Event.issuedCall? : Event → Option Call
  | issued _ _ c => some c
  | _ => none

/-- The result of a run, if it ends, what happened in it, and what it leaves. -/
structure Run (σ β : Type) where
  result : Option β
  events : List Event
  state : σ
  time : Nat

namespace Run

variable {σ β γ : Type}

/-- The run after some events. -/
def after (events : List Event) (r : Run σ β) : Run σ β :=
  { r with events := events ++ r.events }

/-- The run with another result. -/
def map (f : β → γ) (r : Run σ β) : Run σ γ :=
  ⟨r.result.map f, r.events, r.state, r.time⟩

/-- A run that goes on from where the first ends. -/
def andThen (r : Run σ β) (next : β → σ → Nat → Run σ γ) : Run σ γ :=
  match r.result with
  | some b => (next b r.state r.time).after r.events
  | none => ⟨none, r.events, r.state, r.time⟩

/-- The calls that were issued, in order. -/
def calls (r : Run σ β) : List Call :=
  r.events.filterMap Event.issuedCall?

end Run

/-- A program for a host. -/
structure Task (ε α : Type) where
  host : String
  program : Program ε α

/-- What a task for a host came to. -/
structure Outcome (ε α : Type) where
  host : String
  result : Except ε α

/-- The outcome is not an error. -/
def Outcome.succeeded {ε α : Type} (o : Outcome ε α) : Bool :=
  match o.result with
  | .ok _ => true
  | .error _ => false

section

variable {σ ε α : Type}

/-- Runs one program on its own. -/
def Program.run (remote : Remote σ) (position : Nat) :
    Program ε α → σ → Nat → Run σ (Except ε α)
  | .ended r, s, t => ⟨some r, [], s, t⟩
  | .unfinished, s, t => ⟨none, [], s, t⟩
  | .call c next, s, t =>
    let (reply, s') := remote.answer s c
    let back := t + remote.latency s c
    (run remote position (next reply) s' back).after
      [.issued position t c, .returned position back c reply]
  | .sleep ms next, s, t => run remote position next s (t + ms)
  | .clock next, s, t => run remote position (next t) s t

/-- Runs one task from its start to its end. -/
def Task.run (remote : Remote σ) (position : Nat) (task : Task ε α) (s : σ) (t : Nat) :
    Run σ (Outcome ε α) :=
  let r := task.program.run remote position s t
  let finish := if r.result.isSome then [.finished position] else []
  ⟨r.result.map (⟨task.host, ·⟩), .started position :: (r.events ++ finish), r.state, r.time⟩

end

end Rollout
