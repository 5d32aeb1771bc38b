/-
# Tasks among others

A task that is executed together with others is a strand. Its clock is its own:
only its own waits and calls advance it, so strands wait side by side. A strand
moves on in steps:

| a strand that | takes the step |
| --- | --- |
| has not started | start |
| is about to call | issue the call |
| has issued a call | take the reply |
| is about to wait, or to ask for the time | do so |
| is at its end | finish |

Main statement: every way to advance a list of strands, one at a time, comes to
an end.
-/

import Rollout.Remote.Run

namespace Rollout

variable {σ ε α : Type}

/-- Where a task among others stands. -/
inductive Stage (ε α : Type) where
  | fresh (program : Program ε α)
  | ready (program : Program ε α)
  | waiting (call : Call) (next : Reply → Program ε α)
  | finished (result : Except ε α)
  /-- The program is cut off. -/
  | stuck

/-- The stage can be left. -/
def Stage.canStep : Stage ε α → Bool
  | fresh _ | ready _ | waiting _ _ => true
  | finished _ | stuck => false

/-- The stages that a step can lead to. -/
inductive Stage.Next : Stage ε α → Stage ε α → Prop where
  | start (p : Program ε α) : Next (.ready p) (.fresh p)
  | issue (c : Call) (k : Reply → Program ε α) : Next (.waiting c k) (.ready (.call c k))
  | reply (c : Call) (k : Reply → Program ε α) (r : Reply) : Next (.ready (k r)) (.waiting c k)
  | sleep (ms : Nat) (p : Program ε α) : Next (.ready p) (.ready (.sleep ms p))
  | clock (k : Nat → Program ε α) (t : Nat) : Next (.ready (k t)) (.ready (.clock k))
  | finish (r : Except ε α) : Next (.finished r) (.ready (.ended r))
  | cut : Next .stuck (.ready .unfinished)

theorem Stage.acc_finished (r : Except ε α) : Acc Stage.Next (.finished r) :=
  ⟨_, fun _ h => nomatch h⟩

theorem Stage.acc_stuck : Acc Stage.Next (.stuck : Stage ε α) :=
  ⟨_, fun _ h => nomatch h⟩

/-- Every program comes to its end, as a step leads to a part of it. -/
theorem Stage.acc_ready (p : Program ε α) : Acc Stage.Next (.ready p) := by
  induction p with
  | ended r => exact ⟨_, fun _ h => by cases h; exact acc_finished r⟩
  | unfinished => exact ⟨_, fun _ h => by cases h; exact acc_stuck⟩
  | call c k ih =>
    exact ⟨_, fun _ h => by cases h; exact ⟨_, fun _ h => by cases h; exact ih _⟩⟩
  | sleep ms p ih => exact ⟨_, fun _ h => by cases h; exact ih⟩
  | clock k ih => exact ⟨_, fun _ h => by cases h; exact ih _⟩

/-- **Every stage leads to an end.** -/
theorem Stage.wellFounded_next : WellFounded (Stage.Next (ε := ε) (α := α)) :=
  ⟨fun
    | .fresh p => ⟨_, fun _ h => by cases h; exact acc_ready p⟩
    | .ready p => acc_ready p
    | .waiting _ k => ⟨_, fun _ h => by cases h; exact acc_ready (k _)⟩
    | .finished r => acc_finished r
    | .stuck => acc_stuck⟩

/-- A task among others: its clock and its stage. -/
structure Strand (ε α : Type) where
  host : String
  time : Nat
  stage : Stage ε α

/-- One strand has taken a step. -/
inductive Advanced : List (Strand ε α) → List (Strand ε α) → Prop where
  | head {x y : Strand ε α} (ss : List (Strand ε α)) (h : x.stage.Next y.stage) :
    Advanced (x :: ss) (y :: ss)
  | tail (x : Strand ε α) {ss ts : List (Strand ε α)} (h : Advanced ss ts) :
    Advanced (x :: ss) (x :: ts)

/-- A strand before others that come to their ends may take its own steps between theirs. -/
theorem Advanced.acc_cons (ss : List (Strand ε α)) (hs : Acc Advanced ss) :
    ∀ (x : Strand ε α), Acc Advanced (x :: ss) := by
  induction hs with
  | intro ss _ ihs =>
    intro x
    generalize hg : x.stage = g
    induction Stage.wellFounded_next.apply g generalizing x with
    | intro g _ ihg =>
      refine ⟨_, fun _ h => ?_⟩
      cases h with
      | head _ h => exact ihg _ (hg ▸ h) _ rfl
      | tail _ h => exact ihs _ h x

/-- **Every way to advance strands comes to an end.** -/
theorem Advanced.wellFounded : WellFounded (Advanced (ε := ε) (α := α)) :=
  ⟨fun ss => by
    induction ss with
    | nil => exact ⟨_, fun _ h => nomatch h⟩
    | cons x ss ih => exact acc_cons ss ih x⟩

/-- A step of one strand advances them all. -/
theorem Advanced.set {ss : List (Strand ε α)} {i : Nat} {x y : Strand ε α} (h : ss[i]? = some x)
    (hn : y.stage.Next x.stage) : Advanced (ss.set i y) ss := by
  induction ss generalizing i with
  | nil => simp at h
  | cons z ss ih =>
    cases i with
    | zero =>
      obtain rfl : z = x := by simpa using h
      exact .head ss hn
    | succ i => exact .tail z (ih (by simpa using h))

/-- What the step of a strand does. -/
structure Step (σ ε α : Type) where
  events : List Event
  state : σ
  strand : Strand ε α

/-- The step of a strand that can take one. -/
def Strand.step (remote : Remote σ) (position : Nat) (s : σ) (x : Strand ε α) : Step σ ε α :=
  match x.stage with
  | .fresh p => ⟨[.started position], s, { x with stage := .ready p }⟩
  | .ready (.call c k) =>
    ⟨[.issued position x.time c], s,
      { x with time := x.time + remote.latency s c, stage := .waiting c k }⟩
  | .ready (.sleep ms p) => ⟨[], s, { x with time := x.time + ms, stage := .ready p }⟩
  | .ready (.clock k) => ⟨[], s, { x with stage := .ready (k x.time) }⟩
  | .ready (.ended r) => ⟨[.finished position], s, { x with stage := .finished r }⟩
  | .ready .unfinished => ⟨[], s, { x with stage := .stuck }⟩
  | .waiting c k =>
    let (reply, s') := remote.answer s c
    ⟨[.returned position x.time c reply], s', { x with stage := .ready (k reply) }⟩
  | .finished _ | .stuck => ⟨[], s, x⟩

/-- A strand that can step comes to the next stage. -/
theorem Strand.next_step (remote : Remote σ) (position : Nat) (s : σ) (x : Strand ε α)
    (h : x.stage.canStep = true) : (x.step remote position s).strand.stage.Next x.stage := by
  unfold Strand.step
  split <;> rename_i hx <;> rw [hx] at h ⊢
  · exact .start _
  · exact .issue _ _
  · exact .sleep _ _
  · exact .clock _ _
  · exact .finish _
  · exact .cut
  · exact .reply _ _ _
  · exact absurd h (by simp [Stage.canStep])
  · exact absurd h (by simp [Stage.canStep])

end Rollout
