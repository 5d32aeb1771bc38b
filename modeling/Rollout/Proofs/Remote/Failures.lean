/-
# The failures of a program

`Program.EveryFailure P` says that `P` holds of every error that a program can
end with, whatever the replies are. Like `Program.EveryCall`, it is read off the
program's text, part by part:

| part | its errors |
| --- | --- |
| an end with a result, a wait, the time | none |
| a call | the one that its error is made into |
| a sequence | those of the first part, then those of what follows each of its results |

Main statement: `execute_everyFailure`. What holds of the errors of every task
holds of the errors among the outcomes.
-/

import Rollout.Proofs.Remote.Execution

namespace Rollout

namespace Program

variable {ε ε' α β : Type} {P : ε → Prop} {Q : ε' → Prop}

/-- Every error that the program can end with has a property. -/
def EveryFailure (P : ε → Prop) : Program ε α → Prop
  | .ended r => ∀ e, r = .error e → P e
  | .unfinished => True
  | .call _ next => ∀ r, (next r).EveryFailure P
  | .sleep _ next => next.EveryFailure P
  | .clock next => ∀ t, (next t).EveryFailure P

theorem everyFailure_pure (a : α) : (pure a : Program ε α).EveryFailure P :=
  nofun

/-- What fails at once fails as it says. -/
theorem everyFailure_fail {e : ε} (h : P e) : (fail e : Program ε α).EveryFailure P := by
  rintro e' he
  obtain rfl := Except.error.inj he
  exact h

theorem everyFailure_now : (now : Program ε Nat).EveryFailure P :=
  fun _ => everyFailure_pure _

theorem everyFailure_pause (ms : Nat) : (pause ms : Program ε Unit).EveryFailure P :=
  everyFailure_pure ()

/-- A single call fails in one of the ways of failing calls. -/
theorem everyFailure_perform {failure : Call → CallError → ε} {c : Call}
    (h : ∀ e, P (failure c e)) : (perform failure c).EveryFailure P := by
  intro r
  cases r with
  | ok answer => exact everyFailure_pure answer
  | error e => exact everyFailure_fail (h e)

/-- A program whose error is a result does not fail. -/
theorem everyFailure_attempt (p : Program ε α) : p.attempt.EveryFailure P := by
  unfold attempt
  induction p with
  | ended r => exact nofun
  | unfinished => exact trivial
  | call c next ih => exact ih
  | sleep ms p ih => exact ih
  | clock next ih => exact ih

namespace EveryFailure

/-- A program and what follows it fail in one kind of way if both do. -/
theorem bind {p : Program ε α} {k : α → Program ε β} (hp : p.EveryFailure P)
    (hk : ∀ a, (k a).EveryFailure P) : (p >>= k).EveryFailure P := by
  change (p.bind k).EveryFailure P
  induction p with
  | ended r =>
    cases r with
    | ok a => exact hk a
    | error e => exact everyFailure_fail (hp e rfl)
  | unfinished => exact trivial
  | call c next ih => exact fun r => ih r (hp r)
  | sleep ms p ih => exact ih hp
  | clock next ih => exact fun t => ih t (hp t)

/-- What follows a known end goes on with that result only. -/
theorem ended_bind {r : Except ε α} {k : α → Program ε β} (error : ∀ e, r = .error e → P e)
    (ok : ∀ a, r = .ok a → (k a).EveryFailure P) : (ended r >>= k).EveryFailure P := by
  cases r with
  | ok a => exact ok a rfl
  | error e => exact everyFailure_fail (error e rfl)

/-- What becomes of its failure decides how a program fails that is told in another way. -/
theorem ending {f : Except ε α → Except ε' β} {p : Program ε α} (hp : p.EveryFailure P)
    (ok : ∀ a e', f (.ok a) ≠ .error e')
    (error : ∀ e e', P e → f (.error e) = .error e' → Q e') : (p.ending f).EveryFailure Q := by
  induction p with
  | ended r =>
    intro e' he'
    cases r with
    | ok a => exact absurd he' (ok a e')
    | error e => exact error e e' (hp e rfl) he'
  | unfinished => exact trivial
  | call c next ih => exact fun r => ih r (hp r)
  | sleep ms p ih => exact ih hp
  | clock next ih => exact fun t => ih t (hp t)

/-- The programs for each of a list fail in one kind of way if every one of them does. -/
theorem each {f : α → Program ε β} (hf : ∀ a, (f a).EveryFailure P) :
    ∀ as, (Program.each f as).EveryFailure P
  | [] => everyFailure_pure []
  | a :: as => (hf a).bind fun _ => (each hf as).bind fun _ => everyFailure_pure _

end EveryFailure

/-- **A run fails** only as its program may. -/
theorem Runs.everyFailure {p : Program ε α} {t t' : Nat} {xs : List Exchange} {e : ε}
    (h : p.Runs t xs (some (.error e)) t') (hp : p.EveryFailure P) : P e := by
  generalize ho : some (Except.error e) = o at h
  induction h with
  | ended r => exact hp e (Option.some.inj ho).symm
  | unfinished => cases ho
  | call _ _ ih => exact ih (hp _) ho
  | sleep _ ih => exact ih hp ho
  | clock _ ih => exact ih (hp _) ho

end Program

/-! ### The failures of an execution -/

variable {σ ε α : Type}

/-- Tasks in order have no more outcomes than there are tasks. -/
theorem InOrder.length_le {k t t' : Nat} {tasks : List (Task ε α)} {es : List Event}
    {os : List (Outcome ε α)} (h : InOrder k tasks t es (some os) t') :
    os.length ≤ tasks.length := by
  generalize hos : some os = o at h
  induction h generalizing os with
  | nil =>
    obtain rfl := Option.some.inj hos
    exact Nat.le_refl _
  | cut => cases hos
  | failed tasks _ =>
    obtain rfl := Option.some.inj hos
    simp
  | next _ _ ih =>
    obtain ⟨rest, hrest, rfl⟩ := Option.map_eq_some_iff.1 hos.symm
    have := ih hrest.symm
    simp only [List.length_cons]
    omega

/-- Every outcome is that of the task at its position. -/
theorem execute_length_le {remote : Remote σ} {mode : Mode} {tasks : List (Task ε α)} {s : σ}
    {t : Nat} {os : List (Outcome ε α)} (h : (execute remote mode tasks s t).result = some os) :
    os.length ≤ tasks.length := by
  cases mode with
  | inOrder =>
    have run := executeInOrder_inOrder remote 0 tasks s t
    rw [show (executeInOrder remote 0 tasks s t).result = some os from h] at run
    exact run.length_le
  | together schedule => exact Nat.le_of_eq (executeTogether_length h)

/-- **Every outcome is the end of a run** of the task at its position. -/
theorem execute_outcome {remote : Remote σ} {mode : Mode} {tasks : List (Task ε α)} {s : σ}
    {t : Nat} {os : List (Outcome ε α)} (h : (execute remote mode tasks s t).result = some os)
    {o : Outcome ε α} (ho : o ∈ os) :
    ∃ (i : Nat) (task : Task ε α) (begun : Nat) (xs : List Exchange) (ended : Nat),
      tasks[i]? = some task ∧ task.program.Runs begun xs (some o.result) ended := by
  obtain ⟨i, hi, rfl⟩ := List.mem_iff_getElem.1 ho
  have place : i < tasks.length := Nat.lt_of_lt_of_le hi (execute_length_le h)
  have task := List.getElem?_eq_getElem place
  rcases execute_task remote mode s t task with skipped | ⟨xs, r, begun, ended, -, took⟩
  · have none := skipped.outcome os h
    rw [List.getElem?_eq_getElem hi] at none
    cases none
  · obtain ⟨result, rfl, outcome⟩ := took.outcome os h
    rw [List.getElem?_eq_getElem hi] at outcome
    exact ⟨i, _, begun, xs, ended, task, by rw [Option.some.inj outcome]; exact took.runs⟩

/-- **Every error among the outcomes** is one that the task of its position can
end with. -/
theorem execute_everyFailure {remote : Remote σ} {mode : Mode} {tasks : List (Task ε α)} {s : σ}
    {t : Nat} {P : ε → Prop}
    (programs : ∀ (i : Nat) (task : Task ε α), tasks[i]? = some task → task.program.EveryFailure P)
    {os : List (Outcome ε α)} (h : (execute remote mode tasks s t).result = some os) :
    ∀ o ∈ os, ∀ e, o.result = .error e → P e := by
  intro o ho e he
  obtain ⟨i, task, begun, xs, ended, hi, runs⟩ := execute_outcome h ho
  rw [he] at runs
  exact runs.everyFailure (programs i task hi)

end Rollout
