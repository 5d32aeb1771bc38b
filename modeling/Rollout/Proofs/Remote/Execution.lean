/-
# One task of an execution

Whether tasks are executed one after the other or together, the events at one
position are those of one run of the task there:

| mode | a task begins |
| --- | --- |
| in order | when the one before it has succeeded, or not at all |
| together | at the start |

Main statement: `execute_task`. It knows nothing of the remote, so it holds
whatever the other tasks do and in whatever order the steps are taken.
-/

import Rollout.Proofs.Remote.Interleaving

namespace Rollout

variable {σ ε α : Type}

/-- How the tasks of a phase are executed. -/
inductive Mode where
  | inOrder
  | together (schedule : Schedule)

/-- Executes tasks in a mode. -/
def execute (remote : Remote σ) : Mode → List (Task ε α) → σ → Nat → Run σ (List (Outcome ε α))
  | .inOrder => executeInOrder remote 0
  | .together schedule => executeTogether remote schedule

/-- The task at position `i` was begun at `begun`, had the exchanges `xs` and
ended at `ended` with the result `o`, or was cut off. -/
structure Run.Took (r : Run σ (List (Outcome ε α))) (i : Nat) (task : Task ε α) (begun : Nat)
    (xs : List Exchange) (o : Option (Except ε α)) (ended : Nat) : Prop where
  runs : task.program.Runs begun xs o ended
  events : eventsAt i r.events = taskEvents i xs o
  outcome : ∀ os, r.result = some os → ∃ result, o = some result ∧ os[i]? = some ⟨task.host, result⟩
  ended_le : ended ≤ r.time

/-- The task at position `i` was not begun. -/
structure Run.Skipped (r : Run σ (List (Outcome ε α))) (i : Nat) : Prop where
  events : eventsAt i r.events = []
  outcome : ∀ os, r.result = some os → os[i]? = none

/-! ### Tasks executed together -/

/-- **Strands have outcomes** when all of them have ended, each the one of its own result and
host. -/
theorem outcomes?_eq_some {ys : List (Strand ε α)} {os : List (Outcome ε α)}
    (h : outcomes? ys = some os) : os.length = ys.length ∧
      ∀ (i : Nat) (y : Strand ε α), ys[i]? = some y →
        ∃ r, y.stage.result? = some r ∧ os[i]? = some ⟨y.host, r⟩ := by
  induction ys generalizing os with
  | nil =>
    obtain rfl : [] = os := by simpa [outcomes?] using h
    exact ⟨rfl, fun i y hy => by simp at hy⟩
  | cons x ys ih =>
    rw [outcomes?] at h
    split at h
    · rename_i r hr
      obtain ⟨rest, hrest, rfl⟩ := Option.map_eq_some_iff.1 h
      obtain ⟨len, each⟩ := ih hrest
      refine ⟨by rw [List.length_cons, List.length_cons, len], fun i y hy => ?_⟩
      cases i with
      | zero =>
        obtain rfl : x = y := by simpa using hy
        exact ⟨r, by rw [hr]; rfl, rfl⟩
      | succ i => exact each i y (by simpa using hy)
    · cases h

/-- The latest time of strands is no earlier than the start. -/
theorem le_foldl_time (xs : List (Strand ε α)) (t : Nat) :
    t ≤ xs.foldl (fun t x => max t x.time) t := by
  induction xs generalizing t with
  | nil => exact Nat.le_refl _
  | cons x xs ih => exact Nat.le_trans (Nat.le_max_left _ _) (ih _)

/-- No strand ends later than the latest. -/
theorem time_le_latest {t : Nat} {xs : List (Strand ε α)} {x : Strand ε α} (h : x ∈ xs) :
    x.time ≤ latest t xs := by
  unfold latest
  induction xs generalizing t with
  | nil => cases h
  | cons y xs ih =>
    rcases List.mem_cons.1 h with rfl | h
    · exact Nat.le_trans (Nat.le_max_right _ _) (le_foldl_time xs _)
    · exact ih h

/-- The strand of a task that has not begun. -/
def Task.strand (t : Nat) (task : Task ε α) : Strand ε α :=
  ⟨task.host, t, .fresh task.program⟩

/-- **Tasks together are interleaved**, whatever the schedule, and their outcomes are those of
their strands. -/
theorem executeTogether_interleaved (remote : Remote σ) (schedule : Schedule)
    (tasks : List (Task ε α)) (s : σ) (t : Nat) :
    ∃ ys, Interleaved remote (tasks.map (Task.strand t)) s
        (executeTogether remote schedule tasks s t).events ys
        (executeTogether remote schedule tasks s t).state ∧
      (executeTogether remote schedule tasks s t).result = outcomes? ys ∧
      (executeTogether remote schedule tasks s t).time = latest t ys :=
  runStrands_interleaved remote schedule t 0 (tasks.map (Task.strand t)) s

/-- Every task that is executed together with others runs from the start to its
own end. -/
theorem executeTogether_task (remote : Remote σ) (schedule : Schedule) {tasks : List (Task ε α)}
    (s : σ) (t : Nat) {i : Nat} {task : Task ε α} (h : tasks[i]? = some task) :
    ∃ xs o ended, (executeTogether remote schedule tasks s t).Took i task t xs o ended := by
  obtain ⟨ys, inter, result, time⟩ := executeTogether_interleaved remote schedule tasks s t
  have hx : (tasks.map (Task.strand t))[i]? = some (task.strand t) := by
    rw [List.getElem?_map, h, Option.map_some]
  obtain ⟨y, hy, host, xs, events, runs⟩ := inter.finishes hx
  refine ⟨xs, y.stage.result?, y.time, runs, events, fun os hos => ?_, ?_⟩
  · rw [result] at hos
    obtain ⟨r, hr, ho⟩ := (outcomes?_eq_some hos).2 i y hy
    exact ⟨r, hr, by rw [ho, host]; rfl⟩
  · rw [time]
    exact time_le_latest (List.mem_of_getElem? hy)

/-- Tasks together have one outcome each. -/
theorem executeTogether_length {remote : Remote σ} {schedule : Schedule}
    {tasks : List (Task ε α)} {s : σ} {t : Nat} {os : List (Outcome ε α)}
    (h : (executeTogether remote schedule tasks s t).result = some os) :
    os.length = tasks.length := by
  obtain ⟨ys, inter, result, -⟩ := executeTogether_interleaved remote schedule tasks s t
  rw [(outcomes?_eq_some (result ▸ h)).1, inter.length, List.length_map]

/-! ### Tasks executed in order -/

/-- One task that is run by itself. -/
theorem Task.run_runs (remote : Remote σ) (i : Nat) (task : Task ε α) (s : σ) (t : Nat) :
    ∃ xs o, (task.run remote i s t).events = taskEvents i xs o ∧
      (task.run remote i s t).result = o.map (⟨task.host, ·⟩) ∧
      task.program.Runs t xs o (task.run remote i s t).time := by
  obtain ⟨xs, events, runs⟩ := task.program.runs_run remote i s t
  refine ⟨xs, _, ?_, rfl, runs⟩
  rw [taskEvents, ← events]
  rfl

/-- The events of a task are at its position. -/
theorem position_taskEvents {β : Type} {i : Nat} {xs : List Exchange} {o : Option β} :
    ∀ e ∈ taskEvents i xs o, e.position = i := by
  intro e he
  rcases List.mem_cons.1 he with rfl | he
  · rfl
  rcases List.mem_append.1 he with he | he
  · obtain ⟨x, -, he⟩ := List.mem_flatMap.1 he
    rcases List.mem_cons.1 he with rfl | he
    · rfl
    · rw [List.mem_singleton.1 he]
      rfl
  · unfold finishing at he
    split at he
    · rw [List.mem_singleton.1 he]
      rfl
    · cases he

/-- `InOrder k tasks t es os t'`: executed one after the other from the time `t`
on, the tasks, the first of them at position `k`, can go through the events `es`
and come to the outcomes `os` at `t'`, or to none if one of them is cut off. -/
inductive InOrder : Nat → List (Task ε α) → Nat → List Event → Option (List (Outcome ε α)) →
    Nat → Prop where
  | nil (k t : Nat) : InOrder k [] t [] (some []) t
  | cut {k t t' : Nat} {task : Task ε α} (tasks : List (Task ε α)) {xs : List Exchange}
    (runs : task.program.Runs t xs none t') :
    InOrder k (task :: tasks) t (taskEvents k xs (none : Option (Except ε α))) none t'
  | failed {k t t' : Nat} {task : Task ε α} (tasks : List (Task ε α)) {xs : List Exchange} {e : ε}
    (runs : task.program.Runs t xs (some (.error e)) t') :
    InOrder k (task :: tasks) t (taskEvents k xs (some (Except.error e : Except ε α)))
      (some [⟨task.host, .error e⟩]) t'
  | next {k t between t' : Nat} {task : Task ε α} {tasks : List (Task ε α)} {xs : List Exchange}
    {a : α} {es : List Event} {os : Option (List (Outcome ε α))}
    (runs : task.program.Runs t xs (some (.ok a)) between)
    (rest : InOrder (k + 1) tasks between es os t') :
    InOrder k (task :: tasks) t (taskEvents k xs (some (Except.ok a : Except ε α)) ++ es)
      (os.map (⟨task.host, .ok a⟩ :: ·)) t'

/-- **Tasks in order** run one after the other, up to the first that fails. -/
theorem executeInOrder_inOrder (remote : Remote σ) (k : Nat) (tasks : List (Task ε α)) (s : σ)
    (t : Nat) :
    InOrder k tasks t (executeInOrder remote k tasks s t).events
      (executeInOrder remote k tasks s t).result (executeInOrder remote k tasks s t).time := by
  induction tasks generalizing k s t with
  | nil => exact .nil k t
  | cons task tasks ih =>
    obtain ⟨xs, o, events, result, runs⟩ := task.run_runs remote k s t
    rw [executeInOrder, Run.andThen, result]
    cases o with
    | none =>
      rw [events]
      exact .cut tasks runs
    | some r =>
      cases r with
      | error e =>
        have last : InOrder k (task :: tasks) t (taskEvents k xs (some (Except.error e)))
            (some [⟨task.host, .error e⟩]) (task.run remote k s t).time := .failed tasks runs
        simpa [Outcome.succeeded, events] using last
      | ok a =>
        have first := InOrder.next runs (ih (k + 1) (task.run remote k s t).state
          (task.run remote k s t).time)
        simpa [Outcome.succeeded, events] using first

namespace InOrder

variable {k t t' : Nat} {tasks : List (Task ε α)} {es : List Event}
  {os : Option (List (Outcome ε α))}

/-- Time does not go back while tasks run in order. -/
theorem le (h : InOrder k tasks t es os t') : t ≤ t' := by
  induction h with
  | nil => exact Nat.le_refl _
  | cut _ runs => exact runs.le
  | failed _ runs => exact runs.le
  | next runs _ ih => exact Nat.le_trans runs.le ih

/-- The events of tasks in order are at their positions. -/
theorem position (h : InOrder k tasks t es os t') :
    ∀ e ∈ es, k ≤ e.position ∧ e.position < k + tasks.length := by
  induction h with
  | nil => exact fun e he => absurd he List.not_mem_nil
  | cut tasks _ | failed tasks _ =>
    intro e he
    rw [position_taskEvents e he, List.length_cons]
    omega
  | next _ _ ih =>
    intro e he
    rw [List.length_cons]
    rcases List.mem_append.1 he with he | he
    · rw [position_taskEvents e he]
      omega
    · have := ih e he
      omega

/-- A task in order runs to its own end, or is not begun. -/
theorem task (h : InOrder k tasks t es os t') {i : Nat} {task : Task ε α}
    (hi : tasks[i]? = some task) :
    (eventsAt (k + i) es = [] ∧ ∀ l, os = some l → l[i]? = none) ∨
    ∃ xs o begun ended, t ≤ begun ∧ task.program.Runs begun xs o ended ∧ ended ≤ t' ∧
      eventsAt (k + i) es = taskEvents (k + i) xs o ∧
      ∀ l, os = some l → ∃ r, o = some r ∧ l[i]? = some ⟨task.host, r⟩ := by
  induction h generalizing i with
  | nil => simp at hi
  | @cut k t t' first tasks xs runs =>
    cases i with
    | zero =>
      obtain rfl : first = task := by simpa using hi
      exact .inr ⟨xs, none, t, t', Nat.le_refl _, runs, Nat.le_refl _,
        eventsAt_eq_self position_taskEvents, fun l hl => by cases hl⟩
    | succ i =>
      refine .inl ⟨eventsAt_eq_nil fun e he => ?_, fun l hl => by cases hl⟩
      rw [position_taskEvents e he]
      omega
  | @failed k t t' first tasks xs e runs =>
    cases i with
    | zero =>
      obtain rfl : first = task := by simpa using hi
      refine .inr ⟨xs, some (.error e), t, t', Nat.le_refl _, runs, Nat.le_refl _,
        eventsAt_eq_self position_taskEvents, fun l hl => ?_⟩
      obtain rfl := Option.some.inj hl
      exact ⟨_, rfl, rfl⟩
    | succ i =>
      refine .inl ⟨eventsAt_eq_nil fun e he => ?_, fun l hl => ?_⟩
      · rw [position_taskEvents e he]
        omega
      · obtain rfl := Option.some.inj hl
        rfl
  | @next k t between t' first tasks xs a es os runs rest ih =>
    rw [eventsAt_append]
    cases i with
    | zero =>
      obtain rfl : first = task := by simpa using hi
      -- The tasks behind the first are at later positions.
      have later : eventsAt k es = [] := by
        refine eventsAt_eq_nil fun e he => ?_
        have := rest.position e he
        omega
      rw [Nat.add_zero]
      refine .inr ⟨xs, some (.ok a), t, between, Nat.le_refl _, runs, rest.le, ?_, fun l hl => ?_⟩
      · rw [eventsAt_eq_self position_taskEvents, later, List.append_nil]
      · obtain ⟨l', -, rfl⟩ := Option.map_eq_some_iff.1 hl
        exact ⟨_, rfl, rfl⟩
    | succ i =>
      have own :
          eventsAt (k + (i + 1)) (taskEvents k xs (some (Except.ok a : Except ε α))) = [] := by
        refine eventsAt_eq_nil fun e he => ?_
        rw [position_taskEvents e he]
        omega
      rw [own, List.nil_append, show k + (i + 1) = k + 1 + i by omega]
      rcases ih (by simpa using hi) with
        ⟨none, skipped⟩ | ⟨ys, o, begun, ended, hb, hr, he, hev, hos⟩
      · refine .inl ⟨none, fun l hl => ?_⟩
        obtain ⟨l', hl', rfl⟩ := Option.map_eq_some_iff.1 hl
        exact skipped l' hl'
      · refine .inr ⟨ys, o, begun, ended, Nat.le_trans runs.le hb, hr, he, hev, fun l hl => ?_⟩
        obtain ⟨l', hl', rfl⟩ := Option.map_eq_some_iff.1 hl
        exact hos l' hl'

/-- When no outcome is an error, every task has one. -/
theorem length_of_succeeded {l : List (Outcome ε α)} (h : InOrder k tasks t es (some l) t')
    (ok : ∀ o ∈ l, ∃ a, o.result = .ok a) : l.length = tasks.length := by
  generalize hos : some l = os at h
  induction h generalizing l with
  | nil =>
    obtain rfl := Option.some.inj hos
    rfl
  | cut => cases hos
  | failed =>
    obtain rfl := Option.some.inj hos
    obtain ⟨a, ha⟩ := ok _ List.mem_cons_self
    cases ha
  | next _ _ ih =>
    obtain ⟨l', hl', rfl⟩ := Option.map_eq_some_iff.1 hos.symm
    rw [List.length_cons, List.length_cons,
      ih (fun o ho => ok o (List.mem_cons_of_mem _ ho)) hl'.symm]

end InOrder

/-! ### Both modes -/

/-- **A task of an execution** is not begun, or its events are those of one run
of its own program. -/
theorem execute_task (remote : Remote σ) (mode : Mode) {tasks : List (Task ε α)} (s : σ) (t : Nat)
    {i : Nat} {task : Task ε α} (h : tasks[i]? = some task) :
    (execute remote mode tasks s t).Skipped i ∨
      ∃ xs o begun ended, t ≤ begun ∧
        (execute remote mode tasks s t).Took i task begun xs o ended := by
  cases mode with
  | inOrder =>
    have run := (executeInOrder_inOrder remote 0 tasks s t).task h
    rw [Nat.zero_add] at run
    rcases run with ⟨events, skipped⟩ | ⟨xs, o, begun, ended, hb, runs, he, events, outcome⟩
    · exact .inl ⟨events, skipped⟩
    · exact .inr ⟨xs, o, begun, ended, hb, runs, events, outcome, he⟩
  | together schedule =>
    obtain ⟨xs, o, ended, took⟩ := executeTogether_task remote schedule s t h
    exact .inr ⟨xs, o, t, ended, Nat.le_refl _, took⟩

/-- In both modes every event is at the position of one of the tasks. -/
theorem execute_position (remote : Remote σ) (mode : Mode) (tasks : List (Task ε α)) (s : σ)
    (t : Nat) : ∀ e ∈ (execute remote mode tasks s t).events, e.position < tasks.length := by
  cases mode with
  | inOrder =>
    intro e he
    have := ((executeInOrder_inOrder remote 0 tasks s t).position e he).2
    omega
  | together schedule =>
    obtain ⟨ys, inter, -, -⟩ := executeTogether_interleaved remote schedule tasks s t
    intro e he
    have := inter.position_lt e he
    rwa [List.length_map] at this

end Rollout
