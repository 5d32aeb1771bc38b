/-
# The two modes of execution

A program gives a result when it comes to it whatever state it finds the remote
in at every call, and whenever. Tasks that give their results do so in both
modes:

| mode | outcomes | started |
| --- | --- | --- |
| together | one for each task, in the order of the list | every position once, in any order |
| in order | these, up to the first error | those of the outcomes, each after the one before has finished |

Main statement: `execute_modes`. It holds for every schedule, so for every order
in which tasks that are executed together finish.
-/

import Mathlib.Data.List.Count
import Mathlib.Data.List.Forall2
import Rollout.Proofs.Remote.Calls
import Rollout.Remote.Script

namespace Rollout

variable {σ ε α : Type}

/-- The position that an event starts. -/
def Event.start? : Event → Option Nat
  | started i => some i
  | _ => none

/-- The position that an event finishes. -/
def Event.finish? : Event → Option Nat
  | finished i => some i
  | _ => none

/-- The positions that are started, in order. -/
def starts (es : List Event) : List Nat :=
  es.filterMap Event.start?

/-- The positions that are finished, in order. -/
def finishes (es : List Event) : List Nat :=
  es.filterMap Event.finish?

/-- The starts and finishes, in order, without the calls between them. -/
def marks (es : List Event) : List Event :=
  es.filter (·.call?.isNone)

/-- The outcomes up to the first error, with that one. -/
def throughFirstError (os : List (Outcome ε α)) : List (Outcome ε α) :=
  os.take ((os.takeWhile Outcome.succeeded).length + 1)

/-- The program comes to a result whatever state of the remote answers its calls, and whenever
it asks for the time. -/
def Program.Gives (remote : Remote σ) (r : Except ε α) : Program ε α → Prop
  | .ended r' => r' = r
  | .unfinished => False
  | .call c next => ∀ s, (next (remote.answer s c).1).Gives remote r
  | .sleep _ next => next.Gives remote r
  | .clock next => ∀ t, (next t).Gives remote r

/-- A task for the host of an outcome gives its result. -/
structure Task.Gives (remote : Remote σ) (task : Task ε α) (o : Outcome ε α) : Prop where
  host : task.host = o.host
  result : task.program.Gives remote o.result

/-! ### Starts and finishes -/

section

variable {i : Nat} {es fs : List Event}

theorem marks_append : marks (es ++ fs) = marks es ++ marks fs :=
  List.filter_append ..

/-- A task that comes to its end is started and finished. -/
theorem marks_taskEvents {β : Type} (xs : List Exchange) (r : β) :
    marks (taskEvents i xs (some r)) = [.started i, .finished i] := by
  have calls : marks (xs.flatMap (Exchange.events i)) = [] := by
    refine List.filter_eq_nil_iff.2 fun e he => ?_
    obtain ⟨x, -, hx⟩ := List.mem_flatMap.1 he
    rw [x.call?_of_mem_events hx]
    exact Bool.false_ne_true
  rw [taskEvents, ← List.singleton_append, marks_append, marks_append, calls]
  rfl

/-- A position that is read off an event is the event's own, and the event is not about a call. -/
def ReadsMarks (f : Event → Option Nat) : Prop :=
  ∀ e j, f e = some j → e.position = j ∧ e.call? = none

/-- Where a task starts can be read from the marks. -/
theorem readsMarks_start? : ReadsMarks Event.start? := by
  intro e j h
  cases e <;> cases h
  exact ⟨rfl, rfl⟩

/-- Where a task finishes can be read from the marks. -/
theorem readsMarks_finish? : ReadsMarks Event.finish? := by
  intro e j h
  cases e <;> cases h
  exact ⟨rfl, rfl⟩

variable {f : Event → Option Nat}

/-- What is read from marks only can be read when the calls are left out. -/
theorem ReadsMarks.filterMap_marks (h : ReadsMarks f) :
    (marks es).filterMap f = es.filterMap f := by
  rw [marks, List.filterMap_filter]
  refine List.filterMap_congr fun e _ => ?_
  split
  · rfl
  · rename_i call
    cases hf : f e with
    | none => rfl
    | some j => exact absurd (h e j hf).2 (by simpa using call)

/-- Positions that are read off events are counted at their own positions. -/
theorem ReadsMarks.count (h : ReadsMarks f) :
    (es.filterMap f).count i = ((eventsAt i es).filterMap f).count i := by
  rw [eventsAt, List.count_filterMap, List.count_filterMap, List.countP_filter]
  refine List.countP_congr fun e _ => ?_
  rw [Bool.and_eq_true, beq_iff_eq, beq_iff_eq]
  exact ⟨fun hf => ⟨hf, (h e i hf).1⟩, And.left⟩

/-- When every position is read once at itself, all together are these positions. -/
theorem ReadsMarks.perm_range {n : Nat} (h : ReadsMarks f)
    (once : ∀ j < n, (eventsAt j es).filterMap f = [j]) (lt : ∀ e ∈ es, e.position < n) :
    (es.filterMap f).Perm (List.range n) := by
  refine List.perm_iff_count.2 fun j => ?_
  by_cases hj : j < n
  · rw [h.count, once j hj, List.count_singleton_self, List.nodup_range.count,
      if_pos (List.mem_range.2 hj)]
  · rw [List.count_eq_zero.2 fun mem => hj (List.mem_range.1 mem), List.count_eq_zero]
    intro mem
    obtain ⟨e, he, hf⟩ := List.mem_filterMap.1 mem
    exact hj ((h e j hf).1 ▸ lt e he)

end

/-! ### Tasks executed together -/

/-- A program that gives a result does so from every state and at every time. -/
theorem Program.result_run_of_gives {remote : Remote σ} {p : Program ε α} {r : Except ε α}
    (h : p.Gives remote r) (i : Nat) (s : σ) (t : Nat) : (p.run remote i s t).result = some r := by
  induction p generalizing s t with
  | ended r' => exact congrArg some h
  | unfinished => exact h.elim
  | call c next ih => exact ih _ (h s) _ _
  | sleep ms p ih => exact ih h s _
  | clock next ih => exact ih t (h t) s t

/-- The program of a strand comes to a result, or has done so. -/
def Stage.Gives (remote : Remote σ) (r : Except ε α) : Stage ε α → Prop
  | .fresh p | .ready p => p.Gives remote r
  | .waiting c next => ∀ s, (next (remote.answer s c).1).Gives remote r
  | .finished r' => r' = r
  | .stuck => False

/-- A strand for the host of an outcome gives its result. -/
structure Strand.Gives (remote : Remote σ) (x : Strand ε α) (o : Outcome ε α) : Prop where
  host : x.host = o.host
  stage : x.stage.Gives remote o.result

/-- A step leaves the result to come as it is, whatever the state. -/
theorem Strand.Gives.step {remote : Remote σ} {x : Strand ε α} {o : Outcome ε α}
    (h : x.Gives remote o) (i : Nat) (s : σ) : (x.step remote i s).strand.Gives remote o := by
  refine ⟨(x.host_step remote i s).trans h.host, ?_⟩
  obtain ⟨host, time, stage⟩ := x
  have gives := h.stage
  cases stage with
  | fresh p => exact gives
  | ready p =>
    cases p with
    | ended r => exact gives
    | unfinished => exact gives
    | call c next => exact gives
    | sleep ms p => exact gives
    | clock next => exact gives time
  | waiting c next => exact gives s
  | finished r => exact gives
  | stuck => exact gives

/-- Two lists that are related element by element are so when one element is replaced by a related
one. -/
theorem forall₂_set {β γ : Type} {R : β → γ → Prop} {xs : List β} {ys : List γ} {i : Nat} {x x' : β}
    (h : List.Forall₂ R xs ys) (hx : xs[i]? = some x) (hR : ∀ y, R x y → R x' y) :
    List.Forall₂ R (xs.set i x') ys := by
  induction h generalizing i with
  | nil => exact .nil
  | cons first rest ih =>
    cases i with
    | zero =>
      obtain rfl := Option.some.inj hx
      exact .cons (hR _ first) rest
    | succ i => exact .cons first (ih hx)

/-- Strands that are at their ends have come to the outcomes. -/
theorem outcomes?_of_gives {remote : Remote σ} {xs : List (Strand ε α)} {os : List (Outcome ε α)}
    (gives : List.Forall₂ (Strand.Gives remote) xs os)
    (ended : ∀ x ∈ xs, x.stage.canStep = false) : outcomes? xs = some os := by
  induction gives with
  | nil => rfl
  | @cons x o xs os first _ ih =>
    obtain ⟨own, ended⟩ := List.forall_mem_cons.1 ended
    have rest := ih ended
    obtain ⟨host, time, stage⟩ := x
    obtain ⟨rfl, gives⟩ := first
    cases stage with
    | fresh | ready | waiting => cases own
    | finished r =>
      obtain rfl : r = o.result := gives
      rw [outcomes?, rest]
      rfl
    | stuck => exact gives.elim

/-- **Every interleaving** comes to the outcomes that its strands give. -/
theorem Interleaved.outcomes?_eq {remote : Remote σ} {xs ys : List (Strand ε α)} {s s' : σ}
    {es : List Event} {os : List (Outcome ε α)} (h : Interleaved remote xs s es ys s')
    (gives : List.Forall₂ (Strand.Gives remote) xs os) : outcomes? ys = some os := by
  induction h with
  | done ended => exact outcomes?_of_gives gives ended
  | step hx can rest ih => exact ih (forall₂_set gives hx fun o ho => ho.step _ _)

section

variable {remote : Remote σ} {tasks : List (Task ε α)} {os : List (Outcome ε α)}

/-- **Together, tasks come to the outcomes that they give**, in the order of the tasks and in
every schedule. -/
theorem executeTogether_result (schedule : Schedule)
    (gives : List.Forall₂ (Task.Gives remote) tasks os) (s : σ) (t : Nat) :
    (executeTogether remote schedule tasks s t).result = some os := by
  obtain ⟨ys, inter, result, -⟩ := executeTogether_interleaved remote schedule tasks s t
  rw [result]
  refine inter.outcomes?_eq (List.forall₂_map_left_iff.2 (gives.imp fun _ _ h => ?_))
  exact ⟨h.host, h.result⟩

/-- Seen from one position, a task that is executed together with others is started and
finished. -/
theorem executeTogether_marks (schedule : Schedule)
    (gives : List.Forall₂ (Task.Gives remote) tasks os) (s : σ) (t : Nat) {i : Nat}
    (hi : i < tasks.length) :
    marks (eventsAt i (executeTogether remote schedule tasks s t).events) =
      [.started i, .finished i] := by
  obtain ⟨xs, o, ended, took⟩ :=
    executeTogether_task remote schedule s t (List.getElem?_eq_getElem hi)
  obtain ⟨r, rfl, -⟩ := took.outcome os (executeTogether_result schedule gives s t)
  rw [took.events, marks_taskEvents]

/-- **Tasks executed together** are each started once, and finished once. -/
theorem executeTogether_perm (schedule : Schedule)
    (gives : List.Forall₂ (Task.Gives remote) tasks os) (s : σ) (t : Nat)
    {f : Event → Option Nat} (h : ReadsMarks f)
    (once : ∀ i, [Event.started i, .finished i].filterMap f = [i]) :
    ((executeTogether remote schedule tasks s t).events.filterMap f).Perm
      (List.range tasks.length) := by
  refine h.perm_range (fun i hi => ?_) (execute_position remote (.together schedule) tasks s t)
  rw [← h.filterMap_marks, executeTogether_marks schedule gives s t hi, once]

/-! ### Tasks executed in order -/

/-- Behind an outcome that has succeeded, the list goes on. -/
theorem throughFirstError_of_succeeded {o : Outcome ε α} (h : o.succeeded = true) :
    throughFirstError (o :: os) = o :: throughFirstError os := by
  rw [throughFirstError, List.takeWhile_cons_of_pos h]
  rfl

/-- Behind an outcome that has failed, there is none. -/
theorem throughFirstError_of_failed {o : Outcome ε α} (h : o.succeeded ≠ true) :
    throughFirstError (o :: os) = [o] := by
  rw [throughFirstError, List.takeWhile_cons_of_neg h]
  rfl

/-- A task that gives an outcome comes to it from every state and at every time. -/
theorem Task.Gives.result_run {task : Task ε α} {o : Outcome ε α} (h : task.Gives remote o)
    (i : Nat) (s : σ) (t : Nat) : (task.run remote i s t).result = some o := by
  rw [Task.run]
  dsimp only
  rw [Program.result_run_of_gives h.result, Option.map_some, h.host]

/-- A task that gives an outcome starts and finishes once. -/
theorem Task.Gives.marks_run {task : Task ε α} {o : Outcome ε α} (h : task.Gives remote o)
    (i : Nat) (s : σ) (t : Nat) :
    marks (task.run remote i s t).events = [.started i, .finished i] := by
  obtain ⟨xs, r, events, result, -⟩ := task.run_runs remote i s t
  rw [h.result_run] at result
  obtain ⟨r, rfl, -⟩ := Option.map_eq_some_iff.1 result.symm
  rw [events, marks_taskEvents]

/-- **Tasks in order** give the outcomes up to the first error, and every task but the first
starts when the one before has finished. -/
theorem executeInOrder_gives (gives : List.Forall₂ (Task.Gives remote) tasks os) (k : Nat) (s : σ)
    (t : Nat) :
    (executeInOrder remote k tasks s t).result = some (throughFirstError os) ∧
      marks (executeInOrder remote k tasks s t).events =
        (List.range' k (throughFirstError os).length).flatMap fun i =>
          [.started i, .finished i] := by
  induction gives generalizing k s t with
  | nil => exact ⟨rfl, rfl⟩
  | @cons task o tasks os first _ ih =>
    obtain ⟨result, events⟩ := ih (k + 1) (task.run remote k s t).state (task.run remote k s t).time
    rw [executeInOrder, Run.andThen, first.result_run]
    dsimp only
    split
    · rename_i succeeded
      rw [throughFirstError_of_succeeded succeeded, List.length_cons, List.range'_succ,
        List.flatMap_cons, ← events, Run.after_events, Run.map_events, marks_append,
        first.marks_run]
      exact ⟨congrArg (Option.map (o :: ·)) result, rfl⟩
    · rename_i failed
      rw [throughFirstError_of_failed failed, Run.after_events, List.append_nil, first.marks_run]
      exact ⟨rfl, rfl⟩

end

/-! ### Both modes -/

/-- The tasks for hosts, by position and host. -/
def tasksFor (hosts : List String) (task : Nat → String → Program ε α) : List (Task ε α) :=
  hosts.mapIdx fun i host => ⟨host, task i host⟩

/-- The outcomes for hosts, by position and host. -/
def outcomesFor (hosts : List String) (result : Nat → String → Except ε α) :
    List (Outcome ε α) :=
  hosts.mapIdx fun i host => ⟨host, result i host⟩

/-- Tasks for hosts give the outcomes for these hosts. -/
theorem tasksFor_gives {remote : Remote σ} {hosts : List String}
    {task : Nat → String → Program ε α} {result : Nat → String → Except ε α}
    (gives : ∀ i host, hosts[i]? = some host → (task i host).Gives remote (result i host)) :
    List.Forall₂ (Task.Gives remote) (tasksFor hosts task) (outcomesFor hosts result) := by
  refine List.forall₂_iff_get.2 ⟨by simp [tasksFor, outcomesFor], fun i hi _ => ?_⟩
  have lt : i < hosts.length := by simpa [tasksFor] using hi
  simp only [tasksFor, outcomesFor, List.get_eq_getElem, List.getElem_mapIdx]
  exact ⟨rfl, gives i hosts[i] (List.getElem?_eq_getElem lt)⟩

/-- **In order is together, cut after the first error.** Executed together, every position is
started once and has the outcome that its task gives; executed in order, the outcomes are
these up to the first error, and their positions are started one after the other. -/
theorem execute_modes (remote : Remote σ) (schedule : Schedule) (hosts : List String)
    (task : Nat → String → Program ε α) (result : Nat → String → Except ε α)
    (gives : ∀ i host, hosts[i]? = some host → (task i host).Gives remote (result i host))
    (s s' : σ) (t t' : Nat) :
    let together := execute remote (.together schedule) (tasksFor hosts task) s t
    let inOrder := execute remote .inOrder (tasksFor hosts task) s' t'
    let outcomes := outcomesFor hosts result
    (together.result = some outcomes ∧
      (starts together.events).Perm (List.range hosts.length) ∧
      (finishes together.events).Perm (List.range hosts.length)) ∧
    inOrder.result = some (throughFirstError outcomes) ∧
      starts inOrder.events = List.range (throughFirstError outcomes).length ∧
      marks inOrder.events = (List.range (throughFirstError outcomes).length).flatMap fun i =>
        [.started i, .finished i] := by
  intro together inOrder outcomes
  have all := tasksFor_gives gives
  have length : (tasksFor hosts task).length = hosts.length := List.length_mapIdx
  obtain ⟨cut, ordered⟩ := executeInOrder_gives all 0 s' t'
  rw [← List.range_eq_range'] at ordered
  refine ⟨⟨executeTogether_result schedule all s t, ?_, ?_⟩, cut, ?_, ordered⟩
  · exact length ▸ executeTogether_perm schedule all s t readsMarks_start? fun _ => rfl
  · exact length ▸ executeTogether_perm schedule all s t readsMarks_finish? fun _ => rfl
  · rw [starts, ← readsMarks_start?.filterMap_marks]
    change (marks (executeInOrder remote 0 _ s' t').events).filterMap _ = _
    rw [ordered, List.filterMap_flatMap]
    exact List.flatMap_singleton' _

/-- The host, or an error at the second position. -/
def secondDown (i : Nat) (host : String) : Except String String :=
  if i = 1 then .error "down" else .ok host

/-- Makes a call whatever comes of it, and waits the longer the earlier the position. -/
def waitingTask (i : Nat) (host : String) : Program String String :=
  .call ⟨host, .run "uptime" []⟩ fun _ => .sleep (10 - i) (.ended (secondDown i host))

/-- Three tasks, two of them for one host. The second fails, so in order the third is not
started. -/
theorem execute_modes_three :
    (∀ i host, ["a", "b", "a"][i]? = some host →
      (waitingTask i host).Gives (Script.remote []) (secondDown i host)) ∧
    (execute (Script.remote []) (.together .earliest) (tasksFor ["a", "b", "a"] waitingTask) []
      0).result = some [⟨"a", .ok "a"⟩, ⟨"b", .error "down"⟩, ⟨"a", .ok "a"⟩] ∧
    (starts (execute (Script.remote []) (.together .earliest)
      (tasksFor ["a", "b", "a"] waitingTask) [] 0).events).Perm [0, 1, 2] ∧
    (execute (Script.remote []) .inOrder (tasksFor ["a", "b", "a"] waitingTask) [] 0).result =
      some [⟨"a", .ok "a"⟩, ⟨"b", .error "down"⟩] ∧
    marks (execute (Script.remote []) .inOrder (tasksFor ["a", "b", "a"] waitingTask) []
      0).events = [.started 0, .finished 0, .started 1, .finished 1] := by
  have gives : ∀ i host, ["a", "b", "a"][i]? = some host →
      (waitingTask i host).Gives (Script.remote []) (secondDown i host) := fun _ _ _ _ => rfl
  obtain ⟨⟨together, started, -⟩, cut, -, ordered⟩ := execute_modes (Script.remote [])
    .earliest ["a", "b", "a"] waitingTask secondDown gives [] [] 0 0
  exact ⟨gives, together, started, cut, ordered⟩

end Rollout
