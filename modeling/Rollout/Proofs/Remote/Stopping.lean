/-
# Where an execution stops

A program that stops at a failed call ends with the failure of that call. It may
fail for other reasons, but then no call has failed, and the reasons are no
failed calls.

| | stops at |
| --- | --- |
| such a program | its first call that is not answered |
| tasks in order | the first of them that fails |

Main statements: `Program.Runs.stops` says what the exchanges of such a program
show, and `executeInOrder_eq_of_error` what tasks in order have done when one of
them fails, with the run of that task from where those before it have left the
remote.
-/

import Rollout.Container.Introspection
import Rollout.Proofs.Remote.Alone

namespace Rollout

/-! ### Failed calls -/

/-- The cause is a call that failed. -/
def Cause.isCall : Cause → Bool
  | .callFailed _ _ _ | .callNotStarted _ _ => true
  | _ => false

/-- One of the causes is a call that failed. -/
def Failure.BlamesCall (f : Failure) : Prop :=
  ∃ c ∈ f.causes, c.isCall = true

/-- A failure blames no call if none of its causes is a failed call. -/
theorem Failure.not_blamesCall {f : Failure} (h : ∀ c ∈ f.causes, c.isCall = false) :
    ¬ f.BlamesCall := by
  rintro ⟨c, hc, call⟩
  rw [h c hc] at call
  cases call

namespace Program

variable {α β : Type}

/-- The program ends with the failure of the first call that is not answered. Otherwise it blames
no call, and it is nowhere cut off. -/
def StopsAtFailure : Program Failure α → Prop
  | .ended r => ∀ f, r = .error f → ¬ f.BlamesCall
  | .unfinished => False
  | .call c next => (∀ answer, (next (.ok answer)).StopsAtFailure) ∧
      ∀ e, next (.error e) = fail (.ofCall c e)
  | .sleep _ next => next.StopsAtFailure
  | .clock next => ∀ t, (next t).StopsAtFailure

theorem stopsAtFailure_pure (a : α) : (pure a : Program Failure α).StopsAtFailure :=
  nofun

theorem stopsAtFailure_pause (ms : Nat) : (pause ms : Program Failure Unit).StopsAtFailure :=
  stopsAtFailure_pure ()

/-- A single call fails with the failure of the call. -/
theorem stopsAtFailure_perform (c : Call) : (Rollout.perform c).StopsAtFailure :=
  ⟨stopsAtFailure_pure, fun _ => rfl⟩

namespace StopsAtFailure

/-- A program stops at a failed call if it does so before and behind a point. -/
theorem bind {p : Program Failure α} {k : α → Program Failure β} (hp : p.StopsAtFailure)
    (hk : ∀ a, (k a).StopsAtFailure) : (p >>= k).StopsAtFailure := by
  change (p.bind k).StopsAtFailure
  induction p with
  | ended r =>
    cases r with
    | ok a => exact hk a
    | error f =>
      rintro g hg
      obtain rfl := Except.error.inj hg
      exact hp f rfl
  | unfinished => exact hp
  | call c next ih =>
    exact ⟨fun answer => ih _ (hp.1 answer), fun e => congrArg (·.bind k) (hp.2 e)⟩
  | sleep ms p ih => exact ih hp
  | clock next ih => exact fun t => ih t (hp t)

/-- The programs for each of a list stop at a failed call if every one of them does. -/
theorem each {γ : Type} {f : γ → Program Failure β} (hf : ∀ c, (f c).StopsAtFailure) :
    ∀ cs, (Program.each f cs).StopsAtFailure
  | [] => stopsAtFailure_pure []
  | c :: cs => (hf c).bind fun _ => (each hf cs).bind fun _ => stopsAtFailure_pure _

end StopsAtFailure

/-- **What a program shows that stops at a failed call:** either all of its calls are answered, or
the last one is not, and the program has failed for that. -/
theorem Runs.stops {p : Program Failure α} {t t' : Nat} {xs : List Exchange}
    {o : Option (Except Failure α)} (h : p.Runs t xs o t') (hp : p.StopsAtFailure) :
    (∃ r, o = some r ∧ (∀ x ∈ xs, x.IsAnswered) ∧ ∀ f, r = .error f → ¬ f.BlamesCall) ∨
    ∃ ys x e, xs = ys ++ [x] ∧ (∀ y ∈ ys, y.IsAnswered) ∧ x.reply = .error e ∧
      o = some (.error (.ofCall x.call e)) := by
  induction h with
  | ended r t => exact .inl ⟨r, rfl, nofun, hp⟩
  | unfinished => exact hp.elim
  | @call c next t back t' reply xs o le rest ih =>
    cases reply with
    | ok answer =>
      rcases ih (hp.1 answer) with ⟨r, ho, answered, blameless⟩ | ⟨ys, x, e, rfl, answered, failed⟩
      · exact .inl ⟨r, ho, List.forall_mem_cons.2 ⟨⟨answer, rfl⟩, answered⟩, blameless⟩
      · exact .inr ⟨_ :: ys, x, e, rfl, List.forall_mem_cons.2 ⟨⟨answer, rfl⟩, answered⟩, failed⟩
    | error e =>
      rw [hp.2 e] at rest
      obtain ⟨rfl, rfl, -⟩ := of_fail rest
      exact .inr ⟨[], _, e, rfl, nofun, rfl, rfl⟩
  | sleep _ ih => exact ih hp
  | clock _ ih => exact ih (hp _)

end Program

/-! ### Tasks in order -/

section

variable {σ ε α : Type} {remote : Remote σ} {k : Nat} {s : σ} {t : Nat}

/-- Behind a task that succeeds the others go on from where it has left the remote. -/
theorem executeInOrder_cons_of_ok {task : Task ε α} {tasks : List (Task ε α)} {a : α}
    (h : (task.program.run remote k s t).result = some (.ok a)) :
    executeInOrder remote k (task :: tasks) s t =
      ((executeInOrder remote (k + 1) tasks (task.run remote k s t).state
        (task.run remote k s t).time).map (⟨task.host, .ok a⟩ :: ·)).after
          (task.run remote k s t).events := by
  have own : (task.run remote k s t).result = some ⟨task.host, .ok a⟩ := by
    rw [Task.run]
    exact congrArg (Option.map _) h
  rw [executeInOrder, Run.andThen, own]
  rfl

/-- Behind a task that fails nothing more is done. -/
theorem executeInOrder_cons_of_error {task : Task ε α} (tasks : List (Task ε α)) {e : ε}
    (h : (task.program.run remote k s t).result = some (.error e)) :
    executeInOrder remote k (task :: tasks) s t =
      ⟨some [⟨task.host, .error e⟩], (task.run remote k s t).events,
        (task.run remote k s t).state, (task.run remote k s t).time⟩ := by
  have own : (task.run remote k s t).result = some ⟨task.host, .error e⟩ := by
    rw [Task.run]
    exact congrArg (Option.map _) h
  rw [executeInOrder, Run.andThen, own]
  simp [Outcome.succeeded, Run.after]

/-- Tasks in order that have all succeeded begin with one that has. -/
theorem executeInOrder_cons_succeeded {task : Task ε α} {tasks : List (Task ε α)}
    {os : List (Outcome ε α)} (h : (executeInOrder remote k (task :: tasks) s t).result = some os)
    (ok : ∀ o ∈ os, ∃ a, o.result = .ok a) :
    ∃ a os', (task.program.run remote k s t).result = some (.ok a) ∧
      os = ⟨task.host, .ok a⟩ :: os' ∧
      (executeInOrder remote (k + 1) tasks (task.run remote k s t).state
        (task.run remote k s t).time).result = some os' := by
  cases own : (task.program.run remote k s t).result with
  | none =>
    have cut : (task.run remote k s t).result = none := by
      rw [Task.run]
      exact congrArg (Option.map _) own
    rw [executeInOrder, Run.andThen, cut] at h
    cases h
  | some r =>
    cases r with
    | error e =>
      rw [executeInOrder_cons_of_error tasks own] at h
      obtain rfl := Option.some.inj h
      obtain ⟨a, error⟩ := ok _ List.mem_cons_self
      cases error
    | ok a =>
      rw [executeInOrder_cons_of_ok own] at h
      obtain ⟨os', rest, rfl⟩ := Option.map_eq_some_iff.1 h
      exact ⟨a, os', rfl, rfl, rest⟩

/-- **Tasks that follow others** which have all succeeded go on from where these have come to. -/
theorem executeInOrder_append {as bs : List (Task ε α)} {os : List (Outcome ε α)}
    (h : (executeInOrder remote k as s t).result = some os) (ok : ∀ o ∈ os, ∃ a, o.result = .ok a) :
    executeInOrder remote k (as ++ bs) s t =
      ((executeInOrder remote (k + as.length) bs (executeInOrder remote k as s t).state
        (executeInOrder remote k as s t).time).map (os ++ ·)).after
          (executeInOrder remote k as s t).events := by
  induction as generalizing k s t os with
  | nil =>
    obtain rfl := Option.some.inj h
    simp [executeInOrder, Run.after, Run.map]
  | cons task as ih =>
    obtain ⟨a, os', own, rfl, rest⟩ := executeInOrder_cons_succeeded h ok
    rw [List.cons_append, executeInOrder_cons_of_ok own, executeInOrder_cons_of_ok own,
      ih rest (List.forall_mem_cons.1 ok).2, List.length_cons,
      show k + (as.length + 1) = k + 1 + as.length by omega]
    simp [Run.after, Run.map, Function.comp_def]

/-- A program at a position, from where the tasks before that have come to in order. -/
def Program.runBehind {ε' β : Type} (remote : Remote σ) (tasks : List (Task ε α)) (i : Nat) (s : σ)
    (t : Nat) (p : Program ε' β) : Run σ (Except ε' β) :=
  p.run remote i (executeInOrder remote 0 (tasks.take i) s t).state
    (executeInOrder remote 0 (tasks.take i) s t).time

variable {tasks : List (Task ε α)} {i : Nat}

/-- Tasks each of which succeeds behind those before it all succeed. -/
theorem executeInOrder_take_succeeded (le : i ≤ tasks.length)
    (own : ∀ j < i, ∀ task, tasks[j]? = some task →
      ∃ a, (task.program.runBehind remote tasks j s t).result = some (.ok a)) :
    ∃ os, (executeInOrder remote 0 (tasks.take i) s t).result = some os ∧
      ∀ o ∈ os, ∃ a, o.result = .ok a := by
  induction i with
  | zero => exact ⟨[], rfl, nofun⟩
  | succ i ih =>
    obtain ⟨os, result, ok⟩ := ih (Nat.le_of_succ_le le) fun j hj => own j (Nat.lt_succ_of_lt hj)
    have hi : tasks[i]? = some tasks[i] := List.getElem?_eq_getElem le
    obtain ⟨a, next⟩ := own i (Nat.lt_succ_self i) tasks[i] hi
    have length : 0 + (tasks.take i).length = i := by
      rw [Nat.zero_add, List.length_take]
      exact Nat.min_eq_left (Nat.le_of_succ_le le)
    rw [List.take_add_one, hi, Option.toList_some, executeInOrder_append result ok, length,
      executeInOrder_cons_of_ok next]
    refine ⟨os ++ [⟨tasks[i].host, .ok a⟩], rfl, ?_⟩
    exact List.forall_mem_append.2 ⟨ok, List.forall_mem_singleton.2 ⟨a, rfl⟩⟩

/-- **Tasks in order stop** at the first that fails behind those before it. -/
theorem executeInOrder_eq_of_error {task : Task ε α} {e : ε} (hi : tasks[i]? = some task)
    (own : ∀ j < i, ∀ task, tasks[j]? = some task →
      ∃ a, (task.program.runBehind remote tasks j s t).result = some (.ok a))
    (error : (task.program.runBehind remote tasks i s t).result = some (.error e)) :
    ∃ os, (∀ o ∈ os, ∃ a, o.result = .ok a) ∧
      (executeInOrder remote 0 tasks s t).result = some (os ++ [⟨task.host, .error e⟩]) ∧
      (executeInOrder remote 0 tasks s t).events =
        (executeInOrder remote 0 (tasks.take i) s t).events ++
          .started i :: ((task.program.runBehind remote tasks i s t).events ++ [.finished i]) := by
  obtain ⟨lt, rfl⟩ := List.getElem?_eq_some_iff.1 hi
  obtain ⟨os, result, ok⟩ := executeInOrder_take_succeeded (Nat.le_of_lt lt) own
  have length : 0 + (tasks.take i).length = i := by
    rw [Nat.zero_add, List.length_take]
    exact Nat.min_eq_left (Nat.le_of_lt lt)
  have split : tasks.take i ++ tasks[i] :: tasks.drop (i + 1) = tasks := by
    rw [List.getElem_cons_drop, List.take_append_drop]
  have run : executeInOrder remote 0 (tasks.take i ++ tasks[i] :: tasks.drop (i + 1)) s t = _ :=
    executeInOrder_append result ok
  rw [split, length, executeInOrder_cons_of_error _ error] at run
  rw [run]
  refine ⟨os, ok, rfl, ?_⟩
  rw [Run.after_events, Run.map_events, Task.run, ← Program.runBehind, error]
  rfl

end

/-! ### The events on one host -/

/-- The events of the calls on a host. -/
def eventsOn (host : String) (es : List Event) : List Event :=
  es.filter fun e => e.call?.any (·.host == host)

/-- The events on a host are those before a point and those behind it. -/
theorem eventsOn_append (host : String) (es fs : List Event) :
    eventsOn host (es ++ fs) = eventsOn host es ++ eventsOn host fs :=
  List.filter_append ..

namespace Placed

variable {hosts : List String} {es : List Event} {host : String} {i : Nat}

/-- The events on a host are those of the calls at its position. -/
theorem eventsOn_eq (h : Placed hosts es) (nodup : hosts.Nodup) (hi : hosts[i]? = some host) :
    eventsOn host es = (eventsAt i es).filter (·.call?.isSome) := by
  rw [eventsOn, eventsAt, List.filter_filter]
  refine List.filter_congr fun e he => ?_
  cases hc : e.call? with
  | none => rfl
  | some c =>
    have place := h e he c hc
    rw [Option.any_some, Option.isSome_some, Bool.true_and, Bool.eq_iff_iff, beq_iff_eq,
      beq_iff_eq]
    constructor
    · intro hhost
      refine (List.getElem?_inj (List.getElem?_eq_some_iff.1 place).1 nodup).1 ?_
      rw [place, hi, hhost]
    · rintro rfl
      exact Option.some.inj (place.symm.trans hi)

/-- There are no events on a host that is not listed. -/
theorem eventsOn_eq_nil (h : Placed hosts es) (hhost : host ∉ hosts) : eventsOn host es = [] := by
  refine List.filter_eq_nil_iff.2 fun e he on => ?_
  obtain ⟨c, hc, heq⟩ := (Option.any_eq_true _ _).1 on
  have place := h e he c hc
  rw [beq_iff_eq.1 heq] at place
  exact hhost (List.mem_of_getElem? place)

/-- The events on a host are those of the exchanges of its task. -/
theorem eventsOn_of_taskEvents {β : Type} {xs : List Exchange} {o : Option β} (h : Placed hosts es)
    (nodup : hosts.Nodup) (hi : hosts[i]? = some host) (task : eventsAt i es = taskEvents i xs o) :
    eventsOn host es = xs.flatMap (Exchange.events i) := by
  rw [h.eventsOn_eq nodup hi, task, taskEvents, List.filter_cons_of_neg Bool.false_ne_true, List.filter_append]
  have last : (finishing i o).filter (·.call?.isSome) = [] := by
    unfold finishing
    split <;> rfl
  rw [last, List.append_nil]
  refine List.filter_eq_self.2 fun e he => ?_
  obtain ⟨x, -, hx⟩ := List.mem_flatMap.1 he
  rw [x.call?_of_mem_events hx]
  rfl

end Placed
end Rollout
