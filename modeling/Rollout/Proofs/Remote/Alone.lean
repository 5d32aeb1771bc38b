/-
# Strands by themselves

Where hosts know only what has happened on them, and no two tasks share a host,
a strand among others goes through exactly what it would go through alone:

| step | what the strand still does alone |
| --- | --- |
| its own | goes on after the step (`Strand.alone_step`) |
| another strand's | stays the same (`Strand.view_step`) |

Main statements: `Interleaved.alone`, and from it `executeTogether_eq_each`. All
interleavings have the outcomes of `executeEach`, which brings one task after
the other to its end.
-/

import Rollout.Proofs.Remote.Locality

namespace Rollout

variable {σ ν ε α : Type}

/-- What is left of the stage calls one host only. -/
def Stage.StaysOn (host : String) : Stage ε α → Prop
  | fresh p | ready p => p.EveryCall (·.host = host)
  | waiting c next => c.host = host ∧ ∀ r, (next r).EveryCall (·.host = host)
  | finished _ | stuck => True

/-- The run of a task's program, with the event at its end. -/
def Run.finish (i : Nat) (r : Run σ (Except ε α)) : Run σ (Except ε α) :=
  { r with events := r.events ++ finishing i r.result }

/-- Runs that are alike on a host finish alike. -/
theorem Run.Alike.finish {view : String → σ → ν} {host : String} {r r' : Run σ (Except ε α)}
    (h : r.Alike view host r') (i : Nat) : (r.finish i).Alike view host (r'.finish i) := by
  refine ⟨h.result, ?_, h.time, h.left⟩
  rw [Run.finish, Run.finish, h.result, h.events]

namespace Strand

/-- What a strand does when no other strand takes a step. -/
def alone (remote : Remote σ) (i : Nat) (s : σ) (x : Strand ε α) : Run σ (Except ε α) :=
  match x.stage with
  | .fresh p => ((p.run remote i s x.time).finish i).after [.started i]
  | .ready p => (p.run remote i s x.time).finish i
  | .waiting c next =>
    let (reply, s') := remote.answer s c
    (((next reply).run remote i s' x.time).finish i).after [.returned i x.time c reply]
  | .finished r => ⟨some r, [], s, x.time⟩
  | .stuck => ⟨none, [], s, x.time⟩

variable {remote remote' : Remote σ} {view : String → σ → ν} {x : Strand ε α}

/-- A strand that has ended does nothing more by itself. -/
theorem alone_of_ended (remote : Remote σ) (i : Nat) (s : σ) (h : x.stage.canStep = false) :
    x.alone remote i s = ⟨x.stage.result?, [], s, x.time⟩ := by
  unfold alone
  split <;> rename_i hx <;> rw [hx] at h ⊢
  · cases h
  · cases h
  · cases h
  · rfl
  · rfl

/-- **A step of a strand** is the first thing that it does alone. -/
theorem alone_step (remote : Remote σ) (i : Nat) (s : σ) (h : x.stage.canStep = true) :
    x.alone remote i s = ((x.step remote i s).strand.alone remote i (x.step remote i s).state).after
      (x.step remote i s).events := by
  obtain ⟨host, time, stage⟩ := x
  cases stage with
  | fresh p => rfl
  | ready p => cases p <;> rfl
  | waiting c next => rfl
  | finished r => cases h
  | stuck => cases h

/-- A strand that stays on a host stays there when it steps. -/
theorem staysOn_step (i : Nat) (s : σ) {host : String} (h : x.stage.StaysOn host) :
    (x.step remote i s).strand.stage.StaysOn host := by
  obtain ⟨_, time, stage⟩ := x
  cases stage with
  | fresh p => exact h
  | ready p =>
    cases p with
    | ended r => exact trivial
    | unfinished => exact trivial
    | call c next => exact h
    | sleep ms p => exact h
    | clock next => exact h time
  | waiting c next => exact h.2 _
  | finished r => exact h
  | stuck => exact h

/-- **A step on one host** is not seen on another. -/
theorem view_step (loc : remote.IsLocal view) (i : Nat) (s : σ) {host other : String}
    (h : x.stage.StaysOn host) (hother : other ≠ host) :
    view other (x.step remote i s).state = view other s := by
  obtain ⟨_, time, stage⟩ := x
  cases stage with
  | ready p => cases p <;> rfl
  | waiting c next => exact loc.others s c other fun hc => hother (hc.trans h.1)
  | fresh p => rfl
  | finished r => rfl
  | stuck => rfl

/-- A strand that calls one host does the same alone on remotes that are alike
there. -/
theorem alone_alike {host : String} (alike : remote.AlikeOn view host remote') (i : Nat)
    (stays : x.stage.StaysOn host) {s s' : σ} (h : view host s = view host s') :
    (x.alone remote i s).Alike view host (x.alone remote' i s') := by
  obtain ⟨_, time, stage⟩ := x
  cases stage with
  | fresh p => exact ((Program.run_alike alike i stays h time).finish i).after _
  | ready p => exact (Program.run_alike alike i stays h time).finish i
  | waiting c next =>
    have rest := (Program.run_alike alike i (stays.2 (remote'.answer s' c).1)
      (alike.own s s' c stays.1 h) time).finish i
    simp only [alone, alike.reply s s' c stays.1 h]
    exact rest.after _
  | finished r => exact ⟨rfl, rfl, rfl, h⟩
  | stuck => exact ⟨rfl, rfl, rfl, h⟩

/-- Stepping one strand changes no host. -/
theorem map_host_set (remote : Remote σ) {xs : List (Strand ε α)} {i : Nat} (h : xs[i]? = some x)
    (s : σ) : (xs.set i (x.step remote i s).strand).map Strand.host = xs.map Strand.host := by
  obtain ⟨lt, rfl⟩ := List.getElem?_eq_some_iff.1 h
  have lt' : i < (xs.map Strand.host).length := by rwa [List.length_map]
  have same : (xs.map Strand.host)[i] = xs[i].host := List.getElem_map Strand.host
  rw [List.map_set, host_step, ← same, List.set_getElem_self]

end Strand

/-! ### Among others -/

/-- **Among others a strand goes through what it would go through alone.** -/
theorem Interleaved.alone {remote : Remote σ} {view : String → σ → ν} (loc : remote.IsLocal view)
    {xs ys : List (Strand ε α)} {s s' : σ} {es : List Event}
    (h : Interleaved remote xs s es ys s') (home : ∀ x ∈ xs, x.stage.StaysOn x.host)
    (apart : (xs.map Strand.host).Nodup) {i : Nat} {x : Strand ε α} (hx : xs[i]? = some x) :
    ∃ y, ys[i]? = some y ∧ y.host = x.host ∧
      (x.alone remote i s).Alike view x.host ⟨y.stage.result?, eventsAt i es, s', y.time⟩ := by
  induction h generalizing x with
  | @done xs s ended =>
    refine ⟨x, hx, rfl, ?_⟩
    rw [x.alone_of_ended remote i s (ended x (List.mem_of_getElem? hx))]
    exact ⟨rfl, rfl, rfl, rfl⟩
  | @step xs ys s s' es j z hz can rest ih =>
    have hosts := Strand.map_host_set remote hz s
    have homes : ∀ x ∈ xs.set j (z.step remote j s).strand, x.stage.StaysOn x.host := by
      intro x' hx'
      rcases List.mem_or_eq_of_mem_set hx' with hx' | rfl
      · exact home x' hx'
      · rw [z.host_step remote j s]
        exact z.staysOn_step j s (home z (List.mem_of_getElem? hz))
    have next := fun {x} => @ih homes (hosts ▸ apart) x
    rw [eventsAt_append]
    by_cases hij : j = i
    · subst hij
      obtain rfl : z = x := by simpa [hz] using hx
      obtain ⟨y, hy, host, alike⟩ :=
        next (List.getElem?_set_self (List.getElem?_eq_some_iff.1 hz).1)
      rw [z.host_step remote j s] at host alike
      rw [eventsAt_eq_self (z.position_step remote j s), z.alone_step remote j s can]
      exact ⟨y, hy, host, alike.after _⟩
    · obtain ⟨y, hy, host, alike⟩ := next ((List.getElem?_set_ne hij).trans hx)
      rw [eventsAt_eq_nil fun e he => (z.position_step remote j s e he).symm ▸ hij]
      refine ⟨y, hy, host, .trans (x.alone_alike (loc.alike x.host) i
        (home x (List.mem_of_getElem? hx)) ?_) alike⟩
      refine (z.view_step loc j s (home z (List.mem_of_getElem? hz)) fun hhost => hij ?_).symm
      have same : (xs.map Strand.host)[j]? = (xs.map Strand.host)[i]? := by
        rw [List.getElem?_map, List.getElem?_map, hz, hx, Option.map_some, Option.map_some, hhost]
      exact (List.getElem?_inj (by simpa using (List.getElem?_eq_some_iff.1 hz).1) apart).1 same

/-! ### One after the other -/

/-- Executes one task after the other, each to its own end and on a clock of its
own. -/
def executeEach (remote : Remote σ) :
    (position : Nat) → List (Task ε α) → σ → Nat → Run σ (List (Outcome ε α))
  | _, [], s, t => ⟨some [], [], s, t⟩
  | position, task :: tasks, s, t =>
    let first := task.run remote position s t
    let rest := executeEach remote (position + 1) tasks first.state t
    ⟨first.result.bind fun o => rest.result.map (o :: ·), first.events ++ rest.events, rest.state,
      max first.time rest.time⟩

/-- All events of a task are at its position. -/
theorem Task.position_run (remote : Remote σ) (i : Nat) (task : Task ε α) (s : σ) (t : Nat) :
    ∀ e ∈ (task.run remote i s t).events, e.position = i := by
  obtain ⟨xs, o, events, -, -⟩ := task.run_runs remote i s t
  rw [events]
  exact position_taskEvents

/-- The events of tasks, each for itself, are at their positions. -/
theorem executeEach_position (remote : Remote σ) (k : Nat) (tasks : List (Task ε α)) (s : σ)
    (t : Nat) : ∀ e ∈ (executeEach remote k tasks s t).events, k ≤ e.position := by
  induction tasks generalizing k s with
  | nil => exact fun e he => absurd he List.not_mem_nil
  | cons task tasks ih =>
    intro e he
    rcases List.mem_append.1 he with he | he
    · exact Nat.le_of_eq (task.position_run remote k s t e he).symm
    · exact Nat.le_of_succ_le (ih _ _ e he)

section

variable {remote : Remote σ} {view : String → σ → ν}

/-- The strands of tasks that are executed together end as each would alone. -/
theorem executeTogether_strands (loc : remote.IsLocal view) (schedule : Schedule)
    {tasks : List (Task ε α)} (home : ∀ task ∈ tasks, task.StaysHome)
    (apart : (tasks.map Task.host).Nodup) (s : σ) (t : Nat) :
    ∃ ys, ys.length = tasks.length ∧
      (executeTogether remote schedule tasks s t).result = outcomes? ys ∧
      ∀ (i : Nat) (task : Task ε α), tasks[i]? = some task → ∃ y, ys[i]? = some y ∧
        y.stage.result?.map (⟨y.host, ·⟩) = (task.run remote i s t).result ∧
        eventsAt i (executeTogether remote schedule tasks s t).events =
          (task.run remote i s t).events := by
  obtain ⟨ys, inter, result, -⟩ := executeTogether_interleaved remote schedule tasks s t
  have stays : ∀ x ∈ tasks.map (Task.strand t), x.stage.StaysOn x.host := by
    intro x h
    obtain ⟨task', h', rfl⟩ := List.mem_map.1 h
    exact home task' h'
  have apart' : ((tasks.map (Task.strand t)).map Strand.host).Nodup := by
    rw [List.map_map]
    exact apart
  refine ⟨ys, by rw [inter.length, List.length_map], result, fun i task hi => ?_⟩
  have hx : (tasks.map (Task.strand t))[i]? = some (task.strand t) := by
    rw [List.getElem?_map, hi, Option.map_some]
  obtain ⟨y, hy, host, alike⟩ := inter.alone loc stays apart' hx
  refine ⟨y, hy, ?_, alike.events.symm⟩
  rw [host]
  exact congrArg (Option.map _) alike.result.symm

/-- **Tasks among each other** go through what each goes through alone. -/
theorem executeTogether_alone (loc : remote.IsLocal view) (schedule : Schedule)
    {tasks : List (Task ε α)} (home : ∀ task ∈ tasks, task.StaysHome)
    (apart : (tasks.map Task.host).Nodup) (s : σ) (t : Nat) {i : Nat} {task : Task ε α}
    (hi : tasks[i]? = some task) :
    eventsAt i (executeTogether remote schedule tasks s t).events =
        (task.run remote i s t).events ∧
      ∀ os, (executeTogether remote schedule tasks s t).result = some os →
        ∃ o, (task.run remote i s t).result = some o ∧ os[i]? = some o ∧ o.host = task.host := by
  obtain ⟨ys, -, result, alone⟩ := executeTogether_strands loc schedule home apart s t
  obtain ⟨y, hy, hr, events⟩ := alone i task hi
  refine ⟨events, fun os hos => ?_⟩
  obtain ⟨r, hfinal, ho⟩ := (outcomes?_eq_some (result ▸ hos)).2 i y hy
  rw [hfinal] at hr
  refine ⟨⟨y.host, r⟩, hr.symm, ho, ?_⟩
  obtain ⟨_, -, ho⟩ := Option.map_eq_some_iff.1 hr.symm
  exact (congrArg Outcome.host ho).symm

/-- There are outcomes when the first strand has ended and the others have. -/
theorem outcomes?_cons (y : Strand ε α) (ys : List (Strand ε α)) :
    outcomes? (y :: ys) =
      (y.stage.result?.map (⟨y.host, ·⟩)).bind fun o => (outcomes? ys).map (o :: ·) := by
  rw [outcomes?]
  cases y.stage <;> rfl

/-- A task does the same after a task on another host as before it. -/
theorem Task.run_after (loc : remote.IsLocal view) {first task : Task ε α} (home : first.StaysHome)
    (home' : task.StaysHome) (apart : task.host ≠ first.host) (k i : Nat) (s : σ) (t : Nat) :
    (task.run remote i (first.run remote k s t).state t).Alike view task.host
      (task.run remote i s t) :=
  Task.run_alike (loc.alike task.host) i home' (Program.run_frame loc k home apart s t) t

/-- **What a task does among others**, each for itself, it does alone as well: the others leave
its host as it was. -/
theorem executeEach_alone (loc : remote.IsLocal view) {tasks : List (Task ε α)}
    (home : ∀ task ∈ tasks, task.StaysHome) (apart : (tasks.map Task.host).Nodup) (k : Nat) (s : σ)
    (t : Nat) {i : Nat} {task : Task ε α} (hi : tasks[i]? = some task) :
    eventsAt (k + i) (executeEach remote k tasks s t).events =
      (task.run remote (k + i) s t).events := by
  induction tasks generalizing k s i with
  | nil => simp at hi
  | cons first tasks ih =>
    rw [List.map_cons, List.nodup_cons] at apart
    rw [executeEach, eventsAt_append]
    cases i with
    | zero =>
      obtain rfl : first = task := by simpa using hi
      rw [Nat.add_zero, eventsAt_eq_self (first.position_run remote k s t), eventsAt_eq_nil,
        List.append_nil]
      intro e he
      have := executeEach_position remote (k + 1) tasks _ t e he
      omega
    | succ i =>
      have hi' : tasks[i]? = some task := by simpa using hi
      have mem : task ∈ tasks := List.mem_of_getElem? hi'
      have other : task.host ≠ first.host := fun h => apart.1 (h ▸ List.mem_map_of_mem mem)
      -- The first task is on another host, so it leaves nothing that this one could see.
      have own : eventsAt (k + (i + 1)) (first.run remote k s t).events = [] := by
        refine eventsAt_eq_nil fun e he => ?_
        rw [first.position_run remote k s t e he]
        omega
      rw [own, List.nil_append, show k + (i + 1) = k + 1 + i by omega,
        ih (fun x hx => home x (List.mem_cons_of_mem _ hx)) apart.2 (k + 1) _ hi']
      exact (Task.run_after loc (home first List.mem_cons_self)
        (home task (List.mem_cons_of_mem _ mem)) other k (k + 1 + i) s t).events

/-- The outcomes of one task after the other are those of strands that have
come to what each task comes to alone. -/
theorem executeEach_result (loc : remote.IsLocal view) {tasks : List (Task ε α)}
    (home : ∀ task ∈ tasks, task.StaysHome) (apart : (tasks.map Task.host).Nodup) (k : Nat) (s : σ)
    (t : Nat) {ys : List (Strand ε α)} (len : ys.length = tasks.length)
    (alone : ∀ (i : Nat) (task : Task ε α), tasks[i]? = some task → ∃ y, ys[i]? = some y ∧
      y.stage.result?.map (⟨y.host, ·⟩) = (task.run remote (k + i) s t).result) :
    (executeEach remote k tasks s t).result = outcomes? ys := by
  induction tasks generalizing k s ys with
  | nil =>
    obtain rfl := List.eq_nil_of_length_eq_zero len
    rfl
  | cons first tasks ih =>
    rw [List.map_cons, List.nodup_cons] at apart
    obtain ⟨y, ys, rfl⟩ := List.exists_cons_of_length_eq_add_one len
    have rest : (executeEach remote (k + 1) tasks (first.run remote k s t).state t).result =
        outcomes? ys := by
      refine ih (fun x hx => home x (List.mem_cons_of_mem _ hx)) apart.2 (k + 1) _
        (Nat.succ.inj len) fun i task hi => ?_
      have mem : task ∈ tasks := List.mem_of_getElem? hi
      have other : task.host ≠ first.host := fun h => apart.1 (h ▸ List.mem_map_of_mem mem)
      obtain ⟨z, hz, result⟩ := alone (i + 1) task (by simpa using hi)
      refine ⟨z, by simpa using hz, ?_⟩
      rw [result, show k + (i + 1) = k + 1 + i by omega]
      exact (Task.run_after loc (home first List.mem_cons_self)
        (home task (List.mem_cons_of_mem _ mem)) other k (k + 1 + i) s t).result.symm
    obtain ⟨z, hz, result⟩ := alone 0 first rfl
    obtain rfl : y = z := by simpa using hz
    rw [outcomes?_cons, result, ← rest]
    rfl

/-- **Every schedule comes to what one task after the other comes to**, with the
same events at every position. -/
theorem executeTogether_eq_each (loc : remote.IsLocal view) (schedule : Schedule)
    {tasks : List (Task ε α)} (home : ∀ task ∈ tasks, task.StaysHome)
    (apart : (tasks.map Task.host).Nodup) (s : σ) (t : Nat) :
    (executeTogether remote schedule tasks s t).result = (executeEach remote 0 tasks s t).result ∧
      ∀ (i : Nat) (task : Task ε α), tasks[i]? = some task →
        eventsAt i (executeTogether remote schedule tasks s t).events =
          eventsAt i (executeEach remote 0 tasks s t).events := by
  obtain ⟨ys, len, result, alone⟩ := executeTogether_strands loc schedule home apart s t
  constructor
  · rw [result]
    refine (executeEach_result loc home apart 0 s t len fun i task hi => ?_).symm
    obtain ⟨y, hy, hr, -⟩ := alone i task hi
    exact ⟨y, hy, by rw [hr, Nat.zero_add]⟩
  · intro i task hi
    obtain ⟨y, -, -, events⟩ := alone i task hi
    have each := executeEach_alone loc home apart 0 s t hi
    rw [Nat.zero_add] at each
    rw [events, each]

end

/-! ### The calls on one host -/

/-- Calls are made on the host of their position. -/
def Placed (hosts : List String) (es : List Event) : Prop :=
  ∀ e ∈ es, ∀ c, e.call? = some c → hosts[e.position]? = some c.host

namespace Placed

variable {hosts : List String} {es es' : List Event} {host : String}

/-- **The calls on a host** are those at its position. -/
theorem callsOn_eq (h : Placed hosts es) (nodup : hosts.Nodup) {i : Nat}
    (hi : hosts[i]? = some host) :
    callsOn host (es.filterMap Event.issuedCall?) = callsAt i es := by
  induction es with
  | nil => rfl
  | cons e es ih =>
    have rest := ih fun e' he' => h e' (List.mem_cons_of_mem _ he')
    rw [callsAt, eventsAt, List.filter_cons]
    cases hc : e.issuedCall? with
    | none =>
      rw [List.filterMap_cons_none hc, rest]
      split
      · rw [List.filterMap_cons_none hc]
        rfl
      · rfl
    | some c =>
      have place := h e List.mem_cons_self c (Event.call?_of_issuedCall? hc)
      -- No host is listed twice, so a host and its position say the same.
      have iff : c.host = host ↔ e.position = i := by
        constructor
        · intro hhost
          refine (List.getElem?_inj (List.getElem?_eq_some_iff.1 place).1 nodup).1 ?_
          rw [place, hi, hhost]
        · rintro rfl
          exact Option.some.inj (place.symm.trans hi)
      rw [List.filterMap_cons_some hc, callsOn, List.filter_cons]
      by_cases hp : e.position = i
      · rw [if_pos (beq_iff_eq.2 hp), if_pos (beq_iff_eq.2 (iff.2 hp)),
          List.filterMap_cons_some hc]
        exact congrArg (c :: ·) rest
      · rw [if_neg (mt beq_iff_eq.1 hp), if_neg (mt beq_iff_eq.1 fun hh => hp (iff.1 hh))]
        exact rest

/-- There are no calls on a host that is not listed. -/
theorem callsOn_eq_nil (h : Placed hosts es) (hhost : host ∉ hosts) :
    callsOn host (es.filterMap Event.issuedCall?) = [] := by
  refine List.filter_eq_nil_iff.2 fun c hc => ?_
  obtain ⟨e, he, hec⟩ := List.mem_filterMap.1 hc
  have place := h e he c (Event.call?_of_issuedCall? hec)
  intro heq
  rw [beq_iff_eq.1 heq] at place
  exact hhost (List.mem_of_getElem? place)

/-- **Rows with the same events at the position of a host** have the same calls
on it. -/
theorem callsOn_congr (h : Placed hosts es) (h' : Placed hosts es') (nodup : hosts.Nodup)
    (same : ∀ i, hosts[i]? = some host → eventsAt i es = eventsAt i es') :
    callsOn host (es.filterMap Event.issuedCall?) =
      callsOn host (es'.filterMap Event.issuedCall?) := by
  by_cases mem : host ∈ hosts
  · obtain ⟨i, hi⟩ := List.mem_iff_getElem?.1 mem
    rw [h.callsOn_eq nodup hi, h'.callsOn_eq nodup hi, callsAt, same i hi, callsAt]
  · rw [h.callsOn_eq_nil mem, h'.callsOn_eq_nil mem]

end Placed

/-- In both modes every call is on the host at its position. -/
theorem execute_placed (remote : Remote σ) (mode : Mode) {tasks : List (Task ε α)}
    (home : ∀ task ∈ tasks, task.StaysHome) (s : σ) (t : Nat) :
    Placed (tasks.map Task.host) (execute remote mode tasks s t).events := by
  intro e he c hc
  refine execute_everyCall remote mode s t
    (P := fun i c => (tasks.map Task.host)[i]? = some c.host) (fun i task hi => ?_) e he c hc
  rw [List.getElem?_map, hi, Option.map_some]
  exact (home task (List.mem_of_getElem? hi)).mono fun c hc => congrArg some hc.symm

/-- Tasks that stay home, each for itself, call the hosts at their positions. -/
theorem executeEach_placed (remote : Remote σ) {tasks : List (Task ε α)}
    (home : ∀ task ∈ tasks, task.StaysHome) (k : Nat) (s : σ) (t : Nat) :
    ∀ e ∈ (executeEach remote k tasks s t).events, ∀ c, e.call? = some c →
      k ≤ e.position ∧ (tasks.map Task.host)[e.position - k]? = some c.host := by
  induction tasks generalizing k s with
  | nil => exact fun e he => absurd he List.not_mem_nil
  | cons task tasks ih =>
    intro e he c hc
    rcases List.mem_append.1 he with he | he
    · obtain ⟨xs, o, events, -, runs⟩ := task.run_runs remote k s t
      rw [events] at he
      obtain ⟨x, hx, hxe⟩ := exists_exchange_of_event he (by rw [hc]; rfl)
      obtain rfl : x.call = c := by simpa [hc, eq_comm] using x.call?_of_mem_events hxe
      have host := runs.everyCall (home task List.mem_cons_self) x hx
      rw [position_taskEvents e he, Nat.sub_self, host]
      exact ⟨Nat.le_refl _, rfl⟩
    · obtain ⟨le, place⟩ := ih (fun x hx => home x (List.mem_cons_of_mem _ hx)) (k + 1) _ e he c hc
      refine ⟨Nat.le_of_succ_le le, ?_⟩
      rw [show e.position - k = e.position - (k + 1) + 1 by omega]
      exact place

end Rollout
