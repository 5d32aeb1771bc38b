/-
# Interleavings

Tasks that are executed together take turns. `Interleaved` says which turns are
possible when no schedule is given: in every state any strand that can take a
step may take the next one, until none can.

Main statements: a schedule leads to an interleaving (`runStrands_interleaved`)
and every interleaving is that of a schedule
(`Interleaved.exists_schedule`), so what holds of all schedules holds of all
interleavings. Seen from one position, an interleaving is a row of exchanges of
that strand's own program, whatever the others do (`Interleaved.finishes`).
-/

import Rollout.Proofs.Remote.Exchange
import Rollout.Remote.Execution

namespace Rollout

variable {σ ε α : Type}

/-- The position of the task that an event belongs to. -/
def Event.position : Event → Nat
  | started i | issued i _ _ | returned i _ _ _ | finished i => i

/-- The events of the task at a position. -/
def eventsAt (i : Nat) (es : List Event) : List Event :=
  es.filter fun e => e.position == i

@[simp] theorem eventsAt_append (i : Nat) (es fs : List Event) :
    eventsAt i (es ++ fs) = eventsAt i es ++ eventsAt i fs :=
  List.filter_append ..

/-- Events that are all at one position are the events there. -/
theorem eventsAt_eq_self {i : Nat} {es : List Event} (h : ∀ e ∈ es, e.position = i) :
    eventsAt i es = es :=
  List.filter_eq_self.2 fun e he => by simpa using h e he

/-- There are no events at a position that none is at. -/
theorem eventsAt_eq_nil {i : Nat} {es : List Event} (h : ∀ e ∈ es, e.position ≠ i) :
    eventsAt i es = [] :=
  List.filter_eq_nil_iff.2 fun e he => by simpa using h e he

theorem mem_eventsAt {i : Nat} {es : List Event} {e : Event} :
    e ∈ eventsAt i es ↔ e ∈ es ∧ e.position = i := by
  rw [eventsAt, List.mem_filter, beq_iff_eq]

/-! ### Turns -/

/-- **The turns are those of the strands that can step**, each at its position and time. -/
theorem mem_turns {k : Nat} {xs : List (Strand ε α)} {u : Turn} :
    u ∈ turns k xs ↔
      ∃ j x, xs[j]? = some x ∧ x.stage.canStep = true ∧ u = ⟨k + j, x.time⟩ := by
  induction xs generalizing k with
  | nil => simp [turns]
  | cons x xs ih =>
    rw [turns]
    constructor
    · intro h
      split at h
      · rename_i hx
        rcases List.mem_cons.1 h with rfl | h
        · exact ⟨0, x, rfl, hx, rfl⟩
        · obtain ⟨j, y, hj, hy, rfl⟩ := ih.1 h
          exact ⟨j + 1, y, hj, hy, by simp; omega⟩
      · obtain ⟨j, y, hj, hy, rfl⟩ := ih.1 h
        exact ⟨j + 1, y, hj, hy, by simp; omega⟩
    · rintro ⟨j, y, hj, hy, rfl⟩
      cases j with
      | zero =>
        obtain rfl : x = y := by simpa using hj
        rw [if_pos hy]
        exact List.mem_cons_self
      | succ j =>
        have h : (⟨k + (j + 1), y.time⟩ : Turn) ∈ turns (k + 1) xs :=
          ih.2 ⟨j, y, hj, hy, by simp; omega⟩
        split
        · exact List.mem_cons_of_mem _ h
        · exact h

/-- Whatever the schedule chooses, the strand that is next can take a step. -/
theorem canStep_of_nextPosition? {schedule : Schedule} {taken i : Nat} {xs : List (Strand ε α)}
    (h : nextPosition? schedule taken xs = some i) :
    ∃ x, xs[i]? = some x ∧ x.stage.canStep = true := by
  simp only [nextPosition?] at h
  split at h
  · rename_i hc
    obtain ⟨j, x, hj, hx, hu⟩ := mem_turns.1 (List.contains_iff_mem.1 hc)
    obtain rfl : i = j := by
      rw [hu] at h
      simpa [eq_comm] using h
    exact ⟨x, hj, hx⟩
  · obtain ⟨u, hu, rfl⟩ := Option.map_eq_some_iff.1 h
    obtain ⟨j, x, hj, hx, rfl⟩ := mem_turns.1 (List.mem_of_head? hu)
    exact ⟨x, by simpa using hj, hx⟩

/-- No strand can step when none is chosen. -/
theorem not_canStep_of_nextPosition? {schedule : Schedule} {taken : Nat}
    {xs : List (Strand ε α)} (h : nextPosition? schedule taken xs = none) :
    ∀ x ∈ xs, x.stage.canStep = false := by
  simp only [nextPosition?] at h
  split at h
  · cases h
  · have hn : turns 0 xs = [] := by simpa using h
    intro x hx
    obtain ⟨j, hj⟩ := List.mem_iff_getElem?.1 hx
    refine Bool.eq_false_iff.2 fun hc => ?_
    have hu : (⟨0 + j, x.time⟩ : Turn) ∈ turns 0 xs := mem_turns.2 ⟨j, x, hj, hc, rfl⟩
    rw [hn] at hu
    exact List.not_mem_nil hu

/-! ### Interleavings -/

/-- `Interleaved remote xs s es ys s'`: from the state `s`, the strands `xs` can
take turns through the events `es` until none can take a step; they then stand
as `ys`, and the state is `s'`. -/
inductive Interleaved (remote : Remote σ) :
    List (Strand ε α) → σ → List Event → List (Strand ε α) → σ → Prop where
  | done {xs : List (Strand ε α)} {s : σ} (ended : ∀ x ∈ xs, x.stage.canStep = false) :
    Interleaved remote xs s [] xs s
  | step {xs ys : List (Strand ε α)} {s s' : σ} {es : List Event} {i : Nat} {x : Strand ε α}
    (hx : xs[i]? = some x) (can : x.stage.canStep = true)
    (rest : Interleaved remote (xs.set i (x.step remote i s).strand) (x.step remote i s).state
      es ys s') :
    Interleaved remote xs s ((x.step remote i s).events ++ es) ys s'

/-- **A schedule leads to an interleaving.** -/
theorem runStrands_interleaved (remote : Remote σ) (schedule : Schedule) (start taken : Nat)
    (xs : List (Strand ε α)) (s : σ) :
    ∃ ys, Interleaved remote xs s (runStrands remote schedule start taken xs s).events ys
        (runStrands remote schedule start taken xs s).state ∧
      (runStrands remote schedule start taken xs s).result = outcomes? ys ∧
      (runStrands remote schedule start taken xs s).time = latest start ys := by
  fun_induction runStrands remote schedule start taken xs s with
  | case1 taken xs s hn =>
    exact ⟨xs, .done (not_canStep_of_nextPosition? hn), rfl, rfl⟩
  | case2 taken xs s i hn hx =>
    obtain ⟨x, hx', -⟩ := canStep_of_nextPosition? hn
    rw [hx] at hx'
    cases hx'
  | case3 taken xs s i hn x hx can step ih =>
    obtain ⟨ys, rest, result, time⟩ := ih
    exact ⟨ys, .step hx can rest, result, time⟩
  | case4 taken xs s i hn x hx can =>
    obtain ⟨x', hx', can'⟩ := canStep_of_nextPosition? hn
    obtain rfl : x = x' := by simpa [hx] using hx'
    exact absurd can' can

namespace Interleaved

variable {remote : Remote σ} {xs ys : List (Strand ε α)} {s s' : σ} {es : List Event}

/-- Interleaving keeps the number of strands. -/
theorem length (h : Interleaved remote xs s es ys s') : ys.length = xs.length := by
  induction h with
  | done => rfl
  | step _ _ _ ih => rw [ih, List.length_set]

end Interleaved

/-- The events of a step are at the position of its strand. -/
theorem Strand.position_step (remote : Remote σ) (i : Nat) (s : σ) (x : Strand ε α) :
    ∀ e ∈ (x.step remote i s).events, e.position = i := by
  unfold Strand.step
  split <;> simp [Event.position]

/-- A step keeps the host of its strand. -/
theorem Strand.host_step (remote : Remote σ) (i : Nat) (s : σ) (x : Strand ε α) :
    (x.step remote i s).strand.host = x.host := by
  unfold Strand.step
  split <;> rfl

/-! ### One strand of an interleaving -/

/-- The event at the end of a task, if it comes to one. -/
def finishing {β : Type} (i : Nat) (o : Option β) : List Event :=
  if o.isSome then [.finished i] else []

/-- The events of a task that has the exchanges `xs`. -/
def taskEvents {β : Type} (i : Nat) (xs : List Exchange) (o : Option β) : List Event :=
  .started i :: (xs.flatMap (Exchange.events i) ++ finishing i o)

/-- The result of a task that has finished. -/
def Stage.result? : Stage ε α → Option (Except ε α)
  | finished r => some r
  | _ => none

/-- What a strand can go through until it ends at `t'` with the result `o`, or
is cut off. -/
def Strand.Finishes (i : Nat) (x : Strand ε α) (es : List Event) (o : Option (Except ε α))
    (t' : Nat) : Prop :=
  match x.stage with
  | .fresh p => ∃ xs, es = taskEvents i xs o ∧ p.Runs x.time xs o t'
  | .ready p =>
    ∃ xs, es = xs.flatMap (Exchange.events i) ++ finishing i o ∧ p.Runs x.time xs o t'
  | .waiting c next =>
    ∃ reply xs, es = .returned i x.time c reply :: (xs.flatMap (Exchange.events i) ++
      finishing i o) ∧ (next reply).Runs x.time xs o t'
  | .finished r => es = [] ∧ o = some r ∧ t' = x.time
  | .stuck => es = [] ∧ o = none ∧ t' = x.time

/-- A strand that has ended finishes with its result and without any exchange. -/
theorem Strand.finishes_of_ended {i : Nat} {x : Strand ε α} (h : x.stage.canStep = false) :
    x.Finishes i [] x.stage.result? x.time := by
  unfold Finishes
  split <;> rename_i hx <;> rw [hx] at h ⊢
  · cases h
  · cases h
  · cases h
  · exact ⟨rfl, rfl, rfl⟩
  · exact ⟨rfl, rfl, rfl⟩

/-- A step of a strand comes before what its next stage goes through. -/
theorem Strand.finishes_of_step {remote : Remote σ} {i : Nat} {s : σ} {x : Strand ε α}
    {es : List Event} {o : Option (Except ε α)} {t' : Nat} (can : x.stage.canStep = true)
    (h : (x.step remote i s).strand.Finishes i es o t') :
    x.Finishes i ((x.step remote i s).events ++ es) o t' := by
  obtain ⟨host, time, stage⟩ := x
  cases stage with
  | fresh p =>
    obtain ⟨xs, rfl, runs⟩ := h
    exact ⟨xs, rfl, runs⟩
  | ready p =>
    cases p with
    | ended r =>
      obtain ⟨rfl, rfl, rfl⟩ := h
      exact ⟨[], rfl, .ended _ _⟩
    | unfinished =>
      obtain ⟨rfl, rfl, rfl⟩ := h
      exact ⟨[], rfl, .unfinished _⟩
    | call c next =>
      obtain ⟨reply, xs, rfl, runs⟩ := h
      exact ⟨⟨time, c, time + remote.latency s c, reply⟩ :: xs, rfl,
        .call (Nat.le_add_right _ _) runs⟩
    | sleep ms p =>
      obtain ⟨xs, rfl, runs⟩ := h
      exact ⟨xs, rfl, .sleep runs⟩
    | clock next =>
      obtain ⟨xs, rfl, runs⟩ := h
      exact ⟨xs, rfl, .clock runs⟩
  | waiting c next =>
    obtain ⟨xs, rfl, runs⟩ := h
    exact ⟨(remote.answer s c).1, xs, rfl, runs⟩
  | finished r => cases can
  | stuck => cases can

/-- **Every strand of an interleaving goes through its own program**, whatever
the other strands do. -/
theorem Interleaved.finishes {remote : Remote σ} {xs ys : List (Strand ε α)} {s s' : σ}
    {es : List Event} (h : Interleaved remote xs s es ys s') {i : Nat} {x : Strand ε α}
    (hx : xs[i]? = some x) :
    ∃ y, ys[i]? = some y ∧ y.host = x.host ∧
      x.Finishes i (eventsAt i es) y.stage.result? y.time := by
  induction h generalizing x with
  | @done xs s ended =>
    exact ⟨x, hx, rfl, Strand.finishes_of_ended (ended x (List.mem_of_getElem? hx))⟩
  | @step xs ys s s' es j z hz can rest ih =>
    rw [eventsAt_append]
    by_cases hij : j = i
    · subst hij
      obtain rfl : z = x := by simpa [hz] using hx
      obtain ⟨y, hy, host, fin⟩ :=
        ih (List.getElem?_set_self (List.getElem?_eq_some_iff.1 hz).1)
      rw [eventsAt_eq_self (z.position_step remote j s)]
      exact ⟨y, hy, host.trans (z.host_step remote j s), Strand.finishes_of_step can fin⟩
    · obtain ⟨y, hy, host, fin⟩ := ih ((List.getElem?_set_ne hij).trans hx)
      rw [eventsAt_eq_nil fun e he => (z.position_step remote j s e he).symm ▸ hij]
      exact ⟨y, hy, host, fin⟩

/-- No event belongs to a position without a strand. -/
theorem Interleaved.position_lt {remote : Remote σ} {xs ys : List (Strand ε α)} {s s' : σ}
    {es : List Event} (h : Interleaved remote xs s es ys s') :
    ∀ e ∈ es, e.position < xs.length := by
  induction h with
  | done => exact fun e he => absurd he List.not_mem_nil
  | @step xs ys s s' es j z hz can rest ih =>
    intro e he
    rcases List.mem_append.1 he with he | he
    · rw [z.position_step remote j s e he]
      exact (List.getElem?_eq_some_iff.1 hz).1
    · have := ih e he
      rwa [List.length_set] at this

/-! ### Every interleaving has a schedule -/

/-- The strand that is chosen steps, and the others go on from there. -/
theorem runStrands_of_next {remote : Remote σ} {schedule : Schedule} {start taken i : Nat}
    {xs : List (Strand ε α)} {s : σ} {x : Strand ε α}
    (hn : nextPosition? schedule taken xs = some i) (hx : xs[i]? = some x) :
    runStrands remote schedule start taken xs s =
      (runStrands remote schedule start (taken + 1) (xs.set i (x.step remote i s).strand)
        (x.step remote i s).state).after (x.step remote i s).events := by
  obtain ⟨x', hx', can⟩ := canStep_of_nextPosition? hn
  obtain rfl : x = x' := by simpa [hx] using hx'
  rw [runStrands]
  split
  · rename_i hn'
    rw [hn] at hn'
    cases hn'
  · rename_i j hn'
    obtain rfl : i = j := by simpa [hn] using hn'
    split
    · rename_i hx'
      rw [hx] at hx'
      cases hx'
    · rename_i y hy
      obtain rfl : x = y := by simpa [hx] using hy
      rw [dif_pos can]

/-- Strands that have all ended have come to their outcomes. -/
theorem runStrands_of_ended {remote : Remote σ} {schedule : Schedule} {start taken : Nat}
    {xs : List (Strand ε α)} {s : σ} (ended : ∀ x ∈ xs, x.stage.canStep = false) :
    runStrands remote schedule start taken xs s = ⟨outcomes? xs, [], s, latest start xs⟩ := by
  rw [runStrands]
  split
  · rfl
  · rename_i i hn
    obtain ⟨x, hx, can⟩ := canStep_of_nextPosition? hn
    rw [ended x (List.mem_of_getElem? hx)] at can
    cases can

/-- A run depends on what the schedule chooses from the next step on. -/
theorem runStrands_congr {remote : Remote σ} {schedule schedule' : Schedule} {start taken : Nat}
    {xs : List (Strand ε α)} {s : σ} (h : ∀ n, taken ≤ n → schedule n = schedule' n) :
    runStrands remote schedule start taken xs s = runStrands remote schedule' start taken xs s := by
  have next : nextPosition? schedule taken xs = nextPosition? schedule' taken xs := by
    rw [nextPosition?, nextPosition?, h taken (Nat.le_refl _)]
  fun_induction runStrands remote schedule start taken xs s with
  | case1 taken xs s hn =>
    rw [runStrands_of_ended (not_canStep_of_nextPosition? (next ▸ hn))]
  | case2 taken xs s i hn hx =>
    obtain ⟨x, hx', -⟩ := canStep_of_nextPosition? hn
    rw [hx] at hx'
    cases hx'
  | case3 taken xs s i hn x hx can step ih =>
    have later : ∀ n, taken + 1 ≤ n → schedule n = schedule' n := fun n hle => h n (by omega)
    rw [runStrands_of_next (next ▸ hn) hx, ih later]
    rw [nextPosition?, nextPosition?, later _ (Nat.le_refl _)]
  | case4 taken xs s i hn x hx can =>
    obtain ⟨x', hx', can'⟩ := canStep_of_nextPosition? hn
    obtain rfl : x = x' := by simpa [hx] using hx'
    exact absurd can' can

/-- **Every interleaving is that of a schedule.** -/
theorem Interleaved.exists_schedule {remote : Remote σ} {xs ys : List (Strand ε α)} {s s' : σ}
    {es : List Event} (h : Interleaved remote xs s es ys s') (start taken : Nat) :
    ∃ schedule, runStrands remote schedule start taken xs s =
      ⟨outcomes? ys, es, s', latest start ys⟩ := by
  induction h generalizing taken with
  | done ended => exact ⟨.oneByOne, runStrands_of_ended ended⟩
  | @step xs ys s s' es i x hx can rest ih =>
    obtain ⟨schedule, run⟩ := ih (taken + 1)
    -- The schedule of the rest, with the choice of this step put before it.
    let chosen : Schedule := fun n ts => if n = taken then ⟨i, x.time⟩ else schedule n ts
    have hn : nextPosition? chosen taken xs = some i := by
      have mem : (⟨i, x.time⟩ : Turn) ∈ turns 0 xs :=
        mem_turns.2 ⟨i, x, hx, can, by rw [Nat.zero_add]⟩
      simp only [nextPosition?, chosen, if_true]
      rw [if_pos (List.contains_iff_mem.2 mem)]
    have later : ∀ n, taken + 1 ≤ n → chosen n = schedule n := by
      intro n hle
      funext ts
      exact if_neg (by omega)
    refine ⟨chosen, ?_⟩
    rw [runStrands_of_next hn hx, runStrands_congr later, run]
    rfl

end Rollout
