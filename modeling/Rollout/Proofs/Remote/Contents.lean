/-
# What is written stays unseen

Two programs match when they make the same calls but for the contents of the
files they write, and come to the same ends as far as a function shows of their
errors. On a remote that ignores contents they cannot be told apart:

| of two runs | is the same |
| --- | --- |
| the events | with the contents left out |
| the result | as far as the function shows |
| the time, and what is seen of the remote | all of it |

This is so for programs alone (`Program.run_matches`), for tasks in order
(`executeInOrder_matches`) and for tasks together under any schedule
(`executeTogether_matches`).
-/

import Mathlib.Data.List.Forall2
import Rollout.Proofs.Remote.Interleaving
import Rollout.Proofs.Remote.Locality

namespace Rollout

/-- The call without the contents that it writes. -/
def Call.masked (c : Call) : Call :=
  match c.action with
  | .write _ remote => ⟨c.host, .write "" remote⟩
  | .run _ _ | .put _ _ => c

/-- The event without the contents that its call writes. -/
def Event.masked : Event → Event
  | issued i t c => .issued i t c.masked
  | returned i t c reply => .returned i t c.masked reply
  | started i => .started i
  | finished i => .finished i

/-- Masking what is written leaves the host. -/
theorem Call.host_masked (c : Call) : c.masked.host = c.host := by
  unfold masked
  split <;> rfl

/-- A call is told in the same words when what it writes is masked. -/
theorem Call.text_masked (c : Call) : c.masked.text = c.text := by
  obtain ⟨host, action⟩ := c
  cases action <;> rfl

/-- Masking events masks the calls that they issue. -/
theorem Event.issuedCall?_masked (e : Event) :
    e.masked.issuedCall? = e.issuedCall?.map Call.masked := by
  cases e <;> rfl

/-- Events that are the same without contents have the same calls on every host,
without their contents. -/
theorem callsOn_masked {es es' : List Event} (h : es.map Event.masked = es'.map Event.masked)
    (host : String) :
    (callsOn host (es.filterMap Event.issuedCall?)).map Call.masked =
      (callsOn host (es'.filterMap Event.issuedCall?)).map Call.masked := by
  have seen : ∀ fs : List Event, (callsOn host (fs.filterMap Event.issuedCall?)).map Call.masked =
      callsOn host ((fs.map Event.masked).filterMap Event.issuedCall?) := by
    intro fs
    have calls : (fs.map Event.masked).filterMap Event.issuedCall? =
        (fs.filterMap Event.issuedCall?).map Call.masked := by
      rw [List.filterMap_map, List.map_filterMap]
      exact congrArg (List.filterMap · fs) (funext Event.issuedCall?_masked)
    rw [calls, callsOn, callsOn, List.filter_map]
    congr 2
    funext c
    exact congrArg (· == host) c.host_masked.symm
  rw [seen, seen, h]

variable {σ ν ε ε' α β γ δ ζ : Type}

/-- Two results that are shown the same: one value, or errors that are shown the
same. -/
theorem mapError_eq_mapError {f : ε → ε'} {r r' : Except ε α} (h : r.mapError f = r'.mapError f) :
    (∃ a, r = .ok a ∧ r' = .ok a) ∨ ∃ e e', r = .error e ∧ r' = .error e' ∧ f e = f e' := by
  cases r with
  | ok a =>
    cases r' with
    | ok a' =>
      obtain rfl : a = a' := Except.ok.inj h
      exact .inl ⟨a, rfl, rfl⟩
    | error e => cases h
  | error e =>
    cases r' with
    | ok a => cases h
    | error e' => exact .inr ⟨e, e', rfl, rfl, Except.error.inj h⟩

/-- What the remote does with a call follows from the view of its state and from
the call without its contents. -/
structure Remote.IgnoresContents (remote : Remote σ) (view : σ → ν) : Prop where
  latency : ∀ s s' c c', view s = view s' → c.masked = c'.masked →
    remote.latency s c = remote.latency s' c'
  reply : ∀ s s' c c', view s = view s' → c.masked = c'.masked →
    (remote.answer s c).1 = (remote.answer s' c').1
  next : ∀ s s' c c', view s = view s' → c.masked = c'.masked →
    view (remote.answer s c).2 = view (remote.answer s' c').2

/-- Two runs that look the same without contents, where `g` is what is shown of a
result. -/
structure Run.Matches (view : σ → ν) (g : β → γ) (r r' : Run σ β) : Prop where
  result : r.result.map g = r'.result.map g
  events : r.events.map Event.masked = r'.events.map Event.masked
  time : r.time = r'.time
  left : view r.state = view r'.state

namespace Run.Matches

variable {view : σ → ν} {g : β → γ} {r r' : Run σ β}

/-- Runs that match do so behind events that match. -/
theorem after {es es' : List Event} (hes : es.map Event.masked = es'.map Event.masked)
    (h : r.Matches view g r') : (r.after es).Matches view g (r'.after es') :=
  ⟨h.result, by rw [after_events, after_events, List.map_append, List.map_append, hes, h.events],
    h.time, h.left⟩

/-- Runs that match do so after functions that tell nothing more of their results. -/
theorem map {g' : δ → ζ} {k k' : β → δ} (hk : ∀ b b', g b = g b' → g' (k b) = g' (k' b'))
    (h : r.Matches view g r') : (r.map k).Matches view g' (r'.map k') := by
  refine ⟨?_, h.events, h.time, h.left⟩
  have result := h.result
  rw [map_result, map_result]
  cases hb : r.result with
  | none =>
    rw [hb] at result
    rw [Option.map_eq_none_iff.1 result.symm]
    rfl
  | some b =>
    rw [hb] at result
    obtain ⟨b', hb', shown⟩ := Option.map_eq_some_iff.1 result.symm
    rw [hb']
    exact congrArg some (hk b b' shown.symm)

/-- What goes on from runs that match, with results that are shown the same. -/
theorem andThen {g' : δ → ζ} {next next' : β → σ → Nat → Run σ δ}
    (hn : ∀ b b' s s' t, g b = g b' → view s = view s' →
      (next b s t).Matches view g' (next' b' s' t))
    (h : r.Matches view g r') : (r.andThen next).Matches view g' (r'.andThen next') := by
  have result := h.result
  rw [Run.andThen, Run.andThen]
  cases hb : r.result with
  | none =>
    rw [hb] at result
    rw [Option.map_eq_none_iff.1 result.symm]
    exact ⟨rfl, h.events, h.time, h.left⟩
  | some b =>
    rw [hb] at result
    obtain ⟨b', hb', shown⟩ := Option.map_eq_some_iff.1 result.symm
    rw [hb', h.time]
    exact (hn b b' _ _ _ shown.symm h.left).after h.events

end Run.Matches

/-! ### Programs alone -/

namespace Program

/-- The programs make the same calls but for contents, and come to the same ends
as far as `f` shows of errors. -/
inductive Matches (f : ε → ε') : Program ε α → Program ε α → Prop where
  | ended {r r' : Except ε α} (h : r.mapError f = r'.mapError f) : Matches f (.ended r) (.ended r')
  | unfinished : Matches f .unfinished .unfinished
  | call {c c' : Call} {k k' : Reply → Program ε α} (h : c.masked = c'.masked)
    (next : ∀ r, Matches f (k r) (k' r)) : Matches f (.call c k) (.call c' k')
  | sleep (ms : Nat) {p q : Program ε α} (next : Matches f p q) :
    Matches f (.sleep ms p) (.sleep ms q)
  | clock {k k' : Nat → Program ε α} (next : ∀ t, Matches f (k t) (k' t)) :
    Matches f (.clock k) (.clock k')

namespace Matches

variable {f : ε → ε'} {p q : Program ε α}

/-- Every program matches itself. -/
theorem refl (p : Program ε α) : p.Matches f p := by
  induction p with
  | ended r => exact .ended rfl
  | unfinished => exact .unfinished
  | call c next ih => exact .call rfl ih
  | sleep ms p ih => exact .sleep ms ih
  | clock next ih => exact .clock ih

/-- Failures that are told in one way match. -/
theorem fail {e e' : ε} (h : f e = f e') :
    (Program.fail e : Program ε α).Matches f (Program.fail e') :=
  .ended (congrArg Except.error h)

/-- Programs that match, and go on with programs that match, match as a whole. -/
theorem bind (h : p.Matches f q) {k k' : α → Program ε β} (hk : ∀ a, (k a).Matches f (k' a)) :
    (p >>= k).Matches f (q >>= k') := by
  change (p.bind k).Matches f (q.bind k')
  induction h with
  | ended h =>
    rcases mapError_eq_mapError h with ⟨a, rfl, rfl⟩ | ⟨e, e', rfl, rfl, same⟩
    · exact hk a
    · exact fail same
  | unfinished => exact .unfinished
  | call h _ ih => exact .call h ih
  | sleep ms _ ih => exact .sleep ms ih
  | clock _ ih => exact .clock ih

/-- Programs that match do so when their results are told in a way that tells nothing more. -/
theorem ending {δ' : Type} {g : Except ε α → Except δ β} {f' : δ → δ'} (h : p.Matches f q)
    (hg : ∀ r r' : Except ε α, r.mapError f = r'.mapError f →
      (g r).mapError f' = (g r').mapError f') :
    (p.ending g).Matches f' (q.ending g) := by
  induction h with
  | ended h => exact .ended (hg _ _ h)
  | unfinished => exact .unfinished
  | call h _ ih => exact .call h ih
  | sleep ms _ ih => exact .sleep ms ih
  | clock _ ih => exact .clock ih

/-- A call matches another that is the same without contents. -/
theorem perform {failure : Call → CallError → ε} {c c' : Call} (h : c.masked = c'.masked)
    (errors : ∀ e, f (failure c e) = f (failure c' e)) :
    (Program.perform failure c).Matches f (Program.perform failure c') := by
  refine .call h fun r => ?_
  cases r with
  | ok answer => exact refl _
  | error e => exact fail (errors e)

end Matches

variable {remote : Remote σ} {view : σ → ν} {f : ε → ε'}

/-- **Programs that match** have runs that do. -/
theorem run_matches (blind : remote.IgnoresContents view) (i : Nat) {p q : Program ε α}
    (h : p.Matches f q) {s s' : σ} (hs : view s = view s') (t : Nat) :
    (p.run remote i s t).Matches view (Except.mapError f) (q.run remote i s' t) := by
  induction h generalizing s s' t with
  | ended h => exact ⟨congrArg some h, rfl, rfl, hs⟩
  | unfinished => exact ⟨rfl, rfl, rfl, hs⟩
  | @call c c' k k' h next ih =>
    have latency := blind.latency s s' c c' hs h
    have reply := blind.reply s s' c c' hs h
    have rest := ih (remote.answer s' c').1 (blind.next s s' c c' hs h)
      (t + remote.latency s' c')
    simp only [run, latency, reply]
    exact rest.after (by simp only [List.map_cons, List.map_nil, Event.masked, h])
  | sleep ms next ih => exact ih hs (t + ms)
  | clock next ih => exact ih t hs t

end Program

/-! ### Tasks in order -/

/-- What `f` shows of an outcome. -/
def Outcome.shown (f : ε → ε') (o : Outcome ε α) : Outcome ε' α :=
  ⟨o.host, o.result.mapError f⟩

/-- Whether a task succeeded is shown. -/
theorem Outcome.succeeded_shown (f : ε → ε') (o : Outcome ε α) :
    (o.shown f).succeeded = o.succeeded := by
  obtain ⟨host, r⟩ := o
  cases r <;> rfl

/-- The tasks are for one host, and their programs match. -/
structure Task.Matches (f : ε → ε') (task task' : Task ε α) : Prop where
  host : task.host = task'.host
  program : task.program.Matches f task'.program

variable {remote : Remote σ} {view : σ → ν} {f : ε → ε'}

/-- **Tasks that match run alike** on a remote that does not look at what is written. -/
theorem Task.run_matches (blind : remote.IgnoresContents view) (i : Nat) {task task' : Task ε α}
    (h : task.Matches f task') {s s' : σ} (hs : view s = view s') (t : Nat) :
    (task.run remote i s t).Matches view (Outcome.shown f) (task'.run remote i s' t) := by
  obtain ⟨result, events, time, left⟩ := Program.run_matches blind i h.program hs t
  -- The event at the end is there in both runs or in neither.
  have ends : (task.program.run remote i s t).result.isSome =
      (task'.program.run remote i s' t).result.isSome := by
    simpa using congrArg Option.isSome result
  refine ⟨?_, ?_, time, left⟩
  · have both := congrArg (Option.map (Outcome.mk (ε := ε') task.host)) result
    simp only [Option.map_map] at both
    simp only [Task.run, Option.map_map]
    rwa [← h.host]
  · simp only [Task.run, List.map_cons, List.map_append, events, ends]

/-- **Tasks in order that match** have runs that do. -/
theorem executeInOrder_matches (blind : remote.IgnoresContents view) {tasks tasks' : List (Task ε α)}
    (h : List.Forall₂ (Task.Matches f) tasks tasks') (k : Nat) {s s' : σ} (hs : view s = view s')
    (t : Nat) :
    (executeInOrder remote k tasks s t).Matches view (List.map (Outcome.shown f))
      (executeInOrder remote k tasks' s' t) := by
  induction h generalizing k s s' t with
  | nil => exact ⟨rfl, rfl, rfl, hs⟩
  | @cons task task' tasks tasks' head _ ih =>
    refine (Task.run_matches blind k head hs t).andThen fun o o' s s' t shown left => ?_
    have succeeded : o.succeeded = o'.succeeded := by
      rw [← Outcome.succeeded_shown f o, ← Outcome.succeeded_shown f o', shown]
    rw [succeeded]
    split
    · refine (ih (k + 1) left t).map fun os os' rest => ?_
      rw [List.map_cons, List.map_cons, shown, rest]
    · refine ⟨congrArg some ?_, rfl, rfl, left⟩
      rw [List.map_cons, List.map_cons, shown]

/-! ### Tasks together -/

/-- The stages are at the same place of programs that match. -/
inductive Stage.Matches (f : ε → ε') : Stage ε α → Stage ε α → Prop where
  | fresh {p q : Program ε α} (h : p.Matches f q) : Matches f (.fresh p) (.fresh q)
  | ready {p q : Program ε α} (h : p.Matches f q) : Matches f (.ready p) (.ready q)
  | waiting {c c' : Call} {k k' : Reply → Program ε α} (h : c.masked = c'.masked)
    (next : ∀ r, (k r).Matches f (k' r)) : Matches f (.waiting c k) (.waiting c' k')
  | finished {r r' : Except ε α} (h : r.mapError f = r'.mapError f) :
    Matches f (.finished r) (.finished r')
  | stuck : Matches f .stuck .stuck

/-- The strands are at the same place and time. -/
structure Strand.Matches (f : ε → ε') (x y : Strand ε α) : Prop where
  host : x.host = y.host
  time : x.time = y.time
  stage : x.stage.Matches f y.stage

/-- Of stages that match both can step or neither can. -/
theorem Stage.Matches.canStep {g g' : Stage ε α} (h : g.Matches f g') : g.canStep = g'.canStep := by
  cases h <;> rfl

/-- **Strands that match take steps that do.** -/
theorem Strand.step_matches (blind : remote.IgnoresContents view) (i : Nat) {x y : Strand ε α}
    (h : x.Matches f y) {s s' : σ} (hs : view s = view s') :
    (x.step remote i s).strand.Matches f (y.step remote i s').strand ∧
      (x.step remote i s).events.map Event.masked = (y.step remote i s').events.map Event.masked ∧
      view (x.step remote i s).state = view (y.step remote i s').state := by
  obtain ⟨host, time, stage⟩ := x
  obtain ⟨host', time', stage'⟩ := y
  obtain ⟨rfl, rfl, hstage⟩ := h
  cases hstage with
  | fresh h => exact ⟨⟨rfl, rfl, .ready h⟩, rfl, hs⟩
  | ready h =>
    cases h with
    | ended h => exact ⟨⟨rfl, rfl, .finished h⟩, rfl, hs⟩
    | unfinished => exact ⟨⟨rfl, rfl, .stuck⟩, rfl, hs⟩
    | @call c c' k k' h next =>
      have latency := blind.latency s s' c c' hs h
      refine ⟨⟨rfl, congrArg (time + ·) latency, .waiting h next⟩, ?_, hs⟩
      simp only [step, List.map_cons, List.map_nil, Event.masked, h]
    | sleep ms next => exact ⟨⟨rfl, rfl, .ready next⟩, rfl, hs⟩
    | clock next => exact ⟨⟨rfl, rfl, .ready (next time)⟩, rfl, hs⟩
  | @waiting c c' k k' h next =>
    have reply := blind.reply s s' c c' hs h
    refine ⟨⟨rfl, rfl, ?_⟩, ?_, blind.next s s' c c' hs h⟩
    · simp only [step, reply]
      exact .ready (next _)
    · simp only [step, List.map_cons, List.map_nil, Event.masked, h, reply]
  | finished h => exact ⟨⟨rfl, rfl, .finished h⟩, rfl, hs⟩
  | stuck => exact ⟨⟨rfl, rfl, .stuck⟩, rfl, hs⟩

section

variable {xs ys : List (Strand ε α)}

/-- Strands that match have the same turns. -/
theorem turns_eq_of_matches (h : List.Forall₂ (Strand.Matches f) xs ys) (k : Nat) :
    turns k xs = turns k ys := by
  induction h generalizing k with
  | nil => rfl
  | cons head _ ih => rw [turns, turns, head.stage.canStep, head.time, ih]

/-- A schedule chooses the same of strands that match. -/
theorem nextPosition?_eq_of_matches (h : List.Forall₂ (Strand.Matches f) xs ys)
    (schedule : Schedule) (taken : Nat) :
    nextPosition? schedule taken xs = nextPosition? schedule taken ys := by
  rw [nextPosition?, nextPosition?, turns_eq_of_matches h]

/-- Strands that match show the same outcomes. -/
theorem outcomes?_eq_of_matches (h : List.Forall₂ (Strand.Matches f) xs ys) :
    (outcomes? xs).map (List.map (Outcome.shown f)) =
      (outcomes? ys).map (List.map (Outcome.shown f)) := by
  induction h with
  | nil => rfl
  | @cons x y xs ys head _ ih =>
    obtain ⟨host, time, stage⟩ := x
    obtain ⟨host', time', stage'⟩ := y
    obtain ⟨rfl, -, hstage⟩ := head
    cases hstage with
    | @finished r r' h =>
      simp only [outcomes?, Option.map_map]
      have both := congrArg (Option.map ((⟨host, r.mapError f⟩ : Outcome ε' α) :: ·)) ih
      simp only [Option.map_map] at both
      rw [show List.map (Outcome.shown f) ∘ (fun os => (⟨host, r⟩ : Outcome ε α) :: os) =
        ((⟨host, r.mapError f⟩ : Outcome ε' α) :: ·) ∘ List.map (Outcome.shown f) from rfl, both, h]
      rfl
    | fresh | ready | waiting | stuck => rfl

/-- Strands that match have come to the same time. -/
theorem latest_eq_of_matches (h : List.Forall₂ (Strand.Matches f) xs ys) (t : Nat) :
    latest t xs = latest t ys := by
  unfold latest
  induction h generalizing t with
  | nil => rfl
  | cons head _ ih => rw [List.foldl_cons, List.foldl_cons, head.time, ih]

/-- Each of the strands matches the one at its position. -/
theorem matches_of_getElem? (h : List.Forall₂ (Strand.Matches f) xs ys) {i : Nat}
    {x : Strand ε α} (hx : xs[i]? = some x) : ∃ y, ys[i]? = some y ∧ x.Matches f y := by
  induction h generalizing i with
  | nil => simp at hx
  | @cons z y xs ys head _ ih =>
    cases i with
    | zero =>
      obtain rfl : z = x := by simpa using hx
      exact ⟨y, rfl, head⟩
    | succ i => exact ih (by simpa using hx)

/-- Strands that match still do when one of each is replaced by one that matches. -/
theorem matches_set (h : List.Forall₂ (Strand.Matches f) xs ys) (i : Nat) {x y : Strand ε α}
    (hxy : x.Matches f y) : List.Forall₂ (Strand.Matches f) (xs.set i x) (ys.set i y) := by
  induction h generalizing i with
  | nil => exact .nil
  | cons head tail ih =>
    cases i with
    | zero => exact .cons hxy tail
    | succ i => exact .cons head (ih i)

/-- The strands of one run are followed: in the other the strands that match take
the same steps. -/
theorem runStrands_matches (blind : remote.IgnoresContents view) (schedule : Schedule)
    (start taken : Nat) (xs : List (Strand ε α)) (s : σ) :
    ∀ {ys : List (Strand ε α)} {s' : σ}, List.Forall₂ (Strand.Matches f) xs ys →
      view s = view s' →
      (runStrands remote schedule start taken xs s).Matches view (List.map (Outcome.shown f))
        (runStrands remote schedule start taken ys s') := by
  fun_induction runStrands remote schedule start taken xs s with
  | case1 taken xs s hn =>
    intro ys s' h hs
    have next := nextPosition?_eq_of_matches h schedule taken
    rw [runStrands_of_ended (not_canStep_of_nextPosition? (next ▸ hn))]
    exact ⟨outcomes?_eq_of_matches h, rfl, latest_eq_of_matches h start, hs⟩
  | case2 taken xs s i hn hx =>
    obtain ⟨x, hx', -⟩ := canStep_of_nextPosition? hn
    rw [hx] at hx'
    cases hx'
  | case3 taken xs s i hn x hx can step =>
    rename_i ih
    intro ys s' h hs
    have next := nextPosition?_eq_of_matches h schedule taken
    obtain ⟨y, hy, hxy⟩ := matches_of_getElem? h hx
    obtain ⟨strand, events, left⟩ := Strand.step_matches blind i hxy hs
    rw [runStrands_of_next (next ▸ hn) hy]
    exact (ih (matches_set h i strand) left).after events
  | case4 taken xs s i hn x hx can =>
    obtain ⟨x', hx', can'⟩ := canStep_of_nextPosition? hn
    obtain rfl : x = x' := by simpa [hx] using hx'
    exact absurd can' can

end

/-- **Tasks together that match** have runs that do, under every schedule. -/
theorem executeTogether_matches (blind : remote.IgnoresContents view)
    {tasks tasks' : List (Task ε α)} (h : List.Forall₂ (Task.Matches f) tasks tasks')
    (schedule : Schedule) {s s' : σ} (hs : view s = view s') (t : Nat) :
    (executeTogether remote schedule tasks s t).Matches view (List.map (Outcome.shown f))
      (executeTogether remote schedule tasks' s' t) := by
  refine runStrands_matches blind schedule t 0 _ s ?_ hs
  induction h with
  | nil => exact .nil
  | cons head _ ih => exact .cons ⟨head.host, rfl, .fresh head.program⟩ ih

end Rollout
