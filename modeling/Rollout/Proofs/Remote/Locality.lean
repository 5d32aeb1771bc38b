/-
# Local remotes

A remote is local when a host knows only what has happened on it. Its state is
seen through a view for every host:

| after a call on a host | |
| --- | --- |
| latency, reply and the view of that host | follow from the view before it |
| the view of every other host | has not changed |

Two remotes are alike on a host when the first row holds from one to the other.

Main statements: a program that calls one host runs the same on remotes that are
alike there (`Program.run_alike`), and leaves the other views as they were
(`Program.run_frame`). Hosts that answer from their own history are local
(`Remote.ofHistory_isLocal`).
-/

import Rollout.Proofs.Remote.Calls

namespace Rollout

variable {σ ν ε α β γ : Type}

namespace Remote

/-- On one host two remotes do the same whenever they have the same view of it. -/
structure AlikeOn (view : String → σ → ν) (host : String) (remote remote' : Remote σ) : Prop where
  latency : ∀ s s' c, c.host = host → view host s = view host s' →
    remote.latency s c = remote'.latency s' c
  reply : ∀ s s' c, c.host = host → view host s = view host s' →
    (remote.answer s c).1 = (remote'.answer s' c).1
  own : ∀ s s' c, c.host = host → view host s = view host s' →
    view host (remote.answer s c).2 = view host (remote'.answer s' c).2

/-- What happens on a host follows from the view of that host, and changes no
other view. -/
structure IsLocal (remote : Remote σ) (view : String → σ → ν) : Prop where
  alike : ∀ host, AlikeOn view host remote remote
  others : ∀ s c host, host ≠ c.host → view host (remote.answer s c).2 = view host s

end Remote

/-- The calls on a host. -/
def callsOn (host : String) (cs : List Call) : List Call :=
  cs.filter fun c => c.host == host

/-- The hosts answer from the calls that were made on them before. -/
def Remote.ofHistory (latency : List Call → Call → Nat) (reply : List Call → Call → Reply) :
    Remote (List Call) where
  latency s c := latency (callsOn c.host s) c
  answer s c := (reply (callsOn c.host s) c, s ++ [c])

/-- **Hosts that answer from their own history are local.** -/
theorem Remote.ofHistory_isLocal (latency : List Call → Call → Nat)
    (reply : List Call → Call → Reply) : (ofHistory latency reply).IsLocal callsOn where
  alike host := by
    constructor
    case latency =>
      rintro s s' c rfl h
      exact congrArg (latency · c) h
    case reply =>
      rintro s s' c rfl h
      exact congrArg (reply · c) h
    case own =>
      rintro s s' c rfl h
      change callsOn c.host (s ++ [c]) = callsOn c.host (s' ++ [c])
      rw [callsOn, List.filter_append, callsOn, List.filter_append]
      exact congrArg (· ++ _) h
  others s c host h := by
    change callsOn host (s ++ [c]) = callsOn host s
    have other : (c.host == host) = false := beq_eq_false_iff_ne.2 (Ne.symm h)
    rw [callsOn, List.filter_append, List.filter_cons, other, List.filter_nil]
    exact List.append_nil _

/-! ### Runs on one host -/

/-- Two runs that differ at most in what they leave on other hosts. -/
structure Run.Alike (view : String → σ → ν) (host : String) (r r' : Run σ β) : Prop where
  result : r.result = r'.result
  events : r.events = r'.events
  time : r.time = r'.time
  left : view host r.state = view host r'.state

namespace Run.Alike

variable {view : String → σ → ν} {host : String} {r r' r'' : Run σ β}

/-- Runs that are alike to one another are alike. -/
theorem trans (h : r.Alike view host r') (h' : r'.Alike view host r'') : r.Alike view host r'' :=
  ⟨h.result.trans h'.result, h.events.trans h'.events, h.time.trans h'.time, h.left.trans h'.left⟩

/-- Runs that are alike are so behind the same events. -/
theorem after (es : List Event) (h : r.Alike view host r') :
    (r.after es).Alike view host (r'.after es) :=
  ⟨h.result, congrArg (es ++ ·) h.events, h.time, h.left⟩

/-- Runs that are alike are so after the same function of their results. -/
theorem map (f : β → γ) (h : r.Alike view host r') : (r.map f).Alike view host (r'.map f) :=
  ⟨congrArg (Option.map f) h.result, h.events, h.time, h.left⟩

end Run.Alike

namespace Program

variable {view : String → σ → ν} {host : String} {remote remote' : Remote σ}

/-- **A program that calls one host** runs the same wherever the remotes are
alike on that host and have the same view of it. -/
theorem run_alike (alike : remote.AlikeOn view host remote') (i : Nat) {p : Program ε α}
    (calls : p.EveryCall (·.host = host)) {s s' : σ} (h : view host s = view host s') (t : Nat) :
    (p.run remote i s t).Alike view host (p.run remote' i s' t) := by
  induction p generalizing s s' t with
  | ended r => exact ⟨rfl, rfl, rfl, h⟩
  | unfinished => exact ⟨rfl, rfl, rfl, h⟩
  | call c next ih =>
    have rest := ih (remote'.answer s' c).1 (calls.2 _) (alike.own s s' c calls.1 h)
      (t + remote'.latency s' c)
    have reply := alike.reply s s' c calls.1 h
    have latency := alike.latency s s' c calls.1 h
    simp only [run, reply, latency]
    exact rest.after _
  | sleep ms p ih => exact ih calls h (t + ms)
  | clock next ih => exact ih t (calls t) h t

/-- **What a program does on one host** is not seen on another. -/
theorem run_frame (loc : remote.IsLocal view) (i : Nat) {p : Program ε α}
    (calls : p.EveryCall (·.host = host)) {other : String} (h : other ≠ host) (s : σ) (t : Nat) :
    view other (p.run remote i s t).state = view other s := by
  induction p generalizing s t with
  | ended r => rfl
  | unfinished => rfl
  | call c next ih =>
    have here : other ≠ c.host := fun hc => h (hc.trans calls.1)
    exact (ih _ (calls.2 _) _ _).trans (loc.others s c other here)
  | sleep ms p ih => exact ih calls s (t + ms)
  | clock next ih => exact ih t (calls t) s t

end Program

/-- The task calls its own host only. -/
def Task.StaysHome (task : Task ε α) : Prop :=
  task.program.EveryCall (·.host = task.host)

/-- A run of one task, like that of its program. -/
theorem Task.run_alike {view : String → σ → ν} {remote remote' : Remote σ} {task : Task ε α}
    (alike : remote.AlikeOn view task.host remote') (i : Nat) (home : task.StaysHome) {s s' : σ}
    (h : view task.host s = view task.host s') (t : Nat) :
    (task.run remote i s t).Alike view task.host (task.run remote' i s' t) := by
  obtain ⟨result, events, time, left⟩ := Program.run_alike alike i home h t
  refine ⟨congrArg (Option.map _) result, ?_, time, left⟩
  rw [Task.run, Task.run, result, events]

/-! ### Tasks in order -/

/-- Tasks in order run the same on remotes that are alike on all of their hosts. -/
theorem executeInOrder_alike {view : String → σ → ν} {remote remote' : Remote σ}
    (loc : remote.IsLocal view) (loc' : remote'.IsLocal view) {group : String → Prop}
    (alike : ∀ host, group host → remote.AlikeOn view host remote') {tasks : List (Task ε α)}
    (home : ∀ task ∈ tasks, task.StaysHome ∧ group task.host) (k : Nat) {s s' : σ}
    (h : ∀ host, group host → view host s = view host s') (t : Nat) :
    ∀ host, group host → (executeInOrder remote k tasks s t).Alike view host
      (executeInOrder remote' k tasks s' t) := by
  induction tasks generalizing k s s' t with
  | nil => exact fun host hg => ⟨rfl, rfl, rfl, h host hg⟩
  | cons task tasks ih =>
    obtain ⟨stays, hgroup⟩ := home task List.mem_cons_self
    have first := Task.run_alike (alike task.host hgroup) k stays (h task.host hgroup) t
    -- The first task leaves the views of the whole group the same.
    have left : ∀ host, group host →
        view host (task.run remote k s t).state = view host (task.run remote' k s' t).state := by
      intro host hg
      by_cases hhost : host = task.host
      · exact hhost ▸ first.left
      · have frame : view host (task.run remote k s t).state = view host s :=
          Program.run_frame loc k stays hhost s t
        have frame' : view host (task.run remote' k s' t).state = view host s' :=
          Program.run_frame loc' k stays hhost s' t
        rw [frame, frame', h host hg]
    have rest := ih (fun task' h' => home task' (List.mem_cons_of_mem _ h')) (k + 1) left
      (task.run remote k s t).time
    intro host hg
    rw [executeInOrder, executeInOrder, Run.andThen, Run.andThen, ← first.result, ← first.events,
      ← first.time]
    split
    · refine Run.Alike.after _ ?_
      split
      · exact (rest host hg).map _
      · exact ⟨rfl, rfl, rfl, left host hg⟩
    · exact ⟨rfl, rfl, rfl, left host hg⟩

end Rollout
