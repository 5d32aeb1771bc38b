/-
# Barriers

A row of events is settled when every call in it has returned before anything
else happens. Tasks in order give such a row. A barrier stands between two
groups of hosts: the calls on the first group have all returned when the first
call on the second is issued, both in the order of the events and on the clock.

Main statement: `Barrier.append`. A barrier stands where a settled row on the
first hosts is followed by a row on the second.
-/

import Rollout.Proofs.Remote.Calls

namespace Rollout

/-- Every call that is issued returns right away. -/
def Settled (es : List Event) : Prop :=
  ∀ before after i now c, es = before ++ .issued i now c :: after →
    ∃ back reply rest, after = .returned i back c reply :: rest

/-- The calls that return have done so by `t`. -/
def ReturnedBy (t : Nat) (es : List Event) : Prop :=
  ∀ i back c reply, .returned i back c reply ∈ es → back ≤ t

/-- The calls that are issued are so from `t` on. -/
def IssuedFrom (t : Nat) (es : List Event) : Prop :=
  ∀ i now c, .issued i now c ∈ es → t ≤ now

/-- Every call on the hosts `first` has returned before a call on the hosts
`second` is issued, and none is issued after that. -/
def Barrier (first second : List String) (es : List Event) : Prop :=
  ∀ before after i now c, es = before ++ .issued i now c :: after → c.host ∈ second →
    (∀ e ∈ after, ∀ d, e.call? = some d → d.host ∉ first) ∧
    ∀ pre post j start d, before = pre ++ .issued j start d :: post → d.host ∈ first →
      ∃ back reply rest, post = .returned j back d reply :: rest ∧ back ≤ now

/-- An element of two rows is in the first or in the second. -/
theorem append_eq_append_cons {α : Type} {xs ys before after : List α} {a : α}
    (h : xs ++ ys = before ++ a :: after) :
    (∃ mid, xs = before ++ a :: mid ∧ after = mid ++ ys) ∨
      ∃ mid, before = xs ++ mid ∧ ys = mid ++ a :: after := by
  rcases List.append_eq_append_iff.1 h with ⟨mid, hbefore, hys⟩ | ⟨mid, hxs, hmid⟩
  · exact .inr ⟨mid, hbefore, hys⟩
  · cases mid with
    | nil => exact .inr ⟨[], by simpa using hxs.symm, hmid.symm⟩
    | cons b mid =>
      obtain ⟨rfl, hafter⟩ := List.cons.inj hmid
      exact .inl ⟨mid, hxs, hafter⟩

namespace Settled

theorem nil : Settled [] :=
  fun before after i now c h => by simp at h

/-- What is settled before settled events stays so. -/
theorem append {es fs : List Event} (hes : Settled es) (hfs : Settled fs) : Settled (es ++ fs) := by
  intro before after i now c h
  rcases append_eq_append_cons h with ⟨mid, hmid, rfl⟩ | ⟨mid, -, hmid⟩
  · obtain ⟨back, reply, rest, rfl⟩ := hes _ _ _ _ _ hmid
    exact ⟨back, reply, rest ++ fs, rfl⟩
  · exact hfs _ _ _ _ _ hmid

/-- A call and its return are settled. -/
theorem exchange (i : Nat) (x : Exchange) : Settled (x.events i) := by
  intro before after j now c h
  rcases before with _ | ⟨e, _ | ⟨e', before⟩⟩
  · obtain ⟨he, rfl⟩ := List.cons.inj h
    cases he
    exact ⟨_, _, _, rfl⟩
  · obtain ⟨-, h⟩ := List.cons.inj h
    obtain ⟨he, -⟩ := List.cons.inj h
    cases he
  · simp [Exchange.events] at h

/-- Calls that have all returned are settled. -/
theorem exchanges (i : Nat) : ∀ xs : List Exchange, Settled (xs.flatMap (Exchange.events i))
  | [] => nil
  | x :: xs => by
    rw [List.flatMap_cons]
    exact (exchange i x).append (exchanges i xs)

/-- Events without calls are settled. -/
theorem of_no_call {es : List Event} (h : ∀ e ∈ es, e.call? = none) : Settled es := by
  intro before after i now c hes
  have := h (.issued i now c) (by rw [hes]; simp)
  cases this

/-- The end of a task is settled. -/
theorem finishing {β : Type} (i : Nat) (o : Option β) : Settled (finishing i o) := by
  refine of_no_call fun e he => ?_
  unfold Rollout.finishing at he
  split at he
  · rw [List.mem_singleton.1 he]
    rfl
  · cases he

/-- The events of a task are settled. -/
theorem taskEvents {β : Type} (i : Nat) (xs : List Exchange) (o : Option β) :
    Settled (taskEvents i xs o) := by
  have started : Settled [.started i] :=
    of_no_call fun e he => by rw [List.mem_singleton.1 he]; rfl
  exact started.append ((exchanges i xs).append (finishing i o))

end Settled

variable {σ ε α : Type}

/-- **Tasks in order leave no call open.** -/
theorem InOrder.settled {k t t' : Nat} {tasks : List (Task ε α)} {es : List Event}
    {os : Option (List (Outcome ε α))} (h : InOrder k tasks t es os t') : Settled es := by
  induction h with
  | nil => exact .nil
  | cut | failed => exact .taskEvents _ _ _
  | next _ _ ih => exact (Settled.taskEvents _ _ _).append ih

/-! ### Times -/

/-- The calls of a program have returned when it ends. -/
theorem Program.Runs.returnedBy {p : Program ε α} {t t' i : Nat} {xs : List Exchange}
    {o : Option (Except ε α)} (h : p.Runs t xs o t') : ReturnedBy t' (taskEvents i xs o) := by
  intro j back c reply he
  obtain ⟨x, hx, he⟩ := exists_exchange_of_event he rfl
  have := h.times x hx
  simp only [Exchange.events, List.mem_cons, reduceCtorEq, Event.returned.injEq, false_or,
    List.not_mem_nil, or_false] at he
  omega

/-- No call of a program is issued before it starts. -/
theorem Program.Runs.issuedFrom {p : Program ε α} {t t' i : Nat} {xs : List Exchange}
    {o : Option (Except ε α)} (h : p.Runs t xs o t') : IssuedFrom t (taskEvents i xs o) := by
  intro j now c he
  obtain ⟨x, hx, he⟩ := exists_exchange_of_event he rfl
  have := h.times x hx
  simp only [Exchange.events, List.mem_cons, reduceCtorEq, Event.issued.injEq, or_false,
    List.not_mem_nil] at he
  omega

/-- The calls of tasks in order have returned when the last of them ends. -/
theorem InOrder.returnedBy {k t t' : Nat} {tasks : List (Task ε α)} {es : List Event}
    {os : Option (List (Outcome ε α))} (h : InOrder k tasks t es os t') : ReturnedBy t' es := by
  induction h with
  | nil => exact fun _ _ _ _ he => absurd he List.not_mem_nil
  | cut _ runs => exact runs.returnedBy
  | failed _ runs => exact runs.returnedBy
  | next runs rest ih =>
    intro i back c reply he
    rcases List.mem_append.1 he with he | he
    · exact Nat.le_trans (runs.returnedBy _ _ _ _ he) rest.le
    · exact ih _ _ _ _ he

/-- Tasks together issue no call before they start, in whatever schedule. -/
theorem executeTogether_issuedFrom (remote : Remote σ) (schedule : Schedule)
    (tasks : List (Task ε α)) (s : σ) (t : Nat) :
    IssuedFrom t (executeTogether remote schedule tasks s t).events := by
  intro i now c he
  have hi : i < tasks.length := execute_position remote (.together schedule) tasks s t _ he
  obtain ⟨xs, o, ended, took⟩ :=
    executeTogether_task remote schedule s t (List.getElem?_eq_getElem hi)
  have mem := mem_eventsAt.2 ⟨he, rfl⟩
  rw [show (Event.issued i now c).position = i from rfl, took.events] at mem
  exact took.runs.issuedFrom _ _ _ mem

/-- **A barrier stands between two rows of events** when the first is settled
and over before the second begins. -/
theorem Barrier.append {first second : List String} {es fs : List Event} {t : Nat}
    (settled : Settled es) (returned : ReturnedBy t es) (issued : IssuedFrom t fs)
    (hes : ∀ e ∈ es, ∀ c, e.call? = some c → c.host ∉ second)
    (hfs : ∀ e ∈ fs, ∀ c, e.call? = some c → c.host ∉ first) : Barrier first second (es ++ fs) := by
  intro before after i now c h hc
  rcases append_eq_append_cons h with ⟨mid, rfl, -⟩ | ⟨mid, rfl, rfl⟩
  · exact absurd hc (hes (.issued i now c) (by simp) c rfl)
  refine ⟨fun e he => hfs e (by simp [he]), fun pre post j start d hbefore hd => ?_⟩
  rcases append_eq_append_cons hbefore with ⟨post', hes', rfl⟩ | ⟨post', -, rfl⟩
  · obtain ⟨back, reply, rest, rfl⟩ := settled _ _ _ _ _ hes'
    have hback : back ≤ t := returned j back d reply (by simp [hes'])
    have hnow : t ≤ now := issued i now c (by simp)
    exact ⟨back, reply, rest ++ mid, rfl, Nat.le_trans hback hnow⟩
  · exact absurd hd (hfs (.issued j start d) (by simp) d rfl)

end Rollout
