/-
# The calls of a program

`Program.EveryCall P` says that `P` holds of every call that a program can
make, whatever the replies are. It is read off the program's text, part by part,
and then holds of every event of an execution (`execute_everyCall`).
-/

import Rollout.Proofs.Remote.Execution

namespace Rollout

/-- The call that an event issues or brings the reply to. -/
def Event.call? : Event → Option Call
  | issued _ _ c | returned _ _ c _ => some c
  | started _ | finished _ => none

/-- The event in which a call is issued is about that call. -/
theorem Event.call?_of_issuedCall? {e : Event} {c : Call} (h : e.issuedCall? = some c) :
    e.call? = some c := by
  cases e <;> first | exact h | cases h

namespace Program

variable {ε ε' α β : Type} {P Q : Call → Prop}

/-- Every call that the program can make has a property. -/
def EveryCall (P : Call → Prop) : Program ε α → Prop
  | .ended _ | .unfinished => True
  | .call c next => P c ∧ ∀ r, (next r).EveryCall P
  | .sleep _ next => next.EveryCall P
  | .clock next => ∀ t, (next t).EveryCall P

theorem everyCall_ended (r : Except ε α) : (ended r).EveryCall P :=
  trivial

theorem everyCall_pure (a : α) : (pure a : Program ε α).EveryCall P :=
  trivial

theorem everyCall_fail (e : ε) : (fail e : Program ε α).EveryCall P :=
  trivial

theorem everyCall_now : (now : Program ε Nat).EveryCall P :=
  fun _ => trivial

theorem everyCall_pause (ms : Nat) : (pause ms : Program ε Unit).EveryCall P :=
  trivial

/-- The only call of a single call is itself, whatever its failure is. -/
theorem everyCall_perform {failure : Call → CallError → ε} {c : Call} (h : P c) :
    (perform failure c).EveryCall P := by
  refine ⟨h, fun r => ?_⟩
  cases r <;> exact trivial

namespace EveryCall

/-- All calls of a program and what follows it are of a kind if both have such calls only. -/
theorem bind {p : Program ε α} {k : α → Program ε β} (hp : p.EveryCall P)
    (hk : ∀ a, (k a).EveryCall P) : (p >>= k).EveryCall P := by
  change (p.bind k).EveryCall P
  induction p with
  | ended r =>
    cases r with
    | ok a => exact hk a
    | error e => exact trivial
  | unfinished => exact trivial
  | call c next ih => exact ⟨hp.1, fun r => ih r (hp.2 r)⟩
  | sleep ms p ih => exact ih hp
  | clock next ih => exact fun t => ih t (hp t)

/-- What becomes of its result does not change the calls of a program. -/
theorem ending {f : Except ε α → Except ε' β} {p : Program ε α} (hp : p.EveryCall P) :
    (p.ending f).EveryCall P := by
  induction p with
  | ended r => exact trivial
  | unfinished => exact trivial
  | call c next ih => exact ⟨hp.1, fun r => ih r (hp.2 r)⟩
  | sleep ms p ih => exact ih hp
  | clock next ih => exact fun t => ih t (hp t)

/-- The programs for each of a list have calls of one kind if every one of them has. -/
theorem each {f : α → Program ε β} (hf : ∀ a, (f a).EveryCall P) :
    ∀ as, (each f as).EveryCall P
  | [] => trivial
  | a :: as => (hf a).bind fun _ => (each hf as).bind fun _ => trivial

/-- Calls of one kind are of every larger kind. -/
theorem mono {p : Program ε α} (hp : p.EveryCall P) (imp : ∀ c, P c → Q c) : p.EveryCall Q := by
  induction p with
  | ended r => exact trivial
  | unfinished => exact trivial
  | call c next ih => exact ⟨imp c hp.1, fun r => ih r (hp.2 r)⟩
  | sleep ms p ih => exact ih hp
  | clock next ih => exact fun t => ih t (hp t)

end EveryCall

/-- **A run has no other calls** than its program. -/
theorem Runs.everyCall {p : Program ε α} {t t' : Nat} {xs : List Exchange}
    {o : Option (Except ε α)} (h : p.Runs t xs o t') (hp : p.EveryCall P) :
    ∀ x ∈ xs, P x.call := by
  induction h with
  | ended => exact fun x hx => absurd hx List.not_mem_nil
  | unfinished => exact fun x hx => absurd hx List.not_mem_nil
  | call _ _ ih =>
    intro x hx
    rcases List.mem_cons.1 hx with rfl | hx
    · exact hp.1
    · exact ih (hp.2 _) x hx
  | sleep _ ih => exact ih hp
  | clock _ ih => exact ih (hp _)

end Program

/-! ### The calls of an execution -/

variable {σ ε α : Type}

/-- An event of a task that is about a call is one of an exchange. -/
theorem exists_exchange_of_event {β : Type} {i : Nat} {xs : List Exchange} {o : Option β}
    {e : Event} (he : e ∈ taskEvents i xs o) (call : e.call?.isSome) :
    ∃ x ∈ xs, e ∈ x.events i := by
  rcases List.mem_cons.1 he with rfl | he
  · cases call
  rcases List.mem_append.1 he with he | he
  · exact List.mem_flatMap.1 he
  · unfold finishing at he
    split at he
    · rw [List.mem_singleton.1 he] at call
      cases call
    · cases he

/-- The events of an exchange are about its call. -/
theorem Exchange.call?_of_mem_events {i : Nat} {x : Exchange} {e : Event}
    (he : e ∈ x.events i) : e.call? = some x.call := by
  rcases List.mem_cons.1 he with rfl | he
  · rfl
  · rw [List.mem_singleton.1 he]
    rfl

/-- A call of a task has returned in the run that shows it. -/
theorem Exchange.returned_mem {i : Nat} {x : Exchange} {xs : List Exchange} {β : Type}
    {o : Option β} {es : List Event} (hx : x ∈ xs) (h : eventsAt i es = taskEvents i xs o) :
    .returned i x.returned x.call x.reply ∈ es := by
  have mem : Event.returned i x.returned x.call x.reply ∈ taskEvents i xs o :=
    List.mem_cons_of_mem _ (List.mem_append_left _ (List.mem_flatMap.2 ⟨x, hx, by
      simp [Exchange.events]⟩))
  rw [← h] at mem
  exact (mem_eventsAt.1 mem).1

/-- The calls that are issued at a position, in order. -/
def callsAt (i : Nat) (es : List Event) : List Call :=
  (eventsAt i es).filterMap Event.issuedCall?

/-- The calls that exchanges issue are their own, in their order. -/
theorem issuedCalls_exchanges (i : Nat) (xs : List Exchange) :
    (xs.flatMap (Exchange.events i)).filterMap Event.issuedCall? = xs.map Exchange.call := by
  induction xs with
  | nil => rfl
  | cons x xs ih =>
    rw [List.flatMap_cons, List.filterMap_append, ih]
    rfl

/-- The calls at the position of a task are those of its exchanges. -/
theorem callsAt_of_taskEvents {β : Type} {i : Nat} {es : List Event} {xs : List Exchange}
    {o : Option β} (h : eventsAt i es = taskEvents i xs o) :
    callsAt i es = xs.map Exchange.call := by
  have last : (finishing i o).filterMap Event.issuedCall? = [] := by
    unfold finishing
    split <;> rfl
  rw [callsAt, h, taskEvents, List.filterMap_cons_none rfl, List.filterMap_append,
    issuedCalls_exchanges, last,
    List.append_nil]

/-- **Every event of an execution** is about a call that the program of its
position can make. -/
theorem execute_everyCall (remote : Remote σ) (mode : Mode) {tasks : List (Task ε α)} (s : σ)
    (t : Nat) {P : Nat → Call → Prop}
    (h : ∀ (i : Nat) (task : Task ε α), tasks[i]? = some task → task.program.EveryCall (P i)) :
    ∀ e ∈ (execute remote mode tasks s t).events, ∀ c, e.call? = some c → P e.position c := by
  intro e he c hc
  have hi := execute_position remote mode tasks s t e he
  have mem : e ∈ eventsAt e.position (execute remote mode tasks s t).events :=
    mem_eventsAt.2 ⟨he, rfl⟩
  rcases execute_task remote mode s t (List.getElem?_eq_getElem hi) with
    skipped | ⟨xs, o, begun, ended, -, took⟩
  · rw [skipped.events] at mem
    cases mem
  · rw [took.events] at mem
    obtain ⟨x, hx, hxe⟩ := exists_exchange_of_event mem (by rw [hc]; rfl)
    obtain rfl : x.call = c := by simpa [hc, eq_comm] using x.call?_of_mem_events hxe
    exact took.runs.everyCall (h _ _ (List.getElem?_eq_getElem hi)) x hx

end Rollout
