/-
# Sequences of calls

Most of a procedure is a list of calls that are made one after the other, up to
the first that fails. `performAll` is that program, and a procedure is put into
this form by the monad laws.

Main statement: `Program.Runs.of_performAll_bind`. Either every call was made
and answered, or the calls made are the first of the list, the last of them
failed, and that failure is the result.
-/

import Rollout.Container.Introspection
import Rollout.Proofs.Remote.Exchange

namespace Rollout

namespace Program

variable {ε α β γ : Type}

/-- A program that is followed by its own result is itself. -/
theorem bind_pure (p : Program ε α) : p.bind (fun a => .ended (.ok a)) = p := by
  induction p with
  | ended r => cases r <;> rfl
  | unfinished => rfl
  | call c next ih => exact congrArg (Program.call c) (funext ih)
  | sleep ms p ih => exact congrArg (Program.sleep ms) ih
  | clock next ih => exact congrArg Program.clock (funext ih)

/-- Programs that follow one another may be put together from either end. -/
theorem bind_bind (p : Program ε α) (k : α → Program ε β) (l : β → Program ε γ) :
    (p.bind k).bind l = p.bind fun a => (k a).bind l := by
  induction p with
  | ended r => cases r <;> rfl
  | unfinished => rfl
  | call c next ih => exact congrArg (Program.call c) (funext ih)
  | sleep ms p ih => exact congrArg (Program.sleep ms) ih
  | clock next ih => exact congrArg Program.clock (funext ih)

instance : LawfulMonad (Program ε) :=
  LawfulMonad.mk' (Program ε) bind_pure (fun _ _ => rfl) bind_bind

end Program

/-- Makes calls one after the other, up to the first that fails. -/
def performAll : List Call → Program Failure Unit
  | [] => pure ()
  | c :: cs => do
    let _ ← perform c
    performAll cs

/-- A list of calls is performed by performing its two parts. -/
theorem performAll_append (cs ds : List Call) :
    performAll (cs ++ ds) = performAll cs >>= fun _ => performAll ds := by
  induction cs with
  | nil => rfl
  | cons c cs ih => rw [List.cons_append, performAll, performAll, bind_assoc, ih]

/-- The exchanges have the first calls of a list. All were answered but the last,
whose error is the failure. -/
def StoppedIn (cs : List Call) (xs : List Exchange) (f : Failure) : Prop :=
  ∃ ys x e, xs = ys ++ [x] ∧ (∀ y ∈ ys, y.IsAnswered) ∧ x.reply = .error e ∧
    xs.map Exchange.call <+: cs ∧ f = Failure.ofCall x.call e

/-- The exchanges have the calls of a list, and all were answered. -/
def CompletedIn (cs : List Call) (xs : List Exchange) : Prop :=
  xs.map Exchange.call = cs ∧ ∀ x ∈ xs, x.IsAnswered

theorem CompletedIn.nil : CompletedIn [] [] :=
  ⟨rfl, fun _ hx => absurd hx List.not_mem_nil⟩

/-- Two lists that are completed one after the other are completed as one. -/
theorem CompletedIn.append {cs ds : List Call} {xs ys : List Exchange} (hx : CompletedIn cs xs)
    (hy : CompletedIn ds ys) : CompletedIn (cs ++ ds) (xs ++ ys) := by
  refine ⟨by rw [List.map_append, hx.1, hy.1], fun z hz => ?_⟩
  rcases List.mem_append.1 hz with hz | hz
  · exact hx.2 z hz
  · exact hy.2 z hz

/-- A call that is answered completes a list of it. -/
theorem CompletedIn.singleton {x : Exchange} (hx : x.IsAnswered) : CompletedIn [x.call] [x] :=
  ⟨rfl, fun _ hy => List.mem_singleton.1 hy ▸ hx⟩

/-- A completed list has issued no other calls. -/
theorem CompletedIn.le {cs : List Call} {xs : List Exchange} (h : CompletedIn cs xs) :
    xs.map Exchange.call <+: cs :=
  h.1 ▸ List.prefix_refl _

/-- A completed part goes before what stops. -/
theorem StoppedIn.append {cs ds : List Call} {xs ys : List Exchange} {f : Failure}
    (hx : CompletedIn cs xs) (hy : StoppedIn ds ys f) : StoppedIn (cs ++ ds) (xs ++ ys) f := by
  obtain ⟨us, y, e, rfl, answered, failed, calls, hf⟩ := hy
  refine ⟨xs ++ us, y, e, (List.append_assoc ..).symm, fun z hz => ?_, failed, ?_, hf⟩
  · rcases List.mem_append.1 hz with hz | hz
    · exact hx.2 z hz
    · exact answered z hz
  · rw [List.map_append, hx.1]
    exact (List.prefix_append_right_inj cs).2 calls

/-- A list that stopped has issued a start of its calls. -/
theorem StoppedIn.le {cs : List Call} {xs : List Exchange} {f : Failure}
    (h : StoppedIn cs xs f) : xs.map Exchange.call <+: cs := by
  obtain ⟨_, _, _, _, _, _, calls, _⟩ := h
  exact calls

/-- What stops in a list stops in every longer one. -/
theorem StoppedIn.mono {cs ds : List Call} {xs : List Exchange} {f : Failure}
    (h : StoppedIn cs xs f) (hle : cs <+: ds) : StoppedIn ds xs f := by
  obtain ⟨us, y, e, hxs, answered, failed, calls, hf⟩ := h
  exact ⟨us, y, e, hxs, answered, failed, calls.trans hle, hf⟩

/-- A call that fails is where a list stops that begins with it. -/
theorem StoppedIn.singleton {x : Exchange} {e : CallError} (hx : x.reply = .error e) :
    StoppedIn [x.call] [x] (Failure.ofCall x.call e) :=
  ⟨[], x, e, rfl, fun _ hy => absurd hy List.not_mem_nil, hx, List.prefix_refl _, rfl⟩

namespace Program.Runs

variable {β : Type} {t t' : Nat} {xs : List Exchange}

/-- **Calls made one after the other** are all answered, and what follows goes
on; or they stop at the first that fails. -/
theorem of_performAll_bind {cs : List Call} {k : Unit → Program Failure β}
    {o : Option (Except Failure β)} (h : (performAll cs >>= k).Runs t xs o t') :
    (∃ ys zs between, xs = ys ++ zs ∧ CompletedIn cs ys ∧ (k ()).Runs between zs o t') ∨
    (∃ f, o = some (.error f) ∧ StoppedIn cs xs f) := by
  induction cs generalizing t xs with
  | nil => exact .inl ⟨[], xs, t, rfl, .nil, h⟩
  | cons c cs ih =>
    rw [performAll, bind_assoc] at h
    rcases of_perform_bind h with ⟨answer, back, ys, rfl, -, rest⟩ | ⟨e, rfl, -, rfl⟩
    · rcases ih rest with ⟨us, zs, between, rfl, completed, next⟩ | ⟨f, rfl, stopped⟩
      · have first : CompletedIn [c] [⟨t, c, back, .ok answer⟩] := .singleton ⟨answer, rfl⟩
        exact .inl ⟨_ :: us, zs, between, rfl, first.append completed, next⟩
      · exact .inr ⟨f, rfl, .append (.singleton ⟨answer, rfl⟩) stopped⟩
    · exact .inr ⟨_, rfl, (StoppedIn.singleton rfl).mono (List.prefix_append [c] cs)⟩

/-- Calls that nothing follows. -/
theorem of_performAll {cs : List Call} {o : Option (Except Failure Unit)}
    (h : (performAll cs).Runs t xs o t') :
    (o = some (.ok ()) ∧ CompletedIn cs xs) ∨ ∃ f, o = some (.error f) ∧ StoppedIn cs xs f := by
  rw [← bind_pure (performAll cs)] at h
  rcases of_performAll_bind h with ⟨ys, zs, between, rfl, completed, next⟩ | stopped
  · obtain ⟨rfl, rfl, -⟩ := of_pure next
    rw [List.append_nil]
    exact .inl ⟨rfl, completed⟩
  · exact .inr stopped

end Program.Runs
end Rollout
