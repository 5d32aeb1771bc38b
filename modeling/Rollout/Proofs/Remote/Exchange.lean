/-
# Exchanges

What a program does by itself is a row of exchanges: it issues a call and goes
on with the reply. `Program.Runs` says which rows are possible when nothing is
known of the remote: any reply may come, after any time.

| a program | its exchanges | its result |
| --- | --- | --- |
| has ended | none | its own |
| is cut off | none | none |
| calls | the call with any reply, then those of what follows | that of what follows |
| waits, or asks for the time | those of what follows | that of what follows |

Main statements: a run on any remote is one of these rows (`Program.runs_run`),
and the exchanges of a sequence of programs are those of its parts
(`Program.Runs.of_bind`).
-/

import Rollout.Remote.Run

namespace Rollout

/-- A call and the reply to it, each with its time. -/
structure Exchange where
  issued : Nat
  call : Call
  returned : Nat
  reply : Reply

namespace Exchange

/-- The events of an exchange, in the task at a position. -/
def events (position : Nat) (x : Exchange) : List Event :=
  [.issued position x.issued x.call, .returned position x.returned x.call x.reply]

/-- The call was answered. -/
def IsAnswered (x : Exchange) : Prop :=
  ∃ answer, x.reply = .ok answer

end Exchange

namespace Run

variable {σ β γ : Type} (es : List Event) (r : Run σ β)

@[simp] theorem after_result : (r.after es).result = r.result := rfl

@[simp] theorem after_events : (r.after es).events = es ++ r.events := rfl

@[simp] theorem after_state : (r.after es).state = r.state := rfl

@[simp] theorem after_time : (r.after es).time = r.time := rfl

@[simp] theorem map_result (f : β → γ) : (r.map f).result = r.result.map f := rfl

@[simp] theorem map_events (f : β → γ) : (r.map f).events = r.events := rfl

@[simp] theorem map_state (f : β → γ) : (r.map f).state = r.state := rfl

@[simp] theorem map_time (f : β → γ) : (r.map f).time = r.time := rfl

end Run

namespace Program

variable {ε ε' α β : Type}

/-- `p.Runs t xs o t'`: the program, begun at `t`, can have the exchanges `xs`
and come to its end at `t'`, with the result `o` or cut off. -/
inductive Runs : Program ε α → Nat → List Exchange → Option (Except ε α) → Nat → Prop where
  | ended (r : Except ε α) (t : Nat) : Runs (.ended r) t [] (some r) t
  | unfinished (t : Nat) : Runs .unfinished t [] none t
  | call {c : Call} {next : Reply → Program ε α} {t back t' : Nat} {reply : Reply}
    {xs : List Exchange} {o : Option (Except ε α)} (le : t ≤ back)
    (rest : Runs (next reply) back xs o t') : Runs (.call c next) t (⟨t, c, back, reply⟩ :: xs) o t'
  | sleep {ms : Nat} {p : Program ε α} {t t' : Nat} {xs : List Exchange}
    {o : Option (Except ε α)} (rest : Runs p (t + ms) xs o t') : Runs (.sleep ms p) t xs o t'
  | clock {next : Nat → Program ε α} {t t' : Nat} {xs : List Exchange}
    {o : Option (Except ε α)} (rest : Runs (next t) t xs o t') : Runs (.clock next) t xs o t'

namespace Runs

/-- A program that has ended issues no call and takes no time. -/
theorem of_ended {r : Except ε α} {t t' : Nat} {xs : List Exchange} {o : Option (Except ε α)}
    (h : Runs (.ended r) t xs o t') : xs = [] ∧ o = some r ∧ t' = t := by
  cases h
  exact ⟨rfl, rfl, rfl⟩

/-- What only gives a result issues no call and takes no time. -/
theorem of_pure {a : α} {t t' : Nat} {xs : List Exchange} {o : Option (Except ε α)}
    (h : Runs (pure a) t xs o t') : xs = [] ∧ o = some (.ok a) ∧ t' = t :=
  of_ended h

/-- What fails at once issues no call and takes no time. -/
theorem of_fail {e : ε} {t t' : Nat} {xs : List Exchange} {o : Option (Except ε α)}
    (h : Runs (fail e) t xs o t') : xs = [] ∧ o = some (.error e) ∧ t' = t :=
  of_ended h

/-- **A sequence of two programs** ends in the second, or in the first when that
fails or is cut off. -/
theorem of_bind {p : Program ε α} {k : α → Program ε β} {t t' : Nat} {xs : List Exchange}
    {o : Option (Except ε β)} (h : (p >>= k).Runs t xs o t') :
    (∃ a ys zs between, xs = ys ++ zs ∧ p.Runs t ys (some (.ok a)) between ∧
      (k a).Runs between zs o t') ∨
    (∃ e, o = some (.error e) ∧ p.Runs t xs (some (.error e)) t') ∨
    (o = none ∧ p.Runs t xs none t') := by
  change (p.bind k).Runs t xs o t' at h
  -- Where the first program has ended the run is one of the second; every other step is its own.
  induction p generalizing t xs with
  | ended r =>
    cases r with
    | ok a => exact .inl ⟨a, [], xs, t, rfl, .ended _ _, h⟩
    | error e =>
      obtain ⟨rfl, rfl, rfl⟩ := of_fail h
      exact .inr (.inl ⟨e, rfl, .ended _ _⟩)
  | unfinished =>
    cases h
    exact .inr (.inr ⟨rfl, .unfinished _⟩)
  | call c next ih =>
    cases h with
    | call le rest =>
      rcases ih _ rest with
        ⟨a, ys, zs, between, rfl, first, second⟩ | ⟨e, rfl, first⟩ | ⟨rfl, first⟩
      · exact .inl ⟨a, _ :: ys, zs, between, rfl, .call le first, second⟩
      · exact .inr (.inl ⟨e, rfl, .call le first⟩)
      · exact .inr (.inr ⟨rfl, .call le first⟩)
  | sleep ms p ih =>
    cases h with
    | sleep rest =>
      rcases ih rest with ⟨a, ys, zs, between, rfl, first, second⟩ | ⟨e, rfl, first⟩ | ⟨rfl, first⟩
      · exact .inl ⟨a, ys, zs, between, rfl, .sleep first, second⟩
      · exact .inr (.inl ⟨e, rfl, .sleep first⟩)
      · exact .inr (.inr ⟨rfl, .sleep first⟩)
  | clock next ih =>
    cases h with
    | clock rest =>
      rcases ih _ rest with
        ⟨a, ys, zs, between, rfl, first, second⟩ | ⟨e, rfl, first⟩ | ⟨rfl, first⟩
      · exact .inl ⟨a, ys, zs, between, rfl, .clock first, second⟩
      · exact .inr (.inl ⟨e, rfl, .clock first⟩)
      · exact .inr (.inr ⟨rfl, .clock first⟩)

/-- A sequence that succeeds has succeeded in both parts. -/
theorem of_bind_ok {p : Program ε α} {k : α → Program ε β} {t t' : Nat} {xs : List Exchange}
    {b : β} (h : (p >>= k).Runs t xs (some (.ok b)) t') :
    ∃ a ys zs between, xs = ys ++ zs ∧ p.Runs t ys (some (.ok a)) between ∧
      (k a).Runs between zs (some (.ok b)) t' := by
  rcases of_bind h with h | ⟨e, he, -⟩ | ⟨he, -⟩
  · exact h
  · cases he
  · cases he

/-- A program with another way to end has the same exchanges. -/
theorem of_ending {f : Except ε α → Except ε' β} {p : Program ε α} {t t' : Nat}
    {xs : List Exchange} {o : Option (Except ε' β)} (h : (p.ending f).Runs t xs o t') :
    ∃ o', p.Runs t xs o' t' ∧ o = o'.map f := by
  induction p generalizing t xs with
  | ended r =>
    obtain ⟨rfl, rfl, rfl⟩ := of_ended h
    exact ⟨some r, .ended _ _, rfl⟩
  | unfinished =>
    cases h
    exact ⟨none, .unfinished _, rfl⟩
  | call c next ih =>
    cases h with
    | call le rest =>
      obtain ⟨o', h, rfl⟩ := ih _ rest
      exact ⟨o', .call le h, rfl⟩
  | sleep ms p ih =>
    cases h with
    | sleep rest =>
      obtain ⟨o', h, rfl⟩ := ih rest
      exact ⟨o', .sleep h, rfl⟩
  | clock next ih =>
    cases h with
    | clock rest =>
      obtain ⟨o', h, rfl⟩ := ih _ rest
      exact ⟨o', .clock h, rfl⟩

/-- Time does not go back in a run. -/
theorem le {p : Program ε α} {t t' : Nat} {xs : List Exchange} {o : Option (Except ε α)}
    (h : p.Runs t xs o t') : t ≤ t' := by
  induction h with
  | ended => exact Nat.le_refl _
  | unfinished => exact Nat.le_refl _
  | call le _ ih => exact Nat.le_trans le ih
  | sleep _ ih => omega
  | clock _ ih => exact ih

/-- Every exchange lies between the begin and the end. -/
theorem times {p : Program ε α} {t t' : Nat} {xs : List Exchange} {o : Option (Except ε α)}
    (h : p.Runs t xs o t') : ∀ x ∈ xs, t ≤ x.issued ∧ x.issued ≤ x.returned ∧ x.returned ≤ t' := by
  induction h with
  | ended => exact fun x hx => absurd hx List.not_mem_nil
  | unfinished => exact fun x hx => absurd hx List.not_mem_nil
  | call le rest ih =>
    intro x hx
    rcases List.mem_cons.1 hx with rfl | hx
    · exact ⟨Nat.le_refl _, le, rest.le⟩
    · have := ih x hx
      omega
  | sleep _ ih =>
    intro x hx
    have := ih x hx
    omega
  | clock _ ih => exact ih

/-- **A call** is one exchange: its answer is the result, its error the failure. -/
theorem of_perform {failure : Call → CallError → ε} {c : Call} {t t' : Nat} {xs : List Exchange}
    {o : Option (Except ε String)} (h : (perform failure c).Runs t xs o t') :
    ∃ reply, xs = [⟨t, c, t', reply⟩] ∧ t ≤ t' ∧ o = some (reply.mapError (failure c)) := by
  cases h with
  | @call _ _ _ back _ reply _ _ le rest =>
    cases reply with
    | ok answer =>
      obtain ⟨rfl, rfl, rfl⟩ := of_pure rest
      exact ⟨_, rfl, le, rfl⟩
    | error e =>
      obtain ⟨rfl, rfl, rfl⟩ := of_fail rest
      exact ⟨_, rfl, le, rfl⟩

/-- A call that something follows: either it fails, or what follows goes on with
the answer. -/
theorem of_perform_bind {failure : Call → CallError → ε} {c : Call} {k : String → Program ε β}
    {t t' : Nat} {xs : List Exchange} {o : Option (Except ε β)}
    (h : (perform failure c >>= k).Runs t xs o t') :
    (∃ answer back ys, xs = ⟨t, c, back, .ok answer⟩ :: ys ∧ t ≤ back ∧
      (k answer).Runs back ys o t') ∨
    (∃ e, xs = [⟨t, c, t', .error e⟩] ∧ t ≤ t' ∧ o = some (.error (failure c e))) := by
  rcases of_bind h with ⟨a, ys, zs, back, rfl, first, second⟩ | ⟨e, rfl, first⟩ | ⟨rfl, first⟩
  · obtain ⟨reply, rfl, le, ho⟩ := of_perform first
    cases reply with
    | ok answer =>
      obtain rfl : a = answer := Except.ok.inj (Option.some.inj ho)
      exact .inl ⟨a, back, zs, rfl, le, second⟩
    | error e => cases ho
  · obtain ⟨reply, rfl, le, ho⟩ := of_perform first
    cases reply with
    | ok answer => cases ho
    | error e' =>
      obtain rfl : e = failure c e' := Except.error.inj (Option.some.inj ho)
      exact .inr ⟨e', rfl, le, rfl⟩
  · obtain ⟨reply, -, -, ho⟩ := of_perform first
    cases ho

/-- Looking at the clock takes no time and gives the time at which the rest starts. -/
theorem of_now_bind {k : Nat → Program ε β} {t t' : Nat} {xs : List Exchange}
    {o : Option (Except ε β)} (h : (now >>= k).Runs t xs o t') : (k t).Runs t xs o t' := by
  cases h with
  | clock rest => exact rest

/-- A pause takes its time, and the rest starts behind it. -/
theorem of_pause_bind {ms : Nat} {k : Unit → Program ε β} {t t' : Nat} {xs : List Exchange}
    {o : Option (Except ε β)} (h : (pause ms >>= k).Runs t xs o t') :
    (k ()).Runs (t + ms) xs o t' := by
  cases h with
  | sleep rest => exact rest

/-- An attempt that something follows: what follows goes on with the result,
whether it is an error or not. -/
theorem of_attempt_bind {p : Program ε α} {k : Except ε α → Program ε β} {t t' : Nat}
    {xs : List Exchange} {o : Option (Except ε β)} (h : (p.attempt >>= k).Runs t xs o t') :
    (∃ r ys zs between, xs = ys ++ zs ∧ p.Runs t ys (some r) between ∧
      (k r).Runs between zs o t') ∨
    (o = none ∧ p.Runs t xs none t') := by
  rcases of_bind h with ⟨r, ys, zs, between, rfl, first, second⟩ | ⟨e, -, first⟩ | ⟨rfl, first⟩
  · obtain ⟨o', first, ho⟩ := of_ending first
    cases o' with
    | none => cases ho
    | some r' =>
      obtain rfl : r = r' := Except.ok.inj (Option.some.inj ho)
      exact .inl ⟨r, ys, zs, between, rfl, first, second⟩
  · obtain ⟨o', -, ho⟩ := of_ending first
    cases o' with
    | none => cases ho
    | some r' => cases ho
  · obtain ⟨o', first, ho⟩ := of_ending first
    cases o' with
    | none => exact .inr ⟨rfl, first⟩
    | some r' => cases ho

end Runs

/-- **A run on a remote** is one of the program's rows of exchanges. -/
theorem runs_run {σ : Type} (remote : Remote σ) (position : Nat) (p : Program ε α) (s : σ)
    (t : Nat) :
    ∃ xs, (p.run remote position s t).events = xs.flatMap (Exchange.events position) ∧
      p.Runs t xs (p.run remote position s t).result (p.run remote position s t).time := by
  induction p generalizing s t with
  | ended r => exact ⟨[], rfl, .ended _ _⟩
  | unfinished => exact ⟨[], rfl, .unfinished _⟩
  | call c next ih =>
    obtain ⟨xs, hxs, runs⟩ :=
      ih (remote.answer s c).1 (remote.answer s c).2 (t + remote.latency s c)
    refine ⟨⟨t, c, t + remote.latency s c, (remote.answer s c).1⟩ :: xs, ?_,
      .call (Nat.le_add_right _ _) runs⟩
    rw [List.flatMap_cons, ← hxs]
    rfl
  | sleep ms p ih =>
    obtain ⟨xs, hxs, runs⟩ := ih s (t + ms)
    exact ⟨xs, hxs, .sleep runs⟩
  | clock next ih =>
    obtain ⟨xs, hxs, runs⟩ := ih t s t
    exact ⟨xs, hxs, .clock runs⟩

end Program
end Rollout
