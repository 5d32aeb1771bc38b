/-
# Overflow

Sizes and positions are words of 64 bits. A sum or a product that is no word
ends the program where it is computed: nobody handles an overflow, and nothing
is put before it.

| an operation halts | the program |
| --- | --- |
| because it has failed | may go on; the failure is reported |
| by an overflow | ends, with a text and an exit code of its own |
-/

namespace Rollout

/-- The operations whose result may be no word. -/
inductive Overflow where
  | multiply
  | add
  deriving DecidableEq, Repr

/-- The words for an overflow. -/
def Overflow.message : Overflow → String
  | multiply => "attempt to multiply with overflow"
  | add => "attempt to add with overflow"

/-- The exit code of a program that an overflow has ended. -/
def Overflow.exitCode : UInt32 := 101

/-- The result of an operation as a word. -/
def wordOf (operation : Overflow) (result : Nat) : Except Overflow UInt64 :=
  if result < UInt64.size then .ok (UInt64.ofNat result) else .error operation

/-- **A result is a word** exactly when it is small enough, and then it is exact. -/
theorem wordOf_eq_ok {operation : Overflow} {result : Nat} {w : UInt64} :
    wordOf operation result = .ok w ↔ w.toNat = result := by
  unfold wordOf
  split
  · rename_i small
    rw [Except.ok.injEq, ← UInt64.toNat_inj, UInt64.toNat_ofNat_of_lt' small, eq_comm]
  · rename_i large
    refine ⟨nofun, ?_⟩
    rintro rfl
    exact absurd w.toNat_lt large

/-- A result that is no word overflows its own operation. -/
theorem wordOf_eq_error {operation o : Overflow} {result : Nat} :
    wordOf operation result = .error o ↔ UInt64.size ≤ result ∧ operation = o := by
  unfold wordOf
  split
  · rename_i small
    exact ⟨nofun, fun h => absurd small (Nat.not_lt.2 h.1)⟩
  · rename_i large
    rw [Except.error.injEq, and_iff_right (Nat.le_of_not_lt large)]

/-- Why an operation has no result. -/
inductive Halt (ε : Type) where
  | failed (error : ε)
  | overflow (operation : Overflow)
  deriving DecidableEq, Repr

/-- A result that is not an error is one whatever an error is taken for. -/
theorem mapError_eq_ok {ε ε' α : Type} {f : ε → ε'} {r : Except ε α} {a : α} :
    r.mapError f = .ok a ↔ r = .ok a := by
  cases r with
  | ok b =>
    exact ⟨fun h => congrArg Except.ok (Except.ok.inj h),
      fun h => congrArg Except.ok (Except.ok.inj h)⟩
  | error e => exact ⟨nofun, nofun⟩

/-- An error is what the one behind it is taken for. -/
theorem mapError_eq_error {ε ε' α : Type} {f : ε → ε'} {r : Except ε α} {e' : ε'} :
    r.mapError f = .error e' ↔ ∃ e, r = .error e ∧ e' = f e := by
  cases r with
  | ok a =>
    refine ⟨nofun, ?_⟩
    rintro ⟨e, none, -⟩
    cases none
  | error e =>
    constructor
    · intro h
      exact ⟨e, rfl, (Except.error.inj h).symm⟩
    · rintro ⟨e, same, rfl⟩
      cases same
      rfl

end Rollout
