/-
# Written durations

Durations are whole milliseconds. They are written in seconds from one second
up, else in milliseconds; a fraction has no trailing zeros, and nothing at all
is `0ns`.
-/

namespace Rollout
namespace Duration

/-- Three decimal places of a fraction of a second, without trailing zeros. -/
def fractionText (ms : Nat) : String :=
  if ms % 10 ≠ 0 then
    String.ofList [Nat.digitChar (ms / 100), Nat.digitChar (ms / 10 % 10), Nat.digitChar (ms % 10)]
  else if ms / 10 % 10 ≠ 0 then
    String.ofList [Nat.digitChar (ms / 100), Nat.digitChar (ms / 10 % 10)]
  else String.ofList [Nat.digitChar (ms / 100)]

/-- A duration of whole milliseconds, written out. -/
def text (ms : Nat) : String :=
  if ms = 0 then "0ns"
  else if ms < 1000 then toString ms ++ "ms"
  else if ms % 1000 = 0 then toString (ms / 1000) ++ "s"
  else toString (ms / 1000) ++ "." ++ fractionText (ms % 1000) ++ "s"

end Duration
end Rollout
