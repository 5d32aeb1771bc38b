/-
# Written points in time

A point in time counts the nanoseconds since the start of 1970 in coordinated
universal time. It is written `YYYY-MM-DDThh:mm:ss`, then the fraction of the
second in three, six or nine digits if it is not zero, then `+00:00`.

Days are counted from the first of March of the year 0, so that the leap day is
the last of its year; 400 years have 146097 days.
-/

namespace Rollout

/-- A day of the Gregorian calendar. -/
structure Day where
  year : Nat
  month : Nat
  day : Nat
  deriving DecidableEq, Repr

/-- The day that comes so many days after the first of January 1970. -/
def Day.ofCount (days : Nat) : Day :=
  let n := days + 719468
  let d := n % 146097
  let y := (d - d / 1460 + d / 36524 - d / 146096) / 365
  let inYear := d - (365 * y + y / 4 - y / 100)
  let m := (5 * inYear + 2) / 153
  let month := if m < 10 then m + 3 else m - 9
  let year := y + n / 146097 * 400
  ⟨if month ≤ 2 then year + 1 else year, month, inYear - (153 * m + 2) / 5 + 1⟩

namespace Timestamp

/-- A number in so many digits at least. -/
def padded (width n : Nat) : String :=
  let digits := Nat.toDigits 10 n
  String.ofList (List.replicate (width - digits.length) '0' ++ digits)

/-- The fraction of a second. -/
def fraction (nanoseconds : Nat) : String :=
  if nanoseconds = 0 then ""
  else if nanoseconds % 1000000 = 0 then "." ++ padded 3 (nanoseconds / 1000000)
  else if nanoseconds % 1000 = 0 then "." ++ padded 6 (nanoseconds / 1000)
  else "." ++ padded 9 nanoseconds

/-- A point in time, written out. -/
def text (nanoseconds : Nat) : String :=
  let seconds := nanoseconds / 1000000000
  let day := Day.ofCount (seconds / 86400)
  padded 4 day.year ++ "-" ++ padded 2 day.month ++ "-" ++ padded 2 day.day ++ "T" ++
    padded 2 (seconds / 3600 % 24) ++ ":" ++ padded 2 (seconds / 60 % 60) ++ ":" ++
    padded 2 (seconds % 60) ++ fraction (nanoseconds % 1000000000) ++ "+00:00"

end Timestamp
end Rollout
