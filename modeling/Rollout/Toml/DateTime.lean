/-
# Dates and times of a TOML text

| part | written |
| --- | --- |
| date | `YYYY-MM-DD`, a day of the Gregorian calendar |
| time | `HH:MM`, then perhaps `:SS`, then perhaps a full stop and digits |
| offset | `Z`, or a sign and `HH:MM` |

A text is a date, a time, or a date and a time with a `T` or a space between
them; only the last may end in an offset. Letters may be small ones. A minute
may have a second 60.
-/

import Rollout.Text.Digits

namespace Rollout
namespace Toml

/-- The number of two digits that is at most `last`. -/
def twoDigits? (last : Nat) (a b : Char) : Option Nat :=
  if a.isDigit && b.isDigit then
    let n := Text.digitsValue 10 [a, b]
    if n ≤ last then some n else none
  else none

/-- The year has a 29th of February. -/
def isLeapYear (year : Nat) : Bool :=
  (year % 4 == 0 && year % 100 != 0) || year % 400 == 0

/-- The number of days in a month. -/
def daysInMonth (year month : Nat) : Nat :=
  if month = 2 then if isLeapYear year then 29 else 28
  else if month = 4 ∨ month = 6 ∨ month = 9 ∨ month = 11 then 30
  else 31

/-- What follows the date that the text starts with. -/
def afterDate? : List Char → Option (List Char)
  | a :: b :: c :: d :: '-' :: m :: n :: '-' :: x :: y :: rest => do
    let century ← twoDigits? 99 a b
    let year ← twoDigits? 99 c d
    let month ← twoDigits? 12 m n
    let day ← twoDigits? (daysInMonth (century * 100 + year) month) x y
    if month = 0 ∨ day = 0 then none else some rest
  | _ => none

/-- What follows the fraction of a second, if the text starts with one. -/
def afterFraction? : List Char → Option (List Char)
  | '.' :: c :: rest => if c.isDigit then some (rest.dropWhile Char.isDigit) else none
  | '.' :: [] => none
  | cs => some cs

/-- What follows the time that the text starts with. -/
def afterTime? : List Char → Option (List Char)
  | a :: b :: ':' :: c :: d :: rest => do
    let _ ← twoDigits? 23 a b
    let _ ← twoDigits? 59 c d
    match rest with
    | ':' :: e :: f :: rest =>
      let _ ← twoDigits? 60 e f
      afterFraction? rest
    | rest => some rest
  | _ => none

/-- The text is an offset. -/
def isOffset : List Char → Bool
  | [z] => z == 'Z' || z == 'z'
  | [s, a, b, ':', c, d] =>
    (s == '+' || s == '-') && (twoDigits? 23 a b).isSome && (twoDigits? 59 c d).isSome
  | _ => false

/-- The character stands between a date and a time. -/
def joinsDateTime (c : Char) : Bool :=
  c == 'T' || c == 't' || c == ' '

/-- The text is a date, a time or both. -/
def isDateTime (cs : List Char) : Bool :=
  match afterDate? cs with
  | none => afterTime? cs == some []
  | some [] => true
  | some (c :: rest) =>
    joinsDateTime c &&
      match afterTime? rest with
      | some rest => rest.isEmpty || isOffset rest
      | none => false

end Toml
end Rollout
