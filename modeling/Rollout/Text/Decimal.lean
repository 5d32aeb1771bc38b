/-
# Decimal numbers

A decimal is digits with perhaps a full stop among them, and perhaps an
exponent of ten after `e` or `E`. There is at least one digit before the
exponent, and one in it. It is read as the nearest floating-point number.
-/

import Rollout.Text.Digits

namespace Rollout
namespace Text

/-- A number that is not negative: `mantissa * 10 ^ exponent`. -/
structure Decimal where
  mantissa : Nat
  exponent : Int
  deriving DecidableEq, Repr

namespace Decimal

/-- Reads an exponent after its letter. -/
def exponent? (cs : List Char) : Option Int :=
  let (negative, ds) := match cs with
    | '-' :: ds => (true, ds)
    | '+' :: ds => (false, ds)
    | ds => (false, ds)
  if ds.isEmpty || !ds.all Char.isDigit then none
  else
    let n : Int := digitsValue 10 ds
    some (if negative then -n else n)

/-- The decimal that a text is. -/
def read? (cs : List Char) : Option Decimal :=
  let whole := cs.takeWhile Char.isDigit
  let rest := cs.dropWhile Char.isDigit
  let (fraction, rest) := match rest with
    | '.' :: rest => (rest.takeWhile Char.isDigit, rest.dropWhile Char.isDigit)
    | rest => ([], rest)
  let digits := whole ++ fraction
  let scale : Int := -(fraction.length : Int)
  if digits.isEmpty then none
  else
    match rest with
    | [] => some ⟨digitsValue 10 digits, scale⟩
    | c :: rest =>
      if c = 'e' ∨ c = 'E' then
        (exponent? rest).map fun e => ⟨digitsValue 10 digits, scale + e⟩
      else none

/-- The order of magnitude: the number lies below ten to this power, and not
below a tenth of that. -/
def magnitude (d : Decimal) : Int :=
  (Nat.toDigits 10 d.mantissa).length + d.exponent

/-- The nearest floating-point number. Numbers from `10 ^ 310` up are beyond all
of them, and numbers below `10 ^ (-400)` are nearest to zero. -/
def toFloat (d : Decimal) : Float :=
  if d.mantissa = 0 || d.magnitude < -400 then 0.0
  else if d.magnitude > 310 then 1.0 / 0.0
  else Float.ofScientific d.mantissa (d.exponent < 0) d.exponent.natAbs

/-- The nearest floating-point number is not infinite. -/
def isFinite (d : Decimal) : Bool :=
  d.toFloat.isFinite

end Decimal
end Text
end Rollout
