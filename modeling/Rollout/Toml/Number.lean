/-
# Numbers of a TOML text

| number | written |
| --- | --- |
| integer | digits in radix ten, with a sign or without |
| integer | `0x`, `0o` or `0b` and digits, without a sign |
| float | digits in radix ten, then a fraction, an exponent or both |
| float | `inf` or `nan`, with a sign or without |

A single underscore may stand between two digits. Digits in radix ten do not
start with a zero that others follow, unless they are a fraction or an
exponent.
-/

import Rollout.Text.Decimal

namespace Rollout
namespace Toml

/-- A floating-point number as it is written. -/
inductive FloatNumber where
  | decimal (negative : Bool) (size : Text.Decimal)
  | infinite (negative : Bool)
  | notANumber
  deriving DecidableEq, Repr

/-- The number is not so large that no floating-point number is near it. -/
def FloatNumber.isInRange : FloatNumber → Bool
  | decimal _ size => size.isFinite
  | infinite _ | notANumber => true

/-- The digits of a row with single underscores between digits. -/
def digits? (isDigit : Char → Bool) : List Char → Option (List Char)
  | [] => none
  | [c] => if isDigit c then some [c] else none
  | c :: '_' :: rest => if isDigit c then (digits? isDigit rest).map (c :: ·) else none
  | c :: rest => if isDigit c then (digits? isDigit rest).map (c :: ·) else none

/-- The digits of a row in radix ten that does not start with an idle zero. -/
def wholeDigits? (cs : List Char) : Option (List Char) :=
  match cs with
  | '0' :: _ :: _ => none
  | _ => digits? Char.isDigit cs

/-- The sign of a number, minus or not, and the rest of it; the sign may be
missing. -/
def signed : List Char → Bool × List Char
  | '-' :: rest => (true, rest)
  | '+' :: rest => (false, rest)
  | cs => (false, cs)

/-- The digit is one of the radix. -/
def isDigitBelow (radix : Nat) (c : Char) : Bool :=
  match Text.hexValue? c with
  | some n => n < radix
  | none => false

/-- The integer that a text is. -/
def integer? (cs : List Char) : Option Int :=
  let inRadix := fun radix ds => (digits? (isDigitBelow radix) ds).map fun ds =>
    (Text.digitsValue radix ds : Int)
  match cs with
  | '0' :: 'x' :: ds => inRadix 16 ds
  | '0' :: 'o' :: ds => inRadix 8 ds
  | '0' :: 'b' :: ds => inRadix 2 ds
  | cs =>
    let (negative, ds) := signed cs
    (wholeDigits? ds).map fun ds =>
      let n : Int := Text.digitsValue 10 ds
      if negative then -n else n

/-- A digit or an underscore. -/
def isNumeral (c : Char) : Bool :=
  c.isDigit || c == '_'

/-- Reads the fraction of a float, if it has one. -/
def fraction? : List Char → Option (List Char × List Char)
  | '.' :: rest => (digits? Char.isDigit (rest.takeWhile isNumeral)).map fun ds =>
      (ds, rest.dropWhile isNumeral)
  | cs => some ([], cs)

/-- The exponent of a float, zero if it has none. -/
def exponent? : List Char → Option Int
  | [] => some 0
  | c :: rest =>
    if c = 'e' ∨ c = 'E' then
      let (negative, ds) := signed rest
      (digits? Char.isDigit ds).map fun ds =>
        let n : Int := Text.digitsValue 10 ds
        if negative then -n else n
    else none

/-- The decimal that a text without a sign is. -/
def size? (cs : List Char) : Option Text.Decimal := do
  let whole ← wholeDigits? (cs.takeWhile isNumeral)
  let (fraction, rest) ← fraction? (cs.dropWhile isNumeral)
  let exponent ← exponent? rest
  return ⟨Text.digitsValue 10 (whole ++ fraction), exponent - fraction.length⟩

/-- The floating-point number that a text is. -/
def float? (cs : List Char) : Option FloatNumber :=
  let (negative, rest) := signed cs
  if rest = ['i', 'n', 'f'] then some (.infinite negative)
  else if rest = ['n', 'a', 'n'] then some .notANumber
  else (size? rest).map (.decimal negative)

end Toml
end Rollout
