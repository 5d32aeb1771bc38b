/-
# Reading JSON

Blanks between the parts of a text do not count. A string may hold any
character but quotation marks, backslashes and those below `0020`; these are
escaped, as any others may be. Two escapes `\uD800`–`\uDBFF` and
`\uDC00`–`\uDFFF` are one character together.
-/

import Rollout.Json.Value
import Rollout.Text.Digits

namespace Rollout
namespace Json

/-- A blank between the parts of a text. -/
def isSpace (c : Char) : Bool :=
  c == ' ' || c == '\t' || c == '\n' || c == '\r'

/-- The text without the blanks it starts with. -/
def skipSpace (cs : List Char) : List Char :=
  cs.dropWhile isSpace

/-- The number that four hexadecimal digits are. -/
def unit? (a b c d : Char) : Option Nat :=
  if [a, b, c, d].all Text.isHex then some (Text.digitsValue 16 [a, b, c, d]) else none

/-- The character that an escape of one letter stands for. -/
def letterEscape? : Char → Option Char
  | '"' => some '"'
  | '\\' => some '\\'
  | '/' => some '/'
  | 'b' => some '\x08'
  | 'f' => some '\x0c'
  | 'n' => some '\n'
  | 'r' => some '\r'
  | 't' => some '\t'
  | _ => none

/-- The character that two halves make. -/
def pairedCharacter? (high low : Nat) : Option Char :=
  if 0xD800 ≤ high ∧ high < 0xDC00 ∧ 0xDC00 ≤ low ∧ low < 0xE000 then
    some (Char.ofNat (0x10000 + (high - 0xD800) * 0x400 + (low - 0xDC00)))
  else none

/-- A character and what follows it. -/
def withRest (rest : List Char) (c : Option Char) : Option (Char × List Char) :=
  c.map fun c => (c, rest)

/-- Reads an escape after its backslash. -/
def escape? : List Char → Option (Char × List Char)
  | 'u' :: a :: b :: c :: d :: rest =>
    match unit? a b c d with
    | none => none
    | some n =>
      if n.isValidChar then some (Char.ofNat n, rest)
      else
        match rest with
        | '\\' :: 'u' :: e :: f :: g :: h :: rest =>
          (unit? e f g h).bind fun m => withRest rest (pairedCharacter? n m)
        | _ => none
  | c :: rest => withRest rest (letterEscape? c)
  | [] => none

/-- An escape takes at least one character. -/
theorem length_escape? {cs rest : List Char} {c : Char} (h : escape? cs = some (c, rest)) :
    rest.length < cs.length := by
  unfold escape? at h
  split at h
  · split at h
    · simp at h
    · split at h
      · simp only [Option.some.injEq, Prod.mk.injEq] at h
        simp only [← h.2, List.length_cons]
        omega
      · split at h
        · simp only [withRest, Option.bind_eq_some_iff, Option.map_eq_some_iff, Prod.mk.injEq] at h
          obtain ⟨_, _, _, _, _, rfl⟩ := h
          simp only [List.length_cons]
          omega
        · simp at h
  · simp only [withRest, Option.map_eq_some_iff, Prod.mk.injEq] at h
    obtain ⟨_, _, _, rfl⟩ := h
    simp
  · simp at h

/-- Reads a string after its first quotation mark. -/
def string? (read : List Char) : List Char → Option (String × List Char)
  | [] => none
  | '"' :: rest => some (String.ofList read.reverse, rest)
  | '\\' :: rest =>
    match _h : escape? rest with
    | some (c, rest) => string? (c :: read) rest
    | none => none
  | c :: rest => if c.toNat < 0x20 then none else string? (c :: read) rest
termination_by cs => cs.length
decreasing_by
  · exact Nat.lt_succ_of_lt (length_escape? _h)
  · simp

/-- Reads digits, at least one. -/
def someDigits? (cs : List Char) : Option (List Char × List Char) :=
  match cs.takeWhile Char.isDigit with
  | [] => none
  | ds => some (ds, cs.dropWhile Char.isDigit)

/-- Reads the whole part of a number: no other digit follows a leading zero. -/
def wholePart? : List Char → Option (List Char × List Char)
  | '0' :: rest => some (['0'], rest)
  | cs => someDigits? cs

/-- Reads the fraction of a number, if it has one. -/
def fractionPart? : List Char → Option (List Char × List Char)
  | '.' :: rest => (someDigits? rest).map fun (ds, rest) => ('.' :: ds, rest)
  | cs => some ([], cs)

/-- Reads the exponent of a number, if it has one. -/
def exponentPart? : List Char → Option (List Char × List Char)
  | c :: rest =>
    if c = 'e' ∨ c = 'E' then
      match rest with
      | s :: ds =>
        if s = '+' ∨ s = '-' then (someDigits? ds).map fun (ds, rest) => (c :: s :: ds, rest)
        else (someDigits? rest).map fun (ds, rest) => (c :: ds, rest)
      | [] => none
    else some ([], c :: rest)
  | [] => some ([], [])

/-- Reads a number. -/
def number? (cs : List Char) : Option (String × List Char) := do
  let (sign, cs) := match cs with
    | '-' :: rest => (['-'], rest)
    | rest => ([], rest)
  let (whole, cs) ← wholePart? cs
  let (fraction, cs) ← fractionPart? cs
  let (exponent, cs) ← exponentPart? cs
  return (String.ofList (sign ++ whole ++ fraction ++ exponent), cs)

/-- What is left after a word. -/
def word? (word : String) (cs : List Char) : Option (List Char) :=
  if word.toList.isPrefixOf cs then some (cs.drop word.length) else none

mutual

/-- Reads a value, in `steps` steps at most; each takes a character at least. -/
def value? : (steps : Nat) → List Char → Option (Value × List Char)
  | 0, _ => none
  | steps + 1, cs =>
    match cs with
    | '"' :: rest => (string? [] rest).map fun (s, rest) => (.string s, rest)
    | '[' :: rest =>
      match skipSpace rest with
      | ']' :: rest => some (.array [], rest)
      | rest => (items? steps rest).map fun (vs, rest) => (.array vs, rest)
    | '{' :: rest =>
      match skipSpace rest with
      | '}' :: rest => some (.object [], rest)
      | rest => (members? steps rest).map fun (ms, rest) => (.object ms, rest)
    | 'n' :: _ => (word? "null" cs).map fun rest => (.null, rest)
    | 't' :: _ => (word? "true" cs).map fun rest => (.bool true, rest)
    | 'f' :: _ => (word? "false" cs).map fun rest => (.bool false, rest)
    | cs => (number? cs).map fun (text, rest) => (.number text, rest)

/-- Reads the items of an array and its end. -/
def items? : (steps : Nat) → List Char → Option (List Value × List Char)
  | 0, _ => none
  | steps + 1, cs => do
    let (v, rest) ← value? steps cs
    match skipSpace rest with
    | ']' :: rest => some ([v], rest)
    | ',' :: rest =>
      let (vs, rest) ← items? steps (skipSpace rest)
      some (v :: vs, rest)
    | _ => none

/-- Reads the members of an object and its end. -/
def members? : (steps : Nat) → List Char → Option (List (String × Value) × List Char)
  | 0, _ => none
  | steps + 1, cs =>
    match cs with
    | '"' :: rest => do
      let (k, rest) ← string? [] rest
      match skipSpace rest with
      | ':' :: rest =>
        let (v, rest) ← value? steps (skipSpace rest)
        match skipSpace rest with
        | '}' :: rest => some ([(k, v)], rest)
        | ',' :: rest =>
          let (ms, rest) ← members? steps (skipSpace rest)
          some ((k, v) :: ms, rest)
        | _ => none
      | _ => none
    | _ => none

end

/-- The value that a text is. -/
def read? (text : String) : Option Value :=
  let cs := skipSpace text.toList
  match value? (cs.length + 1) cs with
  | some (v, rest) => if (skipSpace rest).isEmpty then some v else none
  | none => none

end Json
end Rollout
