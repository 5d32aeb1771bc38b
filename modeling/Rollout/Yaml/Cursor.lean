/-
# The characters of a YAML text

A YAML text holds only printable characters, tabs and line breaks. A byte order
mark at its start is not part of it. Carriage return, carriage return with line
feed, and next line are read as line feed; the line and paragraph separators
break lines as well, and stay what they are.

| class | characters |
| --- | --- |
| gap | space, tab |
| break | line feed, `2028`, `2029` |
| word character | ASCII letters and digits, `_`, `-` |
-/

import Rollout.Text.Blank

namespace Rollout
namespace Yaml

/-- A character that may stand in a YAML text. -/
def isAllowed (c : Char) : Bool :=
  let n := c.toNat
  n == 0x9 || n == 0xA || n == 0xD || (0x20 ≤ n && n ≤ 0x7E) || n == 0x85 ||
    (0xA0 ≤ n && n ≤ 0xD7FF) || (0xE000 ≤ n && n ≤ 0xFFFD) || 0x10000 ≤ n

/-- The byte order mark. -/
def byteOrderMark : Char := '\ufeff'

/-- The text with line feeds for the line breaks that are read as such. -/
def unifyBreaks : List Char → List Char
  | [] => []
  | '\r' :: '\n' :: cs => '\n' :: unifyBreaks cs
  | c :: cs => (if c = '\r' ∨ c = '\u0085' then '\n' else c) :: unifyBreaks cs

/-- The characters of a YAML text, if all of them are allowed. -/
def characters? (cs : List Char) : Option (List Char) :=
  let body := match cs with
    | c :: rest => if c = byteOrderMark then rest else cs
    | [] => []
  if body.all isAllowed then some (unifyBreaks body) else none

/-- A space or a tab. -/
def isGap (c : Char) : Bool :=
  c == ' ' || c == '\t'

/-- A character that ends a line. -/
def isBreak (c : Char) : Bool :=
  c == '\n' || c == '\u2028' || c == '\u2029'

/-- A gap or a break. -/
def isGapOrBreak (c : Char) : Bool :=
  isGap c || isBreak c

/-- The text is at its end or goes on with a gap or a break. -/
def atBlank : List Char → Bool
  | [] => true
  | c :: _ => isGapOrBreak c

/-- The text is at its end or goes on with a break. -/
def atBreak : List Char → Bool
  | [] => true
  | c :: _ => isBreak c

/-- A word character. -/
def isWord (c : Char) : Bool :=
  c.isAlphanum || c == '_' || c == '-'

/-- The text starts with three hyphens or three full stops that stand alone. -/
def startsDocumentMark : List Char → Bool
  | a :: b :: c :: rest => (a == '-' || a == '.') && a == b && b == c && atBlank rest
  | _ => false

/-- A place in a text: what is left of it, and how far the place is from the
start, in all and on its line. -/
structure Cursor where
  rest : List Char
  index : Nat
  line : Nat
  column : Nat
  deriving Repr

namespace Cursor

/-- The start of a text. -/
def start (cs : List Char) : Cursor :=
  ⟨cs, 0, 0, 0⟩

/-- The place after one character. -/
def next (c : Cursor) : Cursor :=
  match c.rest with
  | [] => c
  | x :: xs =>
    if isBreak x then ⟨xs, c.index + 1, c.line + 1, 0⟩
    else ⟨xs, c.index + 1, c.line, c.column + 1⟩

/-- The place after some characters, none of which is a break. -/
def advance (c : Cursor) (n : Nat) : Cursor :=
  ⟨c.rest.drop n, c.index + n, c.line, c.column + n⟩

/-- The characters from here on that satisfy `p`, and the place after them.
No break may satisfy `p`. -/
def takeWhile (c : Cursor) (p : Char → Bool) : List Char × Cursor :=
  let cs := c.rest.takeWhile p
  (cs, ⟨c.rest.dropWhile p, c.index + cs.length, c.line, c.column + cs.length⟩)

/-- The place after the gaps. -/
def skipGaps (c : Cursor) : Cursor :=
  (c.takeWhile isGap).2

/-- The place at the end of the line. -/
def skipLine (c : Cursor) : Cursor :=
  (c.takeWhile fun x => !isBreak x).2

/-- The place after one break, if there is one. -/
def skipBreak (c : Cursor) : Cursor :=
  if atBreak c.rest then c.next else c

/-- The start of the next line, if only gaps and a comment come before it. -/
def endLine? (c : Cursor) : Option Cursor :=
  let c := c.skipGaps
  let c := if c.rest.head? = some '#' then c.skipLine else c
  if atBreak c.rest then some c.skipBreak else none

end Cursor
end Yaml
end Rollout
