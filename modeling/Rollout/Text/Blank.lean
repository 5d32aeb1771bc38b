/-
# Blank characters and trimming

Blank characters are those with the Unicode property `White_Space`:

| range | characters |
| --- | --- |
| `0009`–`000D` | tab, line feed, vertical tab, form feed, carriage return |
| `0020`, `0085`, `00A0` | space, next line, no-break space |
| `1680`, `2000`–`200A`, `202F`, `205F`, `3000` | the typographic spaces |
| `2028`, `2029` | line and paragraph separator |

The zero-width space and the byte order mark are not blank.
-/

namespace Rollout
namespace Text

/-- The character has the Unicode property `White_Space`. -/
def isBlank (c : Char) : Bool :=
  let n := c.toNat
  (0x09 ≤ n && n ≤ 0x0D) || n == 0x20 || n == 0x85 || n == 0xA0 || n == 0x1680 ||
    (0x2000 ≤ n && n ≤ 0x200A) || n == 0x2028 || n == 0x2029 || n == 0x202F || n == 0x205F ||
    n == 0x3000

/-- The text without the blanks it starts with. -/
def trimStart (cs : List Char) : List Char :=
  cs.dropWhile isBlank

/-- The text without the blanks it ends with. -/
def trimEnd (cs : List Char) : List Char :=
  (trimStart cs.reverse).reverse

/-- The text without the blanks at either end. -/
def trim (cs : List Char) : List Char :=
  trimEnd (trimStart cs)

/-- A string without the blanks at either end. -/
def trimmed (s : String) : String :=
  String.ofList (trim s.toList)

/-- What is left after `start`, if the text begins with it. -/
def stripStart? (start : List Char) (cs : List Char) : Option (List Char) :=
  match start, cs with
  | [], cs => some cs
  | _ :: _, [] => none
  | s :: ss, c :: cs => if s = c then stripStart? ss cs else none

/-- What is left before `ending`, if the text ends with it. -/
def stripEnd? (ending : List Char) (cs : List Char) : Option (List Char) :=
  (stripStart? ending.reverse cs.reverse).map List.reverse

/-- The text begins with `start`. -/
def startsWith (start cs : List Char) : Bool :=
  (stripStart? start cs).isSome

/-- The text ends with `ending`. -/
def endsWith (ending cs : List Char) : Bool :=
  (stripEnd? ending cs).isSome

/-- The text before and after the first occurrence of `mark`. -/
def splitFirst? (mark : List Char) (cs : List Char) : Option (List Char × List Char) :=
  match stripStart? mark cs, cs with
  | some rest, _ => some ([], rest)
  | none, [] => none
  | none, c :: cs => (splitFirst? mark cs).map fun (before, after) => (c :: before, after)

/-- The text contains `mark`. -/
def contains (mark cs : List Char) : Bool :=
  (splitFirst? mark cs).isSome

/-- The text after the last `sep`, if there is one. -/
def afterLast? (sep : Char) : List Char → Option (List Char)
  | [] => none
  | c :: cs =>
    match afterLast? sep cs with
    | some tail => some tail
    | none => if c = sep then some cs else none

/-- The text before the last `sep`, if there is one. -/
def beforeLast? (sep : Char) : List Char → Option (List Char)
  | [] => none
  | c :: cs =>
    match beforeLast? sep cs with
    | some head => some (c :: head)
    | none => if c = sep then some [] else none

end Text
end Rollout
