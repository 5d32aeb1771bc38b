/-
# Reading TOML

A text is a row of lines, each with a header or a key and its value, or with
nothing at all; gaps around the parts and a comment at the end do not count.

| part | written |
| --- | --- |
| header | a key in single or double brackets |
| key | parts with full stops between them |
| part of a key | a word of letters, digits, `_` and `-`, or a string of one line |
| array | values in brackets, with commas between them |
| closed table | keys and values in braces, with commas between them |

Inside of brackets and braces there may be line ends and comments, and a comma
after the last item. Values are nested up to a depth of 80, and a key has up to
80 parts.
-/

import Rollout.Toml.DateTime
import Rollout.Toml.Quoted
import Rollout.Toml.Value

namespace Rollout
namespace Toml

/-- The greatest depth of a value, and the greatest number of parts of a key. -/
def depthLimit : Nat := 80

/-- A character of a word in a key. -/
def isWord (c : Char) : Bool :=
  c.isAlphanum || c == '_' || c == '-'

/-- Reads one part of a key. -/
def keyPart? (cs : List Char) : Option (String × List Char) :=
  match shortString? cs with
  | some (text, rest) => some (String.ofList text, rest)
  | none =>
    match cs.takeWhile isWord with
    | [] => none
    | word => some (String.ofList word, cs.dropWhile isWord)

/-- A key: the parts it leads through, and its last one. -/
structure Key where
  path : List String
  name : String
  deriving DecidableEq, Repr

/-- Reads a key of so many parts at most, and the gaps after it. -/
def key? : (parts : Nat) → List Char → Option (Key × List Char)
  | 0, _ => none
  | parts + 1, cs => do
    let (part, rest) ← keyPart? cs
    match skipGaps rest with
    | '.' :: rest =>
      let (key, rest) ← key? parts (skipGaps rest)
      some (⟨part :: key.path, key.name⟩, rest)
    | rest => some (⟨[], part⟩, rest)

/-- A character that does not end a value without quotation marks. -/
def isBare (c : Char) : Bool :=
  !(isGap c || ['#', '\r', '\n', ',', '[', ']', '{', '}', '='].contains c)

/-- Reads the text of a value without quotation marks. A digit after a single
space belongs to it: the space stands between a date and a time. -/
def bareText (cs : List Char) : List Char × List Char :=
  match cs.dropWhile isBare with
  | ' ' :: c :: rest =>
    if c.isDigit then (cs.takeWhile isBare ++ ' ' :: c :: rest.takeWhile isBare, rest.dropWhile isBare)
    else (cs.takeWhile isBare, ' ' :: c :: rest)
  | rest => (cs.takeWhile isBare, rest)

/-- The value that a text without quotation marks is. -/
def bareValue? (text : List Char) : Option Value :=
  if text = ['t', 'r', 'u', 'e'] then some (.boolean true)
  else if text = ['f', 'a', 'l', 's', 'e'] then some (.boolean false)
  else
    match integer? text, float? text with
    | some n, _ => some (.integer n)
    | none, some x => some (.float x)
    | none, none => if isDateTime text then some (.dateTime (String.ofList text)) else none

/-- Reads a value that holds no others. -/
def simpleValue? (cs : List Char) : Option (Value × List Char) :=
  match cs with
  | '"' :: _ | '\'' :: _ => (string? cs).map fun (text, rest) => (.string (String.ofList text), rest)
  | _ =>
    let (text, rest) := bareText cs
    (bareValue? text).map fun v => (v, rest)

mutual

/-- Reads a value of a depth, in `steps` steps at most; each takes a character
at least. -/
def value? : (steps depth : Nat) → List Char → Option (Value × List Char)
  | 0, _, _ => none
  | steps + 1, depth, cs =>
    match cs, depth with
    | '[' :: rest, depth + 1 =>
      (items? steps depth (skipLines rest)).map fun (vs, rest) => (.array vs, rest)
    | '{' :: rest, depth + 1 =>
      (members? steps depth (.empty .explicit) (skipLines rest)).map fun (t, rest) =>
        (.table t.close, rest)
    | '[' :: _, 0 | '{' :: _, 0 => none
    | cs, _ => simpleValue? cs

/-- Reads the items of an array from here on, and its end. -/
def items? : (steps depth : Nat) → List Char → Option (List Value × List Char)
  | 0, _, _ => none
  | steps + 1, depth, cs =>
    match cs with
    | ']' :: rest => some ([], rest)
    | cs => do
      let (v, rest) ← value? steps depth cs
      match skipLines rest with
      | ']' :: rest => some ([v], rest)
      | ',' :: rest =>
        let (vs, rest) ← items? steps depth (skipLines rest)
        some (v :: vs, rest)
      | _ => none

/-- Reads the members of a closed table from here on, and its end. -/
def members? : (steps depth : Nat) → Table → List Char → Option (Table × List Char)
  | 0, _, _, _ => none
  | steps + 1, depth, t, cs =>
    match cs with
    | '}' :: rest => some (t, rest)
    | cs => do
      let (key, rest) ← key? depthLimit cs
      match rest with
      | '=' :: rest =>
        let (v, rest) ← value? steps depth (skipGaps rest)
        let t ← t.insert? key.path key.name v
        match skipLines rest with
        | '}' :: rest => some (t, rest)
        | ',' :: rest => members? steps depth t (skipLines rest)
        | _ => none
      | _ => none

end

/-- Reads a key and its value into the table of a header. -/
def keyValue? (here : List String) (t : Table) (cs : List Char) : Option (Table × List Char) := do
  let (key, rest) ← key? depthLimit cs
  match rest with
  | '=' :: rest =>
    let (v, rest) ← value? (rest.length + 1) depthLimit (skipGaps rest)
    let t ← t.change? .header (Table.insert? key.path key.name v) here
    some (t, rest)
  | _ => none

/-- The table of a document and the header below which it goes on. -/
structure Progress where
  table : Table
  here : List String

/-- Reads what a line holds. -/
def line? (p : Progress) : List Char → Option (Progress × List Char)
  | '[' :: '[' :: rest => do
    let (key, rest) ← key? depthLimit (skipGaps rest)
    match rest with
    | ']' :: ']' :: rest =>
      some (⟨← p.table.openNext? key.path key.name, key.path ++ [key.name]⟩, rest)
    | _ => none
  | '[' :: rest => do
    let (key, rest) ← key? depthLimit (skipGaps rest)
    match rest with
    | ']' :: rest =>
      some (⟨← p.table.openTable? key.path key.name, key.path ++ [key.name]⟩, rest)
    | _ => none
  | cs => (keyValue? p.here p.table cs).map fun (t, rest) => (⟨t, p.here⟩, rest)

/-- Reads the lines of a document, so many at most. -/
def lines? : (count : Nat) → Progress → List Char → Option Table
  | 0, _, _ => none
  | count + 1, p, cs =>
    match skipLines cs with
    | [] => some p.table
    | cs => do
      let (p, rest) ← line? p cs
      lines? count p (← restOfLine? rest)

/-- The table that a text describes. -/
def document? (text : List Char) : Option Table :=
  let cs := withoutMark text
  lines? (cs.length + 1) ⟨.empty .explicit, []⟩ cs

end Toml
end Rollout
