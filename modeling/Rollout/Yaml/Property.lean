/-
# Anchors, tags and directives

| written | read as |
| --- | --- |
| `&name`, `*name` | an anchor, an alias |
| `!<suffix>` | a tag with an empty handle |
| `!suffix` | a tag with the handle `!` |
| `!name!suffix`, `!!suffix` | a tag with that handle |
| `!` | the tag that is only an exclamation mark |
| `%YAML 1.2` | the version |
| `%TAG !name! lead` | what a handle stands for |

In a suffix, `%` and two hexadecimal digits are an octet; the octets must form
characters with the lead and trail octets of UTF-8.
-/

import Rollout.Text.Digits
import Rollout.Yaml.Cursor
import Rollout.Yaml.Token

namespace Rollout
namespace Yaml

/-- A token that has been read, and the place after it. -/
structure TokenRun where
  token : Token
  cursor : Cursor
  deriving Repr

/-- A character that may follow a name. -/
def endsName (c : Char) : Bool :=
  isGapOrBreak c || ['?', ':', ',', ']', '}', '%', '@', '\x60'].contains c

/-- Reads the name of an anchor or an alias after its indicator. -/
def name? (c : Cursor) : Option (List Char × Cursor) :=
  let (name, c) := c.takeWhile isWord
  if name.isEmpty then none
  else
    match c.rest with
    | [] => some (name, c)
    | x :: _ => if endsName x then some (name, c) else none

/-- A character that may stand in a tag; a tag between angle brackets may hold
commas and square brackets too. -/
def isTagCharacter (bracketed : Bool) (c : Char) : Bool :=
  isWord c || [';', '/', '?', ':', '@', '&', '=', '+', '$', '.', '!', '~', '*', '\'', '(', ')'].contains c ||
    (bracketed && [',', '[', ']'].contains c)

/-- The number of octets that follow the first octet of a character. -/
def trailOctets? (octet : Nat) : Option Nat :=
  if octet < 0x80 then some 0
  else if 0xC0 ≤ octet ∧ octet < 0xE0 then some 1
  else if 0xE0 ≤ octet ∧ octet < 0xF0 then some 2
  else if 0xF0 ≤ octet ∧ octet < 0xF8 then some 3
  else none

/-- The number of octets still to come after an octet, when `pending` were to
come before it. -/
def octetsAfter? (pending octet : Nat) : Option Nat :=
  if pending = 0 then trailOctets? octet
  else if 0x80 ≤ octet ∧ octet < 0xC0 then some (pending - 1)
  else none

/-- Reads the text of a tag: its octets, the last one first, after those read
so far, and the place after it. -/
def tagText? (bracketed : Bool) (octets : List Char) (pending index line column : Nat) :
    List Char → Option (List Char × Cursor)
  | '%' :: a :: b :: rest =>
    match Text.hexValue? a, Text.hexValue? b with
    | some h, some l =>
      match octetsAfter? pending (h * 16 + l) with
      | some n =>
        tagText? bracketed (Char.ofNat (h * 16 + l) :: octets) n (index + 3) line (column + 3) rest
      | none => none
    | _, _ => none
  | c :: cs =>
    if pending ≠ 0 || c = '%' then none
    else if isTagCharacter bracketed c then
      tagText? bracketed (c :: octets) 0 (index + 1) line (column + 1) cs
    else some (octets, ⟨c :: cs, index, line, column⟩)
  | [] => if pending = 0 then some (octets, ⟨[], index, line, column⟩) else none

/-- Reads tag text from a place. -/
def tagTextAt? (bracketed : Bool) (octets : List Char) (c : Cursor) :
    Option (List Char × Cursor) :=
  match tagText? bracketed octets 0 c.index c.line c.column c.rest with
  | some (octets, c) => some (octets.reverse, c)
  | none => none

/-- Reads a tag handle: an exclamation mark, a name, and perhaps another
exclamation mark. -/
def tagHandle? (c : Cursor) : Option (List Char × Cursor) :=
  match c.rest with
  | '!' :: _ =>
    let (name, c) := (c.advance 1).takeWhile isWord
    match c.rest with
    | '!' :: _ => some ('!' :: name ++ ['!'], c.advance 1)
    | _ => some ('!' :: name, c)
  | _ => none

/-- The handle ends in an exclamation mark that is not its first. -/
def isFullHandle (handle : List Char) : Bool :=
  handle.length > 1 && handle.getLast? == some '!'

/-- Reads a tag in its short form. -/
def shortTag? (c : Cursor) : Option TokenRun := do
  let (handle, c) ← tagHandle? c
  if isFullHandle handle then
    let (suffix, after) ← tagTextAt? false [] c
    if suffix.isEmpty then none else some ⟨.tag handle suffix, after⟩
  else
    let (suffix, after) ← tagTextAt? false (handle.drop 1).reverse c
    if suffix.isEmpty then some ⟨.tag [] ['!'], after⟩ else some ⟨.tag ['!'] suffix, after⟩

/-- Reads a tag between angle brackets. -/
def bracketedTag? (c : Cursor) : Option TokenRun := do
  let (suffix, c) ← tagTextAt? true [] (c.advance 2)
  if suffix.isEmpty then none
  else
    match c.rest with
    | '>' :: _ => some ⟨.tag [] suffix, c.advance 1⟩
    | _ => none

/-- Reads a tag. A gap or a break follows it, or in flow a comma. -/
def tag? (flow : Bool) (c : Cursor) : Option TokenRun := do
  let run ← if (c.rest.drop 1).head? = some '<' then bracketedTag? c else shortTag? c
  let rest := run.cursor.rest
  if atBlank rest || (flow && rest.head? == some ',') then some run else none

/-- Reads a row of at most nine decimal digits. -/
def versionNumber? (c : Cursor) : Option (Nat × Cursor) :=
  let (ds, c) := c.takeWhile Char.isDigit
  if ds.isEmpty || ds.length > 9 then none else some (Text.digitsValue 10 ds, c)

/-- Reads the value of a version directive. -/
def versionDirective? (c : Cursor) : Option TokenRun := do
  let (major, c) ← versionNumber? c.skipGaps
  match c.rest with
  | '.' :: _ =>
    let (minor, c) ← versionNumber? (c.advance 1)
    some ⟨.versionDirective major minor, c⟩
  | _ => none

/-- Reads the value of a tag directive. -/
def tagDirective? (c : Cursor) : Option TokenRun := do
  let (handle, c) ← tagHandle? c.skipGaps
  if !isFullHandle handle && handle.length > 1 then none
  match c.rest.head? with
  | some x =>
    if isGap x then
      let (lead, c) ← tagTextAt? true [] c.skipGaps
      if lead.isEmpty || !atBlank c.rest then none else some ⟨.tagDirective handle lead, c⟩
    else none
  | none => none

/-- Reads a directive and the rest of its line. -/
def directive? (c : Cursor) : Option TokenRun := do
  let (name, c) := (c.advance 1).takeWhile isWord
  if !atBlank c.rest then none
  let run ←
    if name = "YAML".toList then versionDirective? c
    else if name = "TAG".toList then tagDirective? c
    else none
  let c ← run.cursor.endLine?
  return ⟨run.token, c⟩

end Yaml
end Rollout
