/-
# Quoted scalars

| style | ends |
| --- | --- |
| single-quoted | at a single quote that is not doubled |
| double-quoted | at a double quote without a backslash |

A double-quoted scalar may hold escapes. No line of a quoted scalar may start
with a document mark.
-/

import Rollout.Text.Digits
import Rollout.Yaml.Folding

namespace Rollout
namespace Yaml

/-- The character that an escape of one letter stands for. -/
def simpleEscape? : Char → Option Char
  | '0' => some '\x00'
  | 'a' => some '\x07'
  | 'b' => some '\x08'
  | 't' => some '\t'
  | '\t' => some '\t'
  | 'n' => some '\n'
  | 'v' => some '\x0b'
  | 'f' => some '\x0c'
  | 'r' => some '\r'
  | 'e' => some '\x1b'
  | ' ' => some ' '
  | '"' => some '"'
  | '/' => some '/'
  | '\\' => some '\\'
  | 'N' => some '\u0085'
  | '_' => some '\u00a0'
  | 'L' => some '\u2028'
  | 'P' => some '\u2029'
  | _ => none

/-- The number of hexadecimal digits that an escape takes. -/
def escapeDigits? : Char → Option Nat
  | 'x' => some 2
  | 'u' => some 4
  | 'U' => some 8
  | _ => none

/-- The character with the code that so many hexadecimal digits give. -/
def hexCharacter? (digits : Nat) (cs : List Char) : Option Char :=
  let ds := cs.take digits
  let n := Text.digitsValue 16 ds
  if ds.length = digits ∧ ds.all Text.isHex ∧ n.isValidChar then some (Char.ofNat n) else none

/-- Reads a single-quoted scalar after its first quote. -/
def singleQuoted? (f : Folding) (index line column : Nat) : List Char → Option ScalarRun
  | [] => none
  | c :: cs =>
    if isGap c then singleQuoted? (f.addGap c) (index + 1) line (column + 1) cs
    else if isBreak c then singleQuoted? (f.addBreak c) (index + 1) (line + 1) 0 cs
    else if column = 0 && startsDocumentMark (c :: cs) then none
    else if c = '\'' then
      match cs with
      | '\'' :: rest => singleQuoted? (f.add '\'') (index + 2) line (column + 2) rest
      | rest => some ⟨f.settled.reverse, ⟨rest, index + 1, line, column + 1⟩, false⟩
    else singleQuoted? (f.add c) (index + 1) line (column + 1) cs

/-- Reads a double-quoted scalar after its first quote. -/
def doubleQuoted? (f : Folding) (index line column : Nat) : List Char → Option ScalarRun
  | [] => none
  | c :: cs =>
    if isGap c then doubleQuoted? (f.addGap c) (index + 1) line (column + 1) cs
    else if isBreak c then doubleQuoted? (f.addBreak c) (index + 1) (line + 1) 0 cs
    else if column = 0 && startsDocumentMark (c :: cs) then none
    else if c = '"' then
      some ⟨f.settled.reverse, ⟨cs, index + 1, line, column + 1⟩, false⟩
    else if c = '\\' then
      match cs with
      | [] => none
      | e :: rest =>
        if isBreak e then doubleQuoted? f.escapedBreak (index + 2) (line + 1) 0 rest
        else
          match simpleEscape? e, escapeDigits? e with
          | some x, _ => doubleQuoted? (f.add x) (index + 2) line (column + 2) rest
          | none, some n =>
            match hexCharacter? n rest with
            | some x => doubleQuoted? (f.add x) (index + 2 + n) line (column + 2 + n) (rest.drop n)
            | none => none
          | none, none => none
    else doubleQuoted? (f.add c) (index + 1) line (column + 1) cs
termination_by cs => cs.length
decreasing_by all_goals simp only [List.length_cons, List.length_drop]; omega

end Yaml
end Rollout
