/-
# Strings of a TOML text

| string | between | holds |
| --- | --- | --- |
| basic | `"` | plain characters and escapes |
| literal | `'` | plain characters |
| long basic | `"""` | lines of plain characters and escapes |
| long literal | `'''` | lines of plain characters |

A line end right after the opening of a long string does not count. One or two
quotation marks just before its closing belong to the string. In a long basic
string a backslash at the end of a line takes the line end and all gaps and
line ends after it away.

| escape | character |
| --- | --- |
| `\b` `\t` `\n` `\f` `\r` `\e` | backspace, tab, line feed, form feed, carriage return, escape |
| `\"` `\\` | the second character |
| `\xHH` `\uHHHH` `\UHHHHHHHH` | the character with this number |
-/

import Rollout.Text.Digits
import Rollout.Toml.Text

namespace Rollout
namespace Toml

/-- The character that an escape of one letter stands for. -/
def letterEscape? : Char → Option Char
  | 'b' => some '\x08'
  | 't' => some '\t'
  | 'n' => some '\n'
  | 'f' => some '\x0c'
  | 'r' => some '\r'
  | 'e' => some '\x1b'
  | '"' => some '"'
  | '\\' => some '\\'
  | _ => none

/-- How many hexadecimal digits follow the letter of an escape. -/
def escapeDigits : Char → Nat
  | 'x' => 2
  | 'u' => 4
  | 'U' => 8
  | _ => 0

/-- The character whose number the digits are; surrogates are none. -/
def numbered? (digits : List Char) : Option Char :=
  let n := Text.digitsValue 16 digits
  if n.isValidChar then some (Char.ofNat n) else none

/-- Reads an escape after its backslash. -/
def escape? : List Char → Option (Char × List Char)
  | [] => none
  | c :: rest =>
    match escapeDigits c with
    | 0 => (letterEscape? c).map fun x => (x, rest)
    | n =>
      let digits := rest.take n
      if digits.length = n ∧ digits.all Text.isHex then
        (numbered? digits).map fun x => (x, rest.drop n)
      else none

/-- An escape takes at least one character. -/
theorem length_escape? {cs rest : List Char} {c : Char} (h : escape? cs = some (c, rest)) :
    rest.length < cs.length := by
  unfold escape? at h
  split at h
  · simp at h
  · split at h
    · simp only [Option.map_eq_some_iff, Prod.mk.injEq] at h
      obtain ⟨_, _, _, rfl⟩ := h
      simp
    · simp only at h
      split at h
      · simp only [Option.map_eq_some_iff, Prod.mk.injEq] at h
        obtain ⟨_, _, _, rfl⟩ := h
        simp only [List.length_drop, List.length_cons]
        omega
      · simp at h

/-- Reads a basic string after its opening. -/
def basic? (read : List Char) : List Char → Option (List Char × List Char)
  | [] => none
  | '"' :: rest => some (read.reverse, rest)
  | '\\' :: rest =>
    match _h : escape? rest with
    | some (c, rest) => basic? (c :: read) rest
    | none => none
  | c :: rest => if isPlain c then basic? (c :: read) rest else none
termination_by cs => cs.length
decreasing_by
  · exact Nat.lt_succ_of_lt (length_escape? _h)
  · simp

/-- Reads a literal string after its opening. -/
def literal? (read : List Char) : List Char → Option (List Char × List Char)
  | [] => none
  | c :: rest =>
    if c = '\'' then some (read.reverse, rest)
    else if isPlain c then literal? (c :: read) rest
    else none

/-- The quotation marks before a closing that belong to the string, and what
follows the closing. -/
def closing? (mark : Char) (cs : List Char) : Option (List Char × List Char) :=
  (Text.stripStart? [mark, mark, mark] cs).map fun rest =>
    let more := (rest.take 2).takeWhile (· == mark)
    (more, rest.drop more.length)

/-- What follows a backslash at the end of a line, and the blanks after it. -/
def joinedLine? (cs : List Char) : Option (List Char) :=
  (lineEnd? (skipGaps cs)).map skipBreaks

/-- Joining a line to the next takes at least one character. -/
theorem length_joinedLine? {cs rest : List Char} (h : joinedLine? cs = some rest) :
    rest.length < cs.length := by
  simp only [joinedLine?, Option.map_eq_some_iff] at h
  obtain ⟨after, h, rfl⟩ := h
  exact Nat.lt_of_le_of_lt (length_skipBreaks_le after)
    (Nat.lt_of_lt_of_le (length_lineEnd? h) (length_skipGaps_le cs))

/-- Reads a long basic string after its opening. -/
def longBasic? (read cs : List Char) : Option (List Char × List Char) :=
  match closing? '"' cs with
  | some (marks, rest) => some (read.reverse ++ marks, rest)
  | none =>
    match cs with
    | [] => none
    | '\\' :: rest =>
      match _h : escape? rest with
      | some (c, rest) => longBasic? (c :: read) rest
      | none =>
        match _h : joinedLine? rest with
        | some rest => longBasic? read rest
        | none => none
    | '\r' :: '\n' :: rest => longBasic? ('\n' :: '\r' :: read) rest
    | c :: rest => if c = '\n' ∨ isPlain c then longBasic? (c :: read) rest else none
termination_by cs.length
decreasing_by
  · exact Nat.lt_succ_of_lt (length_escape? _h)
  · exact Nat.lt_succ_of_lt (length_joinedLine? _h)
  · exact Nat.lt_succ_of_lt (Nat.lt_succ_self _)
  · exact Nat.lt_succ_self _

/-- Reads a long literal string after its opening. -/
def longLiteral? (read cs : List Char) : Option (List Char × List Char) :=
  match closing? '\'' cs with
  | some (marks, rest) => some (read.reverse ++ marks, rest)
  | none =>
    match cs with
    | [] => none
    | '\r' :: '\n' :: rest => longLiteral? ('\n' :: '\r' :: read) rest
    | c :: rest => if c = '\n' ∨ isPlain c then longLiteral? (c :: read) rest else none

/-- The text without the line end it starts with. -/
def dropLineEnd (cs : List Char) : List Char :=
  (lineEnd? cs).getD cs

/-- Reads a string of one line. -/
def shortString? : List Char → Option (List Char × List Char)
  | '"' :: rest => basic? [] rest
  | '\'' :: rest => literal? [] rest
  | _ => none

/-- Reads a string of any kind. -/
def string? (cs : List Char) : Option (List Char × List Char) :=
  match Text.stripStart? ['"', '"', '"'] cs, Text.stripStart? ['\'', '\'', '\''] cs with
  | some rest, _ => longBasic? [] (dropLineEnd rest)
  | none, some rest => longLiteral? [] (dropLineEnd rest)
  | none, none => shortString? cs

end Toml
end Rollout
