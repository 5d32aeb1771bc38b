/-
# JSON values and their written form

A value is written over several lines, every level indented by two more spaces;
an empty collection is written without a break. In strings only these
characters are escaped:

| character | written |
| --- | --- |
| quotation mark, backslash | after a backslash |
| backspace, tab, line feed, form feed, carriage return | `\b`, `\t`, `\n`, `\f`, `\r` |
| any other below `0020` | `\u00` and two lower-case hexadecimal digits |
-/

namespace Rollout
namespace Json

/-- A JSON value. The members of an object have an order. -/
inductive Value where
  | null
  | bool (b : Bool)
  /-- A number in its written form. -/
  | number (text : String)
  | string (s : String)
  | array (items : List Value)
  | object (members : List (String × Value))
  deriving Inhabited, Repr

/-- The characters that stand for a character in a string. -/
def escape (c : Char) : List Char :=
  if c = '"' then ['\\', '"']
  else if c = '\\' then ['\\', '\\']
  else if c = '\x08' then ['\\', 'b']
  else if c = '\t' then ['\\', 't']
  else if c = '\n' then ['\\', 'n']
  else if c = '\x0c' then ['\\', 'f']
  else if c = '\r' then ['\\', 'r']
  else if c.toNat < 0x20 then
    ['\\', 'u', '0', '0', Nat.digitChar (c.toNat / 16), Nat.digitChar (c.toNat % 16)]
  else [c]

/-- The written form of a string. -/
def quoted (s : String) : List Char :=
  '"' :: s.toList.flatMap escape ++ ['"']

/-- A line feed and the indentation of a level. -/
def newLine (level : Nat) : List Char :=
  '\n' :: List.replicate (2 * level) ' '

mutual

/-- The written form of a value on a level. -/
def Value.written (level : Nat) : Value → List Char
  | .null => "null".toList
  | .bool true => "true".toList
  | .bool false => "false".toList
  | .number text => text.toList
  | .string s => quoted s
  | .array [] => ['[', ']']
  | .array (v :: vs) =>
    '[' :: newLine (level + 1) ++ v.written (level + 1) ++ writtenItems (level + 1) vs ++
      newLine level ++ [']']
  | .object [] => ['{', '}']
  | .object ((k, v) :: ms) =>
    '{' :: newLine (level + 1) ++ quoted k ++ ':' :: ' ' :: v.written (level + 1) ++
      writtenMembers (level + 1) ms ++ newLine level ++ ['}']

/-- The written form of the items after the first. -/
def writtenItems (level : Nat) : List Value → List Char
  | [] => []
  | v :: vs => ',' :: newLine level ++ v.written level ++ writtenItems level vs

/-- The written form of the members after the first. -/
def writtenMembers (level : Nat) : List (String × Value) → List Char
  | [] => []
  | (k, v) :: ms =>
    ',' :: newLine level ++ quoted k ++ ':' :: ' ' :: v.written level ++ writtenMembers level ms

end

/-- The written form of a value. -/
def Value.text (v : Value) : String :=
  String.ofList (v.written 0)

/-- The member of an object with a name. -/
def Value.member? (v : Value) (name : String) : Option Value :=
  match v with
  | .object members => members.lookup name
  | _ => none

end Json
end Rollout
