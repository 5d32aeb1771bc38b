/-
# From nodes to values

A scalar without a tag is a string when it is quoted; a plain one is the first
of these that fits:

| plain scalar | value |
| --- | --- |
| empty, `~`, `null`, `Null`, `NULL` | null |
| `true`, `false`, also in title or upper case | a truth value |
| digits, or digits after `0x`, `0o`, `0b`, with a sign or without | an integer |
| a decimal number, `.inf`, `.nan`, also in title or upper case | a number |
| any other | a string |

Digits after a leading zero are a string. An integer must fit into 64 bits; one
that fits into 128 bits only is refused. Collections may be nested 128 deep,
and a document may follow a hundred times as many aliases as it has events.
-/

import Rollout.Text.Blank
import Rollout.Text.Decimal
import Rollout.Yaml.Node
import Rollout.Yaml.Scan

namespace Rollout
namespace Yaml

/-- What a node stands for. -/
inductive Value where
  | null
  | bool (b : Bool)
  | int (n : Int)
  | float (x : Float)
  | string (s : List Char)
  | sequence (items : List Value)
  | mapping (entries : List (Value × Value))
  | tagged (tag : List Char) (value : Value)

/-- Two numbers are the same when they are equal or both are no number. -/
def sameFloat (x y : Float) : Bool :=
  x == y || (x.isNaN && y.isNaN)

/-- A tag without the exclamation mark at its start, unless it is only that. -/
def bareTag : List Char → List Char
  | ['!'] => ['!']
  | '!' :: cs => cs
  | cs => cs

mutual

/-- Two values are the same; the order of a mapping does not matter. -/
def Value.same : Value → Value → Bool
  | .null, .null => true
  | .bool a, .bool b => a == b
  | .int m, .int n => m == n
  | .float x, .float y => sameFloat x y
  | .string s, .string t => s == t
  | .sequence xs, .sequence ys => sameItems xs ys
  | .mapping xs, .mapping ys => xs.length == ys.length && sameEntries xs ys
  | .tagged s x, .tagged t y => bareTag s == bareTag t && x.same y
  | _, _ => false

/-- Two lists hold the same values. -/
def sameItems : List Value → List Value → Bool
  | [], [] => true
  | x :: xs, y :: ys => x.same y && sameItems xs ys
  | _, _ => false

/-- Every entry of the first mapping is one of the second. -/
def sameEntries : List (Value × Value) → List (Value × Value) → Bool
  | [], _ => true
  | (k, v) :: rest, ys => (ys.any fun e => k.same e.1 && v.same e.2) && sameEntries rest ys

end

/-- A plain scalar that is null. -/
def isNull (s : List Char) : Bool :=
  ["null".toList, "Null".toList, "NULL".toList, "~".toList].contains s

/-- The truth value that a plain scalar is. -/
def bool? (s : List Char) : Option Bool :=
  if ["true".toList, "True".toList, "TRUE".toList].contains s then some true
  else if ["false".toList, "False".toList, "FALSE".toList].contains s then some false
  else none

/-- The text starts with a sign. -/
def startsSigned : List Char → Bool
  | c :: _ => c == '+' || c == '-'
  | [] => false

/-- The text without a plus sign at its start. -/
def withoutPlus : List Char → List Char
  | '+' :: cs => cs
  | cs => cs

/-- Digits after a leading zero, perhaps with a sign. -/
def isPadded (s : List Char) : Bool :=
  let s := if startsSigned s then s.drop 1 else s
  match s with
  | '0' :: rest => !rest.isEmpty && rest.all Char.isDigit
  | _ => false

/-- The number that a row of digits of a radix is, if it lies below a bound. -/
def digits? (radix bound : Nat) (s : List Char) : Option Nat :=
  let fits := fun c => (Text.hexValue? c).any (· < radix)
  if s.isEmpty || !s.all fits then none
  else
    let n := Text.digitsValue radix s
    if n < bound then some n else none

/-- The radixes that have a mark. -/
def markedRadixes : List (List Char × Nat) :=
  [("0x".toList, 16), ("0o".toList, 8), ("0b".toList, 2)]

/-- The integer after a radix mark. -/
def marked? (bound : Nat) (s : List Char) : Option Nat :=
  markedRadixes.findSome? fun (mark, radix) =>
    (Text.stripStart? mark s).bind (digits? radix bound)

/-- The integer below a bound that a scalar without a minus sign is. -/
def unsigned? (bound : Nat) (s : List Char) : Option Nat :=
  match marked? bound (withoutPlus s) with
  | some n => some n
  | none => if isPadded s then none else digits? 10 bound (withoutPlus s)

/-- The integer, not below a bound, that a scalar with a minus sign is. -/
def negative? (bound : Nat) : List Char → Option Int
  | '-' :: s =>
    match marked? (bound + 1) s with
    | some n => some (-n)
    | none => if isPadded s then none else (digits? 10 (bound + 1) s).map fun n => -(n : Int)
  | _ => none

/-- The integer that a scalar is: below a bound, or not below minus its half. -/
def int? (bound : Nat) (s : List Char) : Option Int :=
  match unsigned? bound s with
  | some n => some n
  | none => negative? (bound / 2) s

/-- The number that a scalar is. -/
def float? (s : List Char) : Option Float :=
  let body := withoutPlus s
  if body.length < s.length && startsSigned body then none
  else if [".inf".toList, ".Inf".toList, ".INF".toList].contains body then some (1.0 / 0.0)
  else if ["-.inf".toList, "-.Inf".toList, "-.INF".toList].contains s then some (-1.0 / 0.0)
  else if [".nan".toList, ".NaN".toList, ".NAN".toList].contains s then some (0.0 / 0.0)
  else
    let (negative, digits) := match body with
      | '-' :: ds => (true, ds)
      | ds => (false, ds)
    match Text.Decimal.read? digits with
    | some d =>
      if d.isFinite then some (if negative then -d.toFloat else d.toFloat) else none
    | none => none

/-- The value of a plain scalar without a tag. -/
def plainValue? (s : List Char) : Option Value :=
  if s.isEmpty || isNull s then some .null
  else
    match bool? s, int? UInt64.size s with
    | some b, _ => some (.bool b)
    | none, some n => some (.int n)
    | none, none =>
      if (int? (UInt64.size * UInt64.size) s).isSome then none
      else if isPadded s then some (.string s)
      else
        match float? s with
        | some x => some (.float x)
        | none => some (.string s)

/-- The lead of the tags that every document has. -/
def coreTag (name : String) : List Char :=
  ("tag:yaml.org,2002:" ++ name).toList

/-- The value of a scalar with one of the tags that every document has. -/
def taggedValue? (tag s : List Char) : Option Value :=
  if tag = coreTag "bool" then (bool? s).map .bool
  else if tag = coreTag "int" then
    match int? UInt64.size s with
    | some n => some (.int n)
    | none => none
  else if tag = coreTag "float" then (float? s).map .float
  else if tag = coreTag "null" then (if isNull s then some .null else none)
  else some (.string s)

/-- The name of a local tag. -/
def localTag? : Option (List Char) → Option (List Char)
  | some ('!' :: name) => some name
  | _ => none

/-- The value of a scalar; a local tag around it has been dealt with. -/
def scalarValue? (s : Scalar) (inLocalTag : Bool) : Option Value :=
  match s.tag with
  | some tag =>
    if inLocalTag then (if s.plain then plainValue? s.text else some (.string s.text))
    else taggedValue? tag s.text
  | none => if s.plain then plainValue? s.text else some (.string s.text)

/-- A value and the number of aliases that have been followed. -/
abbrev Reading := Value × Nat

namespace Document

/-- The node that a node is, or is an alias of. -/
def resolve? (d : Document) (n : Node) (aliases : Nat) : Option (Node × Nat) :=
  match n with
  | .alias number =>
    if aliases < d.size * 100 then (d.target? number).map fun n => (n, aliases + 1) else none
  | n => some (n, aliases)

/-- Reads the items of a sequence. -/
def items? (read : Node → Nat → Option Reading) : List Node → Nat → Option (List Value × Nat)
  | [], aliases => some ([], aliases)
  | n :: ns, aliases => do
    let (v, aliases) ← read n aliases
    let (vs, aliases) ← items? read ns aliases
    return (v :: vs, aliases)

/-- Reads the entries of a mapping after those read so far; no key may come
twice. -/
def entries? (read : Node → Nat → Option Reading) (entries : List (Value × Value)) :
    List (Node × Node) → Nat → Option (List (Value × Value) × Nat)
  | [], aliases => some (entries.reverse, aliases)
  | (k, v) :: rest, aliases => do
    let (key, aliases) ← read k aliases
    if entries.any fun e => e.1.same key then none
    let (value, aliases) ← read v aliases
    entries? read ((key, value) :: entries) rest aliases

/-- A value with a local tag, which must have a name. -/
def tagged? (tag : Option (List Char)) (r : Option Reading) : Option Reading :=
  match localTag? tag with
  | some [] => none
  | some name => r.map fun (v, aliases) => (.tagged name v, aliases)
  | none => r

/-- Reads a node; collections in it may be nested so deep. -/
def value? (d : Document) : (depth : Nat) → Node → Nat → Option Reading
  | depth, n, aliases =>
    match d.resolve? n aliases with
    | none => none
    | some (.alias _, _) => none
    | some (.scalar s, aliases) =>
      tagged? s.tag ((scalarValue? s (localTag? s.tag).isSome).map (·, aliases))
    | some (.sequence tag items, aliases) =>
      match depth with
      | 0 => none
      | depth + 1 =>
        tagged? tag ((items? (d.value? depth) items aliases).map fun (vs, a) => (.sequence vs, a))
    | some (.mapping tag entries, aliases) =>
      match depth with
      | 0 => none
      | depth + 1 =>
        tagged? tag ((entries? (d.value? depth) [] entries aliases).map fun (es, a) =>
          (.mapping es, a))

end Document

/-- The document in a text. -/
def document? (cs : List Char) : Option Document := do
  Document.ofEvents? (← events? (← tokens? cs))

end Yaml
end Rollout
