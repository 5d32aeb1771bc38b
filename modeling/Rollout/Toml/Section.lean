/-
# Sections of a TOML document

A section has fields with names in an order. It is read from any of these:

| value | field |
| --- | --- |
| table | the value under the field's name |
| array | the value at the field's place |
| date or time | none |

Further values count only so far as the numbers in those of a table must be in
range. A choice is a string, or a table with the string as its only name and
an empty table or array under it.
-/

import Rollout.Toml.Value

namespace Rollout
namespace Toml

/-- The numbers under names that no field has are in range. -/
def Table.othersInRange (t : Table) (names : List String) : Bool :=
  entriesInRange (t.entries.filter fun e => !names.contains e.1)

/-- The fields of a section that a table is. -/
def Table.fields? (t : Table) (names : List String) : Option (List (Option Value)) :=
  if t.othersInRange names then some (names.map t.get?) else none

namespace Value

/-- The items of an array of either kind. -/
def items? : Value → Option (List Value)
  | array items => some items
  | tables earlier last => some ((earlier ++ [last]).map table)
  | _ => none

/-- The fields of a section. -/
def fields? (names : List String) : Value → Option (List (Option Value))
  | table t => Table.fields? t names
  | dateTime _ => some (names.map fun _ => none)
  | v => v.items?.map fun items => (List.range names.length).map fun i => items[i]?

/-- The string that a value is. -/
def string? : Value → Option String
  | string s => some s
  | _ => none

/-- The strings that the items of an array are. -/
def strings? (v : Value) : Option (List String) := do
  (← v.items?).mapM string?

/-- The 64-bit word that a value is. -/
def word? : Value → Option UInt64
  | integer n => if 0 ≤ n ∧ n < UInt64.size then some (UInt64.ofNat n.toNat) else none
  | _ => none

/-- The value is an empty table or array. -/
def isEmpty : Value → Bool
  | table t => t.entries.isEmpty
  | array items => items.isEmpty
  | _ => false

/-- The choice that a value names. -/
def choice? {α : Type} (choices : List (String × α)) : Value → Option α
  | string s => choices.lookup s
  | table ⟨_, [(name, v)]⟩ => if v.isEmpty then choices.lookup name else none
  | _ => none

end Value

/-- A field that may be missing. -/
def fieldOr {α : Type} (standard : α) (read : Value → Option α) : Option Value → Option α
  | none => some standard
  | some v => read v

end Toml
end Rollout
