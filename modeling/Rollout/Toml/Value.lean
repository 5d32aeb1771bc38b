/-
# TOML values and their tables

A text describes one table, part by part. How a table came to be says what may
still be put into it:

| kind | made by | keys | headers |
| --- | --- | --- | --- |
| explicit | its own header | below this header | may lead through it |
| implicit | a header that leads through it | below its own header, which makes it explicit | may lead through it |
| dotted | a dotted key that leads through it | dotted keys below the same header | may lead through it |
| closed | a value in braces | none | none |

An array of tables grows by one table with every header in double brackets;
keys and headers that lead through it go on in its last table. An array in
brackets is a value like any other.
-/

import Rollout.Toml.Number

namespace Rollout
namespace Toml

/-- How a table came to be. -/
inductive TableKind where
  | explicit
  | implicit
  | dotted
  | closed
  deriving DecidableEq, Repr

/-- A table whose entries hold values of a type; no name stands twice. -/
structure TableOf (α : Type) where
  kind : TableKind
  entries : List (String × α)
  deriving Repr

/-- A value. -/
inductive Value where
  | string (s : String)
  | integer (n : Int)
  | float (x : FloatNumber)
  | boolean (b : Bool)
  | dateTime (text : String)
  | array (items : List Value)
  | table (t : TableOf Value)
  /-- An array of tables, which is never empty. -/
  | tables (earlier : List (TableOf Value)) (last : TableOf Value)
  deriving Repr

/-- A table of values. -/
abbrev Table := TableOf Value

namespace Table

/-- A table without entries. -/
def empty (kind : TableKind) : Table :=
  ⟨kind, []⟩

/-- The value under a name. -/
def get? (t : Table) (name : String) : Option Value :=
  t.entries.lookup name

/-- The table with a value under a name, which it may have had before. -/
def put (t : Table) (name : String) (v : Value) : Table :=
  ⟨t.kind, t.entries.filter (·.1 != name) ++ [(name, v)]⟩

/-- How a part of the text finds its way to a table. -/
inductive Route where
  /-- The way of a header. -/
  | header
  /-- The way of a dotted key, from the table of its header on. -/
  | dotted
  deriving DecidableEq, Repr

/-- The kind of the tables that are made on the way. -/
def Route.makes : Route → TableKind
  | header => .implicit
  | dotted => .dotted

/-- The way may lead through a table. -/
def Route.leadsThrough : Route → TableKind → Bool
  | _, .closed => false
  | .dotted, .explicit => false
  | _, _ => true

/-- Changes the table at the end of a path; tables that are missing on the way
are made. -/
def change? (route : Route) (f : Table → Option Table) : List String → Table → Option Table
  | [], t => f t
  | name :: path, t =>
    match t.get? name with
    | none => (change? route f path (empty route.makes)).map fun sub => t.put name (.table sub)
    | some (.table sub) =>
      if route.leadsThrough sub.kind then
        (change? route f path sub).map fun sub => t.put name (.table sub)
      else none
    | some (.tables earlier last) =>
      (change? route f path last).map fun last => t.put name (.tables earlier last)
    | some _ => none

/-- Puts a value under a dotted key whose last part is `name`. A key that is
dotted only reaches tables of such keys, one that is not only other tables. -/
def insert? (path : List String) (name : String) (v : Value) (t : Table) : Option Table :=
  t.change? .dotted (fun parent =>
    if (parent.kind = .dotted) ↔ path = [] then none
    else if (parent.get? name).isSome then none
    else some (parent.put name v)) path

/-- Opens the table of a header. -/
def openTable? (path : List String) (name : String) (t : Table) : Option Table :=
  t.change? .header (fun parent =>
    match parent.get? name with
    | none => some (parent.put name (.table (empty .explicit)))
    | some (.table ⟨.implicit, entries⟩) => some (parent.put name (.table ⟨.explicit, entries⟩))
    | some _ => none) path

/-- Opens the next table of a header in double brackets. -/
def openNext? (path : List String) (name : String) (t : Table) : Option Table :=
  t.change? .header (fun parent =>
    match parent.get? name with
    | none => some (parent.put name (.tables [] (empty .explicit)))
    | some (.tables earlier last) =>
      some (parent.put name (.tables (earlier ++ [last]) (empty .explicit)))
    | some _ => none) path

/-- The table as a value in braces. -/
def close (t : Table) : Table :=
  ⟨.closed, t.entries⟩

end Table

/-- The integer has 128 bits at most, with a sign or without. -/
def isWide (n : Int) : Bool :=
  let bound : Int := UInt64.size * UInt64.size
  n < bound && -(bound / 2) ≤ n

mutual

/-- The value holds only numbers that are in range. -/
def Value.isInRange : Value → Bool
  | .integer n => isWide n
  | .float x => x.isInRange
  | .string _ | .boolean _ | .dateTime _ => true
  | .array items => itemsInRange items
  | .table t => tableInRange t
  | .tables earlier last => tablesInRange earlier && tableInRange last

/-- All values of a list hold only numbers that are in range. -/
def itemsInRange : List Value → Bool
  | [] => true
  | v :: vs => v.isInRange && itemsInRange vs

/-- All values of a table hold only numbers that are in range. -/
def tableInRange : TableOf Value → Bool
  | ⟨_, entries⟩ => entriesInRange entries

/-- All values of some entries hold only numbers that are in range. -/
def entriesInRange : List (String × Value) → Bool
  | [] => true
  | (_, v) :: es => v.isInRange && entriesInRange es

/-- All values of some tables hold only numbers that are in range. -/
def tablesInRange : List (TableOf Value) → Bool
  | [] => true
  | t :: ts => tableInRange t && tablesInRange ts

end

end Toml
end Rollout
