/-
# From events to nodes

A document is a tree of nodes. An anchor gives the node that it stands before a
number: how many names of anchors the document has used before it. When one
number is given several times, the last node counts, also for aliases before
it.
-/

import Rollout.Yaml.Event

namespace Rollout
namespace Yaml

/-- A node of a document. -/
inductive Node where
  | scalar (s : Scalar)
  | sequence (tag : Option (List Char)) (items : List Node)
  | mapping (tag : Option (List Char)) (entries : List (Node × Node))
  | alias (number : Nat)
  deriving Repr

/-- A node with the number of its anchor and the number of its first event. -/
structure Anchored where
  number : Nat
  event : Nat
  node : Node
  deriving Repr

/-- A document: its node, if it has one, the nodes with anchors, and the number
of its events. -/
structure Document where
  root : Option Node
  anchored : List Anchored
  size : Nat
  deriving Repr

/-- The node with a number: of several, the one that starts last. -/
def Document.target? (d : Document) (number : Nat) : Option Node :=
  let latest := (d.anchored.filter fun a => a.number = number).foldl (fun best a =>
    match best with
    | some b => if b.event < a.event then some a else some b
    | none => some a) none
  latest.map Anchored.node

/-- A collection whose end has not come: its entries so far, the last one
first. -/
inductive Frame where
  | sequence (anchor : Option Nat) (event : Nat) (tag : Option (List Char)) (items : List Node)
  | mapping (anchor : Option Nat) (event : Nat) (tag : Option (List Char))
    (entries : List (Node × Node)) (key : Option Node)
  deriving Repr

/-- A document that is being built. -/
structure DocumentBuilder where
  names : List (List Char × Nat)
  anchored : List Anchored
  frames : List Frame
  root : Option Node
  event : Nat
  deriving Repr

namespace DocumentBuilder

/-- Nothing has been built. -/
def empty : DocumentBuilder :=
  ⟨[], [], [], none, 0⟩

/-- Gives an anchor its number. -/
def number (b : DocumentBuilder) : Option (List Char) → Option Nat × DocumentBuilder
  | none => (none, b)
  | some name =>
    let n := b.names.length
    (some n, { b with names := (name, n) :: b.names.filter (·.1 ≠ name) })

/-- Puts a node in its place. -/
def place (b : DocumentBuilder) (n : Node) : DocumentBuilder :=
  match b.frames with
  | [] => { b with root := some n }
  | .sequence a e t items :: rest => { b with frames := .sequence a e t (n :: items) :: rest }
  | .mapping a e t entries none :: rest =>
    { b with frames := .mapping a e t entries (some n) :: rest }
  | .mapping a e t entries (some k) :: rest =>
    { b with frames := .mapping a e t ((k, n) :: entries) none :: rest }

/-- Puts a node in its place and remembers its anchor. -/
def finish (b : DocumentBuilder) (anchor : Option Nat) (event : Nat) (n : Node) :
    DocumentBuilder :=
  match anchor with
  | some number => { b.place n with anchored := ⟨number, event, n⟩ :: b.anchored }
  | none => b.place n

/-- Takes one event. -/
def take? (b : DocumentBuilder) (e : Event) : Option DocumentBuilder :=
  let here := b.event
  let b := { b with event := here + 1 }
  match e with
  | .alias name => (b.names.lookup name).map fun n => b.place (.alias n)
  | .scalar anchor s =>
    let (a, b) := b.number anchor
    some (b.finish a here (.scalar s))
  | .sequenceStart anchor tag =>
    let (a, b) := b.number anchor
    some { b with frames := .sequence a here tag [] :: b.frames }
  | .mappingStart anchor tag =>
    let (a, b) := b.number anchor
    some { b with frames := .mapping a here tag [] none :: b.frames }
  | .sequenceEnd =>
    match b.frames with
    | .sequence a event tag items :: rest =>
      some ({ b with frames := rest }.finish a event (.sequence tag items.reverse))
    | _ => none
  | .mappingEnd =>
    match b.frames with
    | .mapping a event tag entries none :: rest =>
      some ({ b with frames := rest }.finish a event (.mapping tag entries.reverse))
    | _ => none
  | .documentStart | .documentEnd | .streamEnd => none

/-- The document that has been built. -/
def document (b : DocumentBuilder) : Document :=
  ⟨b.root, b.anchored, b.event⟩

end DocumentBuilder

/-- The only document of a stream; an empty stream has an empty one. -/
def Document.ofEvents? : List Event → Option Document
  | [] => some ⟨none, [], 1⟩
  | .documentStart :: events =>
    match events.span (· ≠ .documentEnd) with
    | (body, [_]) => (body.foldlM DocumentBuilder.take? .empty).map DocumentBuilder.document
    | _ => none
  | _ => none

end Yaml
end Rollout
