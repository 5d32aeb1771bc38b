/-
# From tokens to events

Events open and close collections and give the scalars and aliases in between;
a node that is left out is an empty plain scalar. The grammar is followed by a
machine with a stack: its state says what may come next, and the stack what
comes after that. Every step gives one event, and at most three steps in a row
take no token.
-/

import Rollout.Yaml.Token

namespace Rollout
namespace Yaml

/-- A scalar with its tag. -/
structure Scalar where
  tag : Option (List Char)
  text : List Char
  plain : Bool
  deriving DecidableEq, Repr

/-- The node that stands for one that is left out. -/
def Scalar.empty (tag : Option (List Char)) : Scalar :=
  ⟨tag, [], true⟩

/-- What a text is made of. -/
inductive Event where
  | documentStart
  | documentEnd
  | streamEnd
  | alias (name : List Char)
  | scalar (anchor : Option (List Char)) (s : Scalar)
  | sequenceStart (anchor tag : Option (List Char))
  | sequenceEnd
  | mappingStart (anchor tag : Option (List Char))
  | mappingEnd
  deriving DecidableEq, Repr

/-- What may come next. -/
inductive Grammar where
  | documentStart (implicit : Bool)
  | documentContent
  | documentEnd
  | blockNode
  | blockSequenceFirst
  | blockSequenceEntry
  | indentlessSequenceEntry
  | blockMappingFirst
  | blockMappingKey
  | blockMappingValue
  | flowSequenceFirst
  | flowSequenceEntry
  | flowPairKey
  | flowPairValue
  | flowPairEnd
  | flowMappingFirst
  | flowMappingKey
  | flowMappingValue
  | flowMappingEmptyValue
  | finished
  deriving DecidableEq, Repr

/-- The tokens that are left, what may come next, what comes after that, and
what the handles of tags stand for. -/
structure EventMachine where
  tokens : List Token
  state : Grammar
  stack : List Grammar
  handles : List (List Char × List Char)
  deriving Repr

/-- An event and what is left after it. -/
abbrev EventStep := Option (Event × EventMachine)

namespace EventMachine

/-- The next token; after the end of the stream there is nothing more. -/
def peek (m : EventMachine) : Token :=
  m.tokens.headD .streamEnd

/-- The machine after one token. -/
def skip (m : EventMachine) : EventMachine :=
  { m with tokens := m.tokens.tail }

/-- The machine in a state. -/
def goTo (m : EventMachine) (g : Grammar) : EventMachine :=
  { m with state := g }

/-- The machine that comes back to a state later. -/
def later (m : EventMachine) (g : Grammar) : EventMachine :=
  { m with stack := g :: m.stack }

/-- The machine in the state that it was to come back to. -/
def back (m : EventMachine) : EventMachine :=
  { m with state := m.stack.headD .finished, stack := m.stack.tail }

/-- Gives an event and goes on. -/
def emit (m : EventMachine) (e : Event) : EventStep :=
  some (e, m)

/-- Gives a node that is left out. -/
def emitEmpty (m : EventMachine) : EventStep :=
  m.emit (.scalar none (.empty none))

/-- The handles that need no directive. -/
def standardHandles : List (List Char × List Char) :=
  [("!".toList, "!".toList), ("!!".toList, "tag:yaml.org,2002:".toList)]

/-- The tag that a handle and a suffix stand for. -/
def tag? (m : EventMachine) (handle suffix : List Char) : Option (List Char) :=
  if handle.isEmpty then some suffix
  else ((m.handles ++ standardHandles).lookup handle).map (· ++ suffix)

/-- The properties of a node: its anchor and its tag. -/
structure Properties where
  anchor : Option (List Char)
  tag : Option (List Char)
  deriving Repr

/-- Reads the anchor and the tag of a node, in either order. -/
def properties? (m : EventMachine) : Option (Properties × EventMachine) :=
  match m.tokens with
  | .anchor name :: .tag handle suffix :: rest =>
    (m.tag? handle suffix).map fun t => (⟨some name, some t⟩, { m with tokens := rest })
  | .tag handle suffix :: .anchor name :: rest =>
    (m.tag? handle suffix).map fun t => (⟨some name, some t⟩, { m with tokens := rest })
  | .anchor name :: rest => some (⟨some name, none⟩, { m with tokens := rest })
  | .tag handle suffix :: rest =>
    (m.tag? handle suffix).map fun t => (⟨none, some t⟩, { m with tokens := rest })
  | _ => some (⟨none, none⟩, m)

/-- A scalar with the tag that is only an exclamation mark is read as if it were
plain and had no tag. -/
def taggedScalar (tag : Option (List Char)) (text : List Char) (plain : Bool) : Scalar :=
  if tag = some ['!'] then ⟨none, text, plain⟩ else ⟨tag, text, plain⟩

/-- Reads the start of a node, or all of it if it is no collection. -/
def node (m : EventMachine) (block indentless : Bool) : EventStep :=
  match m.peek with
  | .alias name => m.skip.back.emit (.alias name)
  | _ => do
    let (p, m) ← m.properties?
    match m.peek with
    | .scalar text plain => m.skip.back.emit (.scalar p.anchor (taggedScalar p.tag text plain))
    | .flowSequenceStart => (m.goTo .flowSequenceFirst).emit (.sequenceStart p.anchor p.tag)
    | .flowMappingStart => (m.goTo .flowMappingFirst).emit (.mappingStart p.anchor p.tag)
    | t =>
      if indentless && t = .blockEntry then
        (m.goTo .indentlessSequenceEntry).emit (.sequenceStart p.anchor p.tag)
      else if block && t = .blockSequenceStart then
        (m.goTo .blockSequenceFirst).emit (.sequenceStart p.anchor p.tag)
      else if block && t = .blockMappingStart then
        (m.goTo .blockMappingFirst).emit (.mappingStart p.anchor p.tag)
      else if p.anchor.isSome || p.tag.isSome then
        m.back.emit (.scalar p.anchor (.empty p.tag))
      else none

/-- Reads a node, unless one of `stops` stands in its place. -/
def nodeUnless (m : EventMachine) (stops : List Token) (next : Grammar) (block indentless : Bool) :
    EventStep :=
  if stops.contains m.peek then (m.goTo next).emitEmpty
  else (m.later next).node block indentless

/-- Drops document ends. -/
def dropDocumentEnds (m : EventMachine) : EventMachine :=
  { m with tokens := m.tokens.dropWhile (· = .documentEnd) }

/-- Reads the directives of a document: one version at most, which must be 1.1
or 1.2, and one meaning at most for each handle. -/
def directives? (version : Bool) (handles : List (List Char × List Char)) :
    List Token → Option (List (List Char × List Char) × List Token)
  | .versionDirective major minor :: rest =>
    if version || major ≠ 1 || (minor ≠ 1 && minor ≠ 2) then none
    else directives? true handles rest
  | .tagDirective handle lead :: rest =>
    if (handles.lookup handle).isSome then none
    else directives? version ((handle, lead) :: handles) rest
  | rest => some (handles, rest)

/-- The token belongs to a document that starts explicitly, or ends the
stream. -/
def startsExplicitly : Token → Bool
  | .versionDirective _ _ | .tagDirective _ _ | .documentStart | .streamEnd => true
  | _ => false

/-- Reads the start of a document or the end of the stream. -/
def documentStart (m : EventMachine) (implicit : Bool) : EventStep :=
  let m := if implicit then m else m.dropDocumentEnds
  if implicit && !startsExplicitly m.peek then
    { m with state := .blockNode, stack := [.documentEnd], handles := [] }.emit .documentStart
  else if m.peek = .streamEnd then (m.goTo .finished).emit .streamEnd
  else do
    let (handles, rest) ← directives? false [] m.tokens
    match rest with
    | .documentStart :: rest =>
      some (.documentStart, ⟨rest, .documentContent, [.documentEnd], handles⟩)
    | _ => none

/-- The token stands where a document has no content. -/
def endsContent : Token → Bool
  | .versionDirective _ _ | .tagDirective _ _ | .documentStart | .documentEnd | .streamEnd => true
  | _ => false

/-- Reads an entry of a block sequence, or its end. -/
def entry (m : EventMachine) : EventStep :=
  if m.peek = .blockEntry then
    m.skip.nodeUnless [.blockEntry, .blockEnd] .blockSequenceEntry true false
  else if m.peek = .blockEnd then m.skip.back.emit .sequenceEnd
  else none

/-- Reads a key of a block mapping, or the mapping's end. -/
def key (m : EventMachine) : EventStep :=
  if m.peek = .key then
    m.skip.nodeUnless [.key, .value, .blockEnd] .blockMappingValue true true
  else if m.peek = .blockEnd then m.skip.back.emit .mappingEnd
  else none

/-- Reads the comma before an entry that is not the first. -/
def comma? (m : EventMachine) (first : Bool) : Option EventMachine :=
  if first then some m
  else if m.peek = .flowEntry then some m.skip
  else none

/-- Reads an entry of a flow sequence, or the sequence's end. -/
def flowEntry (m : EventMachine) (first : Bool) : EventStep :=
  if m.peek = .flowSequenceEnd then m.skip.back.emit .sequenceEnd
  else do
    let m ← m.comma? first
    if m.peek = .key then (m.skip.goTo .flowPairKey).emit (.mappingStart none none)
    else if m.peek = .flowSequenceEnd then m.skip.back.emit .sequenceEnd
    else (m.later .flowSequenceEntry).node false false

/-- Reads a key of a flow mapping, or the mapping's end. -/
def flowKey (m : EventMachine) (first : Bool) : EventStep :=
  if m.peek = .flowMappingEnd then m.skip.back.emit .mappingEnd
  else do
    let m ← m.comma? first
    if m.peek = .key then
      m.skip.nodeUnless [.value, .flowEntry, .flowMappingEnd] .flowMappingValue false false
    else if m.peek = .flowMappingEnd then m.skip.back.emit .mappingEnd
    else (m.later .flowMappingEmptyValue).node false false

/-- The event of a state and what is left after it. -/
def step (m : EventMachine) : EventStep :=
  match m.state with
  | .documentStart implicit => m.documentStart implicit
  | .documentContent => if endsContent m.peek then m.back.emitEmpty else m.node true false
  | .documentEnd =>
    let m := if m.peek = .documentEnd then m.skip else m
    (m.goTo (.documentStart false)).emit .documentEnd
  | .blockNode => m.node true false
  | .blockSequenceFirst => (m.skip.goTo .blockSequenceEntry).entry
  | .blockSequenceEntry => m.entry
  | .indentlessSequenceEntry =>
    if m.peek = .blockEntry then
      m.skip.nodeUnless [.blockEntry, .key, .value, .blockEnd] .indentlessSequenceEntry true false
    else m.back.emit .sequenceEnd
  | .blockMappingFirst => (m.skip.goTo .blockMappingKey).key
  | .blockMappingKey => m.key
  | .blockMappingValue =>
    if m.peek = .value then
      m.skip.nodeUnless [.key, .value, .blockEnd] .blockMappingKey true true
    else (m.goTo .blockMappingKey).emitEmpty
  | .flowSequenceFirst => m.skip.flowEntry true
  | .flowSequenceEntry => m.flowEntry false
  | .flowPairKey =>
    if [.value, .flowEntry, .flowSequenceEnd].contains m.peek then
      (m.skip.goTo .flowPairValue).emitEmpty
    else (m.later .flowPairValue).node false false
  | .flowPairValue =>
    if m.peek = .value then
      m.skip.nodeUnless [.flowEntry, .flowSequenceEnd] .flowPairEnd false false
    else (m.goTo .flowPairEnd).emitEmpty
  | .flowPairEnd => (m.goTo .flowSequenceEntry).emit .mappingEnd
  | .flowMappingFirst => m.skip.flowKey true
  | .flowMappingKey => m.flowKey false
  | .flowMappingValue =>
    if m.peek = .value then
      m.skip.nodeUnless [.flowEntry, .flowMappingEnd] .flowMappingKey false false
    else (m.goTo .flowMappingKey).emitEmpty
  | .flowMappingEmptyValue => (m.goTo .flowMappingKey).emitEmpty
  | .finished => none

/-- Collects the events up to the end of the stream, in `steps` steps at most. -/
def run? : (steps : Nat) → EventMachine → Option (List Event)
  | 0, _ => none
  | steps + 1, m =>
    match m.step with
    | none => none
    | some (.streamEnd, _) => some []
    | some (e, m) => (run? steps m).map (e :: ·)

end EventMachine

/-- The events of tokens. -/
def events? (tokens : List Token) : Option (List Event) :=
  EventMachine.run? (4 * tokens.length + 4) ⟨tokens, .documentStart true, [], []⟩

end Yaml
end Rollout
