/-
# Folded lines

A scalar may run over several lines. A single line feed within it is folded
into a space; of several line feeds the first is dropped. Gaps around folded
breaks do not count. A break that is escaped leaves nothing behind.
-/

import Rollout.Yaml.Cursor

namespace Rollout
namespace Yaml

/-- Line breaks that have been read but not placed: the first, which is absent
when it is escaped, and the others, the last of them first. -/
structure Breaks where
  first : Option Char
  others : List Char

/-- The breaks as text, the last character first. -/
def Breaks.folded (b : Breaks) : List Char :=
  match b.first, b.others with
  | some '\n', [] => [' ']
  | some '\n', others => others
  | some c, others => others ++ [c]
  | none, others => others

/-- A scalar that is being read: its text so far, the last character first, and
the gaps and breaks that count only if something follows. -/
structure Folding where
  text : List Char
  gaps : List Char
  breaks : Option Breaks

namespace Folding

/-- Nothing has been read. -/
def empty : Folding :=
  ⟨[], [], none⟩

/-- The text with what was pending, the last character first. -/
def settled (f : Folding) : List Char :=
  match f.breaks with
  | none => f.gaps ++ f.text
  | some b => b.folded ++ f.text

/-- Adds a gap. -/
def addGap (f : Folding) (c : Char) : Folding :=
  if f.breaks.isSome then f else { f with gaps := c :: f.gaps }

/-- Adds a break. -/
def addBreak (f : Folding) (c : Char) : Folding :=
  match f.breaks with
  | none => { f with gaps := [], breaks := some ⟨some c, []⟩ }
  | some b => { f with breaks := some { b with others := c :: b.others } }

/-- Adds an escaped break. -/
def escapedBreak (f : Folding) : Folding :=
  ⟨f.settled, [], some ⟨none, []⟩⟩

/-- Adds a character of content. -/
def add (f : Folding) (c : Char) : Folding :=
  ⟨c :: f.settled, [], none⟩

/-- Gaps or breaks are pending. -/
def isPending (f : Folding) : Bool :=
  f.breaks.isSome || !f.gaps.isEmpty

end Folding

/-- The result of reading a scalar: its text and the place after it. -/
structure ScalarRun where
  text : List Char
  cursor : Cursor
  /-- Breaks at the end do not belong to the text. -/
  endsInBreak : Bool

end Yaml
end Rollout
