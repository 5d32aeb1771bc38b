/-
# Block scalars

A block scalar is a header and the indented lines below it. A literal one keeps
its breaks; a folded one folds them between lines that start with no gap. Its
indentation is given in the header or shown by its first line with text; the
breaks at its end are stripped, clipped to one, or kept.
-/

import Rollout.Yaml.Folding

namespace Rollout
namespace Yaml

/-- What happens to the breaks at the end of a block scalar. -/
inductive Chomping where
  | strip
  | clip
  | keep
  deriving DecidableEq, Repr

/-- The header of a block scalar: chomping, and the indentation, if it is
given. -/
structure BlockHeader where
  chomping : Chomping
  indentation : Option Nat
  deriving Repr

/-- The chomping that a character stands for. -/
def chomping? : Char → Option Chomping
  | '-' => some .strip
  | '+' => some .keep
  | _ => none

/-- An indentation indicator is a digit that is not zero. -/
def indentation? (c : Char) : Option Nat :=
  if '1' ≤ c ∧ c ≤ '9' then some (c.toNat - '0'.toNat) else none

/-- Reads the header of a block scalar: chomping and indentation in either
order. -/
def blockHeader (c : Cursor) : BlockHeader × Cursor :=
  match c.rest with
  | a :: rest =>
    match chomping? a, indentation? a with
    | some ch, _ =>
      match rest.head?.bind indentation? with
      | some n => (⟨ch, some n⟩, c.advance 2)
      | none => (⟨ch, none⟩, c.advance 1)
    | none, some n =>
      match rest.head?.bind chomping? with
      | some ch => (⟨ch, some n⟩, c.advance 2)
      | none => (⟨.clip, some n⟩, c.advance 1)
    | none, none => (⟨.clip, none⟩, c)
  | [] => (⟨.clip, none⟩, c)

/-- The empty lines and the indentation before a line of a block scalar: the
breaks, the last one first, the widest column seen, and the place after them. -/
structure BlockGap where
  breaks : List Char
  widest : Nat
  cursor : Cursor

/-- A line is still being indented at a column. -/
def isIndenting (indent : Option Nat) (column : Nat) : Bool :=
  match indent with
  | some n => column < n
  | none => true

/-- Reads empty lines and indentation. No tab may stand in the indentation. -/
def blockGap? (indent : Option Nat) (breaks : List Char) (widest index line column : Nat) :
    List Char → Option BlockGap
  | [] => some ⟨breaks, max widest column, ⟨[], index, line, column⟩⟩
  | c :: cs =>
    if isIndenting indent column && c == ' ' then blockGap? indent breaks widest (index + 1) line (column + 1) cs
    else if isIndenting indent column && c == '\t' then none
    else if isBreak c then
      blockGap? indent (c :: breaks) (max widest column) (index + 1) (line + 1) 0 cs
    else some ⟨breaks, max widest column, ⟨c :: cs, index, line, column⟩⟩

/-- The gap before a block line makes a text no longer. -/
theorem length_blockGap? {indent : Option Nat} {breaks : List Char}
    {widest index line column : Nat} {cs : List Char} {g : BlockGap}
    (h : blockGap? indent breaks widest index line column cs = some g) :
    g.cursor.rest.length ≤ cs.length := by
  induction cs generalizing breaks widest index line column with
  | nil =>
    simp only [blockGap?, Option.some.injEq] at h
    simp [← h]
  | cons c cs ih =>
    unfold blockGap? at h
    split at h
    · exact Nat.le_succ_of_le (ih h)
    · split at h
      · simp at h
      · split at h
        · exact Nat.le_succ_of_le (ih h)
        · simp only [Option.some.injEq] at h
          simp [← h]

/-- A block scalar that is being read. -/
structure BlockText where
  /-- The text so far, the last character first. -/
  text : List Char
  /-- The break after the last line. -/
  lineBreak : List Char
  /-- The last line starts with a gap. -/
  gapBefore : Bool
  deriving Repr

/-- The text with the breaks before a further line; `gapAfter` says that this
line starts with a gap. -/
def BlockText.joined (b : BlockText) (literal gapAfter : Bool) (breaks : List Char) : List Char :=
  if !literal && b.lineBreak == ['\n'] && !b.gapBefore && !gapAfter then
    (if breaks.isEmpty then [' '] else breaks) ++ b.text
  else breaks ++ (b.lineBreak ++ b.text)

/-- Reads the lines of a block scalar. -/
def blockLines? (literal : Bool) (indent : Nat) (b : BlockText) (breaks : List Char)
    (index line column : Nat) : List Char → Option (BlockText × List Char × Cursor)
  | [] => some (b, breaks, ⟨[], index, line, column⟩)
  | c :: cs =>
    if column = indent then
      let gap := isGap c
      let body := cs.takeWhile fun x => !isBreak x
      let text := body.reverse ++ (c :: b.joined literal gap breaks)
      let after := cs.dropWhile fun x => !isBreak x
      let index := index + 1 + body.length
      match _h : after with
      | [] => some (⟨text, [], gap⟩, [], ⟨[], index, line, column + 1 + body.length⟩)
      | x :: rest =>
        match _hg : blockGap? (some indent) [] 0 (index + 1) (line + 1) 0 rest with
        | none => none
        | some g =>
          blockLines? literal indent ⟨text, [x], gap⟩ g.breaks g.cursor.index g.cursor.line
            g.cursor.column g.cursor.rest
    else some (b, breaks, ⟨c :: cs, index, line, column⟩)
termination_by cs => cs.length
decreasing_by
  have h1 := length_blockGap? _hg
  have h2 := (List.dropWhile_suffix (l := cs) fun x => !isBreak x).length_le
  have h3 : (x :: rest).length ≤ cs.length := by rw [← _h]; exact h2
  simp only [List.length_cons] at h3 ⊢
  omega

/-- Reads a block scalar after its indicator. The indentation of the collection
around it is `parent`, and -1 where there is none. -/
def blockScalar? (literal : Bool) (parent : Int) (c : Cursor) : Option ScalarRun := do
  let (header, c) := blockHeader c
  let c ← c.endLine?
  let given := header.indentation.map fun n => (max parent 0).toNat + n
  let g ← blockGap? given [] 0 c.index c.line c.column c.rest
  let indent := given.getD (max g.widest (max (parent + 1) 1).toNat)
  let (b, breaks, c) ← blockLines? literal indent ⟨[], [], false⟩ g.breaks g.cursor.index
    g.cursor.line g.cursor.column g.cursor.rest
  let text := match header.chomping with
    | .strip => b.text
    | .clip => b.lineBreak ++ b.text
    | .keep => breaks ++ (b.lineBreak ++ b.text)
  return ⟨text.reverse, c, false⟩

end Yaml
end Rollout
