/-
# Plain scalars

A plain scalar ends before a colon that stands alone, before a hash sign after
a gap, at a document mark, and at a line that is not indented enough. In flow,
indentation does not count, and the scalar ends before `,`, `[`, `]`, `{` and
`}` as well.
-/

import Rollout.Yaml.Folding

namespace Rollout
namespace Yaml

/-- A character that ends a plain scalar in flow. -/
def endsFlow (c : Char) : Bool :=
  c == ',' || c == '[' || c == ']' || c == '{' || c == '}'

/-- In flow, a colon may not stand right before an indicator. -/
def isStrayColon : List Char → Bool
  | ':' :: c :: _ => endsFlow c || c == '?'
  | _ => false

/-- A colon stands alone. -/
def isLoneColon : List Char → Bool
  | ':' :: rest => atBlank rest
  | _ => false

/-- Reads a plain scalar from its first character on. Its lines must be
indented by `indent` at least, except in flow. -/
def plain? (flow : Bool) (indent : Nat) (f : Folding) (index line column : Nat) :
    List Char → Option ScalarRun
  | [] => some ⟨f.text.reverse, ⟨[], index, line, column⟩, f.breaks.isSome⟩
  | c :: cs =>
    let stop : ScalarRun := ⟨f.text.reverse, ⟨c :: cs, index, line, column⟩, f.breaks.isSome⟩
    if isGap c then
      if f.breaks.isSome && column < indent && c == '\t' then none
      else plain? flow indent (f.addGap c) (index + 1) line (column + 1) cs
    else if isBreak c then plain? flow indent (f.addBreak c) (index + 1) (line + 1) 0 cs
    else if f.isPending && ((!flow && column < indent) || c == '#') then some stop
    else if column = 0 && f.isPending && startsDocumentMark (c :: cs) then some stop
    else if flow && isStrayColon (c :: cs) then none
    else if isLoneColon (c :: cs) || (flow && endsFlow c) then some stop
    else plain? flow indent (f.add c) (index + 1) line (column + 1) cs

end Yaml
end Rollout
