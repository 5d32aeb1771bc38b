/-
# The identity a node reports

A node writes its peer id to its log, on a line such as
`[INFO] server peer id = 12D3Koo…`, possibly coloured for a terminal. The last
line that carries the marker counts, because a node that restarted reports
again; the id is the trimmed text after the line's last equals sign, or the
whole trimmed line when it has none.
-/

import Rollout.Text.Blank
import Rollout.Text.ControlSequence
import Rollout.Text.Lines

namespace Rollout
namespace Container

/-- The words that mark a line with an identity. -/
def identityMarker : String := "server peer id"

/-- The identity on a marked line. -/
def identityOnLine? (line : List Char) : Option (List Char) :=
  let id := Text.trim ((Text.afterLast? '=' line).getD line)
  if id.isEmpty then none else some id

/-- The last line that carries the marker once control sequences are removed. -/
def markedLine? (logs : List Char) : Option (List Char) :=
  ((Text.lines logs).reverse.map Text.ControlSequence.strip).find?
    (Text.contains identityMarker.toList)

/-- The identity that a log reports. -/
def identity? (logs : String) : Option String :=
  match markedLine? logs.toList with
  | some line => (identityOnLine? line).map String.ofList
  | none => none

end Container
end Rollout
