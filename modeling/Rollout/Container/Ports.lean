/-
# Published ports

The container runtime lists published ports one binding to a line, such as
`7777/tcp -> 0.0.0.0:7777`. The host port is what follows the last colon of
the text after the first arrow; the address it is bound to does not matter, so
a port that is published on several addresses counts once. Only ports that
start with the digit of a transport count, and a node has exactly one of each.
-/

import Rollout.Node
import Rollout.Text.Blank
import Rollout.Text.Lines

namespace Rollout
namespace Container

/-- A non-empty row of decimal digits. -/
def isDigits (cs : List Char) : Bool :=
  !cs.isEmpty && cs.all Char.isDigit

/-- The host port of one line. -/
def hostPort? (line : List Char) : Option (List Char) :=
  match Text.splitFirst? ['-', '>'] line with
  | none => none
  | some (_, binding) =>
    let binding := Text.trim binding
    let port := (Text.afterLast? ':' binding).getD binding
    if isDigits port then some port else none

/-- The host port of one line, if it belongs to a node. -/
def nodePort? (line : List Char) : Option (List Char) :=
  match hostPort? line with
  | some port => if (Transport.ofPort? port).isSome then some port else none
  | none => none

/-- Adds a port unless it has been seen. -/
def addNew (seen : List (List Char)) (port : List Char) : List (List Char) :=
  if seen.contains port then seen else seen ++ [port]

/-- The node ports of a listing, each once, in order of first appearance. -/
def nodePorts (output : List Char) : List (List Char) :=
  ((Text.lines output).filterMap nodePort?).foldl addNew []

/-- Why a listing does not give the two ports of a node. -/
inductive PortError where
  /-- The number of node ports is not two. -/
  | count (found : List String)
  /-- The two ports belong to one transport. -/
  | clash (found : List String)
  deriving DecidableEq, Repr

/-- The two ports of a node, from the runtime's listing. -/
def readPorts (output : String) : Except PortError Ports :=
  let found := nodePorts output.toList
  match found with
  | [p, q] =>
    match Transport.ofPort? p, Transport.ofPort? q with
    | some .tcp, some .ws => .ok ⟨String.ofList p, String.ofList q⟩
    | some .ws, some .tcp => .ok ⟨String.ofList q, String.ofList p⟩
    | _, _ => .error (.clash (found.map String.ofList))
  | _ => .error (.count (found.map String.ofList))

end Container
end Rollout
