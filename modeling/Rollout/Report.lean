/-
# Reports

The directory of a run is printed as text, in groups, one node to a line, and
exported as JSON together with what the run was. The JSON object has the
members `generated_at`, `environment`, `tag`, `bootstrap`, `special`, `fleet`
and, when there are any, `failures`, in this order.

A directory is read back from an object with these members, in any order and
with any others between them, or from the array of its parts in their order.
Absent peer ids, addresses and failures are read as none.
-/

import Rollout.Failure
import Rollout.Json.Value

namespace Rollout

/-- The lines of nodes. -/
def nodeLines (nodes : List Node) : String :=
  String.join (nodes.map fun n => n.line ++ "\n")

/-- The lines of failures, under a heading if there are any. -/
def failureLines (failures : List HostFailure) : String :=
  if failures.isEmpty then ""
  else "Failed hosts:\n" ++ String.join (failures.map fun f => f.host ++ " " ++ f.cause ++ "\n")

/-- The directory as text, grouped by role. -/
def NodeDirectory.text (d : NodeDirectory) : String :=
  "Addresses:\n" ++ nodeLines d.fleet ++ "Bootstrap:\n" ++ nodeLines [d.bootstrap] ++
    "Special ones:\n" ++ nodeLines d.special ++ failureLines d.failures

/-- A string that may be absent. -/
def optionalJson (s : Option String) : Json.Value :=
  match s with
  | some s => .string s
  | none => .null

/-- The endpoint as JSON. -/
def Service.json (s : Service) : Json.Value :=
  .object [("port", .string s.port), ("multiaddr", optionalJson (s.multiaddr.map Multiaddr.text))]

/-- The node as JSON. -/
def Node.json (n : Node) : Json.Value :=
  .object [("peer_id", optionalJson n.peerId), ("tcp", n.tcp.json), ("ws", n.ws.json)]

/-- The failure as JSON. -/
def HostFailure.json (f : HostFailure) : Json.Value :=
  .object [("host", .string f.host), ("cause", .string f.cause)]

/-- The members that hold a directory. -/
def NodeDirectory.jsonMembers (d : NodeDirectory) : List (String × Json.Value) :=
  [("bootstrap", d.bootstrap.json), ("special", .array (d.special.map Node.json)),
    ("fleet", .array (d.fleet.map Node.json))] ++
    if d.failures.isEmpty then [] else [("failures", .array (d.failures.map HostFailure.json))]

/-- A directory and what the run was. -/
structure Report where
  generatedAt : String
  environment : String
  tag : String
  directory : NodeDirectory
  deriving DecidableEq, Repr

namespace Report

/-- The report as JSON. -/
def json (r : Report) : Json.Value :=
  .object (("generated_at", .string r.generatedAt) :: ("environment", .string r.environment) ::
    ("tag", .string r.tag) :: r.directory.jsonMembers)

/-- The report as JSON text. -/
def jsonText (r : Report) : String :=
  r.json.text

/-- The tree with the report in a file; missing directories above it are made. -/
def write (r : Report) (home : Option (List Char)) (path : String) (tree : FileTree) :
    Except Failure FileTree :=
  let target := Path.expandHome home path.toList
  let parent := Path.parent? target
  match (match parent with
    | some p => tree.makeDirectories p
    | none => .ok tree) with
  | .error e => .error ⟨.parentNotMade (String.ofList (parent.getD [])), [.file e]⟩
  | .ok tree =>
    match tree.write target r.jsonText.toUTF8 with
    | .error e => .error ⟨.reportNotWritten (String.ofList target), [.file e]⟩
    | .ok tree => .ok tree

end Report

/-! ## Reading a directory back -/

/-- The parts of a value that is an object, or an array of parts in their order;
`required` parts must be there. -/
def Json.Value.parts? (names : List String) (required : Nat) : Json.Value →
    Option (List (Option Json.Value))
  | .object members => some (names.map fun name => members.lookup name)
  | .array items =>
    if required ≤ items.length ∧ items.length ≤ names.length then
      some ((items.map some) ++ List.replicate (names.length - items.length) none)
    else none
  | _ => none

/-- The string that a part must be. -/
def stringPart? : Option Json.Value → Option String
  | some (.string s) => some s
  | _ => none

/-- The string that a part is, unless it is absent or null. -/
def optionalPart? : Option Json.Value → Option (Option String)
  | none | some .null => some none
  | some (.string s) => some (some s)
  | _ => none

/-- The list that a part must be. -/
def listPart? {α : Type} (read : Json.Value → Option α) : Option Json.Value → Option (List α)
  | some (.array items) => items.mapM read
  | _ => none

/-- Reads an endpoint. -/
def Service.ofJson? (v : Json.Value) : Option Service := do
  match ← v.parts? ["port", "multiaddr"] 2 with
  | [port, multiaddr] => return ⟨← stringPart? port, (← optionalPart? multiaddr).map Multiaddr.mk⟩
  | _ => none

/-- Reads a node. -/
def Node.ofJson? (v : Json.Value) : Option Node := do
  match ← v.parts? ["peer_id", "tcp", "ws"] 3 with
  | [peerId, some tcp, some ws] =>
    return ⟨← optionalPart? peerId, ← Service.ofJson? tcp, ← Service.ofJson? ws⟩
  | _ => none

/-- Reads a failure. -/
def HostFailure.ofJson? (v : Json.Value) : Option HostFailure := do
  match ← v.parts? ["host", "cause"] 2 with
  | [host, cause] => return ⟨← stringPart? host, ← stringPart? cause⟩
  | _ => none

/-- Reads a directory. -/
def NodeDirectory.ofJson? (v : Json.Value) : Option NodeDirectory := do
  match ← v.parts? ["bootstrap", "special", "fleet", "failures"] 3 with
  | [some bootstrap, special, fleet, failures] =>
    let failures ← match failures with
      | none => some []
      | some _ => listPart? HostFailure.ofJson? failures
    return ⟨← Node.ofJson? bootstrap, ← listPart? Node.ofJson? special,
      ← listPart? Node.ofJson? fleet, failures⟩
  | _ => none

end Rollout
