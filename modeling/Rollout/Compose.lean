/-
# Compose files

A compose file is a YAML document with a mapping `services` that is not empty.
On a host it is known by its file name; the name without `.yml` or `.yaml` is
the name of the service it brings.
-/

import Rollout.Failure
import Rollout.Yaml.Value

namespace Rollout

/-- A compose file that has been looked into. -/
structure ComposeFile where
  path : String
  fileName : String
  service : String
  deriving DecidableEq, Repr

namespace ComposeFile

/-- The name of the service that a file brings. -/
def serviceName (fileName : List Char) : List Char :=
  match Text.stripEnd? ".yml".toList fileName with
  | some name => name
  | none => (Text.stripEnd? ".yaml".toList fileName).getD fileName

/-- The entries of a node that stands for a mapping; a node that is left out
stands for an empty one. -/
def mappingEntries? (d : Yaml.Document) (n : Yaml.Node) (aliases : Nat) :
    Option (List (Yaml.Node × Yaml.Node) × Nat) :=
  match d.resolve? n aliases with
  | some (.mapping _ entries, aliases) => some (entries, aliases)
  | some (.scalar s, aliases) => if s.plain && s.text.isEmpty then some ([], aliases) else none
  | _ => none

/-- The text of a node that stands for a scalar. -/
def scalarText? (d : Yaml.Document) (n : Yaml.Node) (aliases : Nat) :
    Option (List Char × Nat) :=
  match d.resolve? n aliases with
  | some (.scalar s, aliases) => some (s.text, aliases)
  | _ => none

/-- How deep the value of a service may be nested: two levels less than a
document. -/
def serviceDepth : Nat := 126

/-- Reads the services after the first so many: names and values of any kind.
The answer is their number. -/
def countServices? (d : Yaml.Document) (count : Nat) :
    List (Yaml.Node × Yaml.Node) → (aliases : Nat) → Option (Nat × Nat)
  | [], aliases => some (count, aliases)
  | (name, value) :: rest, aliases => do
    let (_, aliases) ← scalarText? d name aliases
    let (_, aliases) ← d.value? serviceDepth value aliases
    countServices? d (count + 1) rest aliases

/-- Reads the entries of a compose document: the first `services`, which must be
the only one, is looked into, other entries are not. -/
def servicesIn? (d : Yaml.Document) (found : Option Nat) :
    List (Yaml.Node × Yaml.Node) → (aliases : Nat) → Option Nat
  | [], _ => some (found.getD 0)
  | (key, value) :: rest, aliases => do
    let (name, aliases) ← scalarText? d key aliases
    if name = "services".toList then
      if found.isSome then none
      let (entries, aliases) ← mappingEntries? d value aliases
      let (count, aliases) ← countServices? d 0 entries aliases
      servicesIn? d (some count) rest aliases
    else servicesIn? d found rest aliases

/-- The number of services that a compose document lists. -/
def serviceCount? (content : String) : Option Nat := do
  let d ← Yaml.document? content.toList
  match d.root with
  | none => some 0
  | some root =>
    let (entries, aliases) ← mappingEntries? d root 0
    servicesIn? d none entries aliases

/-- A compose file with its content. -/
def parse (path content : String) : Except Failure ComposeFile :=
  match Path.fileName? path.toList with
  | none => .error (.of (.composeUnnamed path))
  | some name =>
    match serviceCount? content with
    | none => .error (.of (.composeInvalid path))
    | some 0 => .error (.of (.composeEmpty path))
    | some _ => .ok ⟨path, String.ofList name, String.ofList (serviceName name)⟩

/-- The compose file at a path. -/
def load (files : Files) (path : String) : Except Failure ComposeFile :=
  match files.readText path with
  | .ok content => parse path content
  | .error e => .error ⟨.composeUnreadable path, [.file e]⟩

end ComposeFile
end Rollout
