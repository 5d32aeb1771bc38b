/-
# The words of a command line

A parameter is given by its name after two hyphens or by its letter after one.
Letters can be joined in one word, up to the first that takes a value.

| word | gives |
| --- | --- |
| `--name`, `-l` | a flag, or a parameter whose value is the next word |
| `--name=value`, `-l=value`, `-lvalue` | a parameter and its value |
| `--` | nothing; all words after it are arguments |

A word that starts with a hyphen is no value, except for one hyphen alone. A
value counts as soon as the next parameter is given or the words end. The first
mistake ends the reading; a parameter that does not exist, or a flag with a
value, is noticed before the value of the parameter before it.
-/

namespace Rollout
namespace CommandLine

/-- Why a command line leads to no run. -/
inductive Usage where
  | help
  | version
  | nothingGiven
  | unknownArgument
  | unknownCommand
  | missingArgument
  | repeatedArgument
  | invalidValue
  | unexpectedValue
  deriving DecidableEq, Repr

/-- The exit code: asking for help or the version is no mistake. -/
def Usage.exitCode : Usage → Nat
  | help | version => 0
  | _ => 2

/-- What a parameter takes or does. -/
inductive ParameterKind where
  | flag
  /-- Takes any value. -/
  | text
  /-- Takes a value that is not empty. -/
  | path
  | help
  | version
  deriving DecidableEq, Repr

/-- A parameter of a command. -/
structure Parameter where
  name : String
  letter : Option Char
  kind : ParameterKind
  deriving DecidableEq, Repr

/-- The parameter takes a value. -/
def Parameter.takesValue (p : Parameter) : Bool :=
  match p.kind with
  | .text | .path => true
  | _ => false

/-- The parameters that were given, with their values; those of flags are
empty. -/
abbrev Given := List (String × String)

/-- The parameters given so far, and the one that waits for its value or whose
value does not count yet. -/
structure Scan where
  given : Given
  pending : Option (Parameter × Option String)

namespace Scan

/-- Nothing is given. -/
def start : Scan :=
  ⟨[], none⟩

/-- A parameter and its value count from here on. -/
def record (s : Scan) (p : Parameter) (value : String) : Except Usage Scan :=
  if (s.given.lookup p.name).isSome then .error .repeatedArgument
  else if p.kind = .path ∧ value = "" then .error .invalidValue
  else .ok ⟨(p.name, value) :: s.given, none⟩

/-- The pending parameter counts from here on; it must have its value. -/
def settle (s : Scan) : Except Usage Scan :=
  match s.pending with
  | none => .ok s
  | some (_, none) => .error .invalidValue
  | some (p, some value) => s.record p value

/-- A parameter that takes no value. -/
def flag (s : Scan) (p : Parameter) : Except Usage Scan := do
  let s ← s.settle
  match p.kind with
  | .help => .error .help
  | .version => .error .version
  | _ => s.record p ""

/-- A parameter that takes a value, which may be the next word. -/
def option (s : Scan) (p : Parameter) (value : Option String) : Except Usage Scan := do
  let s ← s.settle
  match value with
  | some value => s.record p value
  | none => .ok ⟨s.given, some (p, none)⟩

/-- The word after two hyphens. -/
def named (parameters : List Parameter) (s : Scan) (word : List Char) : Except Usage Scan :=
  let name := String.ofList (word.takeWhile (· != '='))
  let value := (word.dropWhile (· != '=')).tail?.map String.ofList
  match parameters.find? fun p => p.name == name with
  | none => .error .unknownArgument
  | some p =>
    if p.takesValue then s.option p value
    else if value.isSome then .error .unexpectedValue
    else s.flag p

/-- The value that is joined to a letter, if any is. -/
def joinedValue : List Char → Option String
  | [] => none
  | '=' :: value => some (String.ofList value)
  | value => some (String.ofList value)

/-- The letters after one hyphen. -/
def letters (parameters : List Parameter) : Scan → List Char → Except Usage Scan
  | s, [] => .ok s
  | s, c :: cs =>
    match parameters.find? fun p => p.letter == some c with
    | none => .error .unknownArgument
    | some p =>
      if p.takesValue then s.option p (joinedValue cs)
      else do letters parameters (← s.flag p) cs

/-- A word that is neither a name nor letters. -/
def value (s : Scan) (word : String) : Except Usage Scan :=
  match s.pending with
  | some (p, none) => .ok ⟨s.given, some (p, some word)⟩
  | _ => .error .unknownArgument

/-- One word. -/
def word (parameters : List Parameter) (s : Scan) (w : String) : Except Usage Scan :=
  match w.toList with
  | '-' :: '-' :: name => s.named parameters name
  | '-' :: c :: cs => s.letters parameters (c :: cs)
  | _ => s.value w

/-- All words of a command that takes no arguments but parameters. -/
def words (parameters : List Parameter) : Scan → List String → Except Usage Given
  | s, [] => s.settle.map Scan.given
  | s, w :: ws =>
    if w = "--" then
      if ws.isEmpty then s.settle.map Scan.given else .error .unknownArgument
    else do words parameters (← s.word parameters w) ws

end Scan
end CommandLine
end Rollout
