/-
# Commands

| command | parameters |
| --- | --- |
| `deploy` | `-c`, `-e`, `-t`, `--partial`, `--strict-identity`, `-o`, `--json` |
| `check` | `-c`, `-e` |
| `introspect` | `--host`, `--container`, `-c` |

| parameter | short | variable | when absent |
| --- | --- | --- | --- |
| `--config` | `-c` | `FLEET_CONFIG` | `fleet.toml` |
| `--environment` | `-e` | `FLEET_ENV` | none |
| `--tag` | `-t` | `FLEET_TAG` | none |
| `--output` | `-o` | | none |
| `--host`, `--container` | | | a mistake |

A variable counts where the parameter is not given. Every command has `--help`
and `-h`; in place of a command, `help`, `--version` and `-V` stand as well.
-/

import Rollout.CommandLine.Parameter

namespace Rollout
namespace CommandLine

/-- The values of the variables that stand in for parameters. -/
structure Variables where
  config : Option String
  environment : Option String
  tag : Option String
  deriving DecidableEq, Repr

/-- Where the hosts are listed, and which of the lists is meant. -/
structure Target where
  config : String
  environment : Option String
  deriving DecidableEq, Repr

/-- What a deployment is told apart from its target. -/
structure DeployOptions where
  tag : Option String
  /-- Failing fleet hosts are reported. -/
  reportFailures : Bool
  /-- Nodes without an identity are refused. -/
  strictIdentity : Bool
  output : Option String
  json : Bool
  deriving DecidableEq, Repr

/-- What to do. -/
inductive Command where
  | deploy (target : Target) (options : DeployOptions)
  | check (target : Target)
  | introspect (host container config : String)
  deriving DecidableEq, Repr

/-- The three commands, without what they are told. -/
inductive CommandName where
  | deploy
  | check
  | introspect
  deriving DecidableEq, Repr

/-- The command of a name. -/
def CommandName.ofString? : String → Option CommandName
  | "deploy" => some deploy
  | "check" => some check
  | "introspect" => some introspect
  | _ => none

/-- The parameter that asks for help. -/
def helpParameter : Parameter := ⟨"help", some 'h', .help⟩

/-- The parameter with the path of the configuration. -/
def configParameter : Parameter := ⟨"config", some 'c', .path⟩

/-- The parameter with the name of the environment. -/
def environmentParameter : Parameter := ⟨"environment", some 'e', .text⟩

/-- The parameters of a command. -/
def CommandName.parameters : CommandName → List Parameter
  | deploy =>
    [configParameter, environmentParameter, ⟨"tag", some 't', .text⟩, ⟨"partial", none, .flag⟩,
      ⟨"strict-identity", none, .flag⟩, ⟨"output", some 'o', .path⟩, ⟨"json", none, .flag⟩,
      helpParameter]
  | check => [configParameter, environmentParameter, helpParameter]
  | introspect =>
    [⟨"host", none, .text⟩, ⟨"container", none, .text⟩, configParameter, helpParameter]

/-- The parameters that stand in place of a command. -/
def topParameters : List Parameter :=
  [helpParameter, ⟨"version", some 'V', .version⟩]

namespace Given

/-- The path of the configuration. -/
def config (g : Given) (fallback : Variables) : Except Usage String :=
  match g.lookup "config", fallback.config with
  | some path, _ => .ok path
  | none, some path => if path = "" then .error .invalidValue else .ok path
  | none, none => .ok "fleet.toml"

/-- Where the hosts are listed, and which of the lists is meant. -/
def target (g : Given) (fallback : Variables) : Except Usage Target := do
  return ⟨← config g fallback, (g.lookup "environment").or fallback.environment⟩

/-- The value of a parameter that must be given. -/
def required (g : Given) (name : String) : Except Usage String :=
  match g.lookup name with
  | some value => .ok value
  | none => .error .missingArgument

/-- The command that is told what was given. -/
def command (g : Given) (fallback : Variables) : CommandName → Except Usage Command
  | .deploy => do
    return .deploy (← target g fallback) {
      tag := (g.lookup "tag").or fallback.tag
      reportFailures := (g.lookup "partial").isSome
      strictIdentity := (g.lookup "strict-identity").isSome
      output := g.lookup "output"
      json := (g.lookup "json").isSome }
  | .check => do return .check (← target g fallback)
  | .introspect => do
    let path ← config g fallback
    return .introspect (← required g "host") (← required g "container") path

end Given

/-- The answer to `help` and the words after it. -/
def helpOn : List String → Usage
  | [] => .help
  | [topic] =>
    if topic = "help" ∨ (CommandName.ofString? topic).isSome then .help else .unknownCommand
  | _ => .unknownCommand

/-- The answer to `--` in place of a command and the words after it. -/
def withoutCommand : List String → Usage
  | [] => .nothingGiven
  | w :: _ =>
    if w = "help" ∨ (CommandName.ofString? w).isSome then .unknownArgument else .unknownCommand

/-- The word starts with a hyphen and is more than that. -/
def isParameter (word : String) : Bool :=
  match word.toList with
  | '-' :: _ :: _ => true
  | _ => false

/-- The command that a command line is. -/
def Command.read (fallback : Variables) : List String → Except Usage Command
  | [] => .error .nothingGiven
  | w :: ws =>
    match CommandName.ofString? w with
    | some name => do
      let given ← Scan.start.words name.parameters ws
      Given.command given fallback name
    | none =>
      if w = "help" then .error (helpOn ws)
      else if w = "--" then .error (withoutCommand ws)
      else if isParameter w then do
        let _ ← Scan.start.word topParameters w
        read fallback ws
      else .error .unknownCommand

end CommandLine
end Rollout
