/-
# Reading a configuration

A configuration is a TOML document with these sections. A field without a
standard value must be there.

| section | fields, in their order |
| --- | --- |
| the document | `deploy`, `bootstrap`, `fleet`, `environments` |
| `deploy` | `user`, `compose_command`, `tag`, `config_file`, `fleet_failure`, `missing_identity`, `readiness`, `ssh_options` |
| `deploy.readiness` | `mode`, `settle_ms`, `interval_ms`, `timeout_secs` |
| `bootstrap`, `fleet` | `compose`, `keystore`, `containers_per_host` |
| each of `environments` | `bootstrap`, `nodes` |

The paths in it are seen from the directory that holds the document, and may
start with a tilde for the home directory.
-/

import Rollout.Configuration.Plan
import Rollout.Configuration.Readiness
import Rollout.Toml.Reader
import Rollout.Toml.Section

namespace Rollout

open Toml (Value fieldOr)

/-- Reads what a failing fleet host does to the run. -/
def FleetPolicy.ofToml? : Value → Option FleetPolicy :=
  Value.choice? [("abort", .abort), ("partial", .report)]

/-- Reads what a node without an identity does to the run. -/
def IdentityPolicy.ofToml? : Value → Option IdentityPolicy :=
  Value.choice? [("degrade", .degrade), ("fail", .refuse)]

/-- Reads a way to wait. -/
def Configuration.ReadinessMode.ofToml? : Value → Option ReadinessMode :=
  Value.choice? [("settle", .settle), ("poll", .poll)]

/-- Reads a readiness section. -/
def Configuration.ReadinessSection.ofToml? (v : Value) : Option ReadinessSection := do
  match ← v.fields? ["mode", "settle_ms", "interval_ms", "timeout_secs"] with
  | [mode, settleMs, intervalMs, timeoutSecs] =>
    return {
      mode := ← fieldOr standard.mode ReadinessMode.ofToml? mode
      settleMs := ← fieldOr standard.settleMs Value.word? settleMs
      intervalMs := ← fieldOr standard.intervalMs Value.word? intervalMs
      timeoutSecs := ← fieldOr standard.timeoutSecs Value.word? timeoutSecs }
  | _ => none

/-- Reads how to wait. -/
def Readiness.ofToml? (v : Value) : Option Readiness :=
  (Configuration.ReadinessSection.ofToml? v).map Configuration.ReadinessSection.readiness

/-- Reads the settings. -/
def Settings.ofToml? (v : Value) : Option Settings := do
  match ← v.fields? ["user", "compose_command", "tag", "config_file", "fleet_failure",
    "missing_identity", "readiness", "ssh_options"] with
  | [user, composeCommand, tag, configFile, fleetFailure, missingIdentity, readiness,
      sshOptions] =>
    return {
      user := ← fieldOr standard.user Value.string? user
      composeCommand := ← fieldOr standard.composeCommand Value.string? composeCommand
      tag := ← fieldOr standard.tag Value.string? tag
      configFile := ← fieldOr standard.configFile Value.string? configFile
      fleetFailure := ← fieldOr standard.fleetFailure FleetPolicy.ofToml? fleetFailure
      missingIdentity := ← fieldOr standard.missingIdentity IdentityPolicy.ofToml? missingIdentity
      readiness := ← fieldOr standard.readiness Readiness.ofToml? readiness
      sshOptions := ← fieldOr standard.sshOptions Value.strings? sshOptions }
  | _ => none

/-- Reads the files of a phase. -/
def PhaseSource.ofToml? (v : Value) : Option PhaseSource := do
  match ← v.fields? ["compose", "keystore", "containers_per_host"] with
  | [some compose, some keystore, perHost] =>
    return ⟨← compose.string?, ← keystore.string?, ← fieldOr 1 Value.word? perHost⟩
  | _ => none

/-- Reads the hosts of an environment. -/
def Inventory.ofToml? (v : Value) : Option Inventory := do
  match ← v.fields? ["bootstrap", "nodes"] with
  | [some bootstrap, nodes] =>
    return ⟨← bootstrap.strings?, ← fieldOr [] Value.strings? nodes⟩
  | _ => none

/-- Reads the environments, in the order of their names. -/
def Configuration.environmentsOfToml? : Value → Option (List (String × Inventory))
  | .table t => do
    let environments ← t.entries.mapM fun (name, v) => do
      return (name, ← Inventory.ofToml? v)
    return environments.mergeSort fun a b => a.1 ≤ b.1
  | _ => none

namespace Configuration

/-- Reads a configuration, with its paths as they are written. -/
def ofTable? (t : Toml.Table) : Option Configuration := do
  match ← t.fields? ["deploy", "bootstrap", "fleet", "environments"] with
  | [settings, some bootstrap, some fleet, environments] =>
    return {
      settings := ← fieldOr .standard Settings.ofToml? settings
      bootstrap := ← PhaseSource.ofToml? bootstrap
      fleet := ← PhaseSource.ofToml? fleet
      environments := ← fieldOr [] environmentsOfToml? environments }
  | _ => none

/-- The configuration that a text is, with its paths as they are written. -/
def ofText? (text : String) : Option Configuration := do
  ofTable? (← Toml.document? text.toList)

/-- A path as seen from a directory. -/
def pathFrom (home : Option (List Char)) (directory : List Char) (path : String) : String :=
  String.ofList (Path.join directory (Path.expandHome home path.toList))

/-- The files of a phase as seen from a directory. -/
def sourceFrom (home : Option (List Char)) (directory : List Char) (s : PhaseSource) :
    PhaseSource :=
  { s with
    compose := pathFrom home directory s.compose
    keystore := pathFrom home directory s.keystore }

/-- The configuration with its paths as seen from a directory. -/
def seenFrom (c : Configuration) (home : Option (List Char)) (directory : List Char) :
    Configuration :=
  { c with
    settings := { c.settings with configFile := pathFrom home directory c.settings.configFile }
    bootstrap := sourceFrom home directory c.bootstrap
    fleet := sourceFrom home directory c.fleet }

/-- The configuration in a file. -/
def load (files : Files) (home : Option (List Char)) (path : String) :
    Except Failure Configuration :=
  let path := Path.expandHome home path.toList
  let name := String.ofList path
  match files.readText name with
  | .error e => .error ⟨.configUnreadable name, [.file e]⟩
  | .ok text =>
    match ofText? text with
    | none => .error (.of (.configInvalid name))
    | some c => .ok (c.seenFrom home ((Path.parent? path).getD []))

end Configuration
end Rollout
