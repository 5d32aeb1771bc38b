/-
# What commands do

A command starts from a tree of files and ends with a text for the standard
output and a tree. Nothing is asked of a host before the configuration and all
files it names have been looked at.

| command | calls | output |
| --- | --- | --- |
| `deploy` | the deployment of the plan | the directory as text or JSON, then the path of the written report |
| `check` | `uname -a` on all hosts together | how many hosts, then one line each |
| `introspect` | the ports and the log of one container | the container and its node |
-/

import Rollout.CommandLine.Command
import Rollout.Configuration.Reader
import Rollout.Deployment.Fleet
import Rollout.Remote.Ssh
import Rollout.Report

namespace Rollout

/-- How the hosts of a run are reached. -/
def Settings.ssh (s : Settings) : Ssh :=
  ⟨s.user, s.sshOptions⟩

namespace CommandLine

/-- What a command finds: the files, the home directory, and the time as the
report gives it. -/
structure Surroundings where
  tree : FileTree
  home : Option (List Char)
  time : String

/-- What a command leaves: it has succeeded or halted, it has put out a text,
and there are the files. -/
structure Ending where
  result : Except (Halt Failure) Unit
  output : String
  tree : FileTree

namespace Surroundings

/-- The configuration at a path. -/
def configuration (w : Surroundings) (path : String) : Except Failure Configuration :=
  Configuration.load w.tree.files w.home path

/-- A command that halts without any output. -/
def halted (w : Surroundings) (h : Halt Failure) : Ending :=
  ⟨.error h, "", w.tree⟩

/-- A command that fails without any output. -/
def failed (w : Surroundings) (f : Failure) : Ending :=
  w.halted (.failed f)

end Surroundings

namespace DeployOptions

/-- The settings under these options. -/
def settings (o : DeployOptions) (s : Settings) : Settings :=
  { s with
    fleetFailure := if o.reportFailures then .report else s.fleetFailure
    missingIdentity := if o.strictIdentity then .refuse else s.missingIdentity }

/-- The plan of the deployment. -/
def plan (o : DeployOptions) (target : Target) (w : Surroundings) :
    Except (Halt Failure) DeploymentPlan := do
  let c ← (w.configuration target.config).mapError .failed
  let plan ← (c.plan w.tree.files target.environment o.tag).mapError (.within .planInvalid)
  return { plan with settings := o.settings plan.settings }

/-- The text for a report. -/
def text (o : DeployOptions) (r : Report) : String :=
  if o.json then r.jsonText ++ "\n" else r.directory.text

/-- The end of a deployment that has come to a directory. -/
def finish (o : DeployOptions) (w : Surroundings) (plan : DeploymentPlan) (d : NodeDirectory) :
    Ending :=
  let r : Report := ⟨w.time, plan.environment, plan.settings.tag, d⟩
  match o.output with
  | none => ⟨.ok (), o.text r, w.tree⟩
  | some path =>
    match r.write w.home path w.tree with
    | .error f => ⟨.error (.failed f), o.text r, w.tree⟩
    | .ok tree => ⟨.ok (), o.text r ++ "Report written to: " ++ path ++ "\n", tree⟩

end DeployOptions

variable {σ : Type}

/-- Deploys the fleet of a target. -/
def runDeploy (target : Target) (o : DeployOptions) (w : Surroundings) (remote : Ssh → Remote σ)
    (schedule : Schedule) (s : σ) (t : Nat) : Run σ Ending :=
  match o.plan target w with
  | .error h => ⟨some (w.halted h), [], s, t⟩
  | .ok plan =>
    let settings := plan.settings
    (plan.deploy (remote settings.ssh) schedule settings.readiness.patience s t).map fun
      | .error f => w.failed f
      | .ok d => o.finish w plan d

/-- The environment of a target and how its hosts are reached. -/
def checkedEnvironment (target : Target) (w : Surroundings) :
    Except Failure (String × Inventory × Ssh) := do
  let c ← w.configuration target.config
  let (name, inventory) ← c.environment target.environment
  inventory.validate
  return (name, inventory, c.settings.ssh)

/-- The call that shows whether a host can be reached. -/
def probe (host : String) : Task Failure String :=
  ⟨host, perform ⟨host, .run "uname -a" []⟩⟩

/-- The line for one host. -/
def probeLine (o : Outcome Failure String) : String :=
  match o.result with
  | .ok answer => "  ok   " ++ o.host ++ " " ++ Text.trimmed answer ++ "\n"
  | .error f => "  fail " ++ o.host ++ " " ++ f.line ++ "\n"

/-- The end of a check. -/
def probed (w : Surroundings) (name : String) (outcomes : List (Outcome Failure String)) :
    Ending :=
  let count := outcomes.length
  let failed := (outcomes.filter fun o => !o.succeeded).length
  let output := "Checking " ++ toString count ++ " hosts of " ++ name ++ "\n" ++
    String.join (outcomes.map probeLine)
  ⟨if failed = 0 then .ok () else .error (.failed (.of (.unreachable failed count))), output,
    w.tree⟩

/-- Reaches for every host of a target. -/
def runCheck (target : Target) (w : Surroundings) (remote : Ssh → Remote σ)
    (schedule : Schedule) (s : σ) (t : Nat) : Run σ Ending :=
  match checkedEnvironment target w with
  | .error f => ⟨some (w.failed f), [], s, t⟩
  | .ok (name, inventory, ssh) =>
    (executeTogether (remote ssh) schedule (inventory.hosts.map probe) s t).map (probed w name)

/-- Reads one container. -/
def runIntrospect (host container config : String) (w : Surroundings) (remote : Ssh → Remote σ)
    (s : σ) (t : Nat) : Run σ Ending :=
  match w.configuration config with
  | .error f => ⟨some (w.failed f), [], s, t⟩
  | .ok c =>
    ((Container.introspect host container).run (remote c.settings.ssh) 0 s t).map fun
      | .error f => w.failed f
      | .ok info => ⟨.ok (), info.id ++ " " ++ (info.node.resolve host).line ++ "\n", w.tree⟩

/-- Does what a command says. -/
def Command.run (command : Command) (w : Surroundings) (remote : Ssh → Remote σ)
    (schedule : Schedule) (s : σ) (t : Nat) : Run σ Ending :=
  match command with
  | deploy target o => runDeploy target o w remote schedule s t
  | check target => runCheck target w remote schedule s t
  | introspect host container config => runIntrospect host container config w remote s t

end CommandLine
end Rollout
