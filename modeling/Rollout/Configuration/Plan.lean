/-
# Configurations

A configuration says once what all runs have in common, and lists the hosts of
every target environment. The plan for one environment is made from it before
any host is reached, in this order:

| step | fails when |
| --- | --- |
| choose the environment | the name is unknown, or there is none and not one environment |
| look at its hosts | there is no bootstrap host, or a host is listed twice |
| look for the node config | it is not a regular file |
| prepare the bootstrap phase, then the fleet | its files cannot be used, or the keypairs do not suffice |

Where a phase has more containers than a word can count, preparing it overflows.
-/

import Rollout.Deployment.Inventory
import Rollout.Deployment.Plan

namespace Rollout

/-- The files of a phase, and how many containers it brings to each host. -/
structure PhaseSource where
  compose : String
  keystore : String
  perHost : UInt64
  deriving DecidableEq, Repr

/-- A configuration; its environments are in the order of their names. -/
structure Configuration where
  settings : Settings
  bootstrap : PhaseSource
  fleet : PhaseSource
  environments : List (String × Inventory)
  deriving DecidableEq, Repr

/-- The phase on some hosts. -/
def PhaseSource.plan (s : PhaseSource) (files : Files) (hosts : List String) :
    Except (Halt Failure) PhasePlan := do
  let compose ← (ComposeFile.load files s.compose).mapError .failed
  let keystore ← (Keystore.load files s.keystore).mapError .failed
  PhasePlan.make hosts compose keystore s.perHost

namespace Configuration

/-- The environment of a name; without a name, the only one. -/
def environment (c : Configuration) : Option String → Except Failure (String × Inventory)
  | some name =>
    match c.environments.lookup name with
    | some inventory => .ok (name, inventory)
    | none => .error (.of (.environmentUnknown name (c.environments.map Prod.fst)))
  | none =>
    match c.environments with
    | [environment] => .ok environment
    | environments => .error (.of (.environmentNotChosen environments.length))

/-- The settings of a run: its tag may be another one. -/
def settingsFor (c : Configuration) (tag : Option String) : Settings :=
  { c.settings with tag := tag.getD c.settings.tag }

/-- The plan for one environment. -/
def plan (c : Configuration) (files : Files) (environment tag : Option String) :
    Except (Halt Failure) DeploymentPlan := do
  let (name, inventory) ← (c.environment environment).mapError .failed
  inventory.validate.mapError .failed
  if !files.isFile c.settings.configFile then
    throw (.failed (.of (.nodeConfigMissing c.settings.configFile)))
  let bootstrap ← (c.bootstrap.plan files inventory.bootstrap).mapError
    (.within (.preparing .bootstrap))
  let fleet ← (c.fleet.plan files inventory.nodes).mapError (.within (.preparing .fleet))
  return ⟨name, c.settingsFor tag, bootstrap, fleet⟩

end Configuration
end Rollout
