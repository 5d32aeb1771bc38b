/-
# Settings of a deployment

| setting | standard |
| --- | --- |
| user | `root` |
| compose command | `docker-compose` |
| tag | `latest` |
| node config | `Config.toml` |
| a fleet host fails | the run fails |
| a node reports no identity | the node is kept |
| readiness | one second to settle |
-/

import Rollout.Container.Introspection

namespace Rollout

/-- What a failing fleet host does to the run. -/
inductive FleetPolicy where
  /-- The run fails. -/
  | abort
  /-- The run goes on and reports the host. -/
  | report
  deriving DecidableEq, Repr

/-- What a node that reports no identity does to the run. -/
inductive IdentityPolicy where
  /-- The node is kept as unknown. -/
  | degrade
  /-- The node's host counts as failed. -/
  | refuse
  deriving DecidableEq, Repr

/-- What all hosts of a run have in common. -/
structure Settings where
  user : String
  composeCommand : String
  tag : String
  configFile : String
  fleetFailure : FleetPolicy
  missingIdentity : IdentityPolicy
  readiness : Readiness
  sshOptions : List String
  deriving DecidableEq, Repr

/-- The settings where nothing else is said. -/
def Settings.standard : Settings where
  user := "root"
  composeCommand := "docker-compose"
  tag := "latest"
  configFile := "Config.toml"
  fleetFailure := .abort
  missingIdentity := .degrade
  readiness := .standard
  sshOptions := []

end Rollout
