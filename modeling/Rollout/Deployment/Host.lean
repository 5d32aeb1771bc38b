/-
# The deployment of one host

| step | call |
| --- | --- |
| ship the compose file | put |
| recreate the containers without starting them | compose `pull`, `rm -fs`, `up --no-start` |
| ship the node config | put |
| list the containers | compose `ps -q` |
| give every container the config and a keypair | `docker cp`, write, `docker cp`, `rm -f` |
| start the containers | compose `restart` |

The first call that fails ends the deployment of the host. Every compose
command has the host, the tag and, on fleet hosts, the bootstrap address in its
environment; no other command has an environment.
-/

import Rollout.Deployment.Plan

namespace Rollout

/-- The path of the node config in every container. -/
def containerConfigPath : String := "/Config.toml"

/-- The path of the keypair in every container. -/
def containerKeyPath : String := "/node.key"

/-- What the containers of one host are told. -/
structure HostEnvironment where
  host : String
  tag : String
  /-- Known on fleet hosts. -/
  bootstrap : Option Multiaddr
  deriving DecidableEq, Repr

/-- The variables that compose commands see. -/
def HostEnvironment.exports (env : HostEnvironment) : List (String × String) :=
  [("HOST", env.host), ("TAG", env.tag)] ++
    match env.bootstrap with
    | some address => [("BOOTSTRAP", address.text)]
    | none => []

/-- The non-blank lines of a listing, trimmed. -/
def listedIds (output : String) : List String :=
  (((Text.lines output.toList).map Text.trim).filter (!·.isEmpty)).map String.ofList

/-- A name in the working directory of a host. -/
def inWorkingDirectory (name : String) : String :=
  "./" ++ name

/-- Where a keypair is staged on its host. -/
def stagingPath (fileName : String) (index : UInt64) : String :=
  inWorkingDirectory (fileName ++ "_" ++ toString index ++ ".key")

/-- The command that copies a file of the host into a container. -/
def copyCommand (source container target : String) : String :=
  "docker cp " ++ source ++ " " ++ container ++ ":" ++ target

/-- The file name of the node config. -/
def Settings.configName (settings : Settings) : Except Failure String :=
  match Path.fileName? settings.configFile.toList with
  | some name => .ok (String.ofList name)
  | none => .error (.of (.nodeConfigUnnamed settings.configFile))

/-- The call of a compose subcommand. -/
def composeCall (settings : Settings) (phase : PhasePlan) (env : HostEnvironment)
    (subcommand : String) : Call :=
  ⟨env.host, .run
    (settings.composeCommand ++ " -f " ++ phase.compose.fileName ++ " " ++ subcommand)
    env.exports⟩

namespace PhasePlan

/-- The keypair of a container: its position in the keystore and the keypair. -/
def keypairOf (phase : PhasePlan) (position : UInt64) (host : String) (place : Nat)
    (container : String) : Except Failure (UInt64 × String) :=
  match phase.index position (UInt64.ofNat place) with
  | .error e => .error ⟨.noKeySlot container host, [.layout e]⟩
  | .ok index =>
    match phase.keystore.keypair index.toNat with
    | .error e => .error e
    | .ok key => .ok (index, key)

/-- Gives one container the node config and its keypair. The staged keypair is
removed once it is copied. -/
def equip (phase : PhasePlan) (position : UInt64) (host configName : String) (place : Nat)
    (container : String) : Program Failure Unit := do
  let _ ← perform ⟨host,
    .run (copyCommand (inWorkingDirectory configName) container containerConfigPath) []⟩
  let (index, key) ← Program.ended (phase.keypairOf position host place container)
  let staging := stagingPath phase.compose.fileName index
  let _ ← perform ⟨host, .write (key ++ "\n") staging⟩
  let _ ← perform ⟨host, .run (copyCommand staging container containerKeyPath) []⟩
  let _ ← perform ⟨host, .run ("rm -f " ++ staging) []⟩

/-- Equips containers in listing order, the first of them at `place`. -/
def equipAll (phase : PhasePlan) (position : UInt64) (host configName : String) :
    (place : Nat) → List String → Program Failure Unit
  | _, [] => pure ()
  | place, container :: containers => do
    phase.equip position host configName place container
    equipAll phase position host configName (place + 1) containers

/-- The listed containers, if there are as many as the layout says. -/
def checkCount (phase : PhasePlan) (host : String) (containers : List String) :
    Except Failure (List String) :=
  if containers.length = phase.layout.perHost.toNat then .ok containers
  else
    .error (.of (.containerCount host containers.length phase.compose.service
      phase.layout.perHost.toNat))

/-- Recreates, equips and starts the containers of one host, and names them in
listing order. -/
def deploy (phase : PhasePlan) (settings : Settings) (position : UInt64)
    (env : HostEnvironment) : Program Failure (List String) := do
  let compose := fun subcommand => perform (composeCall settings phase env subcommand)
  let _ ← perform ⟨env.host, .put phase.compose.path (inWorkingDirectory phase.compose.fileName)⟩
  let _ ← compose "pull"
  let _ ← compose "rm -fs"
  let _ ← compose "up --no-start"
  let configName ← Program.ended settings.configName
  let _ ← perform ⟨env.host, .put settings.configFile (inWorkingDirectory configName)⟩
  let listing ← compose "ps -q"
  let containers ← Program.ended (phase.checkCount env.host (listedIds listing))
  phase.equipAll position env.host configName 0 containers
  let _ ← compose "restart"
  return containers

/-- Deploys one host, waits for its containers and reads them. -/
def deployNodes (phase : PhasePlan) (settings : Settings) (patience : Nat) (position : UInt64)
    (env : HostEnvironment) : Program Failure (List ContainerInfo) := do
  let containers ← phase.deploy settings position env
  Container.awaitReady patience env.host containers settings.readiness

end PhasePlan
end Rollout
