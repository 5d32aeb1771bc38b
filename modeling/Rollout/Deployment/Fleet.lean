/-
# The deployment of a fleet

The bootstrap hosts are deployed one after the other; the first failure among
them ends the run. The tcp address of the first bootstrap node is then given to
all other hosts, which are deployed together, in the order of a schedule. Every
fleet host runs to its own end, whatever happens on the others; what a failure
does to the run is decided afterwards, host by host in list order.
-/

import Rollout.Deployment.Host
import Rollout.Remote.Execution

namespace Rollout

/-- The first node without an identity is refused, if the policy says so. -/
def IdentityPolicy.check (policy : IdentityPolicy) (nodes : List Node) : Except Failure Unit :=
  match policy, nodes.find? Node.isAnonymous with
  | .refuse, some node =>
    .error (.of (.anonymousNode ((node.tcp.multiaddr.map Multiaddr.text).getD node.tcp.port)))
  | _, _ => .ok ()

/-- The deployment of one host of a phase, up to its nodes. -/
def PhasePlan.hostProgram (phase : PhasePlan) (settings : Settings) (patience : Nat)
    (bootstrap : Option Multiaddr) (position : Nat) (host : String) : Program Failure HostNodes :=
  (phase.deployNodes settings patience (UInt64.ofNat position)
    ⟨host, settings.tag, bootstrap⟩).ending fun result =>
      match within (.deploymentOf host) result with
      | .ok infos => .ok ⟨host, infos.map ContainerInfo.node⟩
      | .error f => .error f

/-- The tasks of hosts, the first of them at `position`. -/
def PhasePlan.tasksFrom (phase : PhasePlan) (settings : Settings) (patience : Nat)
    (bootstrap : Option Multiaddr) (position : Nat) : List String → List (Task Failure HostNodes)
  | [] => []
  | host :: hosts =>
    ⟨host, phase.hostProgram settings patience bootstrap position host⟩ ::
      phase.tasksFrom settings patience bootstrap (position + 1) hosts

/-- One task for every host of a phase. -/
def PhasePlan.tasks (phase : PhasePlan) (settings : Settings) (patience : Nat)
    (bootstrap : Option Multiaddr) : List (Task Failure HostNodes) :=
  phase.tasksFrom settings patience bootstrap 0 phase.hosts

/-- The nodes of hosts that must all have succeeded. -/
def allNodes (phase : Phase) : List (Outcome Failure HostNodes) → Except Failure (List HostNodes)
  | [] => .ok []
  | o :: os =>
    match within (.phaseHost phase o.host) o.result with
    | .error f => .error f
    | .ok nodes =>
      match allNodes phase os with
      | .error f => .error f
      | .ok rest => .ok (nodes :: rest)

/-- What the bootstrap phase gives to the rest of the run. -/
structure BootstrapNodes where
  first : Node
  /-- The tcp address of the first node. -/
  address : Multiaddr
  others : List Node
  deriving DecidableEq, Repr

/-- The nodes of the bootstrap phase: there is a first one, and the policy
accepts them all. -/
def BootstrapNodes.ofOutcomes (policy : IdentityPolicy)
    (outcomes : List (Outcome Failure HostNodes)) : Except Failure BootstrapNodes := do
  let hosts ← allNodes .bootstrap outcomes
  match resolveAll hosts with
  | [] => .error (.of .noBootstrapNodes)
  | first :: others =>
    policy.check [first]
    policy.check others
    match first.tcp.multiaddr with
    | none => .error (.of .noBootstrapAddress)
    | some address => .ok ⟨first, address, others⟩

/-- The nodes of a fleet host with their addresses, if the host succeeded and
the policy accepts them all. -/
def acceptedNodes (policy : IdentityPolicy) (o : Outcome Failure HostNodes) :
    Except Failure (List Node) :=
  match o.result with
  | .error f => .error f
  | .ok nodes =>
    match policy.check nodes.resolved with
    | .error f => .error f
    | .ok () => .ok nodes.resolved

/-- The nodes and the failures of the fleet, in host order. Under the policy to
abort, the first failure is the run's. -/
def fleetNodes (settings : Settings) :
    List (Outcome Failure HostNodes) → Except Failure (List Node × List HostFailure)
  | [] => .ok ([], [])
  | o :: os =>
    match acceptedNodes settings.missingIdentity o, settings.fleetFailure with
    | .ok nodes, _ =>
      match fleetNodes settings os with
      | .error f => .error f
      | .ok (rest, failures) => .ok (nodes ++ rest, failures)
    | .error f, .abort => .error (f.within (.phaseHost .fleet o.host))
    | .error f, .report =>
      match fleetNodes settings os with
      | .error f => .error f
      | .ok (rest, failures) => .ok (rest, ⟨o.host, f.line⟩ :: failures)

/-- The directory of a run whose fleet outcomes are known. -/
def NodeDirectory.ofOutcomes (settings : Settings) (bootstrap : BootstrapNodes)
    (outcomes : List (Outcome Failure HostNodes)) : Except Failure NodeDirectory :=
  match fleetNodes settings outcomes with
  | .error f => .error f
  | .ok (fleet, failures) => .ok ⟨bootstrap.first, bootstrap.others, fleet, failures⟩

namespace DeploymentPlan

variable {σ : Type}

/-- Deploys the bootstrap hosts. -/
def deployBootstrap (plan : DeploymentPlan) (remote : Remote σ) (patience : Nat) (s : σ)
    (t : Nat) : Run σ (Except Failure BootstrapNodes) :=
  (executeInOrder remote 0 (plan.bootstrap.tasks plan.settings patience none) s t).map
    (BootstrapNodes.ofOutcomes plan.settings.missingIdentity)

/-- Deploys the fleet hosts. -/
def deployRest (plan : DeploymentPlan) (remote : Remote σ) (schedule : Schedule) (patience : Nat)
    (bootstrap : BootstrapNodes) (s : σ) (t : Nat) : Run σ (Except Failure NodeDirectory) :=
  (executeTogether remote schedule
    (plan.fleet.tasks plan.settings patience (some bootstrap.address)) s t).map
    (NodeDirectory.ofOutcomes plan.settings bootstrap)

/-- Deploys the bootstrap hosts, then the fleet. -/
def deploy (plan : DeploymentPlan) (remote : Remote σ) (schedule : Schedule) (patience : Nat)
    (s : σ) (t : Nat) : Run σ (Except Failure NodeDirectory) :=
  (plan.deployBootstrap remote patience s t).andThen fun result s t =>
    match result with
    | .error f => ⟨some (.error f), [], s, t⟩
    | .ok bootstrap => plan.deployRest remote schedule patience bootstrap s t

end DeploymentPlan
end Rollout
