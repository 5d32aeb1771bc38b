/-
# Published nodes are resolved

Hosts are free in what they answer, and a directory still has nodes of one form
only:

| part of a node | is |
| --- | --- |
| its ports | decimal digits, the first one that of the transport |
| its addresses | its own host, then its own ports |
| its identity | absent, or plain text on one line |

Main statement: `DeploymentPlan.deploy_resolved`.
-/

import Rollout.Proofs.Container.Output
import Rollout.Proofs.Deployment.Policies

namespace Rollout

/-- The node has a port of each transport, their addresses on the host, and an
identity if any. -/
structure Node.ResolvedOn (n : Node) (host : String) : Prop where
  tcpPort : Transport.tcp.IsPort n.tcp.port
  wsPort : Transport.ws.IsPort n.ws.port
  tcpAddress : n.tcp.multiaddr = some ⟨Multiaddr.network host ++ "/tcp/" ++ n.tcp.port⟩
  wsAddress : n.ws.multiaddr = some ⟨Multiaddr.network host ++ "/tcp/" ++ n.ws.port ++ "/ws"⟩
  identity : ∀ id, n.peerId = some id → Container.IsIdentity id

/-- **What a container has shown** is resolved on its host. -/
theorem ContainerInfo.resolvedOn {info : ContainerInfo} {output logs : String} (host : String)
    (ports : Container.readPorts output = .ok info.ports)
    (identity : Container.identity? logs = info.peerId) :
    (info.node.resolve host).ResolvedOn host := by
  obtain ⟨tcp, ws⟩ := Container.readPorts_isPort ports
  constructor
  case tcpPort => exact tcp
  case wsPort => exact ws
  case tcpAddress =>
    have text : Multiaddr.network host ++ "/tcp/" ++ info.ports.tcp ++ "" =
        Multiaddr.network host ++ "/tcp/" ++ info.ports.tcp := String.append_empty
    exact congrArg (some ∘ Multiaddr.mk) text
  case wsAddress => rfl
  case identity =>
    intro id hid
    exact Container.identity?_isIdentity (identity.trans hid)

/-- The nodes listed for a host are resolved on it. -/
theorem Listed.resolvedOn {settings : Settings} {phase : PhasePlan} {bootstrap : Option Multiaddr}
    {es : List Event} {i : Nat} {host : String} {nodes : List Node}
    (h : Listed settings phase bootstrap es i host nodes) : ∀ n ∈ nodes, n.ResolvedOn host := by
  obtain ⟨infos, rfl, -, -, read⟩ := h
  intro n hn
  obtain ⟨info, hinfo, rfl⟩ := List.mem_map.1 hn
  obtain ⟨⟨_, output, -, ports⟩, _, logs, -, identity⟩ := read info hinfo
  exact info.resolvedOn host ports identity

/-- The node is one that the events show of a host of the phase, resolved on that
host. -/
def PublishedFor (settings : Settings) (phase : PhasePlan) (bootstrap : Option Multiaddr)
    (es : List Event) (n : Node) : Prop :=
  ∃ i host nodes, phase.hosts[i]? = some host ∧
    Listed settings phase bootstrap es i host nodes ∧ n ∈ nodes ∧ n.ResolvedOn host

namespace DeploymentPlan

variable {σ : Type} {plan : DeploymentPlan} {remote : Remote σ} {schedule : Schedule}
  {patience : Nat} {s : σ} {t : Nat} {d : NodeDirectory}

/-- **Every published node is resolved on its own host**, whatever the hosts
answer and however long a run waits for them. -/
theorem deploy_resolved
    (h : (plan.deploy remote schedule patience s t).result = some (.ok d)) :
    (∀ n ∈ d.bootstrap :: d.special, PublishedFor plan.settings plan.bootstrap none
      (plan.deploy remote schedule patience s t).events n) ∧
    ∀ n ∈ d.fleet, PublishedFor plan.settings plan.fleet d.bootstrap.tcp.multiaddr
      (plan.deploy remote schedule patience s t).events n := by
  obtain ⟨bs, b, os, hbs, hb, hos, -, hbootstrap, hspecial, hfleet, -⟩ := deploy_eq_ok h
  obtain ⟨_, _, _, haddress, _⟩ := BootstrapNodes.ofOutcomes_ok hb
  rw [deploy_of_passed schedule hbs hb, hbootstrap, hspecial, haddress]
  constructor
  · intro n hn
    obtain ⟨lists, flat, length, each⟩ := bootstrap_listed hbs hb
    rw [flat] at hn
    obtain ⟨nodes, hnodes, hn⟩ := List.mem_flatten.1 hn
    obtain ⟨i, hi⟩ := List.mem_iff_getElem?.1 hnodes
    have place : i < plan.bootstrap.hosts.length :=
      length ▸ (List.getElem?_eq_some_iff.1 hi).1
    have host := List.getElem?_eq_getElem place
    obtain ⟨nodes', hi', listed⟩ := each i _ host
    obtain rfl : nodes = nodes' := Option.some.inj (hi.symm.trans hi')
    exact ⟨i, _, nodes, host, listed.mono fun e he => List.mem_append_left _ he, hn,
      listed.resolvedOn n hn⟩
  · intro n hn
    rw [hfleet] at hn
    obtain ⟨o, ho, hn⟩ := List.mem_flatMap.1 hn
    obtain ⟨i, hi⟩ := List.mem_iff_getElem?.1 ho
    have host : plan.fleet.hosts[i]? = some o.host := by
      rw [← fleet_hosts hos, List.getElem?_map, hi, Option.map_some]
    rw [nodesOf] at hn
    split at hn
    · rename_i nodes accepted
      have listed := fleet_listed hos hi accepted
      exact ⟨i, o.host, nodes, host, listed.mono fun e he => List.mem_append_right _ he, hn,
        listed.resolvedOn n hn⟩
    · cases hn

/-- The small plan publishes a bootstrap node and a fleet node. -/
theorem deploy_resolved_small : ∃ d,
    (small.deploy (Script.remote Script.small) .earliest 1 [] 0).result = some (.ok d) ∧
      d.fleet.length = 1 ∧ ∀ n ∈ d.nodes, ∃ host, n.ResolvedOn host := by
  have loc := Script.remote_isLocal Script.small
  obtain ⟨d, hd, length⟩ : ∃ d,
      (small.deploy (Script.remote Script.small) .earliest 1 [] 0).result = some (.ok d) ∧
        d.fleet.length = 1 :=
    exists_directory_of_each .earliest loc (by decide) (by decide +kernel)
  obtain ⟨bootstrap, fleet⟩ := deploy_resolved hd
  refine ⟨d, hd, length, fun n hn => ?_⟩
  rw [NodeDirectory.nodes, ← List.cons_append] at hn
  rcases List.mem_append.1 hn with hn | hn
  · obtain ⟨_, host, _, _, _, _, resolved⟩ := bootstrap n hn
    exact ⟨host, resolved⟩
  · obtain ⟨_, host, _, _, _, _, resolved⟩ := fleet n hn
    exact ⟨host, resolved⟩

end DeploymentPlan
end Rollout
