/-
# Nodes and their directory

A node has two endpoints, one per transport, and the identity it reported. It
is built in two steps: a container gives ports and identity, and the host the
container runs on gives the addresses.
-/

import Rollout.Address.Multiaddr

namespace Rollout

/-- The two network-facing roles of a node. -/
inductive Transport where
  /-- The primary peer-to-peer transport. -/
  | tcp
  /-- The transport of clients and browsers. -/
  | ws
  deriving DecidableEq, Repr

namespace Transport

/-- The leading digit of the host ports published for a transport. -/
def digit : Transport → Char
  | tcp => '7'
  | ws => '9'

/-- The components of a multiaddr above tcp. -/
def above : Transport → String
  | tcp => ""
  | ws => "/ws"

/-- The transport whose digit a port starts with. -/
def ofPort? (port : List Char) : Option Transport :=
  match port with
  | [] => none
  | c :: _ => [tcp, ws].find? fun t => t.digit == c

end Transport

/-- One endpoint of a node. -/
structure Service where
  port : String
  multiaddr : Option Multiaddr
  deriving DecidableEq, Repr

/-- The host ports of a node, one per transport. -/
structure Ports where
  tcp : String
  ws : String
  deriving DecidableEq, Repr

/-- One deployed peer. -/
structure Node where
  peerId : Option String
  tcp : Service
  ws : Service
  deriving DecidableEq, Repr

/-- What a container showed of itself. -/
structure ContainerInfo where
  id : String
  peerId : Option String
  ports : Ports
  deriving DecidableEq, Repr

/-- The nodes of one host, in the order their containers were listed. -/
structure HostNodes where
  host : String
  nodes : List Node
  deriving DecidableEq, Repr

/-- A host whose deployment failed while the run went on. -/
structure HostFailure where
  host : String
  cause : String
  deriving DecidableEq, Repr

/-- The result of a deployment run. -/
structure NodeDirectory where
  bootstrap : Node
  /-- The other nodes started on the bootstrap hosts. -/
  special : List Node
  fleet : List Node
  failures : List HostFailure
  deriving DecidableEq, Repr

namespace Service

/-- An endpoint whose address is not known yet. -/
def unresolved (port : String) : Service :=
  ⟨port, none⟩

/-- The endpoint with its address on a host. -/
def resolve (s : Service) (host : String) (t : Transport) : Service :=
  { s with multiaddr := some (Multiaddr.ofPort host s.port t.above) }

/-- The address, or a dash when it is not known. -/
def addressText (s : Service) : String :=
  match s.multiaddr with
  | some a => a.text
  | none => "-"

end Service

namespace Node

/-- The node with both addresses on a host. -/
def resolve (n : Node) (host : String) : Node :=
  { n with tcp := n.tcp.resolve host .tcp, ws := n.ws.resolve host .ws }

/-- The node did not report its identity. -/
def isAnonymous (n : Node) : Bool :=
  n.peerId.isNone

/-- Both addresses and the identity, as registration scripts take them. -/
def line (n : Node) : String :=
  n.tcp.addressText ++ " " ++ n.ws.addressText ++ " " ++ n.peerId.getD "unknown"

end Node

/-- The node a container runs, its addresses not known yet. -/
def ContainerInfo.node (info : ContainerInfo) : Node :=
  ⟨info.peerId, .unresolved info.ports.tcp, .unresolved info.ports.ws⟩

/-- The nodes of a host with their addresses on it. -/
def HostNodes.resolved (h : HostNodes) : List Node :=
  h.nodes.map (·.resolve h.host)

/-- The nodes of all hosts with their addresses, in host order, then in listing
order. -/
def resolveAll (hosts : List HostNodes) : List Node :=
  hosts.flatMap HostNodes.resolved

/-- Every node of the directory, the bootstrap node first. -/
def NodeDirectory.nodes (d : NodeDirectory) : List Node :=
  d.bootstrap :: (d.special ++ d.fleet)

end Rollout
