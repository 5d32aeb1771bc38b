/-
# Multiaddrs

A multiaddr names an endpoint from the network layer upwards:
`/ip4/10.0.0.5/tcp/7777`, `/ip6/::1/tcp/9999/ws`, `/dns4/node.example/tcp/7777`.
A host that reads as an Internet address is written in that address's one
written form; every other host is a name.
-/

import Rollout.Address.Ip

namespace Rollout

/-- A self-describing network address. -/
structure Multiaddr where
  text : String
  deriving DecidableEq, Repr

namespace Multiaddr

/-- The network-layer component of a host. -/
def network (host : String) : String :=
  match Address.Ip.read? host.toList with
  | some (.v4 ip) => "/ip4/" ++ String.ofList ip.text
  | some (.v6 ip) => "/ip6/" ++ String.ofList ip.text
  | none => "/dns4/" ++ host

/-- The address of a tcp port on a host, with the components above tcp. -/
def ofPort (host port above : String) : Multiaddr :=
  ⟨network host ++ "/tcp/" ++ port ++ above⟩

end Multiaddr
end Rollout
