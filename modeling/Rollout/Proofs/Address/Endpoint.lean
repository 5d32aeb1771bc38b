/-
# The endpoint that an address names

Nothing in an address is escaped, and a host may be any text, with slashes in it or
even `/tcp/`. An address is read from its right end:

| read | is |
| --- | --- |
| `/ws` at the end | the transport |
| the digits before it | the port |
| `/tcp/` before them | dropped |
| all that is left | the host: an Internet address, or a name |

Main statement: `Multiaddr.ofPort_identifies`. Two addresses are the same exactly when
their ports, their transports and their hosts are, and hosts are the same when they are
written alike or are forms of one Internet address.
-/

import Rollout.Node
import Rollout.Proofs.Address.RoundTrip
import Rollout.Proofs.Container.Ports

namespace Rollout

open Address (Ip Ipv4 Ipv6)

/-- What a host is known as, whatever form it is given in. -/
inductive HostIdentity where
  | internet (ip : Ip)
  | named (host : String)
  deriving DecidableEq

/-- What an address leads to. -/
structure Endpoint where
  host : HostIdentity
  port : String
  transport : Transport
  deriving DecidableEq

/-- A host that reads as an Internet address is that address. -/
def HostIdentity.ofHost (host : String) : HostIdentity :=
  match Ip.read? host.toList with
  | some ip => .internet ip
  | none => .named host

/-- Reads the network-layer component of an address. -/
def HostIdentity.read? (network : List Char) : Option HostIdentity :=
  match Text.stripStart? "/dns4/".toList network with
  | some name => some (.named (String.ofList name))
  | none =>
    match Text.stripStart? "/ip4/".toList network with
    | some text => (Ipv4.read? text).map fun ip => .internet (.v4 ip)
    | none =>
      match Text.stripStart? "/ip6/".toList network with
      | some text => (Ipv6.read? text).map fun ip => .internet (.v6 ip)
      | none => none

/-- Reads the transport at the end of an address. -/
def Transport.split (cs : List Char) : Transport × List Char :=
  match Text.stripEnd? "/ws".toList cs with
  | some rest => (.ws, rest)
  | none => (.tcp, cs)

/-- Reads an address from its right end. -/
def Endpoint.read? (a : Multiaddr) : Option Endpoint := do
  let (transport, cs) := Transport.split a.text.toList
  let port := (cs.reverse.takeWhile Char.isDigit).reverse
  let network ← Text.stripEnd? "/tcp/".toList (cs.reverse.dropWhile Char.isDigit).reverse
  let host ← HostIdentity.read? network
  return ⟨host, String.ofList port, transport⟩

/-! ### Hosts -/

/-- **Two hosts are the same** when both are the same address, or neither is an address and their
texts are equal. -/
theorem HostIdentity.ofHost_eq_iff {host host' : String} :
    ofHost host = ofHost host' ↔
      (∃ ip, Ip.read? host.toList = some ip ∧ Ip.read? host'.toList = some ip) ∨
      Ip.read? host.toList = none ∧ Ip.read? host'.toList = none ∧ host = host' := by
  unfold ofHost
  cases Ip.read? host.toList with
  | none => cases Ip.read? host'.toList <;> simp
  | some ip =>
    cases Ip.read? host'.toList with
    | none => simp
    | some ip' => simpa using eq_comm

/-- The network-layer component of a host. -/
def HostIdentity.component : HostIdentity → String
  | internet (.v4 ip) => "/ip4/" ++ String.ofList ip.text
  | internet (.v6 ip) => "/ip6/" ++ String.ofList ip.text
  | named host => "/dns4/" ++ host

/-- The first component of a multiaddress is that of the identity of its host. -/
theorem Multiaddr.network_eq (host : String) :
    network host = (HostIdentity.ofHost host).component := by
  unfold network HostIdentity.ofHost
  cases Ip.read? host.toList with
  | none => rfl
  | some ip => cases ip <;> rfl

/-- **The host is read back** from its component. -/
theorem HostIdentity.read?_component (h : HostIdentity) :
    read? h.component.toList = some h := by
  have strip (start rest : List Char) : Text.stripStart? start (start ++ rest) = some rest :=
    Text.stripStart?_eq_some.2 rfl
  match h with
  | named host =>
    have name := strip "/dns4/".toList host.toList
    simp only [component, String.toList_append, read?, name, String.ofList_toList]
  | internet (.v4 ip) =>
    have name : Text.stripStart? "/dns4/".toList ("/ip4/".toList ++ ip.text) = none := rfl
    have four := strip "/ip4/".toList ip.text
    simp only [component, String.toList_append, String.toList_ofList, read?, name, four,
      ip.read?_text, Option.map_some]
  | internet (.v6 ip) =>
    have name : Text.stripStart? "/dns4/".toList ("/ip6/".toList ++ ip.text) = none := rfl
    have four : Text.stripStart? "/ip4/".toList ("/ip6/".toList ++ ip.text) = none := rfl
    have six := strip "/ip6/".toList ip.text
    simp only [component, String.toList_append, String.toList_ofList, read?, name, four, six,
      ip.read?_text, Option.map_some]

/-! ### Addresses -/

/-- **The transport is read from the end**, where a digit stands if it has no name. -/
theorem Transport.split_append {cs port : List Char} (digits : Container.isDigits port = true)
    (t : Transport) : split (cs ++ port ++ t.above.toList) = (t, cs ++ port) := by
  cases t with
  | ws =>
    have ends : Text.stripEnd? "/ws".toList (cs ++ port ++ ws.above.toList) = some (cs ++ port) :=
      Text.stripEnd?_append _ _
    rw [split, ends]
  | tcp =>
    obtain ⟨nonempty, digits⟩ := Container.isDigits_iff.1 digits
    obtain ⟨front, c, rfl⟩ := (List.eq_nil_or_concat' port).resolve_left nonempty
    have differs : 's' ≠ c := by
      rintro rfl
      exact absurd (digits 's' (by simp)) (by decide)
    have last : Text.stripEnd? "/ws".toList (cs ++ (front ++ [c])) = none := by
      rw [← List.append_assoc]
      exact Text.stripEnd?_of_last ['/', 'w'] differs
    have empty : cs ++ (front ++ [c]) ++ tcp.above.toList = cs ++ (front ++ [c]) :=
      List.append_nil _
    rw [empty, split, last]

/-- From the end, a multiaddress is read up to the first character that is no digit; what has been
read is the port. -/
theorem takeWhile_reverse_port (cs : List Char) {port : List Char}
    (digits : Container.isDigits port = true) :
    (cs ++ "/tcp/".toList ++ port).reverse.takeWhile Char.isDigit = port.reverse ∧
      (cs ++ "/tcp/".toList ++ port).reverse.dropWhile Char.isDigit =
        (cs ++ "/tcp/".toList).reverse := by
  have all : ∀ c ∈ port.reverse, c.isDigit = true :=
    fun c hc => (Container.isDigits_iff.1 digits).2 c (List.mem_reverse.1 hc)
  have stops : Address.StopsAt Char.isDigit (cs ++ "/tcp/".toList).reverse := by
    intro c hc
    obtain rfl : '/' = c := by simpa using hc
    rfl
  rw [List.reverse_append]
  exact ⟨Address.takeWhile_append_of_stopsAt all stops,
    Address.dropWhile_append_of_stopsAt all stops⟩

/-- **An address is read back**: its host, its port and its transport. -/
theorem Endpoint.read?_ofPort (host : String) {port : String}
    (digits : Container.isDigits port.toList = true) (t : Transport) :
    read? (Multiaddr.ofPort host port t.above) = some ⟨.ofHost host, port, t⟩ := by
  have component := HostIdentity.read?_component (.ofHost host)
  have text : (Multiaddr.ofPort host port t.above).text.toList =
      (Multiaddr.network host).toList ++ "/tcp/".toList ++ port.toList ++ t.above.toList := by
    simp only [Multiaddr.ofPort, String.toList_append]
  rw [← Multiaddr.network_eq] at component
  obtain ⟨taken, left⟩ := takeWhile_reverse_port (Multiaddr.network host).toList digits
  simp only [read?, text, Transport.split_append digits, taken, left, List.reverse_reverse,
    Text.stripEnd?_append, component, String.ofList_toList, Option.bind_eq_bind, Option.bind_some,
    Option.pure_def]

namespace Multiaddr

/-- **An address names one endpoint.** Two addresses are equal exactly when they have
the same port and the same transport, and their hosts are forms of one Internet address
or, where they are none, the same text. All three are read back from the address. -/
theorem ofPort_identifies (host host' port port' : String) (t t' : Transport)
    (digits : Container.isDigits port.toList = true)
    (digits' : Container.isDigits port'.toList = true) :
    (ofPort host port t.above = ofPort host' port' t'.above ↔
      port = port' ∧ t = t' ∧
        ((∃ ip, Ip.read? host.toList = some ip ∧ Ip.read? host'.toList = some ip) ∨
          Ip.read? host.toList = none ∧ Ip.read? host'.toList = none ∧ host = host')) ∧
    Endpoint.read? (ofPort host port t.above) = some ⟨.ofHost host, port, t⟩ := by
  refine ⟨?_, Endpoint.read?_ofPort host digits t⟩
  rw [← HostIdentity.ofHost_eq_iff]
  constructor
  · intro same
    have read := Endpoint.read?_ofPort host digits t
    rw [same, Endpoint.read?_ofPort host' digits' t'] at read
    obtain ⟨hosts, rfl, rfl⟩ :
        HostIdentity.ofHost host' = .ofHost host ∧ port' = port ∧ t' = t := by
      simpa using read
    exact ⟨rfl, rfl, hosts.symm⟩
  · rintro ⟨rfl, rfl, hosts⟩
    have components : network host = network host' := by
      rw [network_eq, network_eq, hosts]
    rw [ofPort, ofPort, components]

/-- Two forms of one address, and a name that ends like an address. -/
theorem ofPort_identifies_loopback :
    Container.isDigits "7777".toList = true ∧
      ofPort "0:0::1" "7777" Transport.tcp.above = ofPort "::0.0.0.1" "7777" Transport.tcp.above ∧
      ofPort "::1/tcp/7777" "7777" Transport.tcp.above ≠ ofPort "::1" "7777" Transport.tcp.above ∧
      Endpoint.read? (ofPort "::1/tcp/7777" "7777" Transport.ws.above) =
        some ⟨.named "::1/tcp/7777", "7777", .ws⟩ := by
  have digits : Container.isDigits "7777".toList = true := by decide
  refine ⟨digits, ?_, ?_, ?_⟩
  · refine (ofPort_identifies "0:0::1" "::0.0.0.1" "7777" "7777" .tcp .tcp digits digits).1.2 ?_
    exact ⟨rfl, rfl, .inl ⟨.v6 ⟨[0, 0, 0, 0, 0, 0, 0, 1], rfl⟩, by decide +kernel,
      by decide +kernel⟩⟩
  · rw [Ne, (ofPort_identifies "::1/tcp/7777" "::1" "7777" "7777" .tcp .tcp digits digits).1]
    rintro ⟨-, -, ⟨ip, read, -⟩ | ⟨-, -, same⟩⟩
    · rw [show Ip.read? "::1/tcp/7777".toList = none by decide +kernel] at read
      cases read
    · exact absurd same (by decide)
  · have named : HostIdentity.ofHost "::1/tcp/7777" = .named "::1/tcp/7777" := by decide +kernel
    rw [(ofPort_identifies "::1/tcp/7777" "::1" "7777" "7777" .ws .ws digits digits).2, named]

end Multiaddr
end Rollout
