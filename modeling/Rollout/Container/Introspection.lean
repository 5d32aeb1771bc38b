/-
# Reading a container

A running container is read by two calls: its published ports, then its log.
After a start there are two ways to wait for it:

| readiness | what happens |
| --- | --- |
| settle | wait once, then read every container once |
| poll | read a container until its ports are known and its log shows an identity, with pauses between the readings |

The deadline of polling is one for all containers of a host. A reading is
repeated only if the pause before it ends no later than the deadline, so every
container is read at least once.
-/

import Rollout.Container.Identity
import Rollout.Failure
import Rollout.Remote.Program

namespace Rollout

/-- How to wait for containers that have just been started, in milliseconds. -/
inductive Readiness where
  | settle (delay : Nat)
  | poll (interval timeout : Nat)
  deriving DecidableEq, Repr

namespace Readiness

/-- One second to settle. -/
def standard : Readiness :=
  settle 1000

/-- A number of readings that no container exceeds while the interval is
positive or every reading takes a millisecond. -/
def patience : Readiness → Nat
  | settle _ => 1
  | poll interval timeout => timeout / max interval 1 + 2

end Readiness

/-- Makes a call. -/
def perform (c : Call) : Program Failure String :=
  Program.perform Failure.ofCall c

namespace Container

/-- The call that lists a container's published ports. -/
def portsCall (host container : String) : Call :=
  ⟨host, .run ("docker port " ++ container) []⟩

/-- The call that prints a container's log. -/
def logsCall (host container : String) : Call :=
  ⟨host, .run ("docker logs " ++ container ++ " 2>&1") []⟩

/-- The ports in a listing of a container's published ports. -/
def portsIn (host container output : String) : Except Failure Ports :=
  match readPorts output with
  | .ok ports => .ok ports
  | .error e => .error ⟨.portsOf container host, [.ports e]⟩

/-- Reads the two ports of a container's node. -/
def ports (host container : String) : Program Failure Ports := do
  let output ← perform (portsCall host container)
  .ended (portsIn host container output)

/-- Reads the identity that a container's node last reported. -/
def peerId (host container : String) : Program Failure (Option String) := do
  let logs ← perform (logsCall host container)
  return identity? logs

/-- Reads what a container shows. -/
def introspect (host container : String) : Program Failure ContainerInfo := do
  let ports ← ports host container
  let peerId ← peerId host container
  return ⟨container, peerId, ports⟩

/-- A reading that shows a ready node, or why it does not. -/
def ready : Except Failure ContainerInfo → Except String ContainerInfo
  | .ok info => if info.peerId.isSome then .ok info else .error "peer id not yet in logs"
  | .error f => .error f.line

/-- Reads a container until it is ready, `patience` times at most. -/
def poll (host container : String) (interval timeout deadline : Nat) :
    (patience : Nat) → Program Failure ContainerInfo
  | 0 => .unfinished
  | patience + 1 => do
    match ready (← (introspect host container).attempt) with
    | .ok info => return info
    | .error last =>
      if (← Program.now) + interval > deadline then
        Program.fail (.of (.notReady container host timeout last))
      else
        Program.pause interval
        poll host container interval timeout deadline patience

/-- Waits for containers, then reads them in the order given. -/
def awaitReady (patience : Nat) (host : String) (containers : List String) :
    Readiness → Program Failure (List ContainerInfo)
  | .settle delay => do
    Program.pause delay
    Program.each (introspect host) containers
  | .poll interval timeout => do
    let deadline := (← Program.now) + timeout
    Program.each (fun c => poll host c interval timeout deadline patience) containers

end Container
end Rollout
