/-
# The calls of a host

Every call that the deployment of a host can make is a compose command with the
environment of that host, or a plain call, which has none:

| plain call | made to |
| --- | --- |
| put | ship the compose file and the node config |
| write | stage a keypair |
| `docker cp`, `rm -f` | equip a container |
| `docker port`, `docker logs` | read a container |

Main statement: `PhasePlan.everyCall_deployNodes`.
-/

import Rollout.Deployment.Host
import Rollout.Proofs.Remote.Calls

namespace Rollout

/-- The compose subcommands of a deployment. -/
def composeSubcommands : List String :=
  ["pull", "rm -fs", "up --no-start", "ps -q", "restart"]

/-- A call on a host that is no compose command. It has no environment. -/
inductive PlainCall (host : String) : Call → Prop where
  | put (file remote : String) : PlainCall host ⟨host, .put file remote⟩
  | write (contents remote : String) : PlainCall host ⟨host, .write contents remote⟩
  | copy (source container target : String) :
    PlainCall host ⟨host, .run (copyCommand source container target) []⟩
  | remove (path : String) : PlainCall host ⟨host, .run ("rm -f " ++ path) []⟩
  | ports (container : String) : PlainCall host (Container.portsCall host container)
  | logs (container : String) : PlainCall host (Container.logsCall host container)

/-- The variables in the environment of a call. -/
def Call.environment (c : Call) : List (String × String) :=
  match c.action with
  | .run _ environment => environment
  | .put _ _ | .write _ _ => []

/-- A plain call is on its host. -/
theorem PlainCall.host_eq {host : String} {c : Call} (h : PlainCall host c) : c.host = host := by
  cases h <;> rfl

/-- A plain call exports nothing. -/
theorem PlainCall.environment_eq {host : String} {c : Call} (h : PlainCall host c) :
    c.environment = [] := by
  cases h <;> rfl

/-- A call that reads a container. -/
inductive ReadingCall (host : String) : Call → Prop where
  | ports (container : String) : ReadingCall host (Container.portsCall host container)
  | logs (container : String) : ReadingCall host (Container.logsCall host container)

/-- A call that reads a container is plain. -/
theorem ReadingCall.plain {host : String} {c : Call} (h : ReadingCall host c) :
    PlainCall host c := by
  cases h with
  | ports container => exact .ports container
  | logs container => exact .logs container

/-- A call of the deployment of one host. -/
def HostCall (settings : Settings) (phase : PhasePlan) (env : HostEnvironment) (c : Call) : Prop :=
  (∃ subcommand ∈ composeSubcommands, c = composeCall settings phase env subcommand) ∨
    PlainCall env.host c

/-- All calls of a host are on it. -/
theorem HostCall.host_eq {settings : Settings} {phase : PhasePlan} {env : HostEnvironment}
    {c : Call} (h : HostCall settings phase env c) : c.host = env.host := by
  rcases h with ⟨subcommand, -, rfl⟩ | h
  · rfl
  · exact h.host_eq

open Program

/-! ### Calls -/

section

variable {P : Call → Prop}

/-- The only call of a single call is itself. -/
theorem everyCall_call {c : Call} (h : P c) : (perform c).EveryCall P :=
  everyCall_perform h

/-- Reading a container does nothing else. -/
theorem Container.everyCall_introspect (host container : String) :
    (introspect host container).EveryCall (ReadingCall host) :=
  ((everyCall_call (.ports container)).bind fun _ => everyCall_ended _).bind fun _ =>
    ((everyCall_call (.logs container)).bind fun _ => everyCall_pure _).bind fun _ =>
      everyCall_pure _

/-- Polling a container only reads it, however often. -/
theorem Container.everyCall_poll (host container : String) (interval timeout deadline : Nat) :
    ∀ patience,
      (poll host container interval timeout deadline patience).EveryCall (ReadingCall host)
  | 0 => trivial
  | patience + 1 => by
    refine (Container.everyCall_introspect host container).ending.bind fun r => ?_
    cases ready r with
    | ok info => exact everyCall_pure _
    | error last =>
      refine everyCall_now.bind fun now => ?_
      split
      · exact everyCall_fail _
      · exact (everyCall_pause _).bind fun _ => everyCall_poll host container _ _ _ patience

/-- Waiting for containers only reads them. -/
theorem Container.everyCall_awaitReady (patience : Nat) (host : String)
    (containers : List String) (readiness : Readiness) :
    (awaitReady patience host containers readiness).EveryCall (ReadingCall host) := by
  cases readiness with
  | settle delay =>
    exact (everyCall_pause delay).bind fun _ => .each (everyCall_introspect host) containers
  | poll interval timeout =>
    exact everyCall_now.bind fun _ =>
      .each (fun c => everyCall_poll host c _ _ _ patience) containers

end

namespace PhasePlan

variable (phase : PhasePlan)

/-- Equipping a container exports nothing. -/
theorem everyCall_equip (position : UInt64) (host configName : String) (place : Nat)
    (container : String) :
    (phase.equip position host configName place container).EveryCall (PlainCall host) :=
  (everyCall_call (.copy ..)).bind fun _ => (everyCall_ended _).bind fun _ =>
    (everyCall_call (.write ..)).bind fun _ => (everyCall_call (.copy ..)).bind fun _ =>
      (everyCall_call (.remove _)).bind fun _ => everyCall_pure _

/-- Equipping containers exports nothing. -/
theorem everyCall_equipAll (position : UInt64) (host configName : String) :
    ∀ (place : Nat) (containers : List String),
      (phase.equipAll position host configName place containers).EveryCall (PlainCall host)
  | _, [] => trivial
  | place, container :: containers =>
    (phase.everyCall_equip position host configName place container).bind fun _ =>
      everyCall_equipAll position host configName (place + 1) containers

/-- **All calls of a deployment** are on the host, and only those of compose have exports. -/
theorem everyCall_deploy (settings : Settings) (position : UInt64) (env : HostEnvironment) :
    (phase.deploy settings position env).EveryCall (HostCall settings phase env) := by
  have compose : ∀ subcommand ∈ composeSubcommands,
      (perform (composeCall settings phase env subcommand)).EveryCall
        (HostCall settings phase env) :=
    fun subcommand h => everyCall_call (.inl ⟨subcommand, h, rfl⟩)
  refine (everyCall_call (.inr (.put ..))).bind fun _ => ?_
  refine (compose "pull" (by simp [composeSubcommands])).bind fun _ => ?_
  refine (compose "rm -fs" (by simp [composeSubcommands])).bind fun _ => ?_
  refine (compose "up --no-start" (by simp [composeSubcommands])).bind fun _ => ?_
  refine (everyCall_ended _).bind fun configName => ?_
  refine (everyCall_call (.inr (.put ..))).bind fun _ => ?_
  refine (compose "ps -q" (by simp [composeSubcommands])).bind fun listing => ?_
  refine (everyCall_ended _).bind fun containers => ?_
  refine ((phase.everyCall_equipAll position env.host configName 0 containers).mono
    fun _ => .inr).bind fun _ => ?_
  exact (compose "restart" (by simp [composeSubcommands])).bind fun _ => everyCall_pure _

/-- **Every call on a host** is a compose command with the host's environment or
a plain call. -/
theorem everyCall_deployNodes (settings : Settings) (patience : Nat) (position : UInt64)
    (env : HostEnvironment) :
    (phase.deployNodes settings patience position env).EveryCall (HostCall settings phase env) :=
  (phase.everyCall_deploy settings position env).bind fun containers =>
    (Container.everyCall_awaitReady patience env.host containers settings.readiness).mono
      fun _ h => .inr h.plain

end PhasePlan

end Rollout
