/-
# What a run can fail for

A plan is checked before the first call is made, so what is left to fail are the
calls and what they show:

| could be foreseen | why it never happens |
| --- | --- |
| a container has no place in the layout, or no keypair | its host's listing has the right length, and the keystore is large enough |
| the path of the node config has no file name | it names a regular file |
| the bootstrap phase has no node | it has a host, and every host has a container |
| the bootstrap node has no address | every node of a host has one |

Main statement: `Configuration.deploy_foreseen`.
-/

import Rollout.Proofs.Configuration.Plan
import Rollout.Proofs.Deployment.Accounting
import Rollout.Proofs.Deployment.Canonical
import Rollout.Proofs.Remote.Failures

namespace Rollout

/-- The cause comes from calls and what they show. -/
def Cause.fromCalls : Cause → Bool
  | .callFailed _ _ _ | .callNotStarted _ _ | .start _ | .ports _ | .portsOf _ _
  | .notReady _ _ _ _ | .containerCount _ _ _ _ | .deploymentOf _ | .phaseHost _ _
  | .anonymousNode _ => true
  | _ => false

/-- The cause could be told before any call is made. -/
inductive Cause.Foreseeable : Cause → Prop where
  | hostOutside (position hosts : UInt64) : Foreseeable (.layout (.hostOutside position hosts))
  | containerOutside (position perHost : UInt64) :
    Foreseeable (.layout (.containerOutside position perHost))
  | keyOutside (index size : Nat) : Foreseeable (.keyOutside index size)
  | nodeConfigUnnamed (path : String) : Foreseeable (.nodeConfigUnnamed path)
  | noBootstrapNodes : Foreseeable .noBootstrapNodes
  | noBootstrapAddress : Foreseeable .noBootstrapAddress

/-- A failure that could be foreseen does not come from calls. -/
theorem Cause.Foreseeable.fromCalls {c : Cause} (h : c.Foreseeable) : c.fromCalls = false := by
  cases h <;> rfl

namespace Failure

/-- Every cause of the failure comes from calls. -/
def FromCalls (f : Failure) : Prop :=
  ∀ c ∈ f.causes, c.fromCalls = true

variable {f : Failure}

/-- None of the causes of a failure that comes from calls could be foreseen. -/
theorem FromCalls.not_foreseeable (h : f.FromCalls) : ∀ c ∈ f.causes, ¬ c.Foreseeable := by
  intro c hc foreseeable
  have late := h c hc
  rw [foreseeable.fromCalls] at late
  cases late

/-- A failure with one cause comes from calls if the cause does. -/
theorem fromCalls_of {c : Cause} (h : c.fromCalls = true) : (of c).FromCalls :=
  fun _ hc => List.mem_singleton.1 hc ▸ h

/-- A failure from calls stays one under a cause that tells where it happened. -/
theorem FromCalls.within (h : f.FromCalls) {outer : Cause} (ho : outer.fromCalls = true) :
    (f.within outer).FromCalls :=
  List.forall_mem_cons.2 ⟨ho, h⟩

/-- A failed call comes from calls. -/
theorem fromCalls_ofCall (c : Call) (e : CallError) : (ofCall c e).FromCalls := by
  cases e with
  | exited status stderr => exact fromCalls_of rfl
  | notStarted program error => exact (fromCalls_of (c := .start error) rfl).within rfl

end Failure

open Failure Program

/-! ### One host -/

/-- A single call fails only from calls. -/
theorem everyFailure_call (c : Call) : (perform c).EveryFailure FromCalls :=
  everyFailure_perform (fromCalls_ofCall c)

namespace Container

/-- Ports that cannot be read come from the output of a call. -/
theorem fromCalls_portsIn {host container output : String} {f : Failure}
    (h : portsIn host container output = .error f) : f.FromCalls := by
  unfold portsIn at h
  split at h
  · cases h
  · obtain rfl := Except.error.inj h
    exact (fromCalls_of (c := .ports _) rfl).within rfl

/-- Reading a container fails only from calls. -/
theorem everyFailure_introspect (host container : String) :
    (introspect host container).EveryFailure FromCalls := by
  have ports : (ports host container).EveryFailure FromCalls :=
    (everyFailure_call _).bind fun _ _ => fromCalls_portsIn
  have peerId : (peerId host container).EveryFailure FromCalls :=
    (everyFailure_call _).bind fun _ => everyFailure_pure _
  exact ports.bind fun _ => peerId.bind fun _ => everyFailure_pure _

/-- Polling a container fails only from calls, however long it takes. -/
theorem everyFailure_poll (host container : String) (interval timeout deadline : Nat) :
    ∀ patience,
      (poll host container interval timeout deadline patience).EveryFailure FromCalls
  | 0 => trivial
  | patience + 1 => by
    refine (everyFailure_attempt _).bind fun r => ?_
    cases ready r with
    | ok info => exact everyFailure_pure _
    | error last =>
      refine everyFailure_now.bind fun now => ?_
      split
      · exact everyFailure_fail (fromCalls_of rfl)
      · exact (everyFailure_pause _).bind fun _ => everyFailure_poll host container _ _ _ patience

/-- Waiting for containers in either way fails only from calls. -/
theorem everyFailure_awaitReady (patience : Nat) (host : String) (containers : List String)
    (readiness : Readiness) :
    (awaitReady patience host containers readiness).EveryFailure FromCalls := by
  cases readiness with
  | settle delay =>
    exact (everyFailure_pause delay).bind fun _ => .each (everyFailure_introspect host) containers
  | poll interval timeout =>
    exact everyFailure_now.bind fun _ =>
      .each (fun c => everyFailure_poll host c _ _ _ patience) containers

end Container

namespace PhasePlan

variable {phase : PhasePlan} {settings : Settings} {position : UInt64} {env : HostEnvironment}
  {path key : Nat → String} {configName : String}

/-- Equipping containers fails only from calls as long as there is a keypair for each. -/
theorem everyFailure_equipAll (keys : phase.HasKeys position env.host path key) :
    ∀ {place : Nat} {containers : List String},
      place + containers.length ≤ phase.layout.perHost.toNat →
      (phase.equipAll position env.host configName place containers).EveryFailure FromCalls
  | _, [], _ => everyFailure_pure _
  | place, container :: containers, fits => by
    rw [List.length_cons] at fits
    obtain ⟨index, hkey, -⟩ := keys place container (by omega)
    have equip : (phase.equip position env.host configName place container).EveryFailure
        FromCalls := by
      refine (everyFailure_call _).bind fun _ => .ended_bind (hkey ▸ nofun) fun _ _ => ?_
      exact (everyFailure_call _).bind fun _ => (everyFailure_call _).bind fun _ =>
        (everyFailure_call _).bind fun _ => everyFailure_pure _
    exact equip.bind fun _ => everyFailure_equipAll keys (by omega)

/-- **A host's deployment fails for its calls only**, where the node config has a
name and the containers have keypairs. -/
theorem everyFailure_deploy (keys : phase.HasKeys position env.host path key)
    (name : settings.configName = .ok configName) :
    (phase.deploy settings position env).EveryFailure FromCalls := by
  refine (everyFailure_call _).bind fun _ => (everyFailure_call _).bind fun _ =>
    (everyFailure_call _).bind fun _ => (everyFailure_call _).bind fun _ => ?_
  refine .ended_bind (name ▸ nofun) fun _ _ => ?_
  refine (everyFailure_call _).bind fun _ => (everyFailure_call _).bind fun listing => ?_
  refine .ended_bind (fun f miscounted => ?_) fun containers counted => ?_
  · obtain ⟨-, rfl⟩ := phase.checkCount_eq_error.1 miscounted
    exact fromCalls_of rfl
  obtain ⟨rfl, count⟩ := phase.checkCount_eq_ok.1 counted
  have all : 0 + (listedIds listing).length ≤ phase.layout.perHost.toNat := by
    rw [count]
    omega
  exact (everyFailure_equipAll keys all).bind fun _ =>
    (everyFailure_call _).bind fun _ => everyFailure_pure _

/-- **A host of a phase that was made** fails only from calls. -/
theorem everyFailure_hostProgram {patience : Nat} {bootstrap : Option Multiaddr}
    (made : phase.IsMade) (fits : phase.hosts.length * phase.layout.perHost.toNat < UInt64.size)
    (name : settings.configName = .ok configName) {i : Nat} (hi : i < phase.hosts.length)
    (host : String) :
    (phase.hostProgram settings patience bootstrap i host).EveryFailure FromCalls := by
  have deploy : (phase.deploy settings (UInt64.ofNat i)
      ⟨host, settings.tag, bootstrap⟩).EveryFailure FromCalls :=
    everyFailure_deploy (hasKeys_of_make made fits hi host) name
  refine (deploy.bind fun containers =>
    Container.everyFailure_awaitReady patience host containers settings.readiness).ending
      nofun fun f g hf hg => ?_
  obtain rfl := Except.error.inj hg
  exact hf.within rfl

/-- **Every host of a phase that was made** fails for its calls only. -/
theorem execute_fromCalls (mode : Mode) {patience : Nat} {bootstrap : Option Multiaddr}
    (made : phase.IsMade) (fits : phase.hosts.length * phase.layout.perHost.toNat < UInt64.size)
    (name : settings.configName = .ok configName) {σ : Type} {remote : Remote σ} {s : σ} {t : Nat}
    {os : List (Outcome Failure HostNodes)}
    (h : (execute remote mode (phase.tasks settings patience bootstrap) s t).result = some os) :
    ∀ o ∈ os, ∀ f, o.result = .error f → f.FromCalls := by
  refine execute_everyFailure (fun i task hi => ?_) h
  rw [getElem?_tasks] at hi
  obtain ⟨host, hhost, rfl⟩ := Option.map_eq_some_iff.1 hi
  exact everyFailure_hostProgram made fits name (List.getElem?_eq_some_iff.1 hhost).1 host

end PhasePlan

/-! ### The folds over outcomes -/

/-- A missing identity comes from the log of a container. -/
theorem IdentityPolicy.fromCalls_check {policy : IdentityPolicy} {nodes : List Node} {f : Failure}
    (h : policy.check nodes = .error f) : f.FromCalls := by
  unfold check at h
  split at h
  · exact Except.error.inj h ▸ fromCalls_of rfl
  · cases h

variable {os : List (Outcome Failure HostNodes)} {f : Failure}

/-- A phase that needs all of its hosts fails from calls if its hosts do. -/
theorem fromCalls_allNodes {phase : Phase}
    (outcomes : ∀ o ∈ os, ∀ f, o.result = .error f → f.FromCalls)
    (h : allNodes phase os = .error f) : f.FromCalls := by
  induction os with
  | nil => cases h
  | cons o os ih =>
    rw [allNodes] at h
    cases ho : o.result with
    | error g =>
      rw [ho] at h
      obtain rfl := Except.error.inj h
      exact (outcomes o List.mem_cons_self g ho).within rfl
    | ok nodes =>
      rw [ho] at h
      dsimp only [within] at h
      split at h
      · rename_i g hg
        obtain rfl := Except.error.inj h
        exact ih (fun o ho => outcomes o (List.mem_cons_of_mem _ ho)) hg
      · cases h

/-- A bootstrap phase whose first host has a node is refused for calls only. -/
theorem BootstrapNodes.fromCalls_ofOutcomes {policy : IdentityPolicy}
    (outcomes : ∀ o ∈ os, ∀ f, o.result = .error f → f.FromCalls)
    (shown : ∀ hosts, os.map Outcome.result = hosts.map .ok → resolveAll hosts ≠ [])
    (h : ofOutcomes policy os = .error f) : f.FromCalls := by
  unfold ofOutcomes at h
  cases hall : allNodes .bootstrap os with
  | error g =>
    rw [hall] at h
    obtain rfl := Except.error.inj h
    exact fromCalls_allNodes outcomes hall
  | ok hosts =>
    rw [hall] at h
    cases hres : resolveAll hosts with
    | nil => exact absurd hres (shown hosts (allNodes_eq_ok hall))
    | cons first others =>
      -- Every resolved node has an address, the first one too.
      have address : ∃ a, first.tcp.multiaddr = some a := by
        have mem : first ∈ resolveAll hosts := hres ▸ List.mem_cons_self
        obtain ⟨host, -, mem⟩ := List.mem_flatMap.1 mem
        obtain ⟨node, -, rfl⟩ := List.mem_map.1 mem
        exact ⟨_, rfl⟩
      obtain ⟨a, ha⟩ := address
      simp only [hres, Bind.bind, Except.bind] at h
      split at h
      · exact Except.error.inj h ▸ IdentityPolicy.fromCalls_check ‹_›
      split at h
      · exact Except.error.inj h ▸ IdentityPolicy.fromCalls_check ‹_›
      rw [ha] at h
      cases h

/-- A host that a policy refuses fails from calls. -/
theorem fromCalls_acceptedNodes {policy : IdentityPolicy} {o : Outcome Failure HostNodes}
    (outcome : ∀ f, o.result = .error f → f.FromCalls) (h : acceptedNodes policy o = .error f) :
    f.FromCalls := by
  unfold acceptedNodes at h
  split at h
  · rename_i g hg
    exact Except.error.inj h ▸ outcome g hg
  · split at h
    · exact Except.error.inj h ▸ IdentityPolicy.fromCalls_check ‹_›
    · cases h

/-- The fleet fails from calls if its hosts do, under either policy. -/
theorem fromCalls_fleetNodes {settings : Settings}
    (outcomes : ∀ o ∈ os, ∀ f, o.result = .error f → f.FromCalls)
    (h : fleetNodes settings os = .error f) : f.FromCalls := by
  induction os with
  | nil => cases h
  | cons o os ih =>
    have rest := ih fun o ho => outcomes o (List.mem_cons_of_mem _ ho)
    rw [fleetNodes] at h
    split at h
    · split at h
      · exact rest (Except.error.inj h ▸ ‹_›)
      · cases h
    · rename_i g hg _
      obtain rfl := Except.error.inj h
      exact (fromCalls_acceptedNodes (outcomes o List.mem_cons_self) hg).within rfl
    · split at h
      · exact rest (Except.error.inj h ▸ ‹_›)
      · cases h

/-! ### The whole run -/

namespace DeploymentPlan

variable {plan : DeploymentPlan} {σ : Type} {remote : Remote σ} {patience : Nat} {s : σ} {t : Nat}

/-- Bootstrap hosts that have all succeeded have a node. -/
theorem resolveAll_ne_nil (hasBootstrap : plan.bootstrap.hosts ≠ [])
    (h : (plan.bootstrapRun remote patience s t).result = some os) {hosts : List HostNodes}
    (ok : os.map Outcome.result = hosts.map .ok) : resolveAll hosts ≠ [] := by
  obtain ⟨host, others, hfirst⟩ := List.exists_cons_of_ne_nil hasBootstrap
  obtain ⟨nodes, hnodes, infos, -, count, -⟩ :=
    (bootstrap_listed_of_succeeded h ok).2 0 host (by rw [hfirst]; rfl)
  intro none
  have empty : nodes.resolved = [] :=
    List.flatMap_eq_nil_iff.1 none nodes (List.mem_of_getElem? hnodes)
  have zero : plan.bootstrap.layout.perHost.toNat = 0 := by
    rw [← count, empty, List.length_nil]
  exact plan.bootstrap.layout.perHost_ne_zero (UInt64.toNat_inj.1 zero)

/-- **A plan that has passed its checks** fails for calls only, as a whole and on
every host of the fleet. -/
theorem deploy_fromCalls (plan : DeploymentPlan) (remote : Remote σ) (schedule : Schedule)
    (patience : Nat) (s : σ) (t : Nat) (checked : plan.Checked)
    (fits : plan.bootstrap.hosts.length * plan.bootstrap.layout.perHost.toNat < UInt64.size)
    (fleetFits : plan.fleet.hosts.length * plan.fleet.layout.perHost.toNat < UInt64.size) :
    (∀ f, (plan.deploy remote schedule patience s t).result = some (.error f) → f.FromCalls) ∧
    ∀ os, plan.fleetOutcomes? remote schedule patience s t = some os →
      ∀ o ∈ os, ∀ f, o.result = .error f → f.FromCalls := by
  obtain ⟨name, hname⟩ := checked.configName
  have fleet : ∀ {address : Multiaddr} {s : σ} {t : Nat} {os : List (Outcome Failure HostNodes)},
      (plan.fleetRun remote schedule patience s t address).result = some os →
      ∀ o ∈ os, ∀ f, o.result = .error f → f.FromCalls :=
    fun h => PhasePlan.execute_fromCalls (.together schedule) checked.fleet fleetFits hname h
  constructor
  · intro f hf
    have progress := plan.deploy_progress remote schedule patience s t
    generalize plan.deploy remote schedule patience s t = run at progress hf
    cases progress with
    | cut => cases hf
    | refused h refused =>
      obtain rfl := Except.error.inj (Option.some.inj hf)
      exact BootstrapNodes.fromCalls_ofOutcomes
        (PhasePlan.execute_fromCalls .inOrder checked.bootstrap fits hname h)
        (fun hosts => resolveAll_ne_nil checked.hasBootstrap h) refused
    | passed h hb =>
      obtain ⟨os, hos, hd⟩ := Option.map_eq_some_iff.1 hf
      unfold NodeDirectory.ofOutcomes at hd
      split at hd
      · rename_i g hg
        obtain rfl := Except.error.inj hd
        exact fromCalls_fleetNodes (fleet hos) hg
      · cases hd
  · intro os hos
    unfold fleetOutcomes? at hos
    split at hos
    · exact fleet hos
    · cases hos

end DeploymentPlan

namespace Configuration

variable {c : Configuration} {tree : FileTree} {environment tag : Option String}
  {plan : DeploymentPlan}

/-- **Everything that can be checked before the first call is checked.** However
the hosts behave, the run of a plan, and that of any fleet host in it, fails for
calls and what they show: never for a place outside of the layout or the
keystore, a node config without a name, or a bootstrap phase without a node or
its address. -/
theorem deploy_foreseen (home : tree.HasWorkingDirectory)
    (planned : c.plan tree.files environment tag = .ok plan)
    (fits : plan.bootstrap.hosts.length * plan.bootstrap.layout.perHost.toNat < UInt64.size)
    (fleetFits : plan.fleet.hosts.length * plan.fleet.layout.perHost.toNat < UInt64.size)
    {σ : Type} (remote : Remote σ) (schedule : Schedule) (patience : Nat) (s : σ) (t : Nat) :
    (∀ f, (plan.deploy remote schedule patience s t).result = some (.error f) →
      f.FromCalls ∧ ∀ cause ∈ f.causes, ¬ cause.Foreseeable) ∧
    ∀ os, plan.fleetOutcomes? remote schedule patience s t = some os →
      ∀ o ∈ os, ∀ f, o.result = .error f →
        f.FromCalls ∧ ∀ cause ∈ f.causes, ¬ cause.Foreseeable := by
  have checked := checked_of_plan (fun _ => FileTree.fileName_of_isFile home) planned
  obtain ⟨whole, hosts⟩ := plan.deploy_fromCalls remote schedule patience s t checked fits fleetFits
  refine ⟨fun f hf => ⟨whole f hf, (whole f hf).not_foreseeable⟩, fun os hos o ho f hf => ?_⟩
  have late := hosts os hos o ho f hf
  exact ⟨late, late.not_foreseeable⟩

/-- The configuration of the small plan. -/
def small : Configuration where
  settings := DeploymentPlan.small.settings
  bootstrap := ⟨"boot.yml", "boot.keys", 1⟩
  fleet := ⟨"node.yml", "node.keys", 1⟩
  environments := [("small", ⟨["a"], ["b", "c"]⟩)]

/-- The files of the small plan. -/
def smallFiles : FileTree where
  entries := [(["work"], .directory), (["work", "Config.toml"], .file "".toUTF8),
    (["work", "boot.yml"], .file "services: {boot: {}}".toUTF8),
    (["work", "boot.keys"], .file "k\n".toUTF8),
    (["work", "node.yml"], .file "services: {node: {}}".toUTF8),
    (["work", "node.keys"], .file "l\nm\n".toUTF8)]
  workingDirectory := ["work"]

/-- Without any host the first call fails. -/
theorem deploy_foreseen_small :
    smallFiles.HasWorkingDirectory ∧
      small.plan smallFiles.files none none = .ok DeploymentPlan.small ∧
      ∃ f, (DeploymentPlan.small.deploy (Script.remote []) .earliest 1 [] 0).result =
          some (.error f) ∧ f.FromCalls ∧ ∀ cause ∈ f.causes, ¬ cause.Foreseeable := by
  have home : smallFiles.HasWorkingDirectory := by
    intro m hm
    rcases List.prefix_concat_iff.1 (show m <+: [] ++ ["work"] from hm) with rfl | hm
    · decide +kernel
    · rw [List.prefix_nil.1 hm]
      rfl
  have planned : small.plan smallFiles.files none none = .ok DeploymentPlan.small := by
    have made : (small.plan smallFiles.files none none).toOption = some DeploymentPlan.small := by
      decide +kernel
    cases h : small.plan smallFiles.files none none with
    | error f =>
      rw [h] at made
      cases made
    | ok plan =>
      rw [h] at made
      exact congrArg Except.ok (Option.some.inj made)
  have failed : (DeploymentPlan.small.deploy (Script.remote []) .earliest 1 [] 0).result.map
      Except.isOk = some false := by
    decide +kernel
  obtain ⟨r, hr, no⟩ := Option.map_eq_some_iff.1 failed
  obtain ⟨f, rfl⟩ : ∃ f, r = .error f := by
    cases r with
    | error f => exact ⟨f, rfl⟩
    | ok d => cases no
  refine ⟨home, planned, f, hr, ?_⟩
  exact (deploy_foreseen home planned (by decide) (by decide) (Script.remote []) .earliest 1 []
    0).1 f hr

end Configuration
end Rollout
