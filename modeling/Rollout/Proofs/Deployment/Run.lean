/-
# The run of a plan

The bootstrap hosts are executed in order. Their outcomes decide whether the
fleet is deployed at all, and with which address:

| the bootstrap hosts | the run |
| --- | --- |
| one is cut off | is cut off |
| one fails, or a node is refused | ends with that failure |
| all are accepted | goes on with the fleet, and its outcomes make the directory |

Main statements: `DeploymentPlan.deploy_progress`, and
`BootstrapNodes.ofOutcomes_ok` for what an accepted bootstrap phase is.
-/

import Rollout.Deployment.Inventory
import Rollout.Proofs.Deployment.Phase
import Rollout.Remote.Script

namespace Rollout

/-! ### Inventories -/

namespace Inventory

/-- No host is found to be repeated when none is listed twice and none has been seen before. -/
theorem firstRepeated?_eq_none {seen hosts : List String} :
    firstRepeated? seen hosts = none ↔ hosts.Nodup ∧ ∀ h ∈ hosts, h ∉ seen := by
  induction hosts generalizing seen with
  | nil => simp [firstRepeated?]
  | cons h hs ih =>
    rw [firstRepeated?]
    by_cases hc : h ∈ seen
    · simp [hc]
    · rw [if_neg (by simpa using hc), ih, List.nodup_cons]
      constructor
      · rintro ⟨nodup, fresh⟩
        refine ⟨⟨fun hmem => fresh h hmem List.mem_cons_self, nodup⟩, fun g hg => ?_⟩
        rcases List.mem_cons.1 hg with rfl | hg
        · exact hc
        · exact fun hs => fresh g hg (List.mem_cons_of_mem _ hs)
      · rintro ⟨⟨hmem, nodup⟩, fresh⟩
        refine ⟨nodup, fun g hg hseen => ?_⟩
        rcases List.mem_cons.1 hseen with rfl | hseen
        · exact hmem hg
        · exact fresh g (List.mem_cons_of_mem _ hg) hseen

/-- **An inventory is valid** when it has a bootstrap host and lists no host
twice. -/
theorem validate_eq_ok {i : Inventory} :
    i.validate = .ok () ↔ i.bootstrap ≠ [] ∧ i.hosts.Nodup := by
  unfold validate
  cases hb : i.bootstrap with
  | nil => simp
  | cons h hs =>
    have key := @firstRepeated?_eq_none [] i.hosts
    cases hr : firstRepeated? [] i.hosts with
    | none => simpa [hr] using (key.1 hr).1
    | some g => simpa [hr] using key

end Inventory

/-! ### Accepted outcomes -/

/-- A result stays one whatever its failure would be told under. -/
theorem within_eq_ok {α : Type} {outer : Cause} {r : Except Failure α} {a : α}
    (h : within outer r = .ok a) : r = .ok a := by
  cases r with
  | ok b => exact h
  | error f => cases h

/-- All hosts have succeeded with these nodes. -/
theorem allNodes_eq_ok {phase : Phase} {os : List (Outcome Failure HostNodes)}
    {hosts : List HostNodes} (h : allNodes phase os = .ok hosts) :
    os.map Outcome.result = hosts.map .ok := by
  induction os generalizing hosts with
  | nil =>
    obtain rfl := Except.ok.inj h
    rfl
  | cons o os ih =>
    rw [allNodes] at h
    split at h
    · cases h
    · rename_i nodes hn
      split at h
      · cases h
      · rename_i rest hrest
        obtain rfl := Except.ok.inj h
        rw [List.map_cons, List.map_cons, within_eq_ok hn, ih hrest]

namespace IdentityPolicy

/-- Nodes pass a policy that does not refuse, and else with an identity for each. -/
theorem check_eq_ok {policy : IdentityPolicy} {nodes : List Node} :
    policy.check nodes = .ok () ↔ policy = .refuse → ∀ n ∈ nodes, n.peerId ≠ none := by
  cases policy with
  | degrade => simp [check]
  | refuse =>
    unfold check
    cases hf : nodes.find? Node.isAnonymous with
    | none => simpa [Node.isAnonymous] using hf
    | some n =>
      have anonymous := List.find?_some hf
      have mem := List.mem_of_find?_eq_some hf
      simp only [forall_const, reduceCtorEq, false_iff]
      intro h
      exact h n mem (by simpa [Node.isAnonymous] using anonymous)

end IdentityPolicy

/-- **A bootstrap phase is accepted** when every host has succeeded and the
policy accepts every node; the first node has the address. -/
theorem BootstrapNodes.ofOutcomes_ok {policy : IdentityPolicy}
    {os : List (Outcome Failure HostNodes)} {b : BootstrapNodes}
    (h : ofOutcomes policy os = .ok b) :
    ∃ hosts, os.map Outcome.result = hosts.map .ok ∧ resolveAll hosts = b.first :: b.others ∧
      b.first.tcp.multiaddr = some b.address ∧
      (policy = .refuse → ∀ n ∈ resolveAll hosts, n.peerId ≠ none) := by
  unfold ofOutcomes at h
  cases hall : allNodes .bootstrap os with
  | error f =>
    rw [hall] at h
    cases h
  | ok hosts =>
    rw [hall] at h
    refine ⟨hosts, allNodes_eq_ok hall, ?_⟩
    cases hres : resolveAll hosts with
    | nil =>
      simp [hres, bind, Except.bind] at h
    | cons first others =>
      simp only [hres, bind, Except.bind] at h
      split at h
      · cases h
      rename_i u hfirst
      split at h
      · cases h
      rename_i v hothers
      split at h
      · cases h
      rename_i address haddress
      obtain rfl := Except.ok.inj h
      refine ⟨rfl, haddress, fun hp n hn => ?_⟩
      rcases List.mem_cons.1 hn with rfl | hn
      · exact IdentityPolicy.check_eq_ok.1 hfirst hp n List.mem_cons_self
      · exact IdentityPolicy.check_eq_ok.1 hothers hp n hn

/-! ### Runs -/

namespace DeploymentPlan

variable {σ : Type} (plan : DeploymentPlan) (remote : Remote σ) (schedule : Schedule)
  (patience : Nat) (s : σ) (t : Nat)

/-- The hosts of a plan. -/
def inventory : Inventory :=
  ⟨plan.bootstrap.hosts, plan.fleet.hosts⟩

/-- The execution of the bootstrap hosts. -/
def bootstrapRun : Run σ (List (Outcome Failure HostNodes)) :=
  executeInOrder remote 0 (plan.bootstrap.tasks plan.settings patience none) s t

/-- The execution of the fleet hosts, which are told an address. -/
def fleetRun (address : Multiaddr) : Run σ (List (Outcome Failure HostNodes)) :=
  executeTogether remote schedule (plan.fleet.tasks plan.settings patience (some address)) s t

/-- The execution of the fleet hosts after that of the bootstrap hosts. -/
def fleetRunAfter (address : Multiaddr) : Run σ (List (Outcome Failure HostNodes)) :=
  plan.fleetRun remote schedule patience (plan.bootstrapRun remote patience s t).state
    (plan.bootstrapRun remote patience s t).time address

/-- The outcomes of the fleet hosts, if the fleet is reached. -/
def fleetOutcomes? : Option (List (Outcome Failure HostNodes)) :=
  match (plan.deployBootstrap remote patience s t).result with
  | some (.ok b) => (plan.fleetRunAfter remote schedule patience s t b.address).result
  | _ => none

/-- How far a run comes. -/
inductive Progress : Run σ (Except Failure NodeDirectory) → Prop where
  | cut (h : (plan.bootstrapRun remote patience s t).result = none) :
    Progress ⟨none, (plan.bootstrapRun remote patience s t).events,
      (plan.bootstrapRun remote patience s t).state, (plan.bootstrapRun remote patience s t).time⟩
  | refused {os : List (Outcome Failure HostNodes)} {f : Failure}
    (h : (plan.bootstrapRun remote patience s t).result = some os)
    (hf : BootstrapNodes.ofOutcomes plan.settings.missingIdentity os = .error f) :
    Progress ⟨some (.error f), (plan.bootstrapRun remote patience s t).events,
      (plan.bootstrapRun remote patience s t).state, (plan.bootstrapRun remote patience s t).time⟩
  | passed {os : List (Outcome Failure HostNodes)} {b : BootstrapNodes}
    (h : (plan.bootstrapRun remote patience s t).result = some os)
    (hb : BootstrapNodes.ofOutcomes plan.settings.missingIdentity os = .ok b) :
    Progress (((plan.fleetRunAfter remote schedule patience s t b.address).map
      (NodeDirectory.ofOutcomes plan.settings b)).after
        (plan.bootstrapRun remote patience s t).events)

section

variable {plan remote patience s t} {os : List (Outcome Failure HostNodes)} {f : Failure}
  {b : BootstrapNodes}

/-- The bootstrap phase is over, but not all of its hosts have come to an end. -/
theorem deploy_of_cut (h : (plan.bootstrapRun remote patience s t).result = none) :
    plan.deploy remote schedule patience s t =
      ⟨none, (plan.bootstrapRun remote patience s t).events,
        (plan.bootstrapRun remote patience s t).state,
        (plan.bootstrapRun remote patience s t).time⟩ := by
  rw [deploy, Run.andThen, deployBootstrap, ← bootstrapRun, Run.map_result, h]
  rfl

/-- The bootstrap phase is not accepted. -/
theorem deploy_of_refused (h : (plan.bootstrapRun remote patience s t).result = some os)
    (hf : BootstrapNodes.ofOutcomes plan.settings.missingIdentity os = .error f) :
    plan.deploy remote schedule patience s t =
      ⟨some (.error f), (plan.bootstrapRun remote patience s t).events,
        (plan.bootstrapRun remote patience s t).state,
        (plan.bootstrapRun remote patience s t).time⟩ := by
  rw [deploy, Run.andThen, deployBootstrap, ← bootstrapRun, Run.map_result, h, Option.map_some, hf]
  simp only [Run.after, Run.map_events, List.append_nil]
  rfl

/-- The bootstrap phase is accepted, so the fleet is deployed. -/
theorem deploy_of_passed (h : (plan.bootstrapRun remote patience s t).result = some os)
    (hb : BootstrapNodes.ofOutcomes plan.settings.missingIdentity os = .ok b) :
    plan.deploy remote schedule patience s t =
      ((plan.fleetRunAfter remote schedule patience s t b.address).map
        (NodeDirectory.ofOutcomes plan.settings b)).after
          (plan.bootstrapRun remote patience s t).events := by
  rw [deploy, Run.andThen, deployBootstrap, ← bootstrapRun, Run.map_result, h, Option.map_some, hb]
  rfl

end

/-- **Every run comes one of three ways.** -/
theorem deploy_progress :
    plan.Progress remote schedule patience s t (plan.deploy remote schedule patience s t) := by
  cases h : (plan.bootstrapRun remote patience s t).result with
  | none =>
    rw [deploy_of_cut schedule h]
    exact .cut h
  | some os =>
    cases hb : BootstrapNodes.ofOutcomes plan.settings.missingIdentity os with
    | error f =>
      rw [deploy_of_refused schedule h hb]
      exact .refused h hb
    | ok b =>
      rw [deploy_of_passed schedule h hb]
      exact .passed h hb

/-- Behind a bootstrap phase that passes, the outcomes of the fleet are those of its run with the
address of the first node. -/
theorem fleetOutcomes?_of_passed {os : List (Outcome Failure HostNodes)} {b : BootstrapNodes}
    (h : (plan.bootstrapRun remote patience s t).result = some os)
    (hb : BootstrapNodes.ofOutcomes plan.settings.missingIdentity os = .ok b) :
    plan.fleetOutcomes? remote schedule patience s t =
      (plan.fleetRunAfter remote schedule patience s t b.address).result := by
  have boot : (plan.deployBootstrap remote patience s t).result = some (.ok b) :=
    (congrArg (Option.map _) h).trans (congrArg some hb)
  rw [fleetOutcomes?, boot]

end DeploymentPlan

/-! ### A small plan -/

/-- One bootstrap host and two fleet hosts, with one container each. Fleet hosts
that fail are reported. -/
def DeploymentPlan.small : DeploymentPlan where
  environment := "small"
  settings := { Settings.standard with fleetFailure := .report }
  bootstrap := ⟨["a"], ⟨"boot.yml", "boot.yml", "boot"⟩, ⟨["k"]⟩, ⟨1, 1, by decide⟩, 1, rfl⟩
  fleet := ⟨["b", "c"], ⟨"node.yml", "node.yml", "node"⟩, ⟨["l", "m"]⟩,
    ⟨2, 1, by decide⟩, 2, rfl⟩

/-- A host whose containers are ready at once. -/
def Script.readyHost (name : String) (containers : List String) : Script.Host :=
  ⟨name, containers.map fun id =>
    ⟨id, ["7/tcp->:7\n9/tcp->:9"], ["server peer id=p"]⟩,
    none, none, [], 0⟩

/-- Hosts for the small plan. The second fleet host is not there. -/
def Script.small : List Script.Host :=
  [readyHost "a" ["x"], readyHost "b" ["x"]]

/-- The same hosts with a second fleet host that has a container too many. -/
def Script.smallCrowded : List Script.Host :=
  Script.small ++ [readyHost "c" ["x", "y"]]

end Rollout
