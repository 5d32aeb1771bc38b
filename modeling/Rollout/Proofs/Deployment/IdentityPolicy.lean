/-
# Keeping and refusing

A node that has not reported an identity is kept under one policy and refused
under the other. To refuse is to filter what keeping has:

| a node without an identity | the run that refuses it |
| --- | --- |
| on a bootstrap host | ends with the bootstrap phase |
| on a fleet host | has a failure in place of the nodes of that host |

Where every node has an identity the policies make no difference, and polling
sees to that: it gives up a container sooner than it reads it without one.

Main statement: `DeploymentPlan.deploy_only_filters`.
-/

import Rollout.Proofs.Deployment.Policies
import Rollout.Proofs.Remote.Failures

namespace Rollout

variable {σ ν : Type}

/-- Two functions that agree on what a run can end with make the same run. -/
theorem Run.map_congr {β γ : Type} {r : Run σ β} {f g : β → γ}
    (h : ∀ b, r.result = some b → f b = g b) : r.map f = r.map g := by
  unfold Run.map
  cases hr : r.result with
  | none => rfl
  | some b => rw [Option.map_some, Option.map_some, h b hr]

/-! ### One host -/

/-- All nodes that the host has shown, if it has succeeded, have an identity. -/
def Outcome.Identified (o : Outcome Failure HostNodes) : Prop :=
  ∀ n ∈ nodesOf .degrade o, n.peerId ≠ none

instance (o : Outcome Failure HostNodes) : Decidable o.Identified :=
  inferInstanceAs (Decidable (∀ n ∈ nodesOf .degrade o, n.peerId ≠ none))

/-- The entry for a fleet host whose first node without an identity is refused. -/
def refusal? (o : Outcome Failure HostNodes) : Option HostFailure :=
  ((nodesOf .degrade o).find? Node.isAnonymous).map fun n =>
    ⟨o.host, "Peer id of node " ++ n.tcp.addressText ++ " not found in its logs"⟩

section

variable {o : Outcome Failure HostNodes}

/-- An outcome is refused unless all of its nodes have an identity. -/
theorem refusal?_eq_none : refusal? o = none ↔ o.Identified := by
  simp [refusal?, Outcome.Identified, Node.isAnonymous]

/-- A policy that degrades accepts all nodes of a host that succeeds. -/
theorem acceptedNodes_degrade {nodes : HostNodes} (h : o.result = .ok nodes) :
    acceptedNodes .degrade o = .ok nodes.resolved :=
  acceptedNodes_eq_ok.2 ⟨nodes, h, rfl, nofun⟩

/-- A host whose nodes have identities is accepted under both policies. -/
theorem acceptedNodes_of_identified (h : o.Identified) :
    acceptedNodes .refuse o = acceptedNodes .degrade o := by
  cases hr : o.result with
  | error f =>
    unfold acceptedNodes
    rw [hr]
  | ok nodes =>
    have kept := acceptedNodes_degrade hr
    rw [kept]
    refine acceptedNodes_eq_ok.2 ⟨nodes, hr, rfl, fun _ n hn => h n ?_⟩
    rwa [nodesOf, kept]

/-- A host with a node without an identity is refused for the first such node. -/
theorem acceptedNodes_of_anonymous {n : Node}
    (h : (nodesOf .degrade o).find? Node.isAnonymous = some n) :
    acceptedNodes .refuse o = .error (.of (.anonymousNode n.tcp.addressText)) ∧
      failureOf? .degrade o = none := by
  cases hr : o.result with
  | error f =>
    have nodes : nodesOf .degrade o = [] := by simp [nodesOf, acceptedNodes, hr]
    rw [nodes] at h
    cases h
  | ok nodes =>
    have kept := acceptedNodes_degrade hr
    rw [nodesOf, kept] at h
    have address : (n.tcp.multiaddr.map Multiaddr.text).getD n.tcp.port = n.tcp.addressText := by
      obtain ⟨m, -, rfl⟩ := List.mem_map.1 (List.mem_of_find?_eq_some h)
      rfl
    simp [acceptedNodes, failureOf?, hr, IdentityPolicy.check, h, address]

/-- Under a policy that refuses, a host counts with all of its nodes or with none. -/
theorem nodesOf_refuse (o : Outcome Failure HostNodes) :
    nodesOf .refuse o = if o.Identified then nodesOf .degrade o else [] := by
  by_cases h : o.Identified
  · rw [if_pos h, nodesOf, nodesOf, acceptedNodes_of_identified h]
  · have anonymous := mt refusal?_eq_none.1 h
    obtain ⟨n, hn⟩ := Option.ne_none_iff_exists'.1 (mt Option.map_eq_none_iff.2 anonymous)
    rw [if_neg h, nodesOf, (acceptedNodes_of_anonymous hn).1]

/-- A policy that refuses adds the refusals to the failures. -/
theorem failureOf?_refuse (o : Outcome Failure HostNodes) :
    failureOf? .refuse o = (failureOf? .degrade o).or (refusal? o) := by
  cases h : (nodesOf .degrade o).find? Node.isAnonymous with
  | none =>
    have none : refusal? o = none := by rw [refusal?, h, Option.map_none]
    have identified := refusal?_eq_none.1 none
    rw [none, Option.or_none, failureOf?, failureOf?, acceptedNodes_of_identified identified]
  | some n =>
    obtain ⟨refused, kept⟩ := acceptedNodes_of_anonymous h
    rw [kept, Option.none_or, refusal?, h, failureOf?, refused]
    rfl

/-- No host is both refused and failed. -/
theorem failureOf?_or_refusal? (o : Outcome Failure HostNodes) :
    failureOf? .degrade o = none ∨ refusal? o = none := by
  cases h : (nodesOf .degrade o).find? Node.isAnonymous with
  | none => exact .inr (by rw [refusal?, h, Option.map_none])
  | some n => exact .inl (acceptedNodes_of_anonymous h).2

end

/-! ### The outcomes of a phase -/

section

variable {os : List (Outcome Failure HostNodes)}

/-- All hosts are identified when no node lacks an identity. -/
theorem identified_iff :
    (∀ o ∈ os, o.Identified) ↔ ∀ n ∈ os.flatMap (nodesOf .degrade), n.peerId ≠ none := by
  simp only [Outcome.Identified, List.forall_mem_flatMap]

/-- **Refusing takes the nodes of whole hosts away**, and leaves the others in their order. -/
theorem flatMap_nodesOf_refuse (os : List (Outcome Failure HostNodes)) :
    os.flatMap (nodesOf .refuse) =
      (os.filter fun o => o.Identified).flatMap (nodesOf .degrade) := by
  induction os with
  | nil => rfl
  | cons o os ih =>
    rw [List.flatMap_cons, ih, nodesOf_refuse]
    by_cases h : o.Identified <;> simp [h]

/-- Hosts that have all succeeded have the nodes that the bootstrap phase has. -/
theorem flatMap_nodesOf_of_succeeded {hosts : List HostNodes}
    (h : os.map Outcome.result = hosts.map .ok) :
    os.flatMap (nodesOf .degrade) = resolveAll hosts := by
  induction os generalizing hosts with
  | nil =>
    obtain rfl : hosts = [] := by simpa [eq_comm] using h
    rfl
  | cons o os ih =>
    cases hosts with
    | nil => cases h
    | cons nodes hosts =>
      obtain ⟨first, rest⟩ := List.cons.inj h
      rw [List.flatMap_cons, ih rest, nodesOf, acceptedNodes_degrade first]
      rfl

/-- A bootstrap phase whose nodes have identities comes to the same under both
policies. -/
theorem BootstrapNodes.ofOutcomes_of_identified (h : ∀ o ∈ os, o.Identified) :
    ofOutcomes .refuse os = ofOutcomes .degrade os := by
  unfold ofOutcomes
  cases hall : allNodes .bootstrap os with
  | error f => rfl
  | ok hosts =>
    have identified := identified_iff.1 h
    rw [flatMap_nodesOf_of_succeeded (allNodes_eq_ok hall)] at identified
    simp only [bind, Except.bind]
    cases hres : resolveAll hosts with
    | nil => rfl
    | cons first others =>
      rw [hres, List.forall_mem_cons] at identified
      -- The first node and the others are looked at one after the other.
      have own : ∀ policy : IdentityPolicy, policy.check [first] = .ok () := fun policy =>
        IdentityPolicy.check_eq_ok.2 fun _ => by simpa using identified.1
      have rest : ∀ policy : IdentityPolicy, policy.check others = .ok () := fun policy =>
        IdentityPolicy.check_eq_ok.2 fun _ => identified.2
      simp only [own, rest]

/-- A bootstrap phase with a node without an identity is kept or refused as a
whole. -/
theorem BootstrapNodes.ofOutcomes_of_anonymous {b : BootstrapNodes}
    (h : ofOutcomes .degrade os = .ok b)
    (anonymous : ∃ n ∈ b.first :: b.others, n.peerId = none) :
    ∃ f, ofOutcomes .refuse os = .error f := by
  cases hr : ofOutcomes .refuse os with
  | error f => exact ⟨f, rfl⟩
  | ok b' =>
    obtain ⟨hosts, hos, hres, -, -⟩ := ofOutcomes_ok h
    obtain ⟨hosts', hos', -, -, accepted⟩ := ofOutcomes_ok hr
    obtain ⟨n, hn, none⟩ := anonymous
    have same : resolveAll hosts' = b.first :: b.others := by
      rw [← hres, ← flatMap_nodesOf_of_succeeded hos, flatMap_nodesOf_of_succeeded hos']
    rw [same] at accepted
    exact absurd none (accepted rfl n hn)

/-- A fleet whose nodes have identities comes to the same under both policies. -/
theorem NodeDirectory.ofOutcomes_of_identified (settings : Settings) (fleet : FleetPolicy)
    (b : BootstrapNodes) (h : ∀ o ∈ os, o.Identified) :
    ofOutcomes (settings.under fleet .refuse) b os =
      ofOutcomes (settings.under fleet .degrade) b os := by
  have nodes : fleetNodes (settings.under fleet .refuse) os =
      fleetNodes (settings.under fleet .degrade) os := by
    induction os with
    | nil => rfl
    | cons o os ih =>
      obtain ⟨first, rest⟩ := List.forall_mem_cons.1 h
      simp only [fleetNodes, Settings.missingIdentity_under, Settings.fleetFailure_under,
        acceptedNodes_of_identified first, ih rest]
  rw [ofOutcomes, ofOutcomes, nodes]

end

/-- **Polling leaves no node without an identity.** -/
theorem PhasePlan.identified_of_poll {phase : PhasePlan} {settings : Settings}
    {remote : Remote σ} {mode : Mode} {patience interval timeout : Nat}
    {bootstrap : Option Multiaddr} {s : σ} {t : Nat} {os : List (Outcome Failure HostNodes)}
    (polls : settings.readiness = .poll interval timeout)
    (h : (execute remote mode (phase.tasks settings patience bootstrap) s t).result = some os) :
    ∀ o ∈ os, o.Identified := by
  intro o ho n hn
  obtain ⟨i, task, begun, xs, ended, hi, runs⟩ := execute_outcome h ho
  rw [getElem?_tasks] at hi
  obtain ⟨host, -, rfl⟩ := Option.map_eq_some_iff.1 hi
  cases hr : o.result with
  | error f => simp [nodesOf, acceptedNodes, hr] at hn
  | ok nodes =>
    rw [hr] at runs
    obtain ⟨infos, rfl, deployed⟩ := hostProgram_ok runs
    obtain ⟨containers, _, _, _, -, -, read⟩ := Program.Runs.of_bind_ok deployed
    rw [polls] at read
    have identified := Container.awaitReady_identified read
    rw [nodesOf, acceptedNodes_degrade hr, HostNodes.resolved, List.map_map] at hn
    obtain ⟨info, hinfo, rfl⟩ := List.mem_map.1 hn
    exact identified info hinfo

/-- Hosts for the small plan. The log of the first fleet host shows no identity. -/
def Script.smallSilent : List Script.Host :=
  [readyHost "a" ["x"], ⟨"b", [⟨"x", ["7/tcp->:7\n9/tcp->:9"], ["starting"]⟩], none, none, [], 0⟩,
    readyHost "c" ["x"]]

namespace DeploymentPlan

variable {plan : DeploymentPlan} {remote : Remote σ} {schedule schedule' : Schedule}
  {patience : Nat} {s : σ} {t : Nat} {view : String → σ → ν} {d : NodeDirectory}

/-! ### The two runs -/

/-- The plan with another policy for nodes without an identity. -/
def withIdentityPolicy (plan : DeploymentPlan) (identity : IdentityPolicy) : DeploymentPlan :=
  plan.under plan.settings.fleetFailure identity

/-- The fleet of `d'` is that of `d` without the hosts that have a node without
an identity; each of these is a failure instead. -/
structure WithoutAnonymous (plan : DeploymentPlan) (os : List (Outcome Failure HostNodes))
    (d d' : NodeDirectory) : Prop where
  hosts : os.map Outcome.host = plan.fleet.hosts
  bootstrap : d'.bootstrap = d.bootstrap
  special : d'.special = d.special
  keptNodes : d.fleet = os.flatMap (nodesOf .degrade)
  keptFailures : d.failures = os.filterMap (failureOf? .degrade)
  nodes : d'.fleet = (os.filter fun o => o.Identified).flatMap (nodesOf .degrade)
  failures : d'.failures = os.filterMap fun o => (failureOf? .degrade o).or (refusal? o)
  /-- A host is refused when it has such a node. Then it has not failed. -/
  refused : ∀ o ∈ os, (refusal? o ≠ none ↔ ∃ n ∈ nodesOf .degrade o, n.peerId = none) ∧
    (refusal? o ≠ none → failureOf? .degrade o = none)

/-- What a run that refuses nodes without an identity is to one that keeps them. -/
structure OnlyFilters (plan : DeploymentPlan) (remote : Remote σ) (schedule : Schedule)
    (patience : Nat) (s : σ) (t : Nat) (keeping refusing : Run σ (Except Failure NodeDirectory)) :
    Prop where
  identified : ∀ d, refusing.result = some (.ok d) → ∀ n ∈ d.nodes, n.peerId ≠ none
  unchanged : ∀ d, keeping.result = some (.ok d) → (∀ n ∈ d.nodes, n.peerId ≠ none) →
    refusing.result = some (.ok d) ∧ SameCalls keeping refusing
  /-- For a node of the bootstrap phase the run ends before the fleet. -/
  ended : ∀ d, keeping.result = some (.ok d) →
    (∃ n ∈ d.bootstrap :: d.special, n.peerId = none) →
    (∃ f, refusing.result = some (.error f)) ∧
      refusing.events = (plan.bootstrapRun remote patience s t).events ∧
      (plan.inventory.hosts.Nodup → ∀ host ∈ plan.fleet.hosts, callsOn host refusing.calls = [])
  filtered : plan.settings.fleetFailure = .report → ∀ d, keeping.result = some (.ok d) →
    (∀ n ∈ d.bootstrap :: d.special, n.peerId ≠ none) →
    ∃ os d', (plan.withIdentityPolicy .degrade).fleetOutcomes? remote schedule patience s t =
        some os ∧ refusing.result = some (.ok d') ∧ plan.WithoutAnonymous os d d' ∧
      SameCalls keeping refusing
  polled : ∀ interval timeout, plan.settings.readiness = .poll interval timeout →
    keeping.result = refusing.result ∧ SameCalls keeping refusing

/-- **The directory of a run that refuses** has nodes with an identity only. -/
theorem identified_of_refuse
    (h : ((plan.withIdentityPolicy .refuse).deploy remote schedule patience s t).result =
      some (.ok d)) : ∀ n ∈ d.nodes, n.peerId ≠ none := by
  obtain ⟨bs, b, os, -, hb, -, hbootstrap, hspecial, hfleet, -⟩ := deploy_under_eq_ok h
  obtain ⟨hosts, -, hres, -, accepted⟩ := BootstrapNodes.ofOutcomes_ok hb
  intro n hn
  rw [NodeDirectory.nodes, hbootstrap, hspecial, ← List.cons_append, ← hres] at hn
  rcases List.mem_append.1 hn with hn | hn
  · exact accepted rfl n hn
  · rw [hfleet, flatMap_nodesOf_refuse] at hn
    obtain ⟨o, ho, hn⟩ := List.mem_flatMap.1 hn
    have identified : o.Identified := by simpa using (List.mem_filter.1 ho).2
    exact identified n hn

/-- The outcomes of the fleet are those of any run that accepts the bootstrap
phase. -/
theorem keptOutcomes_of_passed {os : List (Outcome Failure HostNodes)} {b : BootstrapNodes}
    (h : (plan.bootstrapRun remote patience s t).result = some os)
    (hb : BootstrapNodes.ofOutcomes .degrade os = .ok b) :
    (plan.withIdentityPolicy .degrade).fleetOutcomes? remote schedule patience s t =
      (plan.fleetRunAfter remote schedule patience s t b.address).result := by
  have run : ((plan.withIdentityPolicy .degrade).bootstrapRun remote patience s t).result =
      some os := bootstrapRun_under _ _ ▸ h
  rw [fleetOutcomes?_of_passed _ _ schedule _ _ _ run hb, withIdentityPolicy, fleetRunAfter_under]

/-- **Where all nodes have identities** the two runs are one. -/
theorem deploy_of_identified
    (bootstrap : ∀ os, (plan.bootstrapRun remote patience s t).result = some os →
      ∀ o ∈ os, o.Identified)
    (fleet : ∀ os, (plan.withIdentityPolicy .degrade).fleetOutcomes? remote schedule patience s t =
      some os → ∀ o ∈ os, o.Identified) :
    (plan.withIdentityPolicy .refuse).deploy remote schedule patience s t =
      (plan.withIdentityPolicy .degrade).deploy remote schedule patience s t := by
  cases h : (plan.bootstrapRun remote patience s t).result with
  | none =>
    rw [withIdentityPolicy, withIdentityPolicy, deploy_under_of_cut h, deploy_under_of_cut h]
  | some bs =>
    have same := BootstrapNodes.ofOutcomes_of_identified (bootstrap bs h)
    cases hb : BootstrapNodes.ofOutcomes .degrade bs with
    | error f =>
      rw [withIdentityPolicy, withIdentityPolicy, deploy_under_of_refused h hb,
        deploy_under_of_refused h (same.trans hb)]
    | ok b =>
      rw [keptOutcomes_of_passed h hb] at fleet
      rw [withIdentityPolicy, withIdentityPolicy, deploy_under_of_passed h hb,
        deploy_under_of_passed h (same.trans hb)]
      refine congrArg (Run.after _) (Run.map_congr fun os hos => ?_)
      exact NodeDirectory.ofOutcomes_of_identified plan.settings _ b (fleet os hos)

/-- The outcomes of a bootstrap phase whose nodes have identities. -/
theorem identified_of_bootstrap {bs : List (Outcome Failure HostNodes)} {b : BootstrapNodes}
    (hb : BootstrapNodes.ofOutcomes .degrade bs = .ok b)
    (h : ∀ n ∈ b.first :: b.others, n.peerId ≠ none) : ∀ o ∈ bs, o.Identified := by
  obtain ⟨hosts, hos, hres, -, -⟩ := BootstrapNodes.ofOutcomes_ok hb
  rw [identified_iff, flatMap_nodesOf_of_succeeded hos, hres]
  exact h

/-- Where all nodes have identities, refusing makes no difference to a deployment that degrades. -/
theorem refuse_of_identified
    (h : ((plan.withIdentityPolicy .degrade).deploy remote schedule patience s t).result =
      some (.ok d)) (identified : ∀ n ∈ d.nodes, n.peerId ≠ none) :
    (plan.withIdentityPolicy .refuse).deploy remote schedule patience s t =
      (plan.withIdentityPolicy .degrade).deploy remote schedule patience s t := by
  obtain ⟨bs, b, os, hbs, hb, hos, hbootstrap, hspecial, hfleet, -⟩ := deploy_under_eq_ok h
  rw [NodeDirectory.nodes, hbootstrap, hspecial, hfleet, ← List.cons_append,
    List.forall_mem_append] at identified
  obtain ⟨bootstrap, fleet⟩ := identified
  refine deploy_of_identified (fun bs' hbs' => ?_) fun os' hos' => ?_
  · obtain rfl : bs = bs' := Option.some.inj (hbs.symm.trans hbs')
    exact identified_of_bootstrap hb bootstrap
  · rw [keptOutcomes_of_passed hbs hb] at hos'
    obtain rfl : os = os' := Option.some.inj (hos.symm.trans hos')
    exact identified_iff.2 fleet

/-- A node of the bootstrap phase is refused before the fleet is deployed. -/
theorem refuse_of_anonymous (schedule' : Schedule)
    (h : ((plan.withIdentityPolicy .degrade).deploy remote schedule patience s t).result =
      some (.ok d)) (anonymous : ∃ n ∈ d.bootstrap :: d.special, n.peerId = none) :
    ∃ f, (plan.withIdentityPolicy .refuse).deploy remote schedule' patience s t =
      ⟨some (.error f), (plan.bootstrapRun remote patience s t).events,
        (plan.bootstrapRun remote patience s t).state,
        (plan.bootstrapRun remote patience s t).time⟩ := by
  obtain ⟨bs, b, os, hbs, hb, -, hbootstrap, hspecial, -, -⟩ := deploy_under_eq_ok h
  rw [hbootstrap, hspecial] at anonymous
  obtain ⟨f, hf⟩ := BootstrapNodes.ofOutcomes_of_anonymous hb anonymous
  exact ⟨f, deploy_under_of_refused hbs hf⟩

/-- A node of the fleet is refused with its host, where failures are reported. -/
theorem refuse_of_report (report : plan.settings.fleetFailure = .report)
    (h : ((plan.withIdentityPolicy .degrade).deploy remote schedule patience s t).result =
      some (.ok d)) (bootstrap : ∀ n ∈ d.bootstrap :: d.special, n.peerId ≠ none) :
    ∃ os d', (plan.withIdentityPolicy .degrade).fleetOutcomes? remote schedule patience s t =
        some os ∧
      ((plan.withIdentityPolicy .refuse).deploy remote schedule patience s t).result =
        some (.ok d') ∧ plan.WithoutAnonymous os d d' ∧
      SameCalls ((plan.withIdentityPolicy .degrade).deploy remote schedule patience s t)
        ((plan.withIdentityPolicy .refuse).deploy remote schedule patience s t) := by
  obtain ⟨bs, b, os, hbs, hb, hos, hbootstrap, hspecial, hfleet, hfailures⟩ := deploy_under_eq_ok h
  rw [hbootstrap, hspecial] at bootstrap
  have refused : BootstrapNodes.ofOutcomes .refuse bs = .ok b :=
    (BootstrapNodes.ofOutcomes_of_identified (identified_of_bootstrap hb bootstrap)).trans hb
  -- Where failures are reported, refused nodes keep no directory from being made.
  have directory : NodeDirectory.ofOutcomes (plan.settings.under plan.settings.fleetFailure .refuse)
      b os = .ok ⟨b.first, b.others, os.flatMap (nodesOf .refuse),
        os.filterMap (failureOf? .refuse)⟩ := by
    rw [report, NodeDirectory.ofOutcomes, fleetNodes_report]
  refine ⟨os, ⟨b.first, b.others, os.flatMap (nodesOf .refuse), os.filterMap (failureOf? .refuse)⟩,
    (keptOutcomes_of_passed hbs hb).trans hos, ?_, ?_, ?_⟩
  · rw [withIdentityPolicy, deploy_under_of_passed hbs refused, Run.after_result, Run.map_result,
      hos, Option.map_some, directory]
  · constructor
    case hosts => exact fleet_hosts hos
    case bootstrap => exact hbootstrap.symm
    case special => exact hspecial.symm
    case keptNodes => exact hfleet
    case keptFailures => exact hfailures
    case nodes => exact flatMap_nodesOf_refuse os
    case failures => exact List.filterMap_congr fun o _ => failureOf?_refuse o
    case refused =>
      intro o _
      refine ⟨?_, (failureOf?_or_refusal? o).resolve_right⟩
      rw [ne_eq, refusal?_eq_none]
      simp [Outcome.Identified]
  · rw [withIdentityPolicy, withIdentityPolicy, deploy_under_of_passed hbs hb,
      deploy_under_of_passed hbs refused]
    exact fun _ => rfl

/-- Where containers are polled the two runs are one. -/
theorem refuse_of_poll {interval timeout : Nat}
    (polls : plan.settings.readiness = .poll interval timeout) :
    (plan.withIdentityPolicy .refuse).deploy remote schedule patience s t =
      (plan.withIdentityPolicy .degrade).deploy remote schedule patience s t := by
  refine deploy_of_identified (fun bs hbs => ?_) fun os hos => ?_
  · have run : (execute remote .inOrder (plan.bootstrap.tasks plan.settings patience none)
        s t).result = some bs := hbs
    exact PhasePlan.identified_of_poll polls run
  · unfold fleetOutcomes? at hos
    split at hos
    · rename_i b _
      rw [withIdentityPolicy, fleetRunAfter_under] at hos
      have run : (execute remote (.together schedule)
          (plan.fleet.tasks plan.settings patience (some b.address))
          (plan.bootstrapRun remote patience s t).state
          (plan.bootstrapRun remote patience s t).time).result = some os := hos
      exact PhasePlan.identified_of_poll polls run
    · cases hos

/-- **Refusing only filters.** Two runs of a plan that differ in the policy for
nodes without an identity differ in the hosts of such nodes only: in one
schedule, and in any two where hosts do not see each other. -/
theorem deploy_only_filters (plan : DeploymentPlan) (remote : Remote σ)
    (schedule schedule' : Schedule) (patience : Nat) (s : σ) (t : Nat)
    (same : schedule = schedule' ∨ (remote.IsLocal view ∧ plan.fleet.hosts.Nodup)) :
    plan.OnlyFilters remote schedule patience s t
      ((plan.withIdentityPolicy .degrade).deploy remote schedule patience s t)
      ((plan.withIdentityPolicy .refuse).deploy remote schedule' patience s t) := by
  have scheduled : ((plan.withIdentityPolicy .refuse).deploy remote schedule patience s t).result =
        ((plan.withIdentityPolicy .refuse).deploy remote schedule' patience s t).result ∧
      SameCalls ((plan.withIdentityPolicy .refuse).deploy remote schedule patience s t)
        ((plan.withIdentityPolicy .refuse).deploy remote schedule' patience s t) :=
    deploy_schedule same
  -- Each part is proved in one schedule, and then the refusing run has another.
  obtain ⟨result, calls⟩ := scheduled
  constructor
  case identified => exact fun d h => identified_of_refuse h
  case unchanged =>
    intro d h identified
    rw [← result, refuse_of_identified h identified] at *
    exact ⟨h, calls⟩
  case ended =>
    intro d h anonymous
    obtain ⟨f, hf⟩ := refuse_of_anonymous schedule' h anonymous
    rw [hf]
    exact ⟨⟨f, rfl⟩, rfl, fun nodup host => callsOn_bootstrapRun remote patience s t nodup⟩
  case filtered =>
    intro report d h bootstrap
    obtain ⟨os, d', hos, hd', without, kept⟩ := refuse_of_report report h bootstrap
    exact ⟨os, d', hos, result ▸ hd', without, fun host => (kept host).trans (calls host)⟩
  case polled =>
    intro interval timeout polls
    rw [refuse_of_poll polls] at result calls
    exact ⟨result, calls⟩

/-- The first fleet host has a node without an identity. -/
theorem deploy_only_filters_small :
    (Script.remote Script.smallSilent).IsLocal Script.memory? ∧ small.fleet.hosts.Nodup ∧
    ∃ os d d',
      ((small.withIdentityPolicy .degrade).deploy (Script.remote Script.smallSilent) .earliest 1 []
        0).result = some (.ok d) ∧
      ((small.withIdentityPolicy .refuse).deploy (Script.remote Script.smallSilent) .oneByOne 1 []
        0).result = some (.ok d') ∧
      d.fleet.map Node.peerId = [none, some "p"] ∧ (∀ n ∈ d'.fleet, n.peerId ≠ none) ∧
      small.WithoutAnonymous os d d' := by
  have loc := Script.remote_isLocal Script.smallSilent
  have nodup : small.fleet.hosts.Nodup := by decide
  obtain ⟨d, hd, shown⟩ : ∃ d,
      ((small.withIdentityPolicy .degrade).deploy (Script.remote Script.smallSilent) .earliest 1 []
        0).result = some (.ok d) ∧
      (d.fleet.map Node.peerId, (d.bootstrap :: d.special).all (·.peerId.isSome)) =
        ([none, some "p"], true) :=
    exists_directory_of_each .earliest loc nodup (by decide +kernel)
  obtain ⟨fleet, bootstrap⟩ := Prod.mk.inj shown
  have runs := small.deploy_only_filters (Script.remote Script.smallSilent) .earliest .oneByOne 1 []
    0 (.inr ⟨loc, nodup⟩)
  obtain ⟨os, d', -, refused, without, -⟩ := runs.filtered rfl d hd
    fun n hn => Option.isSome_iff_ne_none.1 (List.all_eq_true.1 bootstrap n hn)
  have identified := runs.identified d' refused
  rw [NodeDirectory.nodes, ← List.cons_append, List.forall_mem_append] at identified
  exact ⟨loc, nodup, os, d, d', hd, refused, fleet, identified.2, without⟩

end DeploymentPlan
end Rollout
