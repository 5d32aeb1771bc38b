/-
# No node is lost

What a directory lists is what the hosts have shown, host by host in list order
and on each host in the order of its listing:

| part of the directory | is made of |
| --- | --- |
| the bootstrap node and the special nodes | the nodes of every bootstrap host |
| the fleet | the nodes of every fleet host that has succeeded |
| the failures | one entry for every fleet host that has not |

Main statement: `DeploymentPlan.deploy_accounted`.
-/

import Rollout.Proofs.Deployment.Isolation

namespace Rollout

/-! ### The nodes of one host -/

/-- At a position the events show these nodes of a host: one for every container
of its listing, in that order, as the ports and the log of the container were
read, and with their addresses on the host. -/
def Listed (settings : Settings) (phase : PhasePlan) (bootstrap : Option Multiaddr)
    (es : List Event) (i : Nat) (host : String) (nodes : List Node) : Prop :=
  ∃ infos : List ContainerInfo, nodes = infos.map (fun info => info.node.resolve host) ∧
    nodes.length = phase.layout.perHost.toNat ∧
    (∃ now listing, .returned i now (composeCall settings phase ⟨host, settings.tag, bootstrap⟩
      "ps -q") (.ok listing) ∈ es ∧ infos.map ContainerInfo.id = listedIds listing) ∧
    ∀ info ∈ infos,
      (∃ now output, .returned i now (Container.portsCall host info.id) (.ok output) ∈ es ∧
        Container.readPorts output = .ok info.ports) ∧
      ∃ now logs, .returned i now (Container.logsCall host info.id) (.ok logs) ∈ es ∧
        Container.identity? logs = info.peerId

/-- Nodes that some events show are shown by more events too. -/
theorem Listed.mono {settings : Settings} {phase : PhasePlan} {bootstrap : Option Multiaddr}
    {es fs : List Event} {i : Nat} {host : String} {nodes : List Node}
    (h : Listed settings phase bootstrap es i host nodes) (hle : ∀ e ∈ es, e ∈ fs) :
    Listed settings phase bootstrap fs i host nodes := by
  obtain ⟨infos, hnodes, count, ⟨now, listing, hl, ids⟩, read⟩ := h
  refine ⟨infos, hnodes, count, ⟨now, listing, hle _ hl, ids⟩, fun info hi => ?_⟩
  obtain ⟨⟨n, output, hp, ports⟩, m, logs, hm, identity⟩ := read info hi
  exact ⟨⟨n, output, hle _ hp, ports⟩, m, logs, hle _ hm, identity⟩

namespace PhasePlan

variable {σ : Type} {phase : PhasePlan} {settings : Settings} {patience : Nat}
  {bootstrap : Option Multiaddr}

/-- **A host that succeeds** has the nodes that its events show. -/
theorem listed_of_outcome (remote : Remote σ) (mode : Mode) (s : σ) (t : Nat)
    {os : List (Outcome Failure HostNodes)}
    (h : (execute remote mode (phase.tasks settings patience bootstrap) s t).result = some os)
    {i : Nat} {host : String} (hi : phase.hosts[i]? = some host) {o : Outcome Failure HostNodes}
    (ho : os[i]? = some o) {nodes : HostNodes} (hok : o.result = .ok nodes) :
    Listed settings phase bootstrap
      (execute remote mode (phase.tasks settings patience bootstrap) s t).events i host
      nodes.resolved := by
  rcases execute_task remote mode s t (getElem?_tasks_of_host hi) with
    skipped | ⟨xs, r, begun, ended, -, took⟩
  · rw [skipped.outcome os h] at ho
    cases ho
  obtain ⟨result, rfl, place⟩ := took.outcome os h
  obtain rfl : o = ⟨host, result⟩ := by simpa [place, eq_comm] using ho
  obtain rfl : result = .ok nodes := hok
  obtain ⟨infos, rfl, runs⟩ := hostProgram_ok took.runs
  obtain ⟨count, shown, x, hx, listing, hcall, reply, ids⟩ := deployNodes_ok runs
  refine ⟨infos, ?_, ?_, ⟨x.returned, listing, ?_, ids⟩, fun info hinfo => ?_⟩
  · rw [HostNodes.resolved, List.map_map]
    rfl
  · rw [HostNodes.resolved, List.length_map, List.length_map, count]
  · rw [← hcall, ← reply]
    exact Exchange.returned_mem hx took.events
  · obtain ⟨y, z, output, logs, both, ycall, yreply, hports, zcall, zreply, hid⟩ :=
      shown info hinfo
    refine ⟨⟨y.returned, output, ?_, hports⟩, z.returned, logs, ?_, hid⟩
    · rw [← ycall, ← yreply]
      exact Exchange.returned_mem (both.subset (by simp)) took.events
    · rw [← zcall, ← zreply]
      exact Exchange.returned_mem (both.subset (by simp)) took.events

end PhasePlan

/-! ### The fold over outcomes -/

/-- The nodes of a fleet host, if it has succeeded. -/
def nodesOf (policy : IdentityPolicy) (o : Outcome Failure HostNodes) : List Node :=
  match acceptedNodes policy o with
  | .ok nodes => nodes
  | .error _ => []

/-- The entry for a fleet host that has not succeeded. -/
def failureOf? (policy : IdentityPolicy) (o : Outcome Failure HostNodes) : Option HostFailure :=
  match acceptedNodes policy o with
  | .ok _ => none
  | .error f => some ⟨o.host, f.line⟩

/-- A fleet host has succeeded when its deployment has, with nodes that the
policy accepts. -/
theorem acceptedNodes_eq_ok {policy : IdentityPolicy} {o : Outcome Failure HostNodes}
    {nodes : List Node} : acceptedNodes policy o = .ok nodes ↔
      ∃ found, o.result = .ok found ∧ nodes = found.resolved ∧
        (policy = .refuse → ∀ n ∈ nodes, n.peerId ≠ none) := by
  unfold acceptedNodes
  cases hr : o.result with
  | error f => simp
  | ok found =>
    dsimp only
    cases hc : policy.check found.resolved with
    | error f =>
      refine ⟨nofun, ?_⟩
      rintro ⟨found', hok, rfl, accepted⟩
      obtain rfl := Except.ok.inj hok
      rw [IdentityPolicy.check_eq_ok.2 accepted] at hc
      cases hc
    | ok u =>
      constructor
      · intro h
        obtain rfl := Except.ok.inj h
        exact ⟨found, rfl, rfl, IdentityPolicy.check_eq_ok.1 hc⟩
      · rintro ⟨found', hok, rfl, -⟩
        obtain rfl := Except.ok.inj hok
        rfl

/-- **Every outcome is in the fleet or among the failures**, in order. -/
theorem fleetNodes_eq_ok {settings : Settings} {os : List (Outcome Failure HostNodes)}
    {fleet : List Node} {failures : List HostFailure}
    (h : fleetNodes settings os = .ok (fleet, failures)) :
    fleet = os.flatMap (nodesOf settings.missingIdentity) ∧
      failures = os.filterMap (failureOf? settings.missingIdentity) ∧
      (settings.fleetFailure = .abort → failures = []) := by
  induction os generalizing fleet failures with
  | nil =>
    obtain ⟨rfl, rfl⟩ := Prod.mk.inj (Except.ok.inj h)
    exact ⟨rfl, rfl, fun _ => rfl⟩
  | cons o os ih =>
    rw [fleetNodes] at h
    rw [List.flatMap_cons]
    split at h
    · rename_i nodes hnodes
      split at h
      · cases h
      · rename_i rest others hrest
        obtain ⟨rfl, rfl⟩ := Prod.mk.inj (Except.ok.inj h)
        obtain ⟨rfl, hfailures, abort⟩ := ih hrest
        refine ⟨by rw [nodesOf, hnodes], ?_, abort⟩
        rw [List.filterMap_cons_none (by rw [failureOf?, hnodes]), hfailures]
    · cases h
    · -- Only where failures are reported does the fleet go on behind one.
      rename_i f hf policy
      split at h
      · cases h
      · rename_i rest others hrest
        obtain ⟨rfl, rfl⟩ := Prod.mk.inj (Except.ok.inj h)
        obtain ⟨rfl, hfailures, -⟩ := ih hrest
        refine ⟨by rw [nodesOf, hf, List.nil_append], ?_, fun abort => ?_⟩
        · rw [List.filterMap_cons_some (by rw [failureOf?, hf]), hfailures]
        · rw [abort] at policy
          cases policy

/-- Every host counts once, with its nodes or with its failure. -/
theorem length_nodesOf_add_failures {policy : IdentityPolicy} {k : Nat}
    {os : List (Outcome Failure HostNodes)}
    (h : ∀ o ∈ os, ∀ nodes, acceptedNodes policy o = .ok nodes → nodes.length = k) :
    (os.flatMap (nodesOf policy)).length + k * (os.filterMap (failureOf? policy)).length =
      os.length * k := by
  induction os with
  | nil => simp
  | cons o os ih =>
    have rest := ih fun o' ho' => h o' (List.mem_cons_of_mem _ ho')
    rw [List.flatMap_cons, List.length_append, List.length_cons, Nat.succ_mul, ← rest]
    cases ho : acceptedNodes policy o with
    | ok nodes =>
      rw [List.filterMap_cons_none (by rw [failureOf?, ho]), nodesOf, ho]
      have := h o List.mem_cons_self nodes ho
      simp only
      omega
    | error f =>
      rw [List.filterMap_cons_some (by rw [failureOf?, ho]), nodesOf, ho, List.length_cons,
        Nat.mul_succ]
      simp only [List.length_nil]
      omega

/-! ### The directory -/

/-- Tasks that run together come back in the order in which they were given. -/
theorem executeTogether_hosts {σ ε α : Type} {remote : Remote σ} {schedule : Schedule}
    {tasks : List (Task ε α)} {s : σ} {t : Nat} {os : List (Outcome ε α)}
    (h : (executeTogether remote schedule tasks s t).result = some os) :
    os.map Outcome.host = tasks.map Task.host := by
  refine List.ext_getElem? fun i => ?_
  rw [List.getElem?_map, List.getElem?_map]
  cases hi : tasks[i]? with
  | none =>
    rw [List.getElem?_eq_none_iff, ← executeTogether_length h] at hi
    rw [List.getElem?_eq_none hi]
    rfl
  | some task =>
    obtain ⟨xs, o, ended, took⟩ := executeTogether_task remote schedule s t hi
    obtain ⟨r, -, ho⟩ := took.outcome os h
    rw [ho]
    rfl

namespace DeploymentPlan

/-- The directory lists what the events show: the nodes of all bootstrap hosts,
and for every fleet host its nodes or a failure. -/
structure Accounted (plan : DeploymentPlan) (es : List Event)
    (os : List (Outcome Failure HostNodes)) (d : NodeDirectory) : Prop where
  bootstrap : ∃ lists : List (List Node), d.bootstrap :: d.special = lists.flatten ∧
    lists.length = plan.bootstrap.hosts.length ∧
    ∀ (i : Nat) (host : String), plan.bootstrap.hosts[i]? = some host →
      ∃ nodes, lists[i]? = some nodes ∧
        Listed plan.settings plan.bootstrap none es i host nodes
  hosts : os.map Outcome.host = plan.fleet.hosts
  listed : ∃ address, d.bootstrap.tcp.multiaddr = some address ∧
    ∀ (i : Nat) (o : Outcome Failure HostNodes) (nodes : List Node), os[i]? = some o →
      acceptedNodes plan.settings.missingIdentity o = .ok nodes →
      Listed plan.settings plan.fleet (some address) es i o.host nodes
  fleet : d.fleet = os.flatMap (nodesOf plan.settings.missingIdentity)
  failures : d.failures = os.filterMap (failureOf? plan.settings.missingIdentity)
  total : d.fleet.length + plan.fleet.layout.perHost.toNat * d.failures.length =
    plan.fleet.hosts.length * plan.fleet.layout.perHost.toNat
  abort : plan.settings.fleetFailure = .abort → d.failures = []

variable {σ : Type} {plan : DeploymentPlan} {remote : Remote σ} {schedule : Schedule}
  {patience : Nat} {s : σ} {t : Nat}

/-- Bootstrap hosts that have all succeeded have the nodes that the events show. -/
theorem bootstrap_listed_of_succeeded {os : List (Outcome Failure HostNodes)}
    {found : List HostNodes} (h : (plan.bootstrapRun remote patience s t).result = some os)
    (hos : os.map Outcome.result = found.map .ok) :
    found.length = plan.bootstrap.hosts.length ∧
      ∀ (i : Nat) (host : String), plan.bootstrap.hosts[i]? = some host →
        ∃ nodes, found[i]? = some nodes ∧ Listed plan.settings plan.bootstrap none
          (plan.bootstrapRun remote patience s t).events i host nodes.resolved := by
  have result : ∀ (i : Nat) (o : Outcome Failure HostNodes), os[i]? = some o →
      ∃ nodes, found[i]? = some nodes ∧ o.result = .ok nodes := by
    intro i o ho
    have := congrArg (·[i]?) hos
    simp only [List.getElem?_map, ho, Option.map_some] at this
    obtain ⟨nodes, hn, hok⟩ := Option.map_eq_some_iff.1 this.symm
    exact ⟨nodes, hn, hok.symm⟩
  have count : os.length = plan.bootstrap.hosts.length := by
    have run := executeInOrder_inOrder remote 0
      (plan.bootstrap.tasks plan.settings patience none) s t
    rw [show (executeInOrder remote 0 _ s t).result = some os from h] at run
    rw [run.length_of_succeeded, PhasePlan.length_tasks]
    intro o ho
    obtain ⟨i, hi⟩ := List.mem_iff_getElem?.1 ho
    obtain ⟨nodes, -, hok⟩ := result i o hi
    exact ⟨nodes, hok⟩
  have length := congrArg List.length hos
  rw [List.length_map, List.length_map, count] at length
  refine ⟨length.symm, fun i host hi => ?_⟩
  have lt : i < os.length := count ▸ (List.getElem?_eq_some_iff.1 hi).1
  have ho := List.getElem?_eq_getElem lt
  obtain ⟨nodes, hn, hok⟩ := result i _ ho
  exact ⟨nodes, hn, PhasePlan.listed_of_outcome remote .inOrder s t h hi ho hok⟩

/-- The nodes of an accepted bootstrap phase are those that its events show. -/
theorem bootstrap_listed {os : List (Outcome Failure HostNodes)} {b : BootstrapNodes}
    (h : (plan.bootstrapRun remote patience s t).result = some os)
    (hb : BootstrapNodes.ofOutcomes plan.settings.missingIdentity os = .ok b) :
    ∃ lists : List (List Node), b.first :: b.others = lists.flatten ∧
      lists.length = plan.bootstrap.hosts.length ∧
      ∀ (i : Nat) (host : String), plan.bootstrap.hosts[i]? = some host →
        ∃ nodes, lists[i]? = some nodes ∧ Listed plan.settings plan.bootstrap none
          (plan.bootstrapRun remote patience s t).events i host nodes := by
  obtain ⟨found, hos, hres, -, -⟩ := BootstrapNodes.ofOutcomes_ok hb
  obtain ⟨length, listed⟩ := bootstrap_listed_of_succeeded h hos
  refine ⟨found.map HostNodes.resolved, ?_, by rw [List.length_map, length], fun i host hi => ?_⟩
  · rw [← hres, resolveAll, List.flatMap_def]
  · obtain ⟨nodes, hn, shows⟩ := listed i host hi
    exact ⟨nodes.resolved, by rw [List.getElem?_map, hn, Option.map_some], shows⟩

/-- The outcomes of the fleet are those of its hosts, in their order. -/
theorem fleet_hosts {schedule : Schedule} {address : Multiaddr}
    {os : List (Outcome Failure HostNodes)}
    (h : (plan.fleetRun remote schedule patience s t address).result = some os) :
    os.map Outcome.host = plan.fleet.hosts :=
  (executeTogether_hosts h).trans PhasePlan.map_host_tasks

/-- What a fleet host that has succeeded has in the directory is what its events
show. -/
theorem fleet_listed {schedule : Schedule} {address : Multiaddr}
    {os : List (Outcome Failure HostNodes)}
    (h : (plan.fleetRun remote schedule patience s t address).result = some os)
    {i : Nat} {o : Outcome Failure HostNodes} {nodes : List Node} (ho : os[i]? = some o)
    (accepted : acceptedNodes plan.settings.missingIdentity o = .ok nodes) :
    Listed plan.settings plan.fleet (some address)
      (plan.fleetRun remote schedule patience s t address).events i o.host nodes := by
  obtain ⟨found, hok, rfl, -⟩ := acceptedNodes_eq_ok.1 accepted
  have hi : plan.fleet.hosts[i]? = some o.host := by
    rw [← fleet_hosts h, List.getElem?_map, ho, Option.map_some]
  exact PhasePlan.listed_of_outcome remote (.together schedule) s t h hi ho hok

/-- A run that comes to a directory has accepted the bootstrap phase, and the
directory is what the outcomes of the fleet make. -/
theorem deploy_eq_ok {d : NodeDirectory}
    (h : (plan.deploy remote schedule patience s t).result = some (.ok d)) :
    ∃ bs b os, (plan.bootstrapRun remote patience s t).result = some bs ∧
      BootstrapNodes.ofOutcomes plan.settings.missingIdentity bs = .ok b ∧
      (plan.fleetRunAfter remote schedule patience s t b.address).result = some os ∧
      NodeDirectory.ofOutcomes plan.settings b os = .ok d ∧
      d.bootstrap = b.first ∧ d.special = b.others ∧
      d.fleet = os.flatMap (nodesOf plan.settings.missingIdentity) ∧
      d.failures = os.filterMap (failureOf? plan.settings.missingIdentity) := by
  have progress := plan.deploy_progress remote schedule patience s t
  generalize plan.deploy remote schedule patience s t = run at progress h
  cases progress with
  | cut => cases h
  | refused => cases h
  | @passed bs b hbs hb =>
    obtain ⟨os, hos, hd⟩ := Option.map_eq_some_iff.1 h
    refine ⟨bs, b, os, hbs, hb, hos, hd, ?_⟩
    unfold NodeDirectory.ofOutcomes at hd
    split at hd
    · cases hd
    rename_i fleet failures hfold
    obtain rfl := Except.ok.inj hd
    obtain ⟨hfleet, hfailures, -⟩ := fleetNodes_eq_ok hfold
    exact ⟨rfl, rfl, hfleet, hfailures⟩

/-- **Every node of a directory** is one that the events show of a host of the plan. -/
theorem exists_listed_of_mem_nodes {d : NodeDirectory}
    (h : (plan.deploy remote schedule patience s t).result = some (.ok d)) :
    ∀ n ∈ d.nodes, ∃ phase bootstrap i, ∃ host ∈ plan.inventory.hosts, ∃ nodes,
      Listed plan.settings phase bootstrap (plan.deploy remote schedule patience s t).events i host
        nodes ∧ n ∈ nodes := by
  obtain ⟨bs, b, os, hbs, hb, hos, -, hbootstrap, hspecial, hfleet, -⟩ := deploy_eq_ok h
  rw [deploy_of_passed schedule hbs hb, NodeDirectory.nodes, hbootstrap, hspecial, hfleet,
    ← List.cons_append]
  intro n hn
  rcases List.mem_append.1 hn with hn | hn
  · obtain ⟨lists, flat, length, each⟩ := bootstrap_listed hbs hb
    rw [flat] at hn
    obtain ⟨nodes, hnodes, hn⟩ := List.mem_flatten.1 hn
    obtain ⟨i, hi, rfl⟩ := List.getElem_of_mem hnodes
    have place : i < plan.bootstrap.hosts.length := length ▸ hi
    obtain ⟨nodes, hnodes, listed⟩ := each i _ (List.getElem?_eq_getElem place)
    obtain rfl : lists[i] = nodes :=
      Option.some.inj ((List.getElem?_eq_getElem hi).symm.trans hnodes)
    exact ⟨_, _, i, _, List.mem_append_left _ (List.getElem_mem place), _,
      listed.mono fun e he => List.mem_append_left _ he, hn⟩
  · obtain ⟨o, ho, hn⟩ := List.mem_flatMap.1 hn
    obtain ⟨i, hi, rfl⟩ := List.getElem_of_mem ho
    have host : os[i].host ∈ plan.fleet.hosts := fleet_hosts hos ▸ List.mem_map_of_mem ho
    rw [nodesOf] at hn
    split at hn
    · rename_i nodes accepted
      exact ⟨_, _, i, _, List.mem_append_right _ host, nodes,
        (fleet_listed hos (List.getElem?_eq_getElem hi) accepted).mono
          fun e he => List.mem_append_right _ he, hn⟩
    · cases hn

/-- **No node is lost, listed twice or given to another host.** -/
theorem deploy_accounted {d : NodeDirectory}
    (h : (plan.deploy remote schedule patience s t).result = some (.ok d)) :
    ∃ os, plan.fleetOutcomes? remote schedule patience s t = some os ∧
      plan.Accounted (plan.deploy remote schedule patience s t).events os d := by
  have progress := plan.deploy_progress remote schedule patience s t
  generalize plan.deploy remote schedule patience s t = run at progress h ⊢
  cases progress with
  | cut => cases h
  | refused => cases h
  | @passed bs b hbs hb =>
    obtain ⟨os, hos, hd⟩ := Option.map_eq_some_iff.1 h
    refine ⟨os, (plan.fleetOutcomes?_of_passed remote schedule patience s t hbs hb).trans hos, ?_⟩
    unfold NodeDirectory.ofOutcomes at hd
    split at hd
    · cases hd
    rename_i fleet failures hfold
    obtain rfl := Except.ok.inj hd
    obtain ⟨hfleet, hfailures, abort⟩ := fleetNodes_eq_ok hfold
    obtain ⟨_, _, _, haddress, _⟩ := BootstrapNodes.ofOutcomes_ok hb
    have hosts := fleet_hosts hos
    constructor
    case bootstrap =>
      obtain ⟨lists, flat, length, each⟩ := bootstrap_listed hbs hb
      refine ⟨lists, flat, length, fun i host hi => ?_⟩
      obtain ⟨nodes, hn, shown⟩ := each i host hi
      exact ⟨nodes, hn, shown.mono fun e he => List.mem_append_left _ he⟩
    case hosts => exact hosts
    case listed =>
      exact ⟨b.address, haddress, fun i o nodes ho accepted =>
        (fleet_listed hos ho accepted).mono fun e he => List.mem_append_right _ he⟩
    case fleet => exact hfleet
    case failures => exact hfailures
    case total =>
      rw [hfleet, hfailures, ← hosts, List.length_map]
      refine length_nodesOf_add_failures fun o ho nodes accepted => ?_
      obtain ⟨i, hi⟩ := List.mem_iff_getElem?.1 ho
      obtain ⟨_, _, count, _⟩ := fleet_listed hos hi accepted
      exact count
    case abort => exact abort

/-- One fleet host succeeds and the other fails, and the directory accounts for both. -/
theorem deploy_accounted_small : ∃ d os,
    (small.deploy (Script.remote Script.small) .earliest 1 [] 0).result = some (.ok d) ∧
      d.fleet.length = 1 ∧ d.failures.length = 1 ∧
      small.fleetOutcomes? (Script.remote Script.small) .earliest 1 [] 0 = some os ∧
      small.Accounted (small.deploy (Script.remote Script.small) .earliest 1 [] 0).events os d := by
  have loc := Script.remote_isLocal Script.small
  have nodup : small.fleet.hosts.Nodup := by decide
  have each : ((small.deployEach (Script.remote Script.small) 1 [] 0).result.bind
      Except.toOption).map (fun d => (d.fleet.length, d.failures.length)) = some (1, 1) := by
    decide +kernel
  rw [← (deploy_eq_each .earliest loc nodup).1] at each
  obtain ⟨d, hd, lengths⟩ := Option.map_eq_some_iff.1 each
  obtain ⟨r, hr, hrd⟩ := Option.bind_eq_some_iff.1 hd
  obtain rfl : r = .ok d := by
    cases r with
    | error f => cases hrd
    | ok d' => exact congrArg Except.ok (Option.some.inj hrd)
  obtain ⟨os, hos, accounted⟩ := deploy_accounted hr
  obtain ⟨hfleet, hfailures⟩ := Prod.mk.inj lengths
  exact ⟨d, os, hr, hfleet, hfailures, hos, accounted⟩

end DeploymentPlan
end Rollout
