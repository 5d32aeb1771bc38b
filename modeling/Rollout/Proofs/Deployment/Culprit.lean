/-
# The host that ends a run

A run that fails names a host, and the reason is that host's own:

| the run fails | the host | the causes |
| --- | --- | --- |
| on a bootstrap host | the first whose deployment fails; those behind it and the fleet see no call | bootstrap host, deployment, the host's own |
| for the fleet, where it aborts | the first in the list that fails or has a node rejected, whenever it does | fleet host, deployment, the host's own; or fleet host, the node |

A host that settles before it is read stops at the first call that is not
answered. So if its own failure is a call's, this is the last call on the host.

Main statement: `DeploymentPlan.deploy_culprit`.
-/

import Mathlib.Data.Nat.Find
import Rollout.Proofs.Deployment.Policies
import Rollout.Proofs.Deployment.TwoPhases
import Rollout.Proofs.Remote.Stopping

namespace Rollout

open Program

/-! ### One host -/

namespace Container

/-- Reading a container stops at a call that fails; what it finds wrong by itself is no call. -/
theorem stopsAtFailure_introspect (host container : String) :
    (introspect host container).StopsAtFailure := by
  have ports : (ports host container).StopsAtFailure := by
    refine (stopsAtFailure_perform _).bind fun output f h => ?_
    obtain ⟨e, -, rfl⟩ := portsIn_eq_error h
    exact Failure.not_blamesCall (by simp [Failure.causes, Cause.isCall])
  have peerId : (peerId host container).StopsAtFailure :=
    (stopsAtFailure_perform _).bind fun _ => stopsAtFailure_pure _
  exact ports.bind fun _ => peerId.bind fun _ => stopsAtFailure_pure _

/-- Reading containers after a delay stops at a call that fails. -/
theorem stopsAtFailure_awaitReady (patience : Nat) (host : String) (containers : List String)
    (delay : Nat) : (awaitReady patience host containers (.settle delay)).StopsAtFailure :=
  (stopsAtFailure_pause delay).bind fun _ => .each (stopsAtFailure_introspect host) containers

end Container

namespace PhasePlan

variable {phase : PhasePlan} {settings : Settings} {position : UInt64} {env : HostEnvironment}
  {patience delay : Nat} {configName : String}

/-- A container without a keypair is no failed call. -/
theorem not_blamesCall_keypairOf {host container : String} {place : Nat} {f : Failure}
    (h : phase.keypairOf position host place container = .error f) : ¬ f.BlamesCall := by
  refine Failure.not_blamesCall ?_
  unfold keypairOf Keystore.keypair at h
  split at h
  · obtain rfl := Except.error.inj h
    simp [Failure.causes, Cause.isCall]
  · split at h
    · rename_i e outside
      split at outside
      · cases outside
      · obtain rfl := Except.error.inj outside
        obtain rfl := Except.error.inj h
        simp [Failure.causes, Failure.of, Cause.isCall]
    · cases h

/-- A node config without a name is no failed call. -/
theorem not_blamesCall_configName {f : Failure} (h : settings.configName = .error f) :
    ¬ f.BlamesCall := by
  unfold Settings.configName at h
  split at h
  · cases h
  · obtain rfl := Except.error.inj h
    exact Failure.not_blamesCall (by simp [Failure.causes, Failure.of, Cause.isCall])

/-- A wrong number of containers is no failed call. -/
theorem not_blamesCall_checkCount {host : String} {containers : List String} {f : Failure}
    (h : phase.checkCount host containers = .error f) : ¬ f.BlamesCall := by
  obtain ⟨-, rfl⟩ := phase.checkCount_eq_error.1 h
  exact Failure.not_blamesCall (by simp [Failure.causes, Failure.of, Cause.isCall])

/-- Equipping a container stops at a call that fails. -/
theorem stopsAtFailure_equip (place : Nat) (container : String) :
    (phase.equip position env.host configName place container).StopsAtFailure := by
  refine (stopsAtFailure_perform _).bind fun _ =>
    .bind (fun _ => not_blamesCall_keypairOf) fun _ => ?_
  exact (stopsAtFailure_perform _).bind fun _ => (stopsAtFailure_perform _).bind fun _ =>
    (stopsAtFailure_perform _).bind fun _ => stopsAtFailure_pure _

/-- Equipping containers stops at a call that fails. -/
theorem stopsAtFailure_equipAll : ∀ (place : Nat) (containers : List String),
    (phase.equipAll position env.host configName place containers).StopsAtFailure
  | _, [] => stopsAtFailure_pure _
  | place, container :: containers =>
    (stopsAtFailure_equip place container).bind fun _ =>
      stopsAtFailure_equipAll (place + 1) containers

/-- **The deployment of a host stops** at a call that fails. -/
theorem stopsAtFailure_deploy : (phase.deploy settings position env).StopsAtFailure := by
  refine (stopsAtFailure_perform _).bind fun _ => (stopsAtFailure_perform _).bind fun _ =>
    (stopsAtFailure_perform _).bind fun _ => (stopsAtFailure_perform _).bind fun _ => ?_
  refine .bind (fun _ => not_blamesCall_configName) fun _ => ?_
  refine (stopsAtFailure_perform _).bind fun _ => (stopsAtFailure_perform _).bind fun _ => ?_
  refine .bind (fun _ => not_blamesCall_checkCount) fun containers => ?_
  exact (stopsAtFailure_equipAll 0 containers).bind fun _ =>
    (stopsAtFailure_perform _).bind fun _ => stopsAtFailure_pure _

/-- **The deployment of a host** stops at the first call that is not answered. -/
theorem stopsAtFailure_deployNodes (settles : settings.readiness = .settle delay) :
    (phase.deployNodes settings patience position env).StopsAtFailure :=
  stopsAtFailure_deploy.bind fun containers =>
    settles ▸ Container.stopsAtFailure_awaitReady patience env.host containers delay

end PhasePlan

/-- The events on a host end with a call that is not answered, and the failure is that call's. -/
def EndsWithCall (host : String) (es : List Event) (f : Failure) : Prop :=
  ∃ before i now c back e,
    eventsOn host es = before ++ [.issued i now c, .returned i back c (.error e)] ∧
      f = .ofCall c e

/-- The deployment of the host at a position fails by the calls on that host. If the failure is a
call's, it is that of the last one. -/
structure PhasePlan.FailsBy (phase : PhasePlan) (settings : Settings) (patience : Nat)
    (bootstrap : Option Multiaddr) (i : Nat) (host : String) (es : List Event) (f : Failure) :
    Prop where
  own : ∃ begun xs ended, eventsOn host es = xs.flatMap (Exchange.events i) ∧
    (phase.deployNodes settings patience (UInt64.ofNat i) ⟨host, settings.tag, bootstrap⟩).Runs
      begun xs (some (.error f)) ended
  last : f.BlamesCall → EndsWithCall host es f

namespace PhasePlan

variable {phase : PhasePlan} {settings : Settings} {bootstrap : Option Multiaddr}
  {patience delay i t t' : Nat} {host : String} {f : Failure} {es : List Event}
  {xs : List Exchange}

/-- A host fails by what its own calls show. -/
theorem failsBy_of_runs (settles : settings.readiness = .settle delay)
    (on : eventsOn host es = xs.flatMap (Exchange.events i))
    (runs : (phase.deployNodes settings patience (UInt64.ofNat i)
      ⟨host, settings.tag, bootstrap⟩).Runs t xs (some (.error f)) t') :
    phase.FailsBy settings patience bootstrap i host es f where
  own := ⟨t, xs, t', on, runs⟩
  last blames := by
    rcases runs.stops (stopsAtFailure_deployNodes settles) with
      ⟨r, hr, -, blameless⟩ | ⟨ys, x, e, rfl, -, error, hf⟩
    · exact absurd blames (blameless f (Option.some.inj hr).symm)
    · obtain rfl := Except.error.inj (Option.some.inj hf)
      refine ⟨ys.flatMap (Exchange.events i), i, x.issued, x.call, x.returned, e, ?_, rfl⟩
      rw [on, List.flatMap_append, List.flatMap_singleton, Exchange.events, error]

/-- A host that fails, by its own deployment. -/
theorem hostProgram_error
    (h : (phase.hostProgram settings patience bootstrap i host).Runs t xs (some (.error f)) t') :
    ∃ own, f = own.within (.deploymentOf host) ∧
      (phase.deployNodes settings patience (UInt64.ofNat i) ⟨host, settings.tag, bootstrap⟩).Runs
        t xs (some (.error own)) t' := by
  obtain ⟨o, runs, ho⟩ := Program.Runs.of_ending h
  cases o with
  | none => cases ho
  | some r =>
    cases r with
    | ok infos => cases ho
    | error own => exact ⟨own, Except.error.inj (Option.some.inj ho), runs⟩

end PhasePlan

/-! ### Bootstrap hosts -/

/-- The first host that has failed is the one that a phase is refused for. -/
theorem allNodes_of_error {phase : Phase} {host : String} {f : Failure}
    {os : List (Outcome Failure HostNodes)} (ok : ∀ o ∈ os, ∃ nodes, o.result = .ok nodes) :
    allNodes phase (os ++ [⟨host, .error f⟩]) = .error (f.within (.phaseHost phase host)) := by
  induction os with
  | nil => rfl
  | cons o os ih =>
    obtain ⟨⟨nodes, hok⟩, ok⟩ := List.forall_mem_cons.1 ok
    rw [List.cons_append, allNodes, hok, ih ok]
    rfl

/-- Behind bootstrap hosts that succeed, the first that does not is the failure of the phase. -/
theorem BootstrapNodes.ofOutcomes_of_error {policy : IdentityPolicy} {host : String} {f : Failure}
    {os : List (Outcome Failure HostNodes)} (ok : ∀ o ∈ os, ∃ nodes, o.result = .ok nodes) :
    ofOutcomes policy (os ++ [⟨host, .error f⟩]) =
      .error (f.within (.phaseHost .bootstrap host)) := by
  rw [ofOutcomes, allNodes_of_error ok]
  rfl

namespace DeploymentPlan

variable {σ : Type}

/-- The deployment of the bootstrap host at a position, behind the hosts before it. -/
def bootstrapHostRun (plan : DeploymentPlan) (remote : Remote σ) (patience : Nat) (s : σ) (t : Nat)
    (i : Nat) (host : String) : Run σ (Except Failure (List ContainerInfo)) :=
  (plan.bootstrap.deployNodes plan.settings patience (UInt64.ofNat i)
    ⟨host, plan.settings.tag, none⟩).runBehind remote
      (plan.bootstrap.tasks plan.settings patience none) i s t

/-- The run fails for the bootstrap host at a position. -/
structure BootstrapCulprit (plan : DeploymentPlan) (remote : Remote σ) (patience : Nat) (s : σ)
    (t : Nat) (run : Run σ (Except Failure NodeDirectory)) (i : Nat) (host : String)
    (own : Failure) : Prop where
  listed : plan.bootstrap.hosts[i]? = some host
  failed : (plan.bootstrapHostRun remote patience s t i host).result = some (.error own)
  first : ∀ j < i, ∀ earlier, plan.bootstrap.hosts[j]? = some earlier →
    ∃ infos, (plan.bootstrapHostRun remote patience s t j earlier).result = some (.ok infos)
  uncontacted : ∀ c ∈ run.calls,
    c.host ∉ plan.bootstrap.hosts.drop (i + 1) ∧ c.host ∉ plan.fleet.hosts
  result : ∃ whole, run.result = some (.error whole) ∧
    whole.chain = ("Bootstrap host " ++ host ++ " failed") ::
      ("Deployment of " ++ host ++ " failed") :: own.chain
  reason : plan.bootstrap.FailsBy plan.settings patience none i host run.events own

variable {plan : DeploymentPlan} {remote : Remote σ} {patience : Nat} {s : σ} {t delay : Nat}

/-- The deployment of a host that settles is not cut off. -/
theorem exists_bootstrapHostRun_result (settles : plan.settings.readiness = .settle delay)
    (remote : Remote σ) (patience : Nat) (s : σ) (t i : Nat) (host : String) :
    ∃ r, (plan.bootstrapHostRun remote patience s t i host).result = some r := by
  obtain ⟨xs, -, runs⟩ := Program.runs_run remote i (plan.bootstrap.deployNodes plan.settings
    patience (UInt64.ofNat i) ⟨host, plan.settings.tag, none⟩) _ _
  rcases runs.stops (PhasePlan.stopsAtFailure_deployNodes settles) with
    ⟨r, hr, -⟩ | ⟨_, x, e, -, -, -, hr⟩
  · exact ⟨r, hr⟩
  · exact ⟨_, hr⟩

/-- The task of a bootstrap host behind the hosts before it is its deployment. -/
theorem hostProgram_runBehind (plan : DeploymentPlan) (remote : Remote σ) (patience : Nat) (s : σ)
    (t j : Nat) (host : String) :
    (plan.bootstrap.hostProgram plan.settings patience none j host).runBehind remote
        (plan.bootstrap.tasks plan.settings patience none) j s t =
      (plan.bootstrapHostRun remote patience s t j host).map fun result =>
        match within (.deploymentOf host) result with
        | .ok infos => .ok ⟨host, infos.map ContainerInfo.node⟩
        | .error f => .error f :=
  Program.run_ending ..

/-- What the bootstrap phase has gone through when a host fails behind others that succeed. -/
theorem bootstrapRun_of_failed {i : Nat} {host : String} {own : Failure}
    (listed : plan.bootstrap.hosts[i]? = some host)
    (failed : (plan.bootstrapHostRun remote patience s t i host).result = some (.error own))
    (first : ∀ j < i, ∀ earlier, plan.bootstrap.hosts[j]? = some earlier →
      ∃ infos, (plan.bootstrapHostRun remote patience s t j earlier).result = some (.ok infos)) :
    ∃ os before begun xs ended, (∀ o ∈ os, ∃ nodes, o.result = .ok nodes) ∧
      (plan.bootstrapRun remote patience s t).result =
        some (os ++ [⟨host, .error (own.within (.deploymentOf host))⟩]) ∧
      (plan.bootstrapRun remote patience s t).events =
        before ++ taskEvents i xs (some ()) ∧
      (∀ e ∈ before, e.position < i) ∧
      (plan.bootstrap.deployNodes plan.settings patience (UInt64.ofNat i)
        ⟨host, plan.settings.tag, none⟩).Runs begun xs (some (.error own)) ended := by
  have behind := hostProgram_runBehind plan remote patience s t
  have earlier : ∀ j < i, ∀ task, (plan.bootstrap.tasks plan.settings patience none)[j]? =
      some task → ∃ nodes, (task.program.runBehind remote
        (plan.bootstrap.tasks plan.settings patience none) j s t).result = some (.ok nodes) := by
    intro j hj task htask
    rw [PhasePlan.getElem?_tasks] at htask
    obtain ⟨name, hname, rfl⟩ := Option.map_eq_some_iff.1 htask
    obtain ⟨infos, hinfos⟩ := first j hj name hname
    exact ⟨⟨name, infos.map ContainerInfo.node⟩, by rw [behind, Run.map_result, hinfos]; rfl⟩
  have error : ((plan.bootstrap.hostProgram plan.settings patience none i host).runBehind remote
      (plan.bootstrap.tasks plan.settings patience none) i s t).result =
        some (.error (own.within (.deploymentOf host))) := by
    rw [behind, Run.map_result, failed]
    rfl
  obtain ⟨os, ok, result, events⟩ :=
    executeInOrder_eq_of_error (PhasePlan.getElem?_tasks_of_host listed) earlier error
  obtain ⟨xs, hxs, runs⟩ := Program.runs_run remote i (plan.bootstrap.deployNodes plan.settings
    patience (UInt64.ofNat i) ⟨host, plan.settings.tag, none⟩) _ _
  rw [bootstrapHostRun, Program.runBehind] at failed
  rw [failed] at runs
  refine ⟨os, (executeInOrder remote 0
    ((plan.bootstrap.tasks plan.settings patience none).take i) s t).events, _, xs, _, ok, result,
    ?_, fun e he => ?_, runs⟩
  · rw [bootstrapRun, events, behind, Run.map_events, bootstrapHostRun, Program.runBehind, hxs]
    rfl
  · have lt := execute_position remote .inOrder _ s t e he
    rw [List.length_take] at lt
    exact Nat.lt_of_lt_of_le lt (Nat.min_le_left _ _)

/-- **A bootstrap host that fails** behind others that succeed ends the run. -/
theorem bootstrapCulprit_of_failed (schedule : Schedule) {i : Nat} {host : String} {own : Failure}
    (settles : plan.settings.readiness = .settle delay) (nodup : plan.inventory.hosts.Nodup)
    (listed : plan.bootstrap.hosts[i]? = some host)
    (failed : (plan.bootstrapHostRun remote patience s t i host).result = some (.error own))
    (first : ∀ j < i, ∀ earlier, plan.bootstrap.hosts[j]? = some earlier →
      ∃ infos, (plan.bootstrapHostRun remote patience s t j earlier).result = some (.ok infos)) :
    plan.BootstrapCulprit remote patience s t (plan.deploy remote schedule patience s t) i host
      own := by
  obtain ⟨os, before, begun, xs, ended, ok, result, events, positions, runs⟩ :=
    bootstrapRun_of_failed listed failed first
  have hosts : (plan.bootstrap.hosts ++ plan.fleet.hosts).Nodup := nodup
  obtain ⟨apart, -, disjoint⟩ := List.nodup_append.1 hosts
  have placed := bootstrapRun_placed plan remote patience s t
  have own_events : eventsAt i (plan.bootstrapRun remote patience s t).events =
      taskEvents i xs (some ()) := by
    rw [events, eventsAt_append, eventsAt_eq_nil fun e he => Nat.ne_of_lt (positions e he),
      eventsAt_eq_self position_taskEvents, List.nil_append]
  rw [deploy_of_refused schedule result (BootstrapNodes.ofOutcomes_of_error ok)]
  constructor
  case listed => exact listed
  case failed => exact failed
  case first => exact first
  case uncontacted =>
    intro c hc
    obtain ⟨e, he, hec⟩ := exists_event_of_mem_calls hc
    change e ∈ (plan.bootstrapRun remote patience s t).events at he
    have place := placed e he c hec
    have le : e.position ≤ i := by
      rw [events] at he
      rcases List.mem_append.1 he with he | he
      · exact Nat.le_of_lt (positions e he)
      · exact Nat.le_of_eq (position_taskEvents e he)
    refine ⟨fun later => ?_, fun fleet => disjoint _ (List.mem_of_getElem? place) _ fleet rfl⟩
    -- A host listed behind the culprit is at a position that no event has come to.
    obtain ⟨j, hj⟩ := List.mem_iff_getElem?.1 later
    rw [List.getElem?_drop] at hj
    have same := (List.getElem?_inj (List.getElem?_eq_some_iff.1 place).1 apart).1
      (place.trans hj.symm)
    omega
  case result => exact ⟨_, rfl, rfl⟩
  case reason =>
    exact PhasePlan.failsBy_of_runs settles (placed.eventsOn_of_taskEvents apart listed own_events)
      runs

end DeploymentPlan

/-! ### Fleet hosts -/

/-- The host has been deployed, and the policy rejects none of its nodes. -/
def Outcome.Passes (policy : IdentityPolicy) (o : Outcome Failure HostNodes) : Prop :=
  ∃ found, o.result = .ok found ∧ (policy = .refuse → ∀ n ∈ found.resolved, n.peerId ≠ none)

/-- An outcome that gives no failure passes the policy. -/
theorem Outcome.passes_of_failureOf? {policy : IdentityPolicy} {o : Outcome Failure HostNodes}
    (h : failureOf? policy o = none) : o.Passes policy := by
  cases accepted : acceptedNodes policy o with
  | error f =>
    rw [failureOf?, accepted] at h
    cases h
  | ok nodes =>
    obtain ⟨found, hok, rfl, identified⟩ := acceptedNodes_eq_ok.1 accepted
    exact ⟨found, hok, identified⟩

/-- A policy that does not accept nodes refuses one without an identity. -/
theorem IdentityPolicy.of_check_eq_error {policy : IdentityPolicy} {nodes : List Node} {f : Failure}
    (h : policy.check nodes = .error f) :
    policy = .refuse ∧ ∃ n ∈ nodes, n.peerId = none ∧
      f = .of (.anonymousNode ((n.tcp.multiaddr.map Multiaddr.text).getD n.tcp.port)) := by
  unfold check at h
  split at h
  · rename_i n found
    refine ⟨rfl, n, List.mem_of_find?_eq_some found, ?_, (Except.error.inj h).symm⟩
    simpa [Node.isAnonymous] using List.find?_some found
  · cases h

namespace DeploymentPlan

variable {σ : Type}

/-- The run aborts for the fleet host at a position. -/
structure FleetCulprit (plan : DeploymentPlan) (remote : Remote σ) (schedule : Schedule)
    (patience : Nat) (s : σ) (t : Nat) (address : Multiaddr) (os : List (Outcome Failure HostNodes))
    (i : Nat) (o : Outcome Failure HostNodes) (whole : Failure) : Prop where
  aborts : plan.settings.fleetFailure = .abort
  outcomes : plan.fleetOutcomes? remote schedule patience s t = some os
  outcome : os[i]? = some o
  listed : plan.fleet.hosts[i]? = some o.host
  first : ∀ j < i, ∀ earlier, os[j]? = some earlier →
    earlier.Passes plan.settings.missingIdentity
  reason :
    (∃ own, o.result = .error (own.within (.deploymentOf o.host)) ∧
      whole.chain = ("Fleet host " ++ o.host ++ " failed") ::
        ("Deployment of " ++ o.host ++ " failed") :: own.chain ∧
      plan.fleet.FailsBy plan.settings patience (some address) i o.host
        (plan.deploy remote schedule patience s t).events own) ∨
    ∃ found n, o.result = .ok found ∧ plan.settings.missingIdentity = .refuse ∧
      n ∈ found.resolved ∧ n.peerId = none ∧
      whole.chain = ["Fleet host " ++ o.host ++ " failed", "Peer id of node " ++
        (n.tcp.multiaddr.map Multiaddr.text).getD n.tcp.port ++ " not found in its logs"]

variable {plan : DeploymentPlan} {remote : Remote σ} {schedule : Schedule} {patience : Nat} {s : σ}
  {t delay : Nat}

/-- The exchanges of a fleet host are all there is on it in the run. -/
theorem exists_fleetHost_exchanges {bs os : List (Outcome Failure HostNodes)} {b : BootstrapNodes}
    (nodup : plan.inventory.hosts.Nodup)
    (hbs : (plan.bootstrapRun remote patience s t).result = some bs)
    (hb : BootstrapNodes.ofOutcomes plan.settings.missingIdentity bs = .ok b)
    (hos : (plan.fleetRunAfter remote schedule patience s t b.address).result = some os) {i : Nat}
    {o : Outcome Failure HostNodes} (ho : os[i]? = some o)
    (listed : plan.fleet.hosts[i]? = some o.host) :
    ∃ begun xs ended, eventsOn o.host (plan.deploy remote schedule patience s t).events =
        xs.flatMap (Exchange.events i) ∧
      (plan.fleet.hostProgram plan.settings patience (some b.address) i o.host).Runs begun xs
        (some o.result) ended := by
  have hosts : (plan.bootstrap.hosts ++ plan.fleet.hosts).Nodup := nodup
  obtain ⟨-, apart, disjoint⟩ := List.nodup_append.1 hosts
  obtain ⟨xs, r, ended, took⟩ := executeTogether_task remote schedule
    (plan.bootstrapRun remote patience s t).state (plan.bootstrapRun remote patience s t).time
    (PhasePlan.getElem?_tasks_of_host listed)
  obtain ⟨result, rfl, same⟩ := took.outcome os hos
  have own : o.result = result := congrArg Outcome.result (Option.some.inj (ho.symm.trans same))
  refine ⟨_, xs, ended, ?_, own ▸ took.runs⟩
  have nowhere : eventsOn o.host (plan.bootstrapRun remote patience s t).events = [] :=
    (bootstrapRun_placed plan remote patience s t).eventsOn_eq_nil fun mem =>
      disjoint _ mem _ (List.mem_of_getElem? listed) rfl
  rw [deploy_of_passed schedule hbs hb, Run.after_events, Run.map_events, eventsOn_append, nowhere,
    List.nil_append]
  exact (fleetRun_placed b.address).eventsOn_of_taskEvents apart listed took.events

/-- **A run that fails for the fleet** aborts for the first host that does not pass. -/
theorem fleetCulprit_of_failed {b : BootstrapNodes} {whole : Failure}
    (settles : plan.settings.readiness = .settle delay) (nodup : plan.inventory.hosts.Nodup)
    (passed : (plan.deployBootstrap remote patience s t).result = some (.ok b))
    (failed : (plan.deploy remote schedule patience s t).result = some (.error whole)) :
    ∃ os i o, plan.FleetCulprit remote schedule patience s t b.address os i o whole := by
  obtain ⟨bs, hbs, hb⟩ := Option.map_eq_some_iff.1 passed
  rw [deploy_of_passed schedule hbs hb] at failed
  obtain ⟨os, hos, refused⟩ := Option.map_eq_some_iff.1 failed
  have error : fleetNodes plan.settings os = .error whole := by
    unfold NodeDirectory.ofOutcomes at refused
    split at refused
    · rename_i f hf
      rw [hf, Except.error.inj refused]
    · cases refused
  obtain ⟨aborts, before, o, after, g, rfl, clean, rejected, rfl⟩ := fleetNodes_eq_error error
  have outcome : (before ++ o :: after)[before.length]? = some o := by simp
  have listed : plan.fleet.hosts[before.length]? = some o.host := by
    rw [← fleet_hosts hos, List.getElem?_map, outcome, Option.map_some]
  refine ⟨_, before.length, o, aborts,
    (plan.fleetOutcomes?_of_passed remote schedule patience s t hbs hb).trans hos, outcome, listed,
    fun j hj earlier hearlier => ?_, ?_⟩
  · rw [List.getElem?_append_left hj] at hearlier
    refine Outcome.passes_of_failureOf? ?_
    exact List.filterMap_eq_nil_iff.1 clean earlier (List.mem_of_getElem? hearlier)
  · obtain ⟨begun, xs, ended, on, runs⟩ :=
      exists_fleetHost_exchanges nodup hbs hb hos outcome listed
    unfold acceptedNodes at rejected
    split at rejected
    · rename_i f hf
      obtain rfl := Except.error.inj rejected
      obtain ⟨own, rfl, deployment⟩ := PhasePlan.hostProgram_error (hf ▸ runs)
      exact .inl ⟨own, hf, rfl, PhasePlan.failsBy_of_runs settles on deployment⟩
    · rename_i found hfound
      split at rejected
      · rename_i f hf
        obtain rfl := Except.error.inj rejected
        obtain ⟨refuse, n, hn, anonymous, rfl⟩ := IdentityPolicy.of_check_eq_error hf
        exact .inr ⟨found, n, hfound, refuse, hn, anonymous, rfl⟩
      · cases rejected

/-! ### The whole run -/

/-- **A run that fails names the right host and the real reason.** If the deployment of a bootstrap
host fails, the first such host ends the run; a run that fails for the fleet does so for the
first host in the list that fails or has a node rejected, in whatever order hosts come to their
end. -/
theorem deploy_culprit (plan : DeploymentPlan) (remote : Remote σ) (schedule : Schedule)
    (patience : Nat) (s : σ) (t : Nat) {delay : Nat}
    (settles : plan.settings.readiness = .settle delay) (nodup : plan.inventory.hosts.Nodup) :
    ((∃ i host f, plan.bootstrap.hosts[i]? = some host ∧
        (plan.bootstrapHostRun remote patience s t i host).result = some (.error f)) →
      ∃ i host own, plan.BootstrapCulprit remote patience s t
        (plan.deploy remote schedule patience s t) i host own) ∧
    ∀ b whole, (plan.deployBootstrap remote patience s t).result = some (.ok b) →
      (plan.deploy remote schedule patience s t).result = some (.error whole) →
      ∃ os i o, plan.FleetCulprit remote schedule patience s t b.address os i o whole := by
  refine ⟨fun some_fails => ?_, fun b whole => fleetCulprit_of_failed settles nodup⟩
  classical
  obtain ⟨host, own, listed, failed⟩ := Nat.find_spec some_fails
  refine ⟨_, host, own, bootstrapCulprit_of_failed schedule settles nodup listed failed ?_⟩
  intro j hj earlier hearlier
  obtain ⟨r, hr⟩ := exists_bootstrapHostRun_result settles remote patience s t j earlier
  cases r with
  | ok infos => exact ⟨infos, hr⟩
  | error f => exact absurd ⟨earlier, f, hearlier, hr⟩ (Nat.find_min some_fails hj)

/-- The small plan fails for its bootstrap host where no host is there, and for its second fleet host
where only that one is not. -/
theorem deploy_culprit_small :
    let plan := small.under .abort .degrade
    plan.settings.readiness = .settle 1000 ∧ plan.inventory.hosts.Nodup ∧
    (∃ i own, plan.BootstrapCulprit (Script.remote []) 1 [] 0
      (plan.deploy (Script.remote []) .earliest 1 [] 0) i "a" own) ∧
    ∃ b whole os i o, (plan.deploy (Script.remote Script.small) .earliest 1 [] 0).result =
        some (.error whole) ∧ o.host = "c" ∧
      plan.FleetCulprit (Script.remote Script.small) .earliest 1 [] 0 b os i o whole := by
  intro plan
  have settles : plan.settings.readiness = .settle 1000 := rfl
  have nodup : plan.inventory.hosts.Nodup := by decide
  refine ⟨settles, nodup, ?_, ?_⟩
  · have failed : (plan.bootstrapHostRun (Script.remote []) 1 [] 0 0 "a").result.map Except.isOk =
        some false := by
      decide +kernel
    obtain ⟨r, hr, error⟩ := Option.map_eq_some_iff.1 failed
    cases r with
    | ok infos => cases error
    | error f =>
      obtain ⟨i, host, own, culprit⟩ := (deploy_culprit plan (Script.remote []) .earliest 1 [] 0
        settles nodup).1 ⟨0, "a", f, rfl, hr⟩
      obtain rfl : host = "a" := List.mem_singleton.1 (List.mem_of_getElem? culprit.listed)
      exact ⟨i, own, culprit⟩
  · have accepted : (plan.deployBootstrap (Script.remote Script.small) 1 [] 0).result.map
        Except.isOk = some true := by
      decide +kernel
    have aborted : (plan.deployEach (Script.remote Script.small) 1 [] 0).result.map
        (Except.mapError fun f => f.cause.message) = some (.error "Fleet host c failed") := by
      decide +kernel
    rw [← (deploy_eq_each .earliest (Script.remote_isLocal Script.small) (by decide)).1] at aborted
    obtain ⟨r, hr, hok⟩ := Option.map_eq_some_iff.1 accepted
    obtain ⟨r', hr', hmessage⟩ := Option.map_eq_some_iff.1 aborted
    cases r with
    | error f => cases hok
    | ok b =>
      cases r' with
      | ok d => cases hmessage
      | error whole =>
        obtain ⟨os, i, o, culprit⟩ := (deploy_culprit plan (Script.remote Script.small) .earliest 1
          [] 0 settles nodup).2 b whole hr hr'
        refine ⟨b.address, whole, os, i, o, hr', ?_, culprit⟩
        have named : "Fleet host " ++ o.host ++ " failed" = "Fleet host c failed" := by
          rw [← Except.error.inj hmessage]
          rcases culprit.reason with ⟨own, -, chain, -⟩ | ⟨found, n, -, -, -, -, chain⟩
          · exact (List.cons.inj chain).1.symm
          · exact (List.cons.inj chain).1.symm
        have mem : o.host ∈ ["b", "c"] := List.mem_of_getElem? culprit.listed
        rcases List.mem_cons.1 mem with hb | mem
        · rw [hb] at named
          exact absurd named (by decide)
        · exact List.mem_singleton.1 mem

end DeploymentPlan
end Rollout
