/-
# Hosts do not see each other

Where every host knows only what has happened on it, the fleet hosts could as
well be deployed one after the other:

| changed | what stays |
| --- | --- |
| the schedule | the result of the run, and the calls on every host |
| what one fleet host does | the calls on every other host, and what it comes to |

Main statement: `DeploymentPlan.deploy_isolated`.
-/

import Rollout.Proofs.Deployment.Run
import Rollout.Proofs.Remote.Alone
import Rollout.Proofs.Remote.Script

namespace Rollout

variable {σ ν β : Type}

/-- No task of a phase calls another host than its own. -/
theorem PhasePlan.staysHome_tasks {phase : PhasePlan} {settings : Settings} {patience : Nat}
    {bootstrap : Option Multiaddr} :
    ∀ task ∈ phase.tasks settings patience bootstrap, task.StaysHome := by
  intro task h
  obtain ⟨i, hi⟩ := List.mem_iff_getElem?.1 h
  rw [getElem?_tasks] at hi
  obtain ⟨host, -, rfl⟩ := Option.map_eq_some_iff.1 hi
  exact (everyCall_hostProgram i host).mono fun c hc => hc.host_eq

/-- The calls on a host of a run behind some events are those in the events, then those of the
run. -/
theorem callsOn_after (host : String) (es : List Event) (r : Run σ β) :
    callsOn host (r.after es).calls =
      callsOn host (es.filterMap Event.issuedCall?) ++ callsOn host r.calls := by
  rw [Run.calls, Run.after_events, List.filterMap_append, callsOn, List.filter_append]
  rfl

namespace DeploymentPlan

/-- Deploys the bootstrap hosts, then the fleet hosts one after the other, each
to its own end and on a clock of its own. -/
def deployEach (plan : DeploymentPlan) (remote : Remote σ) (patience : Nat) (s : σ) (t : Nat) :
    Run σ (Except Failure NodeDirectory) :=
  (plan.deployBootstrap remote patience s t).andThen fun result s t =>
    match result with
    | .error f => ⟨some (.error f), [], s, t⟩
    | .ok b =>
      (executeEach remote 0 (plan.fleet.tasks plan.settings patience (some b.address)) s t).map
        (NodeDirectory.ofOutcomes plan.settings b)

variable {plan : DeploymentPlan} {remote remote' : Remote σ} {schedule schedule' : Schedule}
  {patience : Nat} {s s' : σ} {t : Nat} {view : String → σ → ν}

/-- **The fleet hosts could be deployed one after the other.** -/
theorem deploy_eq_each (schedule : Schedule) (loc : remote.IsLocal view)
    (nodup : plan.fleet.hosts.Nodup) :
    (plan.deploy remote schedule patience s t).result =
        (plan.deployEach remote patience s t).result ∧
      ∀ host, callsOn host (plan.deploy remote schedule patience s t).calls =
        callsOn host (plan.deployEach remote patience s t).calls := by
  rw [deploy, deployEach, Run.andThen, Run.andThen]
  cases hb : (plan.deployBootstrap remote patience s t).result with
  | none => exact ⟨rfl, fun _ => rfl⟩
  | some r =>
    cases r with
    | error f => exact ⟨rfl, fun _ => rfl⟩
    | ok b =>
      have apart : ((plan.fleet.tasks plan.settings patience (some b.address)).map
          Task.host).Nodup := PhasePlan.map_host_tasks ▸ nodup
      obtain ⟨result, events⟩ := executeTogether_eq_each loc schedule PhasePlan.staysHome_tasks
        apart (plan.deployBootstrap remote patience s t).state
        (plan.deployBootstrap remote patience s t).time
      refine ⟨congrArg (Option.map _) result, fun host => ?_⟩
      dsimp only
      rw [callsOn_after, callsOn_after]
      congr 1
      refine Placed.callsOn_congr
        (execute_placed remote (.together schedule) PhasePlan.staysHome_tasks _ _) ?_ apart ?_
      · exact fun e he c hc =>
          (executeEach_placed remote PhasePlan.staysHome_tasks 0 _ _ e he c hc).2
      · intro i hi
        rw [List.getElem?_map] at hi
        obtain ⟨task, htask, -⟩ := Option.map_eq_some_iff.1 hi
        exact events i task htask

/-- **The outcomes of the fleet** are those of its hosts, each for itself behind the bootstrap
phase. -/
theorem fleetOutcomes?_eq_each (loc : remote.IsLocal view) (nodup : plan.fleet.hosts.Nodup) :
    plan.fleetOutcomes? remote schedule patience s t =
      match (plan.deployBootstrap remote patience s t).result with
      | some (.ok b) =>
        (executeEach remote 0 (plan.fleet.tasks plan.settings patience (some b.address))
          (plan.deployBootstrap remote patience s t).state
          (plan.deployBootstrap remote patience s t).time).result
      | _ => none := by
  rw [fleetOutcomes?]
  cases (plan.deployBootstrap remote patience s t).result with
  | none => rfl
  | some r =>
    cases r with
    | error f => rfl
    | ok b =>
      exact (executeTogether_eq_each loc schedule PhasePlan.staysHome_tasks
        (PhasePlan.map_host_tasks ▸ nodup) _ _).1

/-- The bootstrap phase is the same on remotes that are alike but for a fleet
host. -/
theorem deployBootstrap_alike (loc : remote.IsLocal view)
    (loc' : remote'.IsLocal view) {g : String} (hg : g ∉ plan.bootstrap.hosts)
    (alike : ∀ host, host ≠ g → remote.AlikeOn view host remote')
    (start : ∀ host, host ≠ g → view host s = view host s') {host : String} (hhost : host ≠ g) :
    (plan.deployBootstrap remote patience s t).Alike view host
      (plan.deployBootstrap remote' patience s' t) := by
  refine Run.Alike.map _ (executeInOrder_alike loc loc' alike ?_ 0 start t host hhost)
  intro task h
  exact ⟨PhasePlan.staysHome_tasks task h, fun hh => hg (hh ▸ PhasePlan.mem_hosts_of_mem_tasks h)⟩

/-- A fleet host goes through the same on remotes that are alike on it, in any
two schedules. -/
theorem fleetRun_alike
    (loc : remote.IsLocal view) (loc' : remote'.IsLocal view) (nodup : plan.fleet.hosts.Nodup)
    {host : String} (alike : remote.AlikeOn view host remote') (h : view host s = view host s')
    (address : Multiaddr) {i : Nat} (hi : plan.fleet.hosts[i]? = some host) :
    eventsAt i (plan.fleetRun remote schedule patience s t address).events =
        eventsAt i (plan.fleetRun remote' schedule' patience s' t address).events ∧
      ∀ os os', (plan.fleetRun remote schedule patience s t address).result = some os →
        (plan.fleetRun remote' schedule' patience s' t address).result = some os' →
        ∃ r, os[i]? = some ⟨host, r⟩ ∧ os'[i]? = some ⟨host, r⟩ := by
  have apart : ((plan.fleet.tasks plan.settings patience (some address)).map Task.host).Nodup :=
    PhasePlan.map_host_tasks ▸ nodup
  have home : ∀ task ∈ plan.fleet.tasks plan.settings patience (some address), task.StaysHome :=
    PhasePlan.staysHome_tasks
  have htask : (plan.fleet.tasks plan.settings patience (some address))[i]? = some
      ⟨host, plan.fleet.hostProgram plan.settings patience (some address) i host⟩ :=
    PhasePlan.getElem?_tasks_of_host hi
  obtain ⟨events, outcome⟩ := executeTogether_alone loc schedule home apart s t htask
  obtain ⟨events', outcome'⟩ := executeTogether_alone loc' schedule' home apart s' t htask
  have same := Task.run_alike alike i (home _ (List.mem_of_getElem? htask)) h t
  refine ⟨events.trans (same.events.trans events'.symm), fun os os' hos hos' => ?_⟩
  obtain ⟨o, ho, place, hhost⟩ := outcome os hos
  obtain ⟨o', ho', place', -⟩ := outcome' os' hos'
  obtain rfl : o = o' := Option.some.inj (ho.symm.trans (same.result.trans ho'))
  obtain rfl : o.host = host := hhost
  exact ⟨o.result, place, place'⟩

/-- **A fleet host that two remotes treat alike** does the same with both, whatever the other
hosts do. -/
theorem fleetRunAfter_alike (loc : remote.IsLocal view) (loc' : remote'.IsLocal view)
    (nodup : plan.fleet.hosts.Nodup) {host : String} (alike : remote.AlikeOn view host remote')
    (boot : (plan.deployBootstrap remote patience s t).Alike view host
      (plan.deployBootstrap remote' patience s' t)) (address : Multiaddr) {i : Nat}
    (hi : plan.fleet.hosts[i]? = some host) :
    eventsAt i (plan.fleetRunAfter remote schedule patience s t address).events =
        eventsAt i (plan.fleetRunAfter remote' schedule' patience s' t address).events ∧
      ∀ os os', (plan.fleetRunAfter remote schedule patience s t address).result = some os →
        (plan.fleetRunAfter remote' schedule' patience s' t address).result = some os' →
        ∃ r, os[i]? = some ⟨host, r⟩ ∧ os'[i]? = some ⟨host, r⟩ := by
  have time : (plan.bootstrapRun remote' patience s' t).time =
      (plan.bootstrapRun remote patience s t).time := boot.time.symm
  rw [fleetRunAfter, fleetRunAfter, time]
  exact fleetRun_alike loc loc' nodup alike boot.left address hi

/-- The calls of the fleet are at the positions of its hosts. -/
theorem fleetRun_placed (address : Multiaddr) :
    Placed plan.fleet.hosts (plan.fleetRun remote schedule patience s t address).events := by
  have home : ∀ task ∈ plan.fleet.tasks plan.settings patience (some address), task.StaysHome :=
    PhasePlan.staysHome_tasks
  have placed := execute_placed remote (.together schedule) home s t
  rw [PhasePlan.map_host_tasks] at placed
  exact placed

/-- **Hosts do not see each other.** Every schedule comes to the same result and
makes the same calls on every host as one host after the other. What one fleet
host does changes neither the calls on another host nor what that host comes
to. -/
theorem deploy_isolated (schedule : Schedule) (patience : Nat) (s : σ) (t : Nat)
    (loc : remote.IsLocal view) (nodup : plan.inventory.hosts.Nodup) :
    ((plan.deploy remote schedule patience s t).result =
        (plan.deployEach remote patience s t).result ∧
      ∀ host, callsOn host (plan.deploy remote schedule patience s t).calls =
        callsOn host (plan.deployEach remote patience s t).calls) ∧
    ∀ (remote' : Remote σ) (schedule' : Schedule) (s' : σ) (g : String), g ∈ plan.fleet.hosts →
      remote'.IsLocal view →
      (∀ host, host ≠ g → remote.AlikeOn view host remote' ∧ view host s = view host s') →
      ∀ host, host ≠ g →
        callsOn host (plan.deploy remote schedule patience s t).calls =
            callsOn host (plan.deploy remote' schedule' patience s' t).calls ∧
          ∀ os os', plan.fleetOutcomes? remote schedule patience s t = some os →
            plan.fleetOutcomes? remote' schedule' patience s' t = some os' →
            ∀ i : Nat, plan.fleet.hosts[i]? = some host →
              ∃ r, os[i]? = some ⟨host, r⟩ ∧ os'[i]? = some ⟨host, r⟩ := by
  have nodup' : (plan.bootstrap.hosts ++ plan.fleet.hosts).Nodup := nodup
  have fleet := (List.nodup_append.1 nodup').2.1
  refine ⟨deploy_eq_each schedule loc fleet,
    fun remote' schedule' s' g hg loc' same host hhost => ?_⟩
  have outside : g ∉ plan.bootstrap.hosts :=
    fun hb => (List.nodup_append.1 nodup').2.2 g hb g hg rfl
  have boot : (plan.deployBootstrap remote patience s t).Alike view host
      (plan.deployBootstrap remote' patience s' t) :=
    deployBootstrap_alike loc loc' outside (fun host h => (same host h).1)
      (fun host h => (same host h).2) hhost
  have rest := @fleetRunAfter_alike _ _ plan remote remote' schedule schedule' patience s s' t view
    loc loc' fleet host (same host hhost).1 boot
  rw [deploy, deploy, Run.andThen, Run.andThen, fleetOutcomes?, fleetOutcomes?, ← boot.result,
    ← boot.events]
  split
  · rename_i r hr
    rw [hr]
    cases r with
    | error f => exact ⟨rfl, fun os os' h => by cases h⟩
    | ok b =>
      refine ⟨?_, fun os os' hos hos' i hi => (rest b.address hi).2 os os' hos hos'⟩
      dsimp only
      rw [callsOn_after, callsOn_after]
      congr 1
      exact Placed.callsOn_congr (fleetRun_placed b.address) (fleetRun_placed b.address) fleet
        fun i hi => (rest b.address hi).1
  · rename_i hr
    rw [hr]
    exact ⟨rfl, fun os os' h => by cases h⟩

/-- Crowding one host of the small plan changes nothing on the others. -/
theorem deploy_isolated_small :
    (Script.remote Script.small).IsLocal Script.memory? ∧ small.inventory.hosts.Nodup ∧
    (Script.remote Script.smallCrowded).IsLocal Script.memory? ∧
    (∀ host, host ≠ "c" → (Script.remote Script.small).AlikeOn Script.memory? host
      (Script.remote Script.smallCrowded)) ∧
    (small.deploy (Script.remote Script.small) .earliest 1 [] 0).result =
      (small.deployEach (Script.remote Script.small) 1 [] 0).result ∧
    ∃ os os' r, small.fleetOutcomes? (Script.remote Script.small) .earliest 1 [] 0 = some os ∧
      small.fleetOutcomes? (Script.remote Script.smallCrowded) .oneByOne 1 [] 0 = some os' ∧
      os[0]? = some ⟨"b", r⟩ ∧ os'[0]? = some ⟨"b", r⟩ := by
  have alike : ∀ host, host ≠ "c" → (Script.remote Script.small).AlikeOn Script.memory? host
      (Script.remote Script.smallCrowded) := by
    intro host hhost
    refine Script.remote_alikeOn ?_
    rw [Script.smallCrowded, List.find?_append]
    have other : ("c" == host) = false := beq_eq_false_iff_ne.2 hhost.symm
    simp only [Script.readyHost, List.find?_cons, other, List.find?_nil, Option.or_none]
  have loc := Script.remote_isLocal Script.small
  have loc' := Script.remote_isLocal Script.smallCrowded
  have nodup : small.inventory.hosts.Nodup := by decide
  have fleet : small.fleet.hosts.Nodup := (List.nodup_append.1 nodup).2.1
  obtain ⟨os, hos⟩ : ∃ os,
      small.fleetOutcomes? (Script.remote Script.small) .earliest 1 [] 0 = some os := by
    rw [fleetOutcomes?_eq_each loc fleet]
    exact Option.isSome_iff_exists.1 (by decide +kernel)
  obtain ⟨os', hos'⟩ : ∃ os',
      small.fleetOutcomes? (Script.remote Script.smallCrowded) .oneByOne 1 [] 0 = some os' := by
    rw [fleetOutcomes?_eq_each loc' fleet]
    exact Option.isSome_iff_exists.1 (by decide +kernel)
  obtain ⟨⟨result, -⟩, isolated⟩ := deploy_isolated .earliest 1 [] 0 loc nodup
  obtain ⟨-, outcome⟩ := isolated (Script.remote Script.smallCrowded) .oneByOne [] "c"
    (by decide) loc' (fun host h => ⟨alike host h, rfl⟩) "b" (by decide)
  obtain ⟨r, ho, ho'⟩ := outcome os os' hos hos' 0 rfl
  exact ⟨loc, nodup, loc', alike, result, os, os', r, hos, hos', ho, ho'⟩

end DeploymentPlan
end Rollout
