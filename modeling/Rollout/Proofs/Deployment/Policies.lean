/-
# Policies

Two policies decide what a run makes of its hosts. No host sees them, because
each is asked only when hosts have come to their end:

| policy | is asked |
| --- | --- |
| for a node without an identity | after the bootstrap phase, and of every fleet host after the fleet |
| for a fleet host that fails | after the fleet |

So runs under different policies go through the same events, up to where one of
them is over (`DeploymentPlan.deploy_under_of_passed`), and the schedule makes no
difference where hosts do not see each other (`DeploymentPlan.deploy_schedule`).
-/

import Rollout.Proofs.Deployment.Accounting

namespace Rollout

variable {σ ν : Type}

/-- The settings under these policies. -/
def Settings.under (settings : Settings) (fleet : FleetPolicy) (identity : IdentityPolicy) :
    Settings :=
  { settings with fleetFailure := fleet, missingIdentity := identity }

@[simp] theorem Settings.fleetFailure_under (settings : Settings) (fleet : FleetPolicy)
    (identity : IdentityPolicy) : (settings.under fleet identity).fleetFailure = fleet := rfl

@[simp] theorem Settings.missingIdentity_under (settings : Settings) (fleet : FleetPolicy)
    (identity : IdentityPolicy) : (settings.under fleet identity).missingIdentity = identity := rfl

/-- The hosts of a phase do not see the policies. -/
theorem PhasePlan.tasks_under {phase : PhasePlan} {settings : Settings} {patience : Nat}
    {bootstrap : Option Multiaddr} (fleet : FleetPolicy) (identity : IdentityPolicy) :
    phase.tasks (settings.under fleet identity) patience bootstrap =
      phase.tasks settings patience bootstrap := by
  refine List.ext_getElem? fun i => ?_
  rw [getElem?_tasks, getElem?_tasks]
  rfl

/-! ### The fold over outcomes -/

section

variable {settings : Settings} {os : List (Outcome Failure HostNodes)} {f : Failure}

/-- **The first fleet host that has not succeeded** is the one a run aborts for. -/
theorem fleetNodes_eq_error (h : fleetNodes settings os = .error f) :
    settings.fleetFailure = .abort ∧ ∃ before o after g, os = before ++ o :: after ∧
      before.filterMap (failureOf? settings.missingIdentity) = [] ∧
      acceptedNodes settings.missingIdentity o = .error g ∧
      f = g.within (.phaseHost .fleet o.host) := by
  induction os with
  | nil => cases h
  | cons o os ih =>
    rw [fleetNodes] at h
    split at h
    · rename_i nodes accepted
      split at h
      · rename_i f' hrest
        obtain rfl := Except.error.inj h
        obtain ⟨abort, before, p, after, g, rfl, clean, hp, rfl⟩ := ih hrest
        refine ⟨abort, o :: before, p, after, g, rfl, ?_, hp, rfl⟩
        rw [List.filterMap_cons_none (by rw [failureOf?, accepted]), clean]
      · cases h
    · rename_i g refused abort
      obtain rfl := Except.error.inj h
      exact ⟨abort, [], o, os, g, rfl, rfl, refused, rfl⟩
    · rename_i g refused report
      -- A failure of the rest would be one of a run that aborts.
      split at h
      · rename_i f' hrest
        have abort := (ih (hrest.trans h)).1
        rw [report] at abort
        cases abort
      · cases h

/-- Where failures are reported the fleet always comes to nodes and failures. -/
theorem fleetNodes_report (settings : Settings) (identity : IdentityPolicy)
    (os : List (Outcome Failure HostNodes)) :
    fleetNodes (settings.under .report identity) os =
      .ok (os.flatMap (nodesOf identity), os.filterMap (failureOf? identity)) := by
  cases h : fleetNodes (settings.under .report identity) os with
  | error f => cases (fleetNodes_eq_error h).1
  | ok found =>
    obtain ⟨nodes, failures⟩ := found
    obtain ⟨rfl, rfl, -⟩ := fleetNodes_eq_ok h
    rfl

end

namespace DeploymentPlan

/-- The plan under these policies. -/
def under (plan : DeploymentPlan) (fleet : FleetPolicy) (identity : IdentityPolicy) :
    DeploymentPlan :=
  { plan with settings := plan.settings.under fleet identity }

variable {plan : DeploymentPlan} {remote : Remote σ} {schedule schedule' : Schedule}
  {patience : Nat} {s : σ} {t : Nat} {fleet : FleetPolicy} {identity : IdentityPolicy}
  {os : List (Outcome Failure HostNodes)} {f : Failure} {b : BootstrapNodes}

/-- The policies make no difference to the calls of the bootstrap phase. -/
theorem bootstrapRun_under (fleet : FleetPolicy) (identity : IdentityPolicy) :
    (plan.under fleet identity).bootstrapRun remote patience s t =
      plan.bootstrapRun remote patience s t :=
  congrArg (executeInOrder remote 0 · s t) (PhasePlan.tasks_under fleet identity)

/-- The policies make no difference to the calls of the fleet. -/
theorem fleetRunAfter_under (address : Multiaddr) :
    (plan.under fleet identity).fleetRunAfter remote schedule patience s t address =
      plan.fleetRunAfter remote schedule patience s t address := by
  have tasks : (plan.under fleet identity).fleet.tasks (plan.under fleet identity).settings
      patience (some address) = plan.fleet.tasks plan.settings patience (some address) :=
    PhasePlan.tasks_under fleet identity
  rw [fleetRunAfter, fleetRunAfter, fleetRun, fleetRun, bootstrapRun_under, tasks]

/-- Where the bootstrap phase is cut off, so is the deployment, under all policies. -/
theorem deploy_under_of_cut (h : (plan.bootstrapRun remote patience s t).result = none) :
    (plan.under fleet identity).deploy remote schedule patience s t =
      ⟨none, (plan.bootstrapRun remote patience s t).events,
        (plan.bootstrapRun remote patience s t).state,
        (plan.bootstrapRun remote patience s t).time⟩ := by
  rw [← bootstrapRun_under fleet identity] at h ⊢
  exact deploy_of_cut schedule h

/-- Where the outcomes of the bootstrap phase are refused, the deployment ends with it. -/
theorem deploy_under_of_refused (h : (plan.bootstrapRun remote patience s t).result = some os)
    (hf : BootstrapNodes.ofOutcomes identity os = .error f) :
    (plan.under fleet identity).deploy remote schedule patience s t =
      ⟨some (.error f), (plan.bootstrapRun remote patience s t).events,
        (plan.bootstrapRun remote patience s t).state,
        (plan.bootstrapRun remote patience s t).time⟩ := by
  rw [← bootstrapRun_under fleet identity] at h ⊢
  exact deploy_of_refused schedule h hf

/-- **Under any policies** that accept the bootstrap phase the fleet goes through
the same; only what its outcomes make is up to them. -/
theorem deploy_under_of_passed (h : (plan.bootstrapRun remote patience s t).result = some os)
    (hb : BootstrapNodes.ofOutcomes identity os = .ok b) :
    (plan.under fleet identity).deploy remote schedule patience s t =
      ((plan.fleetRunAfter remote schedule patience s t b.address).map
        (NodeDirectory.ofOutcomes (plan.settings.under fleet identity) b)).after
          (plan.bootstrapRun remote patience s t).events := by
  rw [← bootstrapRun_under fleet identity] at h ⊢
  rw [deploy_of_passed schedule h hb, fleetRunAfter_under]
  rfl

/-- What a run under some policies has gone through when it comes to a directory. -/
theorem deploy_under_eq_ok {d : NodeDirectory}
    (h : ((plan.under fleet identity).deploy remote schedule patience s t).result = some (.ok d)) :
    ∃ bs b os, (plan.bootstrapRun remote patience s t).result = some bs ∧
      BootstrapNodes.ofOutcomes identity bs = .ok b ∧
      (plan.fleetRunAfter remote schedule patience s t b.address).result = some os ∧
      d.bootstrap = b.first ∧ d.special = b.others ∧
      d.fleet = os.flatMap (nodesOf identity) ∧
      d.failures = os.filterMap (failureOf? identity) := by
  obtain ⟨bs, b, os, hbs, hb, hos, -, rest⟩ := deploy_eq_ok h
  rw [bootstrapRun_under] at hbs
  rw [fleetRunAfter_under] at hos
  exact ⟨bs, b, os, hbs, hb, hos, rest⟩

/-! ### The hosts of the two phases -/

/-- The calls of the bootstrap phase are at the positions of its hosts. -/
theorem bootstrapRun_placed (plan : DeploymentPlan) (remote : Remote σ) (patience : Nat) (s : σ)
    (t : Nat) : Placed plan.bootstrap.hosts (plan.bootstrapRun remote patience s t).events := by
  have home : ∀ task ∈ plan.bootstrap.tasks plan.settings patience none, task.StaysHome :=
    PhasePlan.staysHome_tasks
  have placed := execute_placed remote .inOrder home s t
  rw [PhasePlan.map_host_tasks] at placed
  exact placed

/-- No fleet host is listed twice in a plan that lists no host twice. -/
theorem nodup_fleet (nodup : plan.inventory.hosts.Nodup) : plan.fleet.hosts.Nodup := by
  have hosts : (plan.bootstrap.hosts ++ plan.fleet.hosts).Nodup := nodup
  exact (List.nodup_append.1 hosts).2.1

/-- The bootstrap phase makes no call on a fleet host. -/
theorem callsOn_bootstrapRun (remote : Remote σ) (patience : Nat) (s : σ) (t : Nat)
    (nodup : plan.inventory.hosts.Nodup) {host : String} (h : host ∈ plan.fleet.hosts) :
    callsOn host (plan.bootstrapRun remote patience s t).calls = [] := by
  have hosts : (plan.bootstrap.hosts ++ plan.fleet.hosts).Nodup := nodup
  obtain ⟨-, -, disjoint⟩ := List.nodup_append.1 hosts
  exact (bootstrapRun_placed plan remote patience s t).callsOn_eq_nil
    fun hmem => disjoint host hmem host h rfl

/-! ### Schedules -/

/-- The two runs make the same calls on every host. -/
def SameCalls {β γ : Type} (r : Run σ β) (r' : Run σ γ) : Prop :=
  ∀ host, callsOn host r.calls = callsOn host r'.calls

/-- **The schedule makes no difference** to a run where hosts do not see each
other. -/
theorem deploy_schedule {view : String → σ → ν}
    (same : schedule = schedule' ∨ (remote.IsLocal view ∧ plan.fleet.hosts.Nodup)) :
    (plan.deploy remote schedule patience s t).result =
        (plan.deploy remote schedule' patience s t).result ∧
      SameCalls (plan.deploy remote schedule patience s t)
        (plan.deploy remote schedule' patience s t) := by
  rcases same with rfl | ⟨loc, nodup⟩
  · exact ⟨rfl, fun _ => rfl⟩
  · have each : ∀ schedule, (plan.deploy remote schedule patience s t).result =
          (plan.deployEach remote patience s t).result ∧
        SameCalls (plan.deploy remote schedule patience s t)
          (plan.deployEach remote patience s t) :=
      fun schedule => deploy_eq_each schedule loc nodup
    obtain ⟨result, calls⟩ := each schedule
    obtain ⟨result', calls'⟩ := each schedule'
    exact ⟨result.trans result'.symm, fun host => (calls host).trans (calls' host).symm⟩

/-- What hosts that do not see each other come to is read off the run that
deploys one after the other. -/
theorem exists_directory_of_each {β : Type} {view : String → σ → ν} {f : NodeDirectory → β} {x : β}
    (schedule : Schedule) (loc : remote.IsLocal view) (nodup : plan.fleet.hosts.Nodup)
    (each : ((plan.deployEach remote patience s t).result.bind Except.toOption).map f = some x) :
    ∃ d, (plan.deploy remote schedule patience s t).result = some (.ok d) ∧ f d = x := by
  rw [← (deploy_eq_each schedule loc nodup).1] at each
  obtain ⟨d, hd, hx⟩ := Option.map_eq_some_iff.1 each
  obtain ⟨r, hr, hrd⟩ := Option.bind_eq_some_iff.1 hd
  cases r with
  | error f => cases hrd
  | ok d' =>
    obtain rfl : d' = d := Option.some.inj hrd
    exact ⟨d', hr, hx⟩

end DeploymentPlan
end Rollout
